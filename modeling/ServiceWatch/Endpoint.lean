import ServiceWatch.Text.Blank

/-!
# What an endpoint answered

An endpoint that answers with the status 200 is up; any other status, and no answer at all, is a
failure.  A failure keeps only the beginning of the body that came with the status, so that a
report stays readable whatever an endpoint sends.
-/

namespace ServiceWatch

/-- Why an endpoint does not count as up. -/
inductive EndpointFailure where
  /-- It answered with another status than 200. -/
  | status (code : UInt16) (body : String)
  /-- There was no answer that could be read. -/
  | unreachable (reason : String)
deriving DecidableEq, Repr, Inhabited

namespace EndpointFailure

/-- How many characters of a body are kept. -/
def excerptLength : Nat := 256

/-- The beginning of a body, without the blanks around the body; dots tell that more followed. -/
def excerpt (body : String) : String :=
  let text := (Text.trim body).toList
  if excerptLength < text.length then String.ofList (text.take excerptLength ++ ['.', '.', '.'])
  else String.ofList text

/-- The failure of an answer with this status and body. -/
def ofStatus (code : UInt16) (body : String) : EndpointFailure :=
  .status code (excerpt body)

/-- The failure in a report line. -/
def describe : EndpointFailure → String
  | .status code body => "(" ++ toString code.toNat ++ "): " ++ body
  | .unreachable reason => "(unreachable): " ++ reason

end EndpointFailure

/-- What came of asking an endpoint. -/
inductive Answer where
  | response (status : UInt16) (body : String)
  | unreachable (reason : String)
deriving DecidableEq, Repr, Inhabited

namespace Answer

/-- The body of an answer with the status 200. -/
def body? : Answer → Option String
  | .response status body => if status = 200 then some body else none
  | .unreachable _ => none

/-- Why the answer does not count as a success, if it does not. -/
def failure? : Answer → Option EndpointFailure
  | .response status body => if status = 200 then none else some (.ofStatus status body)
  | .unreachable reason => some (.unreachable reason)

end Answer

end ServiceWatch
