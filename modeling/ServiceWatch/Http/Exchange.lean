import ServiceWatch.Command.Basic
import ServiceWatch.Endpoint
import ServiceWatch.Http.Response
import ServiceWatch.Text.Quoted

/-!
# Asking an endpoint

To ask an endpoint is to send one request over a connection of its own and to take what comes back
until the connection is closed.  A `Call` is all that the network has to know; what comes of it is
an answer, whatever goes wrong.
-/

namespace ServiceWatch.Http

/-- What is to be done over the network. -/
structure Call where
  authority : List UInt8
  host : List UInt8
  portNumber : Nat
  /-- The request, or why it cannot be written. -/
  message : Except String (List UInt8)

/-- What came of a call. -/
inductive Exchange where
  /-- There was no connection. -/
  | refused (refusal : SystemError)
  | timedOut
  /-- These bytes came back before the connection was closed. -/
  | answered (bytes : List UInt8)
deriving DecidableEq, Repr, Inhabited

/-- Why there is no call for a URL. -/
inductive CallFault where
  | noUrl (text : String) (fault : UrlFault)
  /-- The URL has another scheme than `http`. -/
  | otherScheme (text : String)
deriving DecidableEq, Repr, Inhabited

/-- The reason to give for a fault. -/
def CallFault.message : CallFault → String
  | .noUrl text fault => "invalid URL " ++ Text.quoted text ++ ": " ++ fault.message
  | .otherScheme text => "unsupported URL scheme in " ++ Text.quoted text

/-- The line of a header. -/
def headerLine (name : String) (value : List UInt8) : List UInt8 :=
  bytesOf name ++ bytesOf ": " ++ value ++ [0x0D, 0x0A]

/-- The text of bytes, with U+FFFD for what is no text. -/
def textOf (bytes : List UInt8) : String :=
  String.ofList (Text.Utf8.decodeLossy bytes)

/-- The target to send for the target of a URL. -/
def sentTarget (target : List UInt8) : Except String (List UInt8) :=
  match target with
  | [] => .ok [0x2F]
  | 0x2F :: _ => .ok target
  | _ => .error UrlFault.badFormat.message

/-- The request for a target, with a token or without. -/
def requestText (authority target : List UInt8) (token : Option String) :
    Except String (List UInt8) := do
  let target ← sentTarget target
  let head :=
    bytesOf "GET " ++ target ++ bytesOf " HTTP/1.1" ++ [0x0D, 0x0A] ++
      headerLine "host" authority ++ headerLine "user-agent" (bytesOf "vigil/0.1")
  match token with
  | none => .ok (head ++ [0x0D, 0x0A])
  | some token =>
    let value := bytesOf "Bearer " ++ bytesOf token
    if value.all isValueByte then
      .ok (head ++ headerLine "authorization" value ++ [0x0D, 0x0A])
    else .error "failed to parse header value"

/-- The call that asks the endpoint at a URL, with a token or without. -/
def call (url : String) (token : Option String) : Except CallFault Call :=
  match Url.ofBytes (bytesOf url) with
  | .error fault => .error (.noUrl url fault)
  | .ok parsed =>
    if parsed.scheme = some (bytesOf "http") then
      .ok
        { authority := parsed.authority
          host := parsed.host
          portNumber := parsed.portNumber
          message := requestText parsed.authority parsed.target token }
    else .error (.otherScheme url)

/-- The answer that the bytes of a connection hold. -/
def answerOf (bytes : List UInt8) : Answer :=
  match responseOf bytes with
  | .ok (status, body) => .response (UInt16.ofNat status) (textOf body)
  | .error fault => .unreachable fault.message

/-- The answer that a call gives. -/
def Call.conclude (call : Call) (timeout : Duration) : Exchange → Answer
  | .refused refusal =>
    .unreachable ("connect to " ++ textOf call.authority ++ ": " ++ refusal.message)
  | .timedOut => .unreachable (Command.lateness timeout)
  | .answered bytes =>
    match call.message with
    | .ok _ => answerOf bytes
    | .error reason => .unreachable reason

end ServiceWatch.Http
