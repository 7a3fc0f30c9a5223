/-!
# Plans

A plan is work that may have to ask its surroundings for something and go on with the reply: it is
a result, or a request together with the plan for every reply.  A plan does nothing by itself.
`Plan.run` carries it out with a way to meet each request, be it a model of the surroundings or
the surroundings themselves, so what is said of a plan holds wherever it is run.  Since a plan can
be taken apart request by request, the steps of several plans may also be interleaved.
-/

namespace ServiceWatch

/-- The requests that a plan may make, and what each is replied. -/
structure Interface where
  Request : Type
  Reply : Request → Type

/-- Work that ends in an `α`, with requests on the way. -/
inductive Plan (I : Interface) (α : Type) where
  | done (result : α)
  | ask (request : I.Request) (next : I.Reply request → Plan I α)

namespace Plan

variable {I J : Interface} {α β : Type}

/-- One plan, and then the plan that its result calls for. -/
def andThen : Plan I α → (α → Plan I β) → Plan I β
  | .done result, next => next result
  | .ask request rest, next => .ask request fun reply => (rest reply).andThen next

instance : Monad (Plan I) where
  pure := .done
  bind := andThen

/-- The plan that makes one request and ends with the reply. -/
def request (r : I.Request) : Plan I (I.Reply r) :=
  .ask r .done

/-- Carries out a plan. -/
def run {m : Type → Type} [Monad m] (handle : (r : I.Request) → m (I.Reply r)) :
    Plan I α → m α
  | .done result => pure result
  | .ask request next => do
    let reply ← handle request
    (next reply).run handle

/-- The plan in which every request is met by a plan of its own. -/
def refine (meet : (r : I.Request) → Plan J (I.Reply r)) : Plan I α → Plan J α
  | .done result => .done result
  | .ask request next => (meet request).andThen fun reply => (next reply).refine meet

end Plan

end ServiceWatch
