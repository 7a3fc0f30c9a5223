import ServiceWatch.Plan

/-!
# Carrying out a plan where replies are not determined

`Plan.run` needs a reply for every request.  What is said here holds where the surroundings may
choose: a `Behaviour` tells which replies a state of the surroundings allows to a request, and
which state it may be in afterwards.  `Plan.Ends` relates a plan to the endings it may come to.  A
run with determined replies is one of these endings (`ends_run`).

Where the requests of a plan are met by plans, those are its surroundings (`ends_refine_iff`).
Where it matters what was requested, the state has a record of it (`Logged`).  Other notes that the
surroundings take of the requests are made from that record (`ends_noted_iff`), so what a plan
requests of those who meet its requests is known from what it requests itself.
-/

namespace ServiceWatch.Plan

variable {I J : Interface} {σ α β : Type}

/-- What a state of the surroundings allows: the replies to a request, each with the state that it
leaves. -/
abbrev Behaviour (I : Interface) (σ : Type) : Type :=
  σ → (request : I.Request) → I.Reply request → σ → Prop

/-- The plan, carried out from the state `before`, may end with `ending` in the state `after`. -/
def Ends (allows : Behaviour I σ) : Plan I α → σ → α → σ → Prop
  | .done result, before, ending, after => ending = result ∧ after = before
  | .ask request next, before, ending, after =>
    ∃ reply between, allows before request reply between ∧
      (next reply).Ends allows between ending after

variable {allows : Behaviour I σ}

@[simp] theorem ends_ask {request : I.Request} {next : I.Reply request → Plan I α} {ending : α}
    {before after : σ} :
    (Plan.ask request next).Ends allows before ending after ↔
      ∃ reply between, allows before request reply between ∧
        (next reply).Ends allows between ending after :=
  Iff.rfl

theorem ends_andThen {plan : Plan I α} {next : α → Plan I β} {before after : σ} {ending : β} :
    (plan.andThen next).Ends allows before ending after ↔
      ∃ result between, plan.Ends allows before result between ∧
        (next result).Ends allows between ending after := by
  induction plan generalizing before with
  | done result =>
      constructor
      · intro hnext
        exact ⟨result, before, ⟨rfl, rfl⟩, hnext⟩
      · rintro ⟨_, _, ⟨rfl, rfl⟩, hnext⟩
        exact hnext
  | ask request rest ih =>
      simp only [andThen, ends_ask, ih]
      constructor
      · rintro ⟨reply, first, hreply, result, between, hrest, hnext⟩
        exact ⟨result, between, ⟨reply, first, hreply, hrest⟩, hnext⟩
      · rintro ⟨result, between, ⟨reply, first, hreply, hrest⟩, hnext⟩
        exact ⟨reply, first, hreply, result, between, hrest, hnext⟩

theorem ends_bind {plan : Plan I α} {next : α → Plan I β} {before after : σ} {ending : β} :
    (plan >>= next).Ends allows before ending after ↔
      ∃ result between, plan.Ends allows before result between ∧
        (next result).Ends allows between ending after :=
  ends_andThen

theorem ends_pure {result ending : α} {before after : σ} :
    (pure result : Plan I α).Ends allows before ending after ↔ ending = result ∧ after = before :=
  Iff.rfl

theorem ends_request {request : I.Request} {reply : I.Reply request} {before after : σ} :
    (Plan.request request).Ends allows before reply after ↔ allows before request reply after := by
  unfold Plan.request
  constructor
  · rintro ⟨_, _, hreply, rfl, rfl⟩
    exact hreply
  · intro hreply
    exact ⟨reply, after, hreply, rfl, rfl⟩

/-- What is allowed to requests that are met by plans of their own: what may come of those. -/
def Through (meet : (request : I.Request) → Plan J (I.Reply request)) (outer : Behaviour J σ) :
    Behaviour I σ :=
  fun before request reply after => (meet request).Ends outer before reply after

/-- A plan whose requests are met by plans ends as it does where these are its surroundings. -/
theorem ends_refine_iff {meet : (request : I.Request) → Plan J (I.Reply request)}
    {outer : Behaviour J σ} {plan : Plan I α} {before after : σ} {ending : α} :
    (plan.refine meet).Ends outer before ending after ↔
      plan.Ends (Through meet outer) before ending after := by
  induction plan generalizing before with
  | done result => exact Iff.rfl
  | ask request rest ih =>
      rw [refine, ends_andThen, ends_ask]
      exact exists_congr fun reply => exists_congr fun between => and_congr_right' (ih reply)

/-- Surroundings that do to what they embed as others do let a plan end as the others do.  `embed`
adds to a state what the plan does not see of it. -/
theorem ends_embed_iff {τ : Type} {outer : Behaviour I τ} (embed : σ → τ)
    (hembed : ∀ before request reply after, outer (embed before) request reply after ↔
      ∃ next, after = embed next ∧ allows before request reply next)
    {plan : Plan I α} {before : σ} {ending : α} {after : τ} :
    plan.Ends outer (embed before) ending after ↔
      ∃ next, after = embed next ∧ plan.Ends allows before ending next := by
  induction plan generalizing before with
  | done result =>
      constructor
      · rintro ⟨rfl, rfl⟩
        exact ⟨before, rfl, rfl, rfl⟩
      · rintro ⟨next, rfl, rfl, rfl⟩
        exact ⟨rfl, rfl⟩
  | ask request rest ih =>
      simp only [ends_ask, hembed]
      -- the state behind the first request is one that `embed` gives, so the rest starts from such
      constructor
      · rintro ⟨reply, _, ⟨between, rfl, hreply⟩, hrest⟩
        obtain ⟨next, rfl, hends⟩ := (ih reply).mp hrest
        exact ⟨next, rfl, reply, between, hreply, hends⟩
      · rintro ⟨next, rfl, reply, between, hreply, hends⟩
        exact ⟨reply, embed between, ⟨between, rfl, hreply⟩, (ih reply).mpr ⟨next, rfl, hends⟩⟩

/-- Whatever no reply can break holds at the end if it holds at the start. -/
theorem Ends.preserves {invariant : σ → Prop}
    (hstep : ∀ before request reply after, invariant before →
      allows before request reply after → invariant after)
    {plan : Plan I α} {before after : σ} {ending : α}
    (hends : plan.Ends allows before ending after) (hbefore : invariant before) :
    invariant after := by
  induction plan generalizing before with
  | done result =>
      obtain ⟨-, rfl⟩ := hends
      exact hbefore
  | ask request next ih =>
      obtain ⟨reply, between, hreply, hrest⟩ := hends
      exact ih reply hrest (hstep before request reply between hbefore hreply)

/-- What may come of a plan may come of it in another view of the surroundings. -/
theorem Ends.map {τ : Type} {other : Behaviour I τ} (view : σ → τ)
    (hview : ∀ before request reply after, allows before request reply after →
      other (view before) request reply (view after))
    {plan : Plan I α} {before after : σ} {ending : α}
    (hends : plan.Ends allows before ending after) :
    plan.Ends other (view before) ending (view after) := by
  induction plan generalizing before with
  | done result => exact ⟨hends.1, congrArg view hends.2⟩
  | ask request next ih =>
      obtain ⟨reply, between, hreply, hrest⟩ := hends
      exact ⟨reply, view between, hview _ _ _ _ hreply, ih reply hrest⟩

/-- What may come of a plan may come of it where more is allowed. -/
theorem Ends.mono {more : Behaviour I σ}
    (hmore : ∀ before request reply after, allows before request reply after →
      more before request reply after)
    {plan : Plan I α} {before after : σ} {ending : α}
    (hends : plan.Ends allows before ending after) : plan.Ends more before ending after :=
  hends.map id hmore

/-- A state allows one reply to a request at most, and that leaves one state. -/
def IsDetermined (allows : Behaviour I σ) : Prop :=
  ∀ before request first second firstAfter secondAfter,
    allows before request first firstAfter → allows before request second secondAfter →
      second = first ∧ secondAfter = firstAfter

/-- Where the replies are determined, so is what a plan comes to. -/
theorem Ends.unique (hdetermined : IsDetermined allows) {plan : Plan I α}
    {before after other : σ} {ending different : α}
    (hends : plan.Ends allows before ending after)
    (hother : plan.Ends allows before different other) :
    different = ending ∧ other = after := by
  induction plan generalizing before with
  | done result => exact ⟨hother.1.trans hends.1.symm, hother.2.trans hends.2.symm⟩
  | ask request next ih =>
      obtain ⟨reply, between, hreply, hrest⟩ := hends
      obtain ⟨_, _, hreply', hrest'⟩ := hother
      obtain ⟨rfl, rfl⟩ := hdetermined _ _ _ _ _ _ hreply hreply'
      exact ih _ hrest hrest'

/-- A plan comes to an ending wherever every request has a reply. -/
theorem exists_ends (htotal : ∀ before request, ∃ reply after, allows before request reply after)
    (plan : Plan I α) (before : σ) : ∃ ending after, plan.Ends allows before ending after := by
  induction plan generalizing before with
  | done result => exact ⟨result, before, rfl, rfl⟩
  | ask request next ih =>
      obtain ⟨reply, between, hreply⟩ := htotal before request
      obtain ⟨ending, after, hends⟩ := ih reply between
      exact ⟨ending, after, reply, between, hreply, hends⟩

/-- Where the reply to every request is determined, so is the ending that is reached. -/
theorem ends_run {handle : (request : I.Request) → StateM σ (I.Reply request)}
    (hallows : ∀ before request, allows before request (handle request before).1
      (handle request before).2)
    (plan : Plan I α) (before : σ) :
    plan.Ends allows before (plan.run handle before).1 (plan.run handle before).2 := by
  induction plan generalizing before with
  | done result => exact ⟨rfl, rfl⟩
  | ask request next ih =>
      exact ⟨(handle request before).1, (handle request before).2, hallows before request,
        ih (handle request before).1 (handle request before).2⟩

/-! ### A record of the requests -/

/-- What is allowed, in surroundings that also note every request. -/
def Logged (allows : Behaviour I σ) : Behaviour I (σ × List I.Request) :=
  fun before request reply after =>
    allows before.1 request reply after.1 ∧ after.2 = before.2 ++ [request]

theorem ends_of_logged {plan : Plan I α} {before after : σ × List I.Request} {ending : α}
    (hends : plan.Ends (Logged allows) before ending after) :
    plan.Ends allows before.1 ending after.1 :=
  hends.map Prod.fst fun _ _ _ _ hreply => hreply.1

/-- A plan without a request leaves nothing in the record. -/
theorem ends_logged_done_iff {result ending : α} {before after : σ × List I.Request} :
    (Plan.done result).Ends (Logged allows) before ending after ↔
      (Plan.done result).Ends allows before.1 ending after.1 ∧ after.2 = before.2 :=
  (and_congr_right' Prod.ext_iff).trans and_assoc.symm

/-- A plan of one request is recorded as this request. -/
theorem ends_logged_ask_iff {request : I.Request} {make : I.Reply request → α}
    {before after : σ × List I.Request} {ending : α} :
    (Plan.ask request fun reply => .done (make reply)).Ends (Logged allows) before ending after ↔
      (Plan.ask request fun reply => .done (make reply)).Ends allows before.1 ending after.1 ∧
        after.2 = before.2 ++ [request] := by
  constructor
  · rintro ⟨reply, _, ⟨hreply, hlog⟩, rfl, rfl⟩
    exact ⟨⟨reply, after.1, hreply, rfl, rfl⟩, hlog⟩
  · rintro ⟨⟨reply, _, hreply, rfl, rfl⟩, hlog⟩
    exact ⟨reply, after, ⟨hreply, hlog⟩, rfl, rfl⟩

/-- What is allowed, in surroundings that also take some notes of every request. -/
def Noted {T : Type} (note : I.Request → List T) (allows : Behaviour I σ) :
    Behaviour I (σ × List T) :=
  fun before request reply after =>
    allows before.1 request reply after.1 ∧ after.2 = before.2 ++ note request

/-- What is requested does not depend on the notes that are taken of it. -/
theorem exists_requests_of_noted {T : Type} {note : I.Request → List T} {plan : Plan I α}
    {before after : σ} {earlier later : List T} {ending : α}
    (hends : plan.Ends (Noted note allows) (before, earlier) ending (after, later)) :
    ∃ requests : List I.Request, later = earlier ++ requests.flatMap note ∧
      ∀ {S : Type} (other : I.Request → List S) (others : List S),
        plan.Ends (Noted other allows) (before, others) ending
          (after, others ++ requests.flatMap other) := by
  induction plan generalizing before earlier with
  | done result =>
      obtain ⟨rfl, hstate⟩ := hends
      obtain ⟨rfl, rfl⟩ := Prod.mk.inj hstate
      exact ⟨[], (List.append_nil _).symm, fun other others => ⟨rfl, by simp⟩⟩
  | ask request rest ih =>
      obtain ⟨reply, ⟨between, noted⟩, ⟨hreply, rfl⟩, hrest⟩ := hends
      obtain ⟨requests, rfl, hall⟩ := ih reply hrest
      refine ⟨request :: requests, by simp, fun other others => ?_⟩
      have hothers := hall other (others ++ other request)
      rw [List.append_assoc, ← List.flatMap_cons] at hothers
      exact ⟨reply, (between, others ++ other request), ⟨hreply, rfl⟩, hothers⟩

/-- Notes are those of the requests, one request behind the other. -/
theorem ends_noted_iff {T : Type} {note : I.Request → List T} {plan : Plan I α}
    {before after : σ} {earlier later : List T} {ending : α} :
    plan.Ends (Noted note allows) (before, earlier) ending (after, later) ↔
      ∃ requests, plan.Ends (Logged allows) (before, []) ending (after, requests) ∧
        later = earlier ++ requests.flatMap note := by
  constructor
  · intro hends
    obtain ⟨requests, hlater, hall⟩ := exists_requests_of_noted hends
    have hlogged := hall (fun request => [request]) []
    rw [List.nil_append, List.flatMap_singleton'] at hlogged
    exact ⟨requests, hlogged, hlater⟩
  · rintro ⟨requests, hends, rfl⟩
    -- a record of the requests is a note of each of them
    have hnoted : plan.Ends (Noted (fun request => [request]) allows) (before, []) ending
        (after, requests) := hends
    obtain ⟨others, hrequests, hall⟩ := exists_requests_of_noted hnoted
    rw [List.nil_append, List.flatMap_singleton'] at hrequests
    rw [hrequests]
    exact hall note earlier

/-- What a plan requests of those who meet its requests, where `note` tells what each of them is
met with. -/
theorem ends_refine_logged_iff {meet : (request : I.Request) → Plan J (I.Reply request)}
    {note : I.Request → List J.Request} {outer : Behaviour J σ}
    (hnote : ∀ before request reply after,
      (meet request).Ends (Logged outer) before reply after ↔
        (meet request).Ends outer before.1 reply after.1 ∧ after.2 = before.2 ++ note request)
    {plan : Plan I α} {before after : σ} {earlier later : List J.Request} {ending : α} :
    (plan.refine meet).Ends (Logged outer) (before, earlier) ending (after, later) ↔
      ∃ requests, plan.Ends (Logged (Through meet outer)) (before, []) ending (after, requests) ∧
        later = earlier ++ requests.flatMap note := by
  have hnoted : Through meet (Logged outer) = Noted note (Through meet outer) := by
    funext before request reply after
    exact propext (hnote before request reply after)
  rw [ends_refine_iff, hnoted, ends_noted_iff]

/-- Meets every request and notes it. -/
def logging (handle : (request : I.Request) → StateM σ (I.Reply request))
    (request : I.Request) : StateM (σ × List I.Request) (I.Reply request) :=
  fun before =>
    let (reply, after) := handle request before.1
    (reply, after, before.2 ++ [request])

theorem logged_logging {handle : (request : I.Request) → StateM σ (I.Reply request)}
    (hallows : ∀ before request, allows before request (handle request before).1
      (handle request before).2)
    (before : σ × List I.Request) (request : I.Request) :
    Logged allows before request (logging handle request before).1
      (logging handle request before).2 :=
  ⟨hallows before.1 request, rfl⟩

end ServiceWatch.Plan
