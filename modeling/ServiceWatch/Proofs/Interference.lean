import Mathlib.Data.List.Induction
import Mathlib.Data.List.Nodup
import ServiceWatch.Proofs.Plan

/-!
# Plans that are carried out side by side

Where several workers act on the same surroundings, anything may happen between two requests of one
of them.  What is shown of a plan is then shown under a `Contract`: between its requests the state
changes as `rely` says and in no other way, and every request is one that `asks` permits in the
state in which it is made (`Plan.Keeps`).  A plan that is alone keeps such a contract with nothing
to rely on but that the state stays as it is, and so what holds at its end is what holds wherever
`Plan.Ends` leads (`Keeps.ends`).  It comes to the same ending from two states which cannot be told
apart by what it may request (`Keeps.mirrored`).

`Overlaps` is any number of workers, one request of one of them at a time.  The worker is chosen
anew each time, and one that is never chosen again has stopped for good.  If what one worker may
request changes the state only as all others rely on, every worker keeps its contract at every
moment (`Overlaps.keeps`), and an invariant need only be kept by requests that a contract permits
(`Overlaps.invariant`).
-/

namespace ServiceWatch.Plan

variable {I J : Interface} {σ α β : Type}

/-- What a plan relies on between its requests, and what it may request in which state. -/
structure Contract (I : Interface) (σ : Type) where
  rely : σ → σ → Prop
  asks : σ → I.Request → Prop
  refl : ∀ state, rely state state
  trans : ∀ first second third, rely first second → rely second third → rely first third

/-! ### One plan -/

/-- Carried out from `before`, the plan requests what the contract permits as long as the state
changes as the contract says, and then ends as `post` says. -/
def Keeps (allows : Behaviour I σ) (contract : Contract I σ) :
    Plan I α → σ → (α → σ → Prop) → Prop
  | .done result, before, post => ∀ after, contract.rely before after → post result after
  | .ask request next, before, post =>
    ∀ between, contract.rely before between →
      contract.asks between request ∧ ∀ reply after, allows between request reply after →
        (next reply).Keeps allows contract after post

variable {allows : Behaviour I σ} {contract : Contract I σ} {plan : Plan I α} {before after : σ}
  {post : α → σ → Prop}

/-- What others do makes no difference to what a plan keeps. -/
theorem Keeps.of_rely (hkeeps : plan.Keeps allows contract before post)
    (hrely : contract.rely before after) : plan.Keeps allows contract after post := by
  cases plan with
  | done result =>
      intro last hlast
      exact hkeeps last (contract.trans _ _ _ hrely hlast)
  | ask request next =>
      intro between hbetween
      exact hkeeps between (contract.trans _ _ _ hrely hbetween)

theorem Keeps.andThen {next : α → Plan I β} {last : β → σ → Prop}
    (hplan : plan.Keeps allows contract before post)
    (hnext : ∀ result state, post result state → (next result).Keeps allows contract state last) :
    (plan.andThen next).Keeps allows contract before last := by
  induction plan generalizing before with
  | done result => exact hnext result before (hplan before (contract.refl before))
  | ask request rest ih =>
      intro between hbetween
      obtain ⟨hasks, hrest⟩ := hplan between hbetween
      exact ⟨hasks, fun reply after hreply => ih reply (hrest reply after hreply)⟩

/-- Where every request is met by a plan that keeps the contract, the refined plan keeps it. -/
theorem keeps_refine {allows : Behaviour J σ} {contract : Contract J σ}
    {meet : (request : I.Request) → Plan J (I.Reply request)}
    (hmeet : ∀ request state, (meet request).Keeps allows contract state fun _ _ => True)
    (plan : Plan I α) (before : σ) :
    (plan.refine meet).Keeps allows contract before fun _ _ => True := by
  induction plan generalizing before with
  | done result => exact fun _ _ => trivial
  | ask request next ih =>
      exact (hmeet request before).andThen fun reply state _ => ih reply state

/-- A plan that is alone ends as it does among others that do nothing. -/
theorem Keeps.ends {ending : α} (hkeeps : plan.Keeps allows contract before post)
    (hends : plan.Ends allows before ending after) : post ending after := by
  induction plan generalizing before with
  | done result =>
      obtain ⟨rfl, rfl⟩ := hends
      exact hkeeps after (contract.refl after)
  | ask request next ih =>
      obtain ⟨reply, between, hreply, hrest⟩ := hends
      exact ih reply ((hkeeps before (contract.refl before)).2 reply between hreply) hrest

/-- A plan keeps a contract where fewer replies are allowed. -/
theorem Keeps.mono {fewer : Behaviour I σ} (hkeeps : plan.Keeps allows contract before post)
    (hfewer : ∀ state request reply after, fewer state request reply after →
      allows state request reply after) : plan.Keeps fewer contract before post := by
  induction plan generalizing before with
  | done result => exact hkeeps
  | ask request next ih =>
      intro between hbetween
      obtain ⟨hasks, hnext⟩ := hkeeps between hbetween
      exact ⟨hasks, fun reply after hreply => ih reply (hnext reply after (hfewer _ _ _ _ hreply))⟩

/-- Where every request that a contract permits is replied alike in two related states, a plan that
is alone comes to the same ending from both. -/
theorem Keeps.mirrored {τ : Type} {other : Behaviour I τ} {related : σ → τ → Prop} {ending : α}
    {start : τ} (hkeeps : plan.Keeps allows contract before post)
    (hstep : ∀ first second request reply after, related first second →
      contract.asks first request → allows first request reply after →
        ∃ last, other second request reply last ∧ related after last)
    (hrelated : related before start) (hends : plan.Ends allows before ending after) :
    ∃ last, plan.Ends other start ending last ∧ related after last := by
  induction plan generalizing before start with
  | done result =>
      obtain ⟨rfl, rfl⟩ := hends
      exact ⟨start, ⟨rfl, rfl⟩, hrelated⟩
  | ask request next ih =>
      obtain ⟨reply, between, hreply, hrest⟩ := hends
      obtain ⟨hasks, hnext⟩ := hkeeps before (contract.refl before)
      obtain ⟨middle, hmiddle, hrelated'⟩ := hstep _ _ _ _ _ hrelated hasks hreply
      obtain ⟨last, hlast, hafter⟩ := ih reply (hnext reply between hreply) hrelated' hrest
      exact ⟨last, ⟨reply, middle, hmiddle, hlast⟩, hafter⟩

/-! ### Several workers -/

/-- Someone who carries out a plan, under a number of its own. -/
structure Worker (I : Interface) where
  number : ℕ
  plan : Plan I Unit

/-- A request that a worker made, and the reply to it. -/
structure Move (I : Interface) where
  number : ℕ
  request : I.Request
  reply : I.Reply request

/-- The workers, carried out from the state `before`, may have made these moves and have these
plans left in this state. -/
inductive Overlaps (allows : Behaviour I σ) (start : List (Worker I)) (before : σ) :
    List (Move I) → List (Worker I) → σ → Prop
  | start : Overlaps allows start before [] start before
  | step {moves : List (Move I)} {workers : List (Worker I)} {state after : σ} {index number : ℕ}
      {request : I.Request} {next : I.Reply request → Plan I Unit} {reply : I.Reply request}
      (hoverlaps : Overlaps allows start before moves workers state)
      (hworker : workers[index]? = some ⟨number, .ask request next⟩)
      (hreply : allows state request reply after) :
      Overlaps allows start before (moves ++ [⟨number, request, reply⟩])
        (workers.set index ⟨number, next reply⟩) after

variable {start workers : List (Worker I)} {moves : List (Move I)} {state : σ}
  {contracts : ℕ → Contract I σ}

theorem Overlaps.map_number (hoverlaps : Overlaps allows start before moves workers state) :
    workers.map Worker.number = start.map Worker.number := by
  induction hoverlaps with
  | start => rfl
  | @step _ workers _ _ index number _ _ _ _ hworker _ ih =>
      obtain ⟨hindex, hworker⟩ := List.getElem?_eq_some_iff.mp hworker
      have hself := List.set_getElem_self hindex
      rw [hworker] at hself
      have hnumbers := congrArg (List.map Worker.number) hself
      rw [List.map_set] at hnumbers ⊢
      exact hnumbers.trans ih

/-- What one worker may request changes the state only as every other worker relies on. -/
def AreCompatible (allows : Behaviour I σ) (contracts : ℕ → Contract I σ) : Prop :=
  ∀ number other state request reply after, number ≠ other →
    (contracts number).asks state request → allows state request reply after →
      (contracts other).rely state after

/-- **Every worker keeps its contract at every moment.** -/
theorem Overlaps.keeps (hoverlaps : Overlaps allows start before moves workers state)
    (hnodup : (start.map Worker.number).Nodup) (hcompatible : AreCompatible allows contracts)
    (hstart : ∀ worker ∈ start,
      worker.plan.Keeps allows (contracts worker.number) before fun _ _ => True) :
    ∀ worker ∈ workers,
      worker.plan.Keeps allows (contracts worker.number) state fun _ _ => True := by
  induction hoverlaps with
  | start => exact hstart
  | @step moves workers state after index number request next reply hoverlaps hworker hreply ih =>
      have hkeeps := ih _ (List.mem_of_getElem? hworker)
      obtain ⟨hasks, hnext⟩ := hkeeps state ((contracts number).refl state)
      intro worker hmem
      obtain ⟨place, hplace⟩ := List.mem_iff_getElem?.mp hmem
      by_cases hsame : index = place
      · subst hsame
        rw [List.getElem?_set_self (List.getElem?_eq_some_iff.mp hworker).1] at hplace
        obtain rfl := Option.some.inj hplace
        exact hnext reply after hreply
      · rw [List.getElem?_set_ne hsame] at hplace
        -- someone else moved, under another number
        have hne : number ≠ worker.number := by
          intro heq
          have hinj := List.getElem?_inj (i := index) (j := place)
            (by simpa using (List.getElem?_eq_some_iff.mp hworker).1)
            (hoverlaps.map_number.symm ▸ hnodup)
          apply hsame
          apply hinj.mp
          simp [hworker, hplace, heq]
        exact (ih worker (List.mem_of_getElem? hplace)).of_rely
          (hcompatible _ _ _ _ _ _ hne hasks hreply)

/-- **Every move is one that the contract of its worker permits.** -/
theorem Overlaps.asks (hoverlaps : Overlaps allows start before moves workers state)
    (hnodup : (start.map Worker.number).Nodup) (hcompatible : AreCompatible allows contracts)
    (hstart : ∀ worker ∈ start,
      worker.plan.Keeps allows (contracts worker.number) before fun _ _ => True)
    {number : ℕ} {request : I.Request} {next : I.Reply request → Plan I Unit}
    (hworker : ⟨number, .ask request next⟩ ∈ workers) : (contracts number).asks state request :=
  (hoverlaps.keeps hnodup hcompatible hstart _ hworker state ((contracts number).refl state)).1

/-- Every move was made at a moment of its own, behind the moves before it. -/
theorem Overlaps.moment (hoverlaps : Overlaps allows start before moves workers state)
    {early late : List (Move I)} {move : Move I} (hmoves : moves = early ++ move :: late) :
    ∃ workers state next after, Overlaps allows start before early workers state ∧
      ⟨move.number, .ask move.request next⟩ ∈ workers ∧
        allows state move.request move.reply after := by
  induction hoverlaps generalizing late with
  | start => exact absurd hmoves (by simp)
  | @step moves workers state after index number request next reply hoverlaps hworker hreply ih =>
      rcases List.eq_nil_or_concat late with rfl | ⟨rest, last, rfl⟩
      · -- it is the last move
        obtain ⟨rfl, hmove⟩ := List.append_inj' hmoves rfl
        obtain rfl := List.singleton_inj.mp hmove
        exact ⟨workers, state, next, after, hoverlaps, List.mem_of_getElem? hworker, hreply⟩
      · rw [List.concat_eq_append, ← List.cons_append, ← List.append_assoc] at hmoves
        exact ih (List.append_inj' hmoves rfl).1

/-- What holds at the start and is kept by every move that a contract permits holds at every
moment. -/
theorem Overlaps.invariant {invariant : List (Move I) → σ → Prop}
    (hoverlaps : Overlaps allows start before moves workers state)
    (hnodup : (start.map Worker.number).Nodup) (hcompatible : AreCompatible allows contracts)
    (hstart : ∀ worker ∈ start,
      worker.plan.Keeps allows (contracts worker.number) before fun _ _ => True)
    (hbefore : invariant [] before)
    (hmove : ∀ moves state number request reply after, invariant moves state →
      (contracts number).asks state request → allows state request reply after →
        invariant (moves ++ [⟨number, request, reply⟩]) after) : invariant moves state := by
  induction hoverlaps with
  | start => exact hbefore
  | step hoverlaps hworker hreply ih =>
      exact hmove _ _ _ _ _ _ ih
        (hoverlaps.asks hnodup hcompatible hstart (List.mem_of_getElem? hworker)) hreply

/-! ### A schedule -/

/-- What has come of the workers: the moves so far, the plans that are left, and the state. -/
structure Progress (I : Interface) (σ : Type) where
  moves : List (Move I)
  workers : List (Worker I)
  state : σ

/-- The worker at this place makes its next request, if it has one to make. -/
def Progress.advance (handle : (request : I.Request) → StateM σ (I.Reply request))
    (progress : Progress I σ) (index : ℕ) : Progress I σ :=
  match progress.workers[index]? with
  | some ⟨number, .ask request next⟩ =>
    let (reply, after) := handle request progress.state
    ⟨progress.moves ++ [⟨number, request, reply⟩],
      progress.workers.set index ⟨number, next reply⟩, after⟩
  | _ => progress

/-- The workers take turns in this order. -/
def play (handle : (request : I.Request) → StateM σ (I.Reply request)) (start : List (Worker I))
    (before : σ) (schedule : List ℕ) : Progress I σ :=
  schedule.foldl (Progress.advance handle) ⟨[], start, before⟩

theorem overlaps_play {handle : (request : I.Request) → StateM σ (I.Reply request)}
    (hallows : ∀ before request, allows before request (handle request before).1
      (handle request before).2)
    (start : List (Worker I)) (before : σ) (schedule : List ℕ) :
    Overlaps allows start before (play handle start before schedule).moves
      (play handle start before schedule).workers (play handle start before schedule).state := by
  unfold play
  -- turn by turn, from the last one
  induction schedule using List.reverseRec with
  | nil => exact .start
  | append_singleton schedule index ih =>
      rw [List.foldl_append, List.foldl_cons, List.foldl_nil]
      generalize schedule.foldl (Progress.advance handle) ⟨[], start, before⟩ = progress at ih ⊢
      unfold Progress.advance
      split
      next number request next hworker =>
        exact ih.step hworker (hallows progress.state request)
      next => exact ih

end ServiceWatch.Plan
