import ServiceWatch.Memory

/-!
# The stall clock

Each run compares the watched counter with the value that the run before it remembered.  A rise
restarts the clock; anything else leaves it running, and the counter is stalled once more than the
threshold has passed since the clock was started.  A run without a scrape, or with an empty one,
says nothing and changes nothing.

`Stall.judge` is one run.  `Stall.judgeAll` is a sequence of runs, each carrying what the one
before it left.
-/

namespace ServiceWatch.Stall

/-- What a run concluded about the watched counter; times are in seconds. -/
inductive Verdict where
  /-- No scrape, so nothing to compare. -/
  | unknown
  /-- The counter has risen since the last run. -/
  | progressed
  /-- No rise, but the threshold has not passed. -/
  | idle (elapsed : UInt64)
  /-- No rise for longer than the threshold. -/
  | stalled (elapsed : UInt64)
deriving DecidableEq, Repr, Inhabited

namespace Verdict

/-- Whether the counter is stalled. -/
def isStalled : Verdict → Bool
  | .stalled _ => true
  | _ => false

/-- The time since the last progress, where it is known. -/
def elapsed? : Verdict → Option UInt64
  | .unknown => none
  | .progressed => some 0
  | .idle elapsed | .stalled elapsed => some elapsed

/-- The word for the verdict in a report document. -/
def label : Verdict → String
  | .unknown => "unknown"
  | .progressed => "progressed"
  | .idle _ => "idle"
  | .stalled _ => "stalled"

end Verdict

/-- The verdict of a run and what it leaves to remember; `none` leaves the memory as it is. -/
structure Judgement where
  verdict : Verdict
  next : Option Memory
deriving DecidableEq, Repr, Inhabited

/-- The watched counter of a scrape; a scrape without it counts as zero. -/
def watched (scrape : Scrape) : Binary64 :=
  (scrape.value? finalitySeries).getD .zero

/-- The start of the clock and the verdict when there is a baseline to compare with.  The start
never lies behind `now`, so the elapsed time does not wrap. -/
def compare (threshold : UInt64) (current baseline : Binary64) (lastSeen : Option UInt64)
    (now : UInt64) : UInt64 × Verdict :=
  if baseline.isLess current then (now, .progressed)
  else
    let start := min (lastSeen.getD now) now
    let elapsed := now - start
    (start, if threshold < elapsed then .stalled elapsed else .idle elapsed)

/-- Judges the scrape of a run at the time `now` by what the run before it left. -/
def judge (threshold : UInt64) (scrape : Option Scrape) (memory : Memory) (now : UInt64) :
    Judgement :=
  match scrape.filter fun s => !s.isEmpty with
  | none => ⟨.unknown, none⟩
  | some scrape =>
    let (start, verdict) :=
      match memory.last.finality with
      | some baseline => compare threshold (watched scrape) baseline memory.lastSeen now
      | none => (now, .idle 0)
    ⟨verdict, some { last := .ofScrape scrape, lastSeen := some start, updated := some now }⟩

/-- What is remembered after a judgement that was made from `memory`. -/
def Judgement.carried (judgement : Judgement) (memory : Memory) : Memory :=
  judgement.next.getD memory

/-- The judgements of a sequence of runs, each with its scrape and its time. -/
def judgeAll (threshold : UInt64) (memory : Memory) : List (Option Scrape × UInt64) → List Judgement
  | [] => []
  | (scrape, now) :: runs =>
    let judgement := judge threshold scrape memory now
    judgement :: judgeAll threshold (judgement.carried memory) runs

/-- The threshold in seconds for one in minutes, the greatest time when it does not fit. -/
def thresholdOfMinutes (minutes : UInt64) : UInt64 :=
  if minutes.toNat * 60 < UInt64.size then minutes * 60 else 0xFFFFFFFFFFFFFFFF

end ServiceWatch.Stall
