import ServiceWatch.Proofs.CommandLine.Check
import ServiceWatch.Proofs.Memory.Document
import ServiceWatch.Proofs.Store.RoundTrip

/-!
# What is shown of the memory

Showing the memory reads its file once and writes about what it held (`ends_showMemory_iff`).  About
a memory it writes the pretty document and a line break, and that is decoded as what a save writes
is (`isHeldBy_shown`).

So whatever a memory holds, it can be saved and loaded: all the documents that are ever written of
it are decoded, and as one and the same memory (`every_memory_decodes`).
-/

namespace ServiceWatch.CommandLine

open Disk (Allows MayFail)
open Text.Utf8 (encode)

variable {σ : Type} {allows : Plan.Behaviour system σ} {settings : Settings} {before after : σ}
  {ending : Ending} {memory : Memory}

/-- How showing the memory ends with what was read. -/
def shown (path : String) : Except Store.Fault (Option Memory) → Ending
  | .ok (some memory) => .finished 0 (String.ofList memory.pretty ++ "\n")
  | .ok none => .finished 0 (nothingAt path)
  | .error fault => .failed (storeMessages fault)

theorem showMemory_eq :
    showMemory settings = (do
      let outcome ← onFiles (Store.read settings.statePath)
      return shown settings.statePath outcome) := by
  unfold showMemory
  congr 1
  funext outcome
  rcases outcome with fault | _ | memory <;> rfl

theorem ends_onFiles_read_iff {path : String} {outcome : Except Store.Fault (Option Memory)} :
    (onFiles (Store.read path)).Ends allows before outcome after ↔
      ∃ reply, allows before (.file (.read path)) reply after ∧
        outcome = Store.ofContent path reply := by
  constructor
  · rintro ⟨reply, _, hreply, rfl, rfl⟩
    exact ⟨reply, hreply, rfl⟩
  · rintro ⟨reply, hreply, rfl⟩
    exact ⟨reply, after, hreply, rfl, rfl⟩

theorem ends_showMemory_iff :
    (showMemory settings).Ends allows before ending after ↔
      ∃ reply, allows before (.file (.read settings.statePath)) reply after ∧
        ending = shown settings.statePath (Store.ofContent settings.statePath reply) := by
  rw [showMemory_eq, Plan.ends_bind]
  constructor
  · rintro ⟨outcome, _, hread, rfl, rfl⟩
    obtain ⟨reply, hreply, rfl⟩ := ends_onFiles_read_iff.mp hread
    exact ⟨reply, hreply, rfl⟩
  · rintro ⟨reply, hreply, rfl⟩
    exact ⟨_, after, ends_onFiles_read_iff.mpr ⟨reply, hreply, rfl⟩, rfl, rfl⟩

/-- What is shown of a memory is a document of it. -/
theorem isHeldBy_shown (path : String) (memory : Memory) :
    memory.IsHeldBy memory.reread (encode (shown path (.ok (some memory))).output.toList) := by
  have houtput : encode (shown path (.ok (some memory))).output.toList =
      encode (Json.Style.pretty.text 0 memory.toJson) ++ encode ['\n'] := by
    rw [shown, Ending.output, String.toList_append, String.toList_ofList, Text.Utf8.encode_append]
    rfl
  rw [houtput]
  exact Memory.isHeldBy_text .pretty memory (List.forall_mem_singleton.mpr (by decide))

/-- **Every memory that can be saved can be loaded.**  Of any memory, the document that a save
writes, the pretty document and what is shown where the file holds the memory are decoded as one
memory, with the same times and with the counters that are finite numbers, and have members for the
fields that are present and no others.  After a save that succeeds, that memory is read and loaded,
without a concern. -/
theorem every_memory_decodes (memory : Memory) :
    ∃ found, memory.FoundAs found ∧
      memory.IsHeldBy found (Store.encode memory) ∧
      memory.IsHeldBy found (encode memory.pretty) ∧
      (∀ path process before after,
        (Store.save path process memory).Ends MayFail before (.ok ()) after →
          after.read path = .ok (Store.encode memory) ∧
          (∀ result last, (Store.read path).Ends Allows after result last ↔
            result = .ok (some found) ∧ last = after) ∧
          ∀ loaded last, (Store.load path).Ends Allows after loaded last ↔
            loaded = ⟨found, none⟩ ∧ last = after) ∧
      ∀ {σ : Type} {allows : Plan.Behaviour system σ} {settings : Settings} {before after : σ}
        {ending : Ending}, (showMemory settings).Ends allows before ending after →
          ∃ reply, allows before (.file (.read settings.statePath)) reply after ∧
            (Store.ofContent settings.statePath reply = .ok (some memory) →
              ending.exitCode = 0 ∧ memory.IsHeldBy found (encode ending.output.toList)) := by
  refine ⟨memory.reread, memory.foundAs_reread, memory.isHeldBy_compact, memory.isHeldBy_pretty,
    ?_, ?_⟩
  · intro path process before after hends
    have hread : after.read path = .ok (Store.encode memory) := (Store.save_ends hends).read
    exact ⟨hread, Store.loads_of_read hread⟩
  · intro σ allows settings before after ending hends
    obtain ⟨reply, hreply, rfl⟩ := ends_showMemory_iff.mp hends
    refine ⟨reply, hreply, fun hcontent => ?_⟩
    rw [hcontent]
    exact ⟨rfl, isHeldBy_shown settings.statePath memory⟩

/-- A memory with a counter of each kind that reading back could lose. -/
def oddCounters : Memory where
  last :=
    { finality := some (.infinity true)
      received := some .nan
      verified := some (.signedZero true) }
  lastSeen := some 0xFFFFFFFFFFFFFFFF

/-- What is found of it. -/
def oddCountersFound : Memory where
  last := { verified := some (.signedZero true) }
  lastSeen := some 0xFFFFFFFFFFFFFFFF

/-- The save of these on an empty disk. -/
def saveOddCounters : Except Store.Fault Unit × Disk :=
  (Store.save "state.json" 1 oddCounters).run Disk.handle ⟨[], []⟩

/-- The settings with a file in the working directory. -/
def localFile : Settings := { Settings.defaults with statePath := "state.json" }

/-- Of three counters the one that is a finite number is loaded, and shown. -/
theorem oddCounters_decodes :
    (Store.save "state.json" 1 oddCounters).Ends MayFail ⟨[], []⟩ (.ok ()) saveOddCounters.2 ∧
      (Store.load "state.json").Ends Allows saveOddCounters.2 ⟨oddCountersFound, none⟩
        saveOddCounters.2 ∧
      oddCounters.IsHeldBy oddCountersFound (Store.encode oddCounters) ∧
      ∃ ending after,
        (showMemory localFile).Ends Silent saveOddCounters.2 ending after ∧ ending.exitCode = 0 ∧
          oddCountersFound.IsHeldBy oddCountersFound (encode ending.output.toList) := by
  have hends : (Store.save "state.json" 1 oddCounters).Ends MayFail ⟨[], []⟩ saveOddCounters.1
      saveOddCounters.2 := Disk.ends_mayFail (Plan.ends_run Disk.allows_perform _ _)
  have hdone : saveOddCounters.1 = .ok () := by decide +kernel
  rw [hdone] at hends
  obtain ⟨found, -, hcompact, -, hsaved, -⟩ := every_memory_decodes oddCounters
  obtain rfl : found = oddCountersFound := by
    have hdecoded : Memory.ofDocument (Store.encode oddCounters) = .ok oddCountersFound := by
      decide +kernel
    exact Except.ok.inj (hcompact.decodes.symm.trans hdecoded)
  obtain ⟨hread, -, hload⟩ := hsaved _ _ _ _ hends
  refine ⟨hends, (hload _ _).mpr ⟨rfl, rfl⟩, hcompact, ?_⟩
  -- what is shown is what the file holds, a memory of its own
  have hshow := Plan.ends_run silent_silence (showMemory localFile) saveOddCounters.2
  obtain ⟨again, -, hagain, -, -, hshown⟩ := every_memory_decodes oddCountersFound
  obtain rfl : again = oddCountersFound := by
    have hdecoded : Memory.ofDocument (Store.encode oddCountersFound) = .ok oddCountersFound := by
      decide +kernel
    exact Except.ok.inj (hagain.decodes.symm.trans hdecoded)
  obtain ⟨reply, hreply, hdocument⟩ := hshown hshow
  have hcontent : reply = .ok (Store.encode oddCounters) := hreply.1.trans hread
  refine ⟨_, _, hshow, hdocument ?_⟩
  rw [hcontent]
  decide +kernel

end ServiceWatch.CommandLine
