import ServiceWatch.Proofs.Memory.Json
import ServiceWatch.Proofs.Store.Load

/-!
# A document that is cut off

All fields of a memory are optional, so any beginning of its document would be a memory too if an
object could be left open.  It cannot: wherever the document is cut off, be it in front of its first
byte, inside a name or behind a digit of a number, what there is of it holds no memory
(`Memory.ofDocument_of_prefix`).  A file with no more than that is reported, and the run goes on from
the blank memory.
-/

namespace ServiceWatch.Store

open Disk (Allows)

variable {memory : Memory} {document front : List UInt8}

/-- **A document that is cut off is never taken for a memory**, in whichever style it was written.
Reading a file with the rest fails for that reason, and loading it gives the blank memory with a
concern. -/
theorem cutOff_undecodable
    (hdocument : document = Text.Utf8.encode memory.compact ∨
      document = Text.Utf8.encode memory.pretty)
    (hbegins : front <+: document) (hne : front ≠ document) :
    ∃ failure, Memory.ofDocument front = .error failure ∧
      ∀ path disk, disk.read path = .ok front →
        (∀ outcome last, (read path).Ends Allows disk outcome last ↔
          outcome = .error (.undecodable (failure.message front)) ∧ last = disk) ∧
        ∀ loaded last, (load path).Ends Allows disk loaded last ↔
          loaded =
            ⟨.blank, some (.memoryUnreadable
              (Fault.undecodable (failure.message front)).message)⟩ ∧ last = disk := by
  obtain ⟨failure, hfailure⟩ : ∃ failure, Memory.ofDocument front = .error failure := by
    rcases hdocument with rfl | rfl
    · exact Memory.ofDocument_of_prefix .compact hbegins hne
    · exact Memory.ofDocument_of_prefix .pretty hbegins hne
  refine ⟨failure, hfailure, fun path disk hread => ?_⟩
  have hdecode : decode front = .error (.undecodable (failure.message front)) := by
    rw [decode, hfailure]
  have hends := ends_of_read hread
  rw [hdecode] at hends
  exact hends

/-- A memory whose last member is a number. -/
def timedMemory : Memory where
  last := { finality := some (.ofNat false 7) }
  updated := some 1700000000

/-- Its document, without the closing brace and the last digit. -/
def shortDocument : List UInt8 :=
  (encode timedMemory).take ((encode timedMemory).length - 2)

/-- A disk that holds no more than that. -/
def shortDisk : Disk := ⟨[(["state.json"], .file shortDocument false)], []⟩

theorem shortDocument_undecodable :
    shortDocument <+: encode timedMemory ∧ shortDocument ≠ encode timedMemory ∧
      ∃ failure, Memory.ofDocument shortDocument = .error failure ∧
        (read "state.json").Ends Allows shortDisk
          (.error (.undecodable (failure.message shortDocument))) shortDisk ∧
        (load "state.json").Ends Allows shortDisk
          ⟨.blank, some (.memoryUnreadable
            (Fault.undecodable (failure.message shortDocument)).message)⟩ shortDisk := by
  have hbegins : shortDocument <+: encode timedMemory := List.take_prefix _ _
  have hne : shortDocument ≠ encode timedMemory := by decide +kernel
  have hread : shortDisk.read "state.json" = .ok shortDocument := by decide +kernel
  obtain ⟨failure, hfailure, hends⟩ := cutOff_undecodable (Or.inl rfl) hbegins hne
  obtain ⟨hreads, hloads⟩ := hends "state.json" shortDisk hread
  exact ⟨hbegins, hne, failure, hfailure, (hreads _ _).mpr ⟨rfl, rfl⟩, (hloads _ _).mpr ⟨rfl, rfl⟩⟩

end ServiceWatch.Store
