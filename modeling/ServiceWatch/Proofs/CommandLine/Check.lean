import ServiceWatch.CommandLine.Run
import ServiceWatch.Proofs.Disk.Allows
import ServiceWatch.Proofs.Probe.Json
import ServiceWatch.Proofs.Report

/-!
# What is written about a run

The program ends with the exit code of the report of its run, and writes about the run in the form
that was asked for (`ends_check_iff`).  A document that it writes holds that report, tells that exit
code, and calls the report by the word that goes with the exit code (`Tells`).
-/

namespace ServiceWatch.CommandLine

open Text.Utf8 (encode)

variable {σ : Type} {allows : Plan.Behaviour system σ} {settings : Settings} {process : ℕ}
  {form : Form} {sendsAlert : Bool} {before after : σ} {ending : Ending}

/-- How long each check and the alert may take. -/
def limit (settings : Settings) : Duration :=
  Duration.ofSeconds settings.timeoutSeconds.toNat

/-- The probe of the program, with every request met by the system. -/
def probe (settings : Settings) (process : ℕ) (now : UInt64) : Plan system Probe.Outcome :=
  (Probe.run settings process now).refine (J := system) (meet (limit settings))

/-- What follows the probe: an alert, if one is to be sent. -/
def alert (settings : Settings) (sendsAlert : Bool) (report : Report) : Plan system Unit :=
  if sendsAlert then sendAlert settings (limit settings) report else .done ()

theorem check_eq :
    check settings process form sendsAlert = (do
      let now ← ask .now
      let outcome ← probe settings process now
      alert settings sendsAlert outcome.report
      return .finished outcome.report.exitCode (written form outcome)) := by
  cases sendsAlert with
  | true => rfl
  | false => rfl

theorem ends_check_iff :
    (check settings process form sendsAlert).Ends allows before ending after ↔
      ∃ now started outcome probed, allows before .now now started ∧
        (probe settings process now).Ends allows started outcome probed ∧
        (alert settings sendsAlert outcome.report).Ends allows probed () after ∧
        ending = .finished outcome.report.exitCode (written form outcome) := by
  simp only [check_eq, Plan.ends_bind, Plan.ends_pure]
  constructor
  · rintro ⟨now, started, hnow, outcome, probed, hprobe, _, _, halert, rfl, rfl⟩
    exact ⟨now, started, outcome, probed, Plan.ends_request.mp hnow, hprobe, halert, rfl⟩
  · rintro ⟨now, started, outcome, probed, hnow, hprobe, halert, rfl⟩
    exact ⟨now, started, Plan.ends_request.mpr hnow, outcome, probed, hprobe, (), after, halert,
      rfl, rfl⟩

/-- The output is a document that holds the report.  The exit code is 2 if the report has an outage,
1 if it has concerns only and 0 if it has neither; the document tells it, and calls the report an
error, a warning or ok by it. -/
structure Tells (output : String) (report : Report) (exitCode : ℕ) : Prop where
  decodes : Report.ofDocument (encode output.toList) = .ok report
  code_two : exitCode = 2 ↔ ∃ outage, outage ∈ report.outages
  code_one : exitCode = 1 ↔
    (¬ ∃ outage, outage ∈ report.outages) ∧ ∃ concern, concern ∈ report.concerns
  code_zero : exitCode = 0 ↔
    (¬ ∃ outage, outage ∈ report.outages) ∧ ¬ ∃ concern, concern ∈ report.concerns
  members : ∃ members rest word,
    Json.readTree Report.depth (encode output.toList) = .ok (.object members, rest) ∧
      Json.readEnd rest = .ok () ∧
      members.lookup "exit_code" = some (.number (.unsigned (UInt64.ofNat exitCode))) ∧
      members.lookup "severity" = some (.string word) ∧
      (word = "ok" ↔ exitCode = 0) ∧ (word = "warning" ↔ exitCode = 1) ∧
      (word = "error" ↔ exitCode = 2)

theorem tells_written (outcome : Probe.Outcome) :
    Tells (written .json outcome) outcome.report outcome.report.exitCode := by
  have houtput : encode (written .json outcome).toList =
      encode (Json.Style.pretty.text 0 outcome.toJson) ++ encode ['\n'] := by
    rw [written, String.toList_append, String.toList_ofList, Text.Utf8.encode_append]
    rfl
  have hblank : Json.IsBlank (encode ['\n']) := List.forall_mem_singleton.mpr (by decide)
  have hdocument := outcome.ofDocument_text .pretty hblank
  have htree := outcome.readTree_text .pretty hblank
  rw [← houtput] at hdocument htree
  rw [outcome.toJson_eq] at htree
  exact ⟨hdocument, outcome.report.exitCode_eq_two_iff, outcome.report.exitCode_eq_one_iff,
    outcome.report.exitCode_eq_zero_iff, _, _, outcome.report.severity.word, htree, rfl, rfl, rfl,
    outcome.report.severity.word_iff⟩

/-- **Reports survive their documents.**  The compact document of every report is decoded as that
report and has no control character; the document written about a run is decoded as the report of
the run, it tells the exit code with which the program ends, and the word in it for the severity is
"ok", "warning" or "error" where that code is 0, 1 or 2. -/
theorem documents_decode :
    (∀ report : Report, Report.ofDocument (encode report.compact) = .ok report ∧
      ∀ c ∈ report.compact, 0x20 ≤ c.toNat) ∧
    (∀ outcome : Probe.Outcome,
      Tells (written .json outcome) outcome.report outcome.report.exitCode) ∧
    ∀ {σ : Type} {allows : Plan.Behaviour system σ} {settings : Settings} {process : ℕ}
      {sendsAlert : Bool} {before after : σ} {ending : Ending},
      (check settings process .json sendsAlert).Ends allows before ending after →
        ∃ now started outcome probed, allows before .now now started ∧
          (probe settings process now).Ends allows started outcome probed ∧
          ending.output = written .json outcome ∧
          Tells ending.output outcome.report ending.exitCode := by
  refine ⟨fun report => ⟨report.ofDocument_toJson .compact, ?_⟩, tells_written, ?_⟩
  · exact (report.fits_toJson 0).le_of_mem_compact
  · intro σ allows settings process sendsAlert before after ending hends
    obtain ⟨now, started, outcome, probed, hnow, hprobe, -, rfl⟩ := ends_check_iff.mp hends
    exact ⟨now, started, outcome, probed, hnow, hprobe, rfl, tells_written outcome⟩

/-- Meets every request where nothing answers but the disk. -/
def silence : (request : Request) → StateM Disk request.Reply
  | .file action => Disk.handle action
  | .command .. => pure Command.Outcome.timedOut
  | .call .. => pure Http.Exchange.timedOut
  | .now => pure (0 : UInt64)

/-- The surroundings in which nothing answers but the disk. -/
def Silent : Plan.Behaviour system Disk := fun before request reply after =>
  reply = (silence request before).1 ∧ after = (silence request before).2

theorem silent_silence (before : Disk) (request : Request) :
    Silent before request (silence request before).1 (silence request before).2 :=
  ⟨rfl, rfl⟩

/-- Where nothing answers, the document tells of an error. -/
theorem documents_decode_silent :
    ∃ ending after, (check .defaults 1 .json false).Ends Silent ⟨[], []⟩ ending after ∧
      ending.exitCode = 2 ∧ ∃ report, Tells ending.output report ending.exitCode ∧
        ∃ members rest,
          Json.readTree Report.depth (encode ending.output.toList) = .ok (.object members, rest) ∧
            members.lookup "severity" = some (.string "error") := by
  have hends := Plan.ends_run silent_silence (check .defaults 1 .json false) ⟨[], []⟩
  obtain ⟨-, -, outcome, -, -, -, -, htells⟩ := documents_decode.2.2 hends
  have hcode : ((check .defaults 1 .json false).run silence ⟨[], []⟩).1.exitCode = 2 := by
    decide +kernel
  obtain ⟨members, rest, word, htree, -, -, hword, -, -, herror⟩ := htells.members
  obtain rfl := herror.mpr hcode
  exact ⟨_, _, hends, hcode, outcome.report, htells, members, rest, htree, hword⟩

end ServiceWatch.CommandLine
