import ServiceWatch.Proofs.Endpoint.Excerpt
import ServiceWatch.Proofs.Probe.Report
import ServiceWatch.Proofs.Report.Body
import ServiceWatch.Proofs.Store.Message

/-!
# When a run is told in one line for each entry

A report quotes what the process manager and the endpoints said.  Of a body it quotes the beginning,
without the blanks around the body, and of a state the whole word, and neither leaves out the line
feeds in between.  All else that goes into the lines of a report has none, as long as the settings
and the reasons for failures have none.  So every entry of a report is told in one line exactly if
what it quotes is one line (`Scene.Runs.hasOneLineEach_iff`).
-/

namespace ServiceWatch

open Text (IsLine isLine_append isLine_ofList isLine_toString)

/-! ### What is quoted -/

namespace EndpointFailure

/-- The beginning of a body that a report quotes is one line. -/
theorem isLine_excerpt_iff (body : String) :
    IsLine (excerpt body) ↔ '\n' ∉ (Text.trim body).toList.take excerptLength := by
  rcases Nat.lt_or_ge excerptLength (Text.trim body).length with hlong | hshort
  · rw [excerpt_of_lt hlong, isLine_append, and_iff_left (by decide), beginning, isLine_ofList]
  · have hwhole : (Text.trim body).toList.length ≤ excerptLength := by
      rw [String.length_toList]
      exact hshort
    rw [excerpt_of_le hshort, List.take_of_length_le hwhole, IsLine]

theorem isLine_describe_status (code : UInt16) (body : String) :
    IsLine (EndpointFailure.status code body).describe ↔ IsLine body := by
  change IsLine ("(" ++ toString code.toNat ++ "): " ++ body) ↔ IsLine body
  have hopen : IsLine "(" := by decide
  have hclose : IsLine "): " := by decide
  simp only [isLine_append, isLine_toString, hopen, hclose, true_and]

theorem isLine_describe_unreachable (reason : String) :
    IsLine (EndpointFailure.unreachable reason).describe ↔ IsLine reason := by
  change IsLine ("(unreachable): " ++ reason) ↔ IsLine reason
  have hopen : IsLine "(unreachable): " := by decide
  simp only [isLine_append, hopen, true_and]

end EndpointFailure

/-- A word that the process manager gives is quoted without the blanks around it. -/
theorem ServiceState.isLine_word_ofAnswer (answer : String) :
    IsLine (ServiceState.ofAnswer answer).word ↔ IsLine (Text.trim answer) := by
  unfold ServiceState.ofAnswer
  dsimp only
  split_ifs with hactive hempty
  · rw [hactive]
    rfl
  · rw [hempty]
    decide
  · rfl

namespace Probe

variable {σ : Type} {allows : Plan.Behaviour Disk.files σ} {before after : σ} {scene : Scene}
  {settings : Settings} {outcome : Outcome} {path service : String}

/-- The reasons for which a scene has no answer are lines, and so is the name of the program that
gave none. -/
structure Scene.GivesReasonsInLine (scene : Scene) : Prop where
  state : ∀ program reason, scene.state = .queryFailed program reason →
    IsLine program ∧ IsLine reason
  health : ∀ reason, scene.health = .unreachable reason → IsLine reason
  metrics : ∀ reason, scene.metrics = .unreachable reason → IsLine reason

/-- An answer of which a report quotes one line at most. -/
def QuotedInLine (answer : Answer) : Prop :=
  ∀ status body, answer = .response status body → status ≠ 200 →
    '\n' ∉ (Text.trim body).toList.take EndpointFailure.excerptLength

/-- What a report of the scene quotes is one line each. -/
structure Scene.AnswersInLine (scene : Scene) : Prop where
  state : IsLine scene.state.word
  health : QuotedInLine scene.health
  metrics : QuotedInLine scene.metrics

/-! ### Outages -/

theorem isLine_describe_iff {answer : Answer}
    (hreason : ∀ reason, answer = .unreachable reason → IsLine reason) :
    (∀ failure, answer.FailsWith failure → IsLine failure.describe) ↔ QuotedInLine answer := by
  constructor
  · rintro hlines status body rfl hstatus
    have hline := hlines _ (Or.inl ⟨status, body, rfl, hstatus, rfl⟩)
    exact (EndpointFailure.isLine_excerpt_iff body).mp
      ((EndpointFailure.isLine_describe_status status _).mp hline)
  · rintro hquoted failure (⟨status, body, rfl, hstatus, rfl⟩ | ⟨reason, rfl, rfl⟩)
    · exact (EndpointFailure.isLine_describe_status status _).mpr
        ((EndpointFailure.isLine_excerpt_iff body).mpr (hquoted status body rfl hstatus))
    · exact (EndpointFailure.isLine_describe_unreachable reason).mpr (hreason reason rfl)

theorem isLine_processQuery (program reason : String) :
    IsLine (Outage.processQuery program reason).line ↔ IsLine program ∧ IsLine reason := by
  change IsLine (program ++ " failed: " ++ reason) ↔ _
  have hmiddle : IsLine " failed: " := by decide
  simp only [isLine_append, hmiddle, and_true]

theorem isLine_serviceInactive (service state : String) :
    IsLine (Outage.serviceInactive service state).line ↔ IsLine service ∧ IsLine state := by
  change IsLine ("service " ++ service ++ " not active (state=" ++ state ++ ")") ↔ _
  have hfront : IsLine "service " := by decide
  have hmiddle : IsLine " not active (state=" := by decide
  have hback : IsLine ")" := by decide
  simp only [isLine_append, hfront, hmiddle, hback, true_and, and_true]

theorem isLine_healthEndpoint (failure : EndpointFailure) :
    IsLine (Outage.healthEndpoint failure).line ↔ IsLine failure.describe := by
  change IsLine ("healthz failed " ++ failure.describe) ↔ _
  rw [isLine_append, and_iff_right (by decide)]

theorem isLine_metricsEndpoint (failure : EndpointFailure) :
    IsLine (Outage.metricsEndpoint failure).line ↔ IsLine failure.describe := by
  change IsLine ("metrics failed " ++ failure.describe) ↔ _
  rw [isLine_append, and_iff_right (by decide)]

/-- The outages of a scene are told in one line each exactly if what they quote is one line. -/
theorem Scene.isLine_outages_iff (hservice : IsLine service)
    (hreasons : scene.GivesReasonsInLine) :
    (∀ outage, scene.IsDown service outage → IsLine outage.line) ↔ scene.AnswersInLine := by
  constructor
  · intro hlines
    refine ⟨?_, (isLine_describe_iff hreasons.health).mp fun failure hfailure => ?_,
      (isLine_describe_iff hreasons.metrics).mp fun failure hfailure => ?_⟩
    · by_cases hactive : scene.state = .active
      · rw [hactive]
        decide
      · have hdown : scene.IsDown service (.serviceInactive service scene.state.word) :=
          Scene.isDown_serviceInactive_iff.mpr ⟨hactive, rfl, rfl⟩
        exact ((isLine_serviceInactive service _).mp (hlines _ hdown)).2
    · exact (isLine_healthEndpoint failure).mp (hlines _ hfailure)
    · exact (isLine_metricsEndpoint failure).mp (hlines _ hfailure)
  · intro hanswers outage hdown
    cases outage with
    | processQuery program reason =>
        exact (isLine_processQuery _ _).mpr (hreasons.state program reason hdown)
    | serviceInactive name word =>
        obtain ⟨-, rfl, rfl⟩ := Scene.isDown_serviceInactive_iff.mp hdown
        exact (isLine_serviceInactive _ _).mpr ⟨hservice, hanswers.state⟩
    | healthEndpoint failure =>
        exact (isLine_healthEndpoint failure).mpr
          ((isLine_describe_iff hreasons.health).mpr hanswers.health failure hdown)
    | metricsEndpoint failure =>
        exact (isLine_metricsEndpoint failure).mpr
          ((isLine_describe_iff hreasons.metrics).mpr hanswers.metrics failure hdown)

/-! ### Concerns -/

theorem isLine_of_isUnreadable {reply : Except SystemError (List UInt8)} {reason : String}
    (hpath : IsLine path)
    (hrefusal : ∀ refusal, reply = .error refusal → IsLine refusal.message)
    (hunreadable : IsUnreadable path reply reason) : IsLine reason := by
  rcases hunreadable with ⟨refusal, hreply, -, rfl⟩ | ⟨content, failure, -, hrefused, rfl⟩
  · change IsLine ("read error on " ++ path ++ ": " ++ refusal.message)
    simp only [isLine_append, hpath, hrefusal refusal hreply]
    decide
  · change IsLine ("deserialization error: " ++ failure.message content)
    rw [isLine_append]
    exact ⟨by decide, Memory.isLine_refusal hrefused⟩

/-- Whatever was found of the memory and became of it, the concerns are told in one line each. -/
theorem Scene.isLine_of_isConcerned {reply : Except SystemError (List UInt8)}
    {verdict : Stall.Verdict} {attempt : Option (Except Store.Fault Unit)} {concern : Concern}
    (hpath : IsLine path)
    (hrefusal : ∀ refusal, reply = .error refusal → IsLine refusal.message)
    (hattempt : ∀ fault, attempt = some (.error fault) → IsLine fault.message)
    (hconcerned : scene.IsConcerned path reply verdict attempt concern) : IsLine concern.line := by
  cases concern with
  | missingSeries series =>
      have hrequired : ∀ series ∈ requiredSeries, IsLine series := by decide
      change IsLine ("metrics missing " ++ series)
      exact isLine_append.mpr ⟨by decide, hrequired series hconcerned.1⟩
  | stalled counter elapsed =>
      obtain ⟨rfl, -⟩ := hconcerned
      change IsLine (finalitySeries ++ " stalled (" ++ toString (elapsed.toNat / 60) ++
        "m without increment)")
      simp only [isLine_append, isLine_toString]
      decide
  | memoryUnreadable reason =>
      change IsLine ("failed to read state: " ++ reason)
      exact isLine_append.mpr ⟨by decide, isLine_of_isUnreadable hpath hrefusal hconcerned⟩
  | memoryNotSaved reason =>
      obtain ⟨fault, hfault, rfl⟩ := hconcerned
      change IsLine ("failed to write state: " ++ fault.message)
      exact isLine_append.mpr ⟨by decide, hattempt fault hfault⟩

/-- A report has one line for each entry exactly if what it quotes is one line each. -/
theorem Scene.Runs.hasOneLineEach_iff (hruns : scene.Runs settings allows before outcome after)
    (hservice : IsLine settings.service) (hpath : IsLine settings.statePath)
    (hreasons : scene.GivesReasonsInLine) (hallows : Store.RefusesInLine allows) :
    outcome.report.HasOneLineEach ↔ scene.AnswersInLine := by
  obtain ⟨reply, between, judgement, attempt, hreply, -, hattempt, -, -, hconcerns⟩ :=
    hruns.concludes
  have hfault : ∀ fault, attempt = some (.error fault) → IsLine fault.message := by
    rintro fault rfl
    unfold Attempts at hattempt
    split at hattempt
    · exact absurd hattempt.1 (by simp)
    · obtain ⟨saved, hsaved, hends⟩ := hattempt
      obtain rfl := Option.some.inj hsaved
      exact Store.failsInLine_save hallows hpath _ _ hends
  have hconcern : ∀ concern ∈ outcome.report.concerns, IsLine concern.line :=
    fun concern hmem => Scene.isLine_of_isConcerned hpath
      (fun refusal heq => hallows.isLine hreply (by rw [heq]; rfl)) hfault ((hconcerns concern).mp hmem)
  rw [← Scene.isLine_outages_iff hservice hreasons]
  constructor
  · intro hlines outage hdown
    refine hlines _ (List.mem_append_left _ (List.mem_map_of_mem ?_))
    exact (hruns.mem_outages_iff outage).mpr hdown
  · intro hlines line hline
    rcases List.mem_append.mp hline with hline | hline
    · obtain ⟨outage, hmem, rfl⟩ := List.mem_map.mp hline
      exact hlines outage ((hruns.mem_outages_iff outage).mp hmem)
    · obtain ⟨concern, hmem, rfl⟩ := List.mem_map.mp hline
      exact hconcern concern hmem

end Probe

end ServiceWatch
