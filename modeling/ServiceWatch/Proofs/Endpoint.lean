import ServiceWatch.Endpoint

/-!
# When an endpoint fails

An answer is the body of a response with the status 200, or it fails, and never both.
-/

namespace ServiceWatch.Answer

variable {answer : Answer} {failure : EndpointFailure}

/-- The answer is another one than a response with the status 200, for this reason. -/
def FailsWith (answer : Answer) (failure : EndpointFailure) : Prop :=
  (∃ status body, answer = .response status body ∧ status ≠ 200 ∧
      failure = .ofStatus status body) ∨
    ∃ reason, answer = .unreachable reason ∧ failure = .unreachable reason

theorem failure?_eq_some_iff : answer.failure? = some failure ↔ answer.FailsWith failure := by
  constructor
  · intro hfailure
    cases answer with
    | unreachable reason => exact Or.inr ⟨reason, rfl, (Option.some.inj hfailure).symm⟩
    | response status body =>
        by_cases hstatus : status = 200
        · rw [failure?, if_pos hstatus] at hfailure
          exact absurd hfailure (by simp)
        · rw [failure?, if_neg hstatus] at hfailure
          exact Or.inl ⟨status, body, rfl, hstatus, (Option.some.inj hfailure).symm⟩
  · rintro (⟨status, body, rfl, hstatus, rfl⟩ | ⟨reason, rfl, rfl⟩)
    · rw [failure?, if_neg hstatus]
    · rfl

theorem body?_eq_some_iff {body : String} :
    answer.body? = some body ↔ answer = .response 200 body := by
  cases answer with
  | unreachable reason => simp [body?]
  | response status text =>
      by_cases hstatus : status = 200
      · simp [body?, hstatus]
      · simp [body?, hstatus]

theorem failure?_eq_none_iff : answer.failure? = none ↔ ∃ body, answer = .response 200 body := by
  cases answer with
  | unreachable reason => simp [failure?]
  | response status body =>
      by_cases hstatus : status = 200
      · simp [failure?, hstatus]
      · simp [failure?, hstatus]

end ServiceWatch.Answer
