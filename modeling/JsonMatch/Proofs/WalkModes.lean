import JsonMatch.Proofs.Verdicts

/-!
# The modes of a walk compared

From any state the two modes of a walk lead to the same output and leave the
path as it was.  A fail-fast walk adds no issue; a collecting one adds some
exactly when it rejects, behind those found before, and has the marks of the
fail-fast one.  So an outcome reports what its walk found, and a rejection is
never left without a reason.
-/

namespace JsonMatch

/-- The issues of an outcome; there is none in a success. -/
def Outcome.issues : Outcome → List Issue
  | .success _ => []
  | .failure issues => issues.toList

theorem Outcome.issues_conclude {output : Option Json} {state : WalkState}
    (explained : output = none → state.issues ≠ []) :
    (state.conclude output).issues = state.issues := by
  unfold WalkState.conclude
  cases found : state.issues with
  | nil =>
      cases output with
      | none => exact absurd found (explained rfl)
      | some output => rfl
  | cons first rest => rfl

namespace Schema

variable (schema : Schema Id) (waiting : Waiting) (mode : Mode) (value : Json)

theorem run_check (start : WalkState) :
    ((schema.check waiting mode value).run start : Option Json × WalkState) =
      (schema.verdict waiting value,
        start.add ((schema.check waiting mode value).findings start.path)) := by
  have run := schema.steady waiting mode value start
  rwa [schema.output_eq_verdict] at run

theorem issues_of_walk_rejects
    (rejects : (schema.walk waiting .collect value).1 = none) :
    (schema.walk waiting .collect value).2.issues ≠ [] := by
  rw [walk_eq] at rejects ⊢
  simpa [WalkState.add]
    using (schema.verdict_eq_none_iff waiting value).mp rejects

theorem issues_settled :
    (schema.settled value : Outcome).issues =
      (schema.walk .await .collect value).2.issues :=
  Outcome.issues_conclude (schema.issues_of_walk_rejects .await value)

theorem issues_of_validate_ready {outcome : Outcome}
    (ready : schema.validate value = (.ready outcome : Answer Id)) :
    outcome.issues = (schema.walk .refuse .collect value).2.issues := by
  unfold validate at ready
  change (if (schema.walk .refuse .collect value).2.settles = true
    then _ else _ :
    Id _) = _ at ready
  split at ready
  · cases ready
    exact Outcome.issues_conclude (schema.issues_of_walk_rejects .refuse value)
  · cases ready

/-- Both modes of a walk, waiting or not, begun in one state: they have one
output and keep the path, the fail-fast one adds no issue, the collecting one
adds issues exactly when it rejects, and it has all marks of the fail-fast one.
So all outcomes report what a walk found, and none makes up a reason. -/
theorem walk_modes_agree (schema : Schema Id) (waiting : Waiting)
    (value : Json) :
    (∀ start : WalkState,
      let quick := (schema.check waiting .failFast value).run start
      let full := (schema.check waiting .collect value).run start
      quick.1 = full.1 ∧
        quick.2.issues = start.issues ∧
        (∃ added, full.2.issues = start.issues ++ added ∧
          (full.1 = none ↔ added ≠ [])) ∧
        quick.2.path = start.path ∧ full.2.path = start.path ∧
        (quick.2.deferred = true → full.2.deferred = true) ∧
        (quick.2.guessed = true → full.2.guessed = true)) ∧
      ((schema.walk waiting .collect value).1 = none →
        (schema.walk waiting .collect value).2.issues ≠ []) ∧
      (schema.settled value : Outcome).issues =
        (schema.walk .await .collect value).2.issues ∧
      ∀ outcome, schema.validate value = (.ready outcome : Answer Id) →
        outcome.issues = (schema.walk .refuse .collect value).2.issues := by
  refine ⟨?_, schema.issues_of_walk_rejects waiting value,
    schema.issues_settled value, ?_⟩
  · intro start quick full
    have quickRun := schema.run_check waiting .failFast value start
    have fullRun := schema.run_check waiting .collect value start
    have regular := schema.regularAt waiting value start.path
    have explained := regular.explained
    simp only [schema.output_eq_verdict] at explained
    rw [show quick = _ from quickRun, show full = _ from fullRun]
    refine ⟨rfl, ?_, ⟨_, rfl, explained⟩, rfl, rfl, ?_, ?_⟩
    · simp [WalkState.add, regular.quiet]
    · simp only [WalkState.add, Bool.or_eq_true]
      exact Or.imp id regular.marks.deferred
    · simp only [WalkState.add, Bool.or_eq_true]
      exact Or.imp id regular.marks.guessed
  · intro outcome ready
    exact schema.issues_of_validate_ready value ready

/-- A member that no option accepts, one whose check has to be awaited, and one
that is not declared. -/
theorem walk_modes_agree_object :
    let unit : Issue := { path := [.key "unit"], message := "no unit" }
    let schema : Schema Id := .object
      [⟨"size", .required, .union [.primitive .integer,
          .custom fun _ => pure (.ready (.failure ⟨unit, []⟩))]⟩,
        ⟨"name", .required,
          .asyncRefined (.primitive .string) (fun _ => true) "taken"⟩] .deny
    let value : Json := .object
      [("name", .string "a"), ("other", .null), ("size", .null)]
    let start : WalkState :=
      { path := [.index 3], issues := [{ message := "before" }] }
    ((schema.check .refuse .failFast value).run start).1 =
        ((schema.check .refuse .collect value).run start).1 ∧
      ((schema.check .await .failFast value).run start).2.issues =
        start.issues ∧
      (schema.walk .await .collect value).2.issues ≠ [] ∧
      ∃ outcome, schema.validate value = (.ready outcome : Answer Id) ∧
        outcome.issues = (schema.walk .refuse .collect value).2.issues := by
  intro unit schema value start
  refine ⟨?_, ?_, ?_, _, rfl, ?_⟩
  · exact ((walk_modes_agree schema .refuse value).1 start).1
  · exact ((walk_modes_agree schema .await value).1 start).2.1
  · exact (walk_modes_agree schema .await value).2.1 rfl
  · exact (walk_modes_agree schema .refuse value).2.2.2 _ rfl

end Schema

end JsonMatch
