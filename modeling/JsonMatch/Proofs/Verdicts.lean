import JsonMatch.Proofs.Acceptance
import JsonMatch.Proofs.Awaiting

/-!
# Answers of validation

The outcome of a validation is read off the verdict of the schema and off what
the walk from the value itself on finds.  An answer given at once has the
verdict that waiting would lead to.
-/

namespace JsonMatch

theorem Outcome.accepted?_eq_some {outcome : Outcome} {output : Json} :
    outcome.accepted? = some output ↔ outcome = .success output := by
  cases outcome <;> simp [accepted?]

theorem Outcome.accepted?_conclude {output : Option Json} {state : WalkState}
    (explained : output = none ↔ state.issues ≠ []) :
    (state.conclude output).accepted? = output := by
  unfold WalkState.conclude
  cases found : state.issues with
  | nil =>
      cases output with
      | none => simp [found] at explained
      | some output => rfl
  | cons first rest =>
      have rejects : output = none := explained.mpr (by simp [found])
      rw [rejects]
      rfl

namespace Schema

variable (schema : Schema Id) (waiting : Waiting) (mode : Mode) (value : Json)

/-- What the walk through a whole value finds. -/
abbrev finds : Findings :=
  (schema.check waiting mode value).findings []

theorem walk_eq :
    (schema.walk waiting mode value : Option Json × WalkState) =
      (schema.verdict waiting value, WalkState.add {}
        (schema.finds waiting mode value)) := by
  have run := schema.steady waiting mode value {}
  rwa [schema.output_eq_verdict] at run

theorem regularAt (path : Path) :
    ((schema.check waiting).on value).RegularAt path :=
  (schema.regular waiting value).regularAt path

theorem cautious : (schema.finds waiting mode value).Cautious :=
  (schema.regular waiting value).cautious mode []

theorem verdict_eq_none_iff :
    schema.verdict waiting value = none ↔
      (schema.finds waiting .collect value).issues ≠ [] :=
  (schema.regularAt waiting value []).explained

/-- A walk that leaves nothing open has the verdict of the waiting one. -/
theorem verdict_await_of_closed
    (closed : (schema.finds .refuse mode value).deferred = false) :
    schema.verdict .await value = schema.verdict .refuse value := by
  have same := ((schema.settles value).unchanged mode [] closed).1
  rwa [schema.output_eq_verdict, schema.output_eq_verdict] at same

/-- A rejection that rests on no guess is one of the waiting walk. -/
theorem verdict_await_of_rejected
    (rejects : schema.verdict .refuse value = none)
    (certain : (schema.finds .refuse mode value).guessed = false) :
    schema.verdict .await value = none := by
  have final := (schema.settles value).final mode [] certain
  rw [schema.output_eq_verdict, schema.output_eq_verdict, rejects] at final
  exact final.elim id id

theorem settled_accepted? :
    (schema.settled value : Outcome).accepted? = schema.verdict .await value :=
  Outcome.accepted?_conclude (schema.verdict_eq_none_iff .await value)

private theorem validate_eq :
    schema.validate value =
      if (schema.walk .refuse .collect value).2.settles then
        .ready ((schema.walk .refuse .collect value).2.conclude
          (schema.verdict .refuse value))
      else (.pending (schema.settled value) : Answer Id) := by
  unfold validate
  change (if (schema.walk .refuse .collect value).2.settles = true
    then _ else _ :
    Id _) = _
  split <;> rfl

theorem validate_of_accepted {output : Json}
    (accepts : schema.verdict .refuse value = some output)
    (closed : (schema.finds .refuse .collect value).deferred = false) :
    schema.validate value = (.ready (.success output) : Answer Id) := by
  have silent := (schema.regularAt .refuse value []).silent_of_some accepts
  rw [validate_eq, walk_eq, accepts]
  simp [WalkState.settles, WalkState.conclude, WalkState.add, closed, silent,
    Issues.ofList?]

theorem validate_of_rejected (rejects : schema.verdict .refuse value = none)
    (certain : (schema.finds .refuse .collect value).guessed = false) :
    ∃ issues : Issues,
      issues.toList = (schema.finds .refuse .collect value).issues ∧
      schema.validate value = (.ready (.failure issues) : Answer Id) := by
  have found := (schema.verdict_eq_none_iff .refuse value).mp rejects
  rw [validate_eq, walk_eq]
  cases issues : (schema.finds .refuse .collect value).issues with
  | nil => exact absurd issues found
  | cons first rest =>
      refine ⟨⟨first, rest⟩, rfl, ?_⟩
      simp [WalkState.settles, WalkState.conclude, WalkState.add,
        certain, issues, Issues.ofList?]

/-- Whether an accepting walk leaves a check open, or some output stands in for
an awaited one. -/
def HoldsBack : Prop :=
  (schema.verdict .refuse value ≠ none ∧
      (schema.finds .refuse .collect value).deferred = true) ∨
    (schema.finds .refuse .collect value).guessed = true

theorem validate_of_holdsBack (left_open : schema.HoldsBack value) :
    schema.validate value = (.pending (schema.settled value) : Answer Id) := by
  have unsettled : (schema.walk .refuse .collect value).2.settles = false := by
    rw [walk_eq]
    rcases left_open with ⟨accepts, deferred⟩ | guessed
    · obtain ⟨output, given⟩ := Option.ne_none_iff_exists'.mp accepts
      simp [WalkState.settles, WalkState.add, deferred,
        (schema.regularAt .refuse value []).silent_of_some given]
    · simp [WalkState.settles, WalkState.add, guessed,
        schema.cautious .refuse .collect value guessed]
  rw [validate_eq, unsettled]
  rfl

theorem validate_cases :
    (∃ output, schema.verdict .refuse value = some output ∧
        (schema.finds .refuse .collect value).deferred = false ∧
        schema.validate value = (.ready (.success output) : Answer Id)) ∨
      (∃ issues, schema.verdict .refuse value = none ∧
        (schema.finds .refuse .collect value).guessed = false ∧
        schema.validate value = (.ready (.failure issues) : Answer Id)) ∨
      (schema.HoldsBack value ∧
        schema.validate value =
          (.pending (schema.settled value) : Answer Id)) := by
  cases guessed : (schema.finds .refuse .collect value).guessed with
  | true =>
      exact .inr
        (.inr ⟨.inr guessed, schema.validate_of_holdsBack value (.inr guessed)⟩)
  | false =>
      cases given : schema.verdict .refuse value with
      | none =>
          obtain ⟨issues, _, rejected⟩ :=
            schema.validate_of_rejected value given guessed
          exact .inr (.inl ⟨issues, rfl, rfl, rejected⟩)
      | some output =>
          cases deferred : (schema.finds .refuse .collect value).deferred with
          | false =>
              exact .inl
                ⟨output, rfl, rfl,
                 schema.validate_of_accepted value given deferred⟩
          | true =>
              have left_open : schema.HoldsBack value :=
                .inl ⟨by simp [given], deferred⟩
              exact .inr
                (.inr ⟨left_open, schema.validate_of_holdsBack value left_open⟩)

theorem accepted?_of_validate_ready {outcome : Outcome}
    (ready : schema.validate value = (.ready outcome : Answer Id)) :
    outcome.accepted? = schema.verdict .await value := by
  rcases schema.validate_cases value with ⟨output, given, closed, accepted⟩ |
    ⟨issues, given, certain, rejected⟩ | ⟨_, pending⟩
  · rw [accepted] at ready
    cases ready
    rw [schema.verdict_await_of_closed .collect value closed, given]
    rfl
  · rw [rejected] at ready
    cases ready
    rw [schema.verdict_await_of_rejected .collect value given certain]
    rfl
  · rw [pending] at ready
    cases ready

theorem eq_settled_of_closed {outcome : Outcome}
    (ready : schema.validate value = (.ready outcome : Answer Id))
    (closed : (schema.finds .refuse .collect value).deferred = false) :
    outcome = schema.settled value := by
  have issues : (schema.walk .await .collect value).2.issues =
      (schema.walk .refuse .collect value).2.issues :=
    ((schema.settles value).unchanged .collect [] closed).2
  rw [validate_eq] at ready
  split at ready
  · cases ready
    change WalkState.conclude _ _ =
      (schema.walk .await .collect value).2.conclude
      (schema.verdict .await value)
    have same := schema.verdict_await_of_closed .collect value closed
    simp only [WalkState.conclude, issues, same]
  · cases ready

theorem settle_validate_accepted? :
    ((schema.validate value : Answer Id).settle : Outcome).accepted? =
      schema.verdict .await value := by
  rcases schema.validate_cases value with
    ⟨_, _, _, ready⟩ | ⟨_, _, _, ready⟩ | ⟨_, pending⟩
  · rw [ready]
    exact schema.accepted?_of_validate_ready value ready
  · rw [ready]
    exact schema.accepted?_of_validate_ready value ready
  · rw [pending]
    exact schema.settled_accepted? value

/-- A walk without waiting and a walk that waits, begun in one state without
marks.  When nothing is left open, both give and find the same.  When nothing is
guessed, a rejection stays one, and an output is given up only for a rejection.
So an answer at once accepts with the same output as the waiting walk, or
rejects as it does; when nothing was left open, its issues are the same too. -/
theorem walk_refuse_settles (schema : Schema Id) (value : Json) :
    (∀ (mode : Mode) (start : WalkState), start.deferred = false →
      start.guessed = false →
      let early := (schema.check .refuse mode value).run start
      let late := (schema.check .await mode value).run start
      ∃ earlyIssues lateIssues,
        early.2.issues = start.issues ++ earlyIssues ∧
        late.2.issues = start.issues ++ lateIssues ∧
        (early.2.deferred = false → early.1 = late.1 ∧
          earlyIssues = lateIssues) ∧
        (early.1 = none → early.2.guessed = false → late.1 = none) ∧
        (∀ output, early.1 = some output → early.2.guessed = false →
          late.1 = none ∨ late.1 = some output) ∧
        (early.2.guessed = true → early.2.deferred = true)) ∧
    ∀ outcome, schema.validate value = (.ready outcome : Answer Id) →
      outcome.accepted? = (schema.settled value : Outcome).accepted? ∧
      ((schema.walk .refuse .collect value).2.deferred = false →
        outcome = schema.settled value) := by
  refine ⟨fun mode start notDeferred notGuessed => ?_,
    fun outcome ready => ⟨?_, ?_⟩⟩
  · have settles := schema.settles value
    refine ⟨((schema.check .refuse mode value).findings start.path).issues,
      ((schema.check .await mode value).findings start.path).issues, ?_⟩
    rw [settles.earlySteady mode start, settles.lateSteady mode start]
    simp only [WalkState.add, notDeferred, notGuessed, Bool.false_or, true_and]
    refine ⟨fun closed => ?_, fun rejects certain => ?_,
      fun output gives certain => ?_,
      (schema.regular .refuse value).cautious mode start.path⟩
    · obtain ⟨sameOutput, sameIssues⟩ :=
        settles.unchanged mode start.path closed
      exact ⟨sameOutput.symm, sameIssues.symm⟩
    · rcases settles.final mode start.path certain with rejected | same
      · exact rejected
      · exact same.trans rejects
    · exact (settles.final mode start.path certain).imp id fun same =>
        same.trans gives
  · rw [settled_accepted?]
    exact schema.accepted?_of_validate_ready value ready
  · exact schema.eq_settled_of_closed value ready

/-- A text that is checked while waiting, or else a number: an option that
rejects leaves nothing open, and a text is taken for accepted until it is
awaited. -/
theorem walk_refuse_settles_union :
    let schema : Schema Id :=
      .union [.asyncRefined (.primitive .string) (fun _ => false) "taken",
        .primitive .number]
    let checked : Schema Id :=
      .asyncRefined (.primitive .string) (fun _ => false) "taken"
    let start : WalkState :=
      { path := [.key "name"], issues := [⟨[], "before", "custom"⟩] }
    ((schema.check .refuse .collect (.int 1)).run start).1 =
        ((schema.check .await .collect (.int 1)).run start).1 ∧
      ((schema.check .await .failFast (.bool true)).run start).1 = none ∧
      (((checked.check .await .collect (.string "a")).run start).1 = none ∨
        ((checked.check .await .collect (.string "a")).run start).1 =
          some (.string "a")) ∧
      ((schema.check .refuse .failFast (.string "a")).run start).2.deferred =
        true ∧
      Outcome.success (.int 1) = schema.settled (.int 1) := by
  intro schema checked start
  refine ⟨?_, ?_, ?_, ?_, ?_⟩
  · obtain ⟨_, _, _, _, closed, _⟩ :=
      (walk_refuse_settles schema (.int 1)).1 .collect start rfl rfl
    exact (closed rfl).1
  · obtain ⟨_, _, _, _, _, rejected, _⟩ :=
      (walk_refuse_settles schema (.bool true)).1 .failFast start rfl rfl
    exact rejected rfl rfl
  · obtain ⟨_, _, _, _, _, _, accepted, _⟩ :=
      (walk_refuse_settles checked (.string "a")).1 .collect start rfl rfl
    exact accepted (.string "a") rfl rfl
  · obtain ⟨_, _, _, _, _, _, _, cautious⟩ :=
      (walk_refuse_settles schema (.string "a")).1 .failFast start rfl rfl
    exact cautious rfl
  · exact ((walk_refuse_settles schema (.int 1)).2 (.success (.int 1)) rfl).2
      rfl

end Schema

end JsonMatch
