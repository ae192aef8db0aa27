import JsonMatch.Proofs.Immediacy
import JsonMatch.Proofs.Plans

/-!
# Attempts and validation

An attempt at a schema goes through a comparison, a precheck or a fail-fast
walk, and validation through a collecting walk.  The two agree: an attempt that
decides has the verdict of the validation, and one that leaves the verdict open
does so only when the validation holds back its answer.
-/

namespace JsonMatch

namespace Schema

variable (schema : Schema Id) (value : Json)

/-- What an attempt says about the verdict. -/
inductive Attempted : Attempt → Prop where
  | matched {output : Json}
      (accepts : schema.verdict .refuse value = some output)
      (closed : (schema.finds .refuse .collect value).deferred = false) :
      Attempted (.matched output)
  | noMatch (rejects : ∀ waiting, schema.verdict waiting value = none) :
      Attempted .noMatch
  | asyncRequired (left_open : schema.HoldsBack value) :
      Attempted .asyncRequired

private theorem attempt_eq :
    (schema.attempt schema.precheck value : Attempt) =
      if !schema.passes value then .noMatch
      else if schema.precheck.complete then .matched value
      else
        match schema.verdict .refuse value with
        | some output =>
            if (schema.finds .refuse .failFast value).deferred then
              .asyncRequired
            else .matched output
        | none =>
            if (schema.finds .refuse .failFast value).guessed then
              .asyncRequired
            else .noMatch := by
  unfold attempt
  rw [show (schema.walk .refuse .failFast value : Id _) = _ from
    schema.walk_eq .refuse .failFast value]
  cases schema.verdict .refuse value <;> rfl

/-- An attempt at a value says so much about it. -/
theorem attempted (wellFormed : value.isWellFormed = true) :
    schema.Attempted value (schema.attempt schema.precheck value :
      Attempt) := by
  have regular := schema.regularAt .refuse value []
  rw [attempt_eq]
  cases passes : schema.passes value with
  | false =>
      refine .noMatch fun waiting => ?_
      apply Decidable.byContradiction
      intro accepts
      rw [schema.passes_of_verdict waiting accepts] at passes
      cases passes
  | true =>
      cases complete : schema.precheck.complete with
      | true =>
          have closed := (Complete.immediate complete).closed value
          exact .matched
            (Complete.verdict_eq .refuse complete wellFormed passes)
            (closed.clear .collect []).deferred
      | false =>
          cases given : schema.verdict .refuse value with
          | some output =>
              -- An accepted value was walked to the end in both modes.
              have sameFindings : schema.finds .refuse .failFast value =
                  schema.finds .refuse .collect value :=
                regular.findings_eq given .failFast
              cases deferred :
                  (schema.finds .refuse .failFast value).deferred with
              | false => exact .matched given (sameFindings ▸ deferred)
              | true =>
                  exact .asyncRequired
                    (.inl ⟨by simp [given], sameFindings ▸ deferred⟩)
          | none =>
              cases guessed :
                  (schema.finds .refuse .failFast value).guessed with
              | false =>
                  refine .noMatch fun waiting => ?_
                  cases waiting with
                  | refuse => exact given
                  | await =>
                      exact schema.verdict_await_of_rejected .failFast
                        value given guessed
              | true =>
                exact .asyncRequired (.inr (regular.marks.guessed guessed))

theorem Attempted.answers {schema : Schema Id} {value : Json}
    {attempt : Attempt} (attempted : schema.Attempted value attempt) :
    (∀ output, attempt = .matched output ↔
        schema.validate value = (.ready (.success output) : Answer Id)) ∧
      (∀ issues, schema.validate value =
        (.ready (.failure issues) : Answer Id) →
        attempt = .noMatch) ∧
      (attempt = .asyncRequired →
        (schema.validate value : Answer Id).isPending = true) ∧
      (attempt = .noMatch →
        (schema.validate value : Answer Id).isPending = true →
        ∃ issues,
          ((schema.validate value : Answer Id).settle : Outcome) =
            .failure issues) := by
  cases attempted with
  | @matched output accepts closed =>
      have ready := schema.validate_of_accepted value accepts closed
      rw [ready]
      refine ⟨fun other => ?_, fun issues => nofun, nofun, nofun⟩
      constructor
      · intro same
        cases same
        rfl
      · intro same
        cases same
        rfl
  | noMatch rejects =>
      refine ⟨fun output => ⟨nofun, fun ready => ?_⟩, fun _ _ => rfl, nofun,
        fun _ _ => ?_⟩
      · have accepts := schema.accepted?_of_validate_ready value ready
        rw [rejects] at accepts
        cases accepts
      · have settled := schema.settle_validate_accepted? value
        rw [rejects] at settled
        cases outcome :
            ((schema.validate value : Answer Id).settle : Outcome) with
        | success output =>
            rw [outcome] at settled
            cases settled
        | failure issues => exact ⟨issues, rfl⟩
  | asyncRequired left_open =>
      have pending := schema.validate_of_holdsBack value left_open
      rw [pending]
      exact ⟨fun output => ⟨nofun, nofun⟩,
        fun issues => nofun, fun _ => rfl, nofun⟩

theorem settleAttempt_eq (wellFormed : value.isWellFormed = true) :
    (schema.settleAttempt schema.precheck value : Option Json) =
      schema.verdict .await value := by
  have attempted := schema.attempted value wellFormed
  unfold settleAttempt
  change (match (schema.attempt schema.precheck value : Attempt) with
    | .matched output => some output
    | .noMatch => none
    | .asyncRequired =>
        (schema.walk .await .failFast value : Option Json × WalkState).1) = _
  generalize (schema.attempt schema.precheck value : Attempt) =
    attempt at attempted ⊢
  cases attempted with
  | matched accepts closed =>
      rw [schema.verdict_await_of_closed .collect value closed, accepts]
  | noMatch rejects => exact (rejects .await).symm
  | asyncRequired _ =>
      have walked := congrArg Prod.fst (schema.walk_eq .await .failFast value)
      exact walked

end Schema

namespace Validator

section Strategies

variable {m : Type → Type} [Monad m] [LawfulMonad m]

omit [LawfulMonad m] in
private theorem strategy_ofSchema (identity : Identity) (schema : Schema m) :
    (∃ literal, schema = .literal literal ∧
        (ofSchema identity schema).strategy = .literal literal) ∨
      ∃ check : Shortcut m,
        (ofSchema identity schema).strategy = .accelerated check ∧
        (∀ input, check.attempt (ofSchema identity schema) input =
          schema.attempt schema.precheck input) ∧
        ∀ input, check.settle (ofSchema identity schema) input =
          schema.settleAttempt schema.precheck input := by
  have native : (ofSchema identity schema).strategy =
      Compiler.strategyOf Adapter.native (ofSchema identity schema) := rfl
  obtain ⟨check, offered, attempt, settle⟩ : ∃ check : Shortcut m,
      Adapter.native.accelerate? (ofSchema identity schema) = some check ∧
        (∀ input, check.attempt (ofSchema identity schema) input =
          schema.attempt schema.precheck input) ∧
        ∀ input, check.settle (ofSchema identity schema) input =
          schema.settleAttempt schema.precheck input :=
    ⟨_, rfl, fun _ => rfl, fun _ => rfl⟩
  cases known : Adapter.native.literal? (ofSchema identity schema) with
  | none =>
      refine .inr ⟨check, ?_, attempt, settle⟩
      rw [native, Compiler.strategyOf, known, offered]
  | some literal =>
      refine .inl ⟨literal, ?_, ?_⟩
      · simp only [Adapter.native, ofSchema] at known
        split at known
        · rename_i value shown
          split at known
          · cases known
            exact Option.some.inj shown
          · cases known
        · cases known
      · rw [native, Compiler.strategyOf, known]

theorem attemptBuiltIn_ofSchema (identity : Identity) (schema : Schema m) :
    (∃ literal, schema = .literal literal ∧ ∀ waiting input,
        (ofSchema identity schema).attemptBuiltIn waiting input =
          pure (if input == literal then .matched input else .noMatch)) ∨
      ∀ input,
        (ofSchema identity schema).attemptBuiltIn .refuse input =
            schema.attempt schema.precheck input ∧
          (ofSchema identity schema).attemptBuiltIn .await input =
            Attempt.ofVerdict <$>
              schema.settleAttempt schema.precheck input := by
  rcases strategy_ofSchema identity schema with ⟨literal, same, chosen⟩ |
    ⟨check, chosen, attempt, settle⟩
  · exact .inl ⟨literal, same, attemptBuiltIn_of_literal chosen⟩
  · refine .inr fun input => ?_
    rw [← attempt, ← settle]
    exact attemptBuiltIn_of_accelerated chosen input

end Strategies

variable (identity : Identity) (schema : Schema Id) {input : Json}

theorem attempted_ofSchema (wellFormed : input.isWellFormed = true) :
    schema.Attempted input
      ((ofSchema identity schema).attemptBuiltIn .refuse input : Attempt) := by
  rcases attemptBuiltIn_ofSchema identity schema with
    ⟨literal, rfl, compared⟩ | attempt
  · rw [compared]
    have closed := (Schema.Immediate.literal literal).closed input
    have verdict := fun waiting => Schema.verdict_literal waiting literal input
    change Schema.Attempted _ input (if (input == literal) = true then _ else _)
    split
    · rename_i same
      exact .matched ((verdict .refuse).trans (if_pos same))
        (closed.clear .collect []).deferred
    · rename_i differs
      exact .noMatch fun waiting => (verdict waiting).trans (if_neg differs)
  · rw [(attempt input).1]
    exact schema.attempted input wellFormed

theorem attemptBuiltIn_ofSchema_await (wellFormed : input.isWellFormed = true) :
    ((ofSchema identity schema).attemptBuiltIn .await input : Attempt) =
      .ofVerdict (schema.verdict .await input) := by
  rcases attemptBuiltIn_ofSchema identity schema with
    ⟨literal, rfl, compared⟩ | attempt
  · rw [compared, Schema.verdict_literal]
    change (if (input == literal) = true then _ else _) = _
    split <;> rfl
  · rw [(attempt input).2, ← schema.settleAttempt_eq input wellFormed]
    rfl

end Validator

/-- A schema that is compiled with the built-in adapters, and whose plan was
built by such a compiler if it was kept, is attempted as it is validated. -/
theorem Schema.compiled_attempt_agrees (compiler : Compiler Id)
    (builtIn : compiler.BuiltIn)
    (store : Store Id) (identity : Identity) (schema : Schema Id)
    (kept : ∀ plan, store.slot identity = some plan → ∃ builder : Compiler Id,
      builder.BuiltIn ∧
        plan.strategy =
          (builder.planFor (Validator.ofSchema identity schema)).2)
    (input : Json) (wellFormed : input.isWellFormed = true) :
    let compiled : CompiledValidator Id :=
      (StateT.run (m := Id)
        (compiler.compile (Validator.ofSchema identity schema)) store).1
    let attempt : Attempt := compiled.attempt input
    let answer : Answer Id := schema.validate input
    (∀ output, attempt = .matched output ↔ answer = .ready (.success output)) ∧
      (∀ issues, answer = .ready (.failure issues) → attempt = .noMatch) ∧
      (attempt = .asyncRequired → answer.isPending = true) ∧
      (attempt = .noMatch → answer.isPending = true →
        ∃ issues, (answer.settle : Outcome) = .failure issues) := by
  intro compiled attempt answer
  have chosen : compiled.plan.strategy = compiled.validator.strategy := by
    change (store.planOf compiler
      (Validator.ofSchema identity schema)).1.strategy = _
    cases found : store.slot identity with
    | none =>
        rw [Store.planOf_of_emptySlot rfl found]
        exact builtIn.planFor_eq _
    | some plan =>
        obtain ⟨builder, builderBuiltIn, strategy⟩ := kept plan found
        rw [Store.planOf_of_slot rfl found, strategy]
        exact builderBuiltIn.planFor_eq _
  have same : attempt =
      (Validator.ofSchema identity schema).attemptBuiltIn .refuse input :=
    CompiledValidator.attemptWith_eq chosen .refuse input
  have attempted := Validator.attempted_ofSchema identity schema wellFormed
  rw [← same] at attempted
  exact attempted.answers

/-- A number is matched, a text is left open, and `null` is rejected; a pair is
rejected by its first item before its second one, which is held back, is looked
at. -/
theorem Schema.compiled_attempt_agrees_union :
    let checked : Schema Id :=
      .union [.asyncRefined (.primitive .string) (fun _ => false) "taken",
        .primitive .number]
    let pair : Schema Id :=
      .tuple [.refined (.primitive .number) (.custom fun _ => false) none,
        .custom fun value => .pending (.success value)] none
    let compiled (schema : Schema Id) : CompiledValidator Id :=
      (StateT.run (m := Id)
        (Compiler.shared.compile (Validator.ofSchema 1 schema))
        ({} : Store Id)).1
    ((compiled checked).attempt (.int 1) : Attempt) = .matched (.int 1) ∧
      (checked.validate (.string "a") : Answer Id).isPending = true ∧
      ((compiled checked).attempt .null : Attempt) = .noMatch ∧
      ∃ issues,
        ((pair.validate (.array [.int 1, .null]) : Answer Id).settle :
          Outcome) =
        .failure issues := by
  intro checked pair compiled
  have agrees (schema : Schema Id) :=
    compiled_attempt_agrees Compiler.shared rfl ({} : Store Id) 1 schema nofun
  refine ⟨?_, ?_, ?_, ?_⟩
  · exact ((agrees checked (.int 1) rfl).1 (.int 1)).mpr rfl
  · exact (agrees checked (.string "a") rfl).2.2.1 rfl
  · exact (agrees checked .null rfl).2.1 _ rfl
  · exact (agrees pair (.array [.int 1, .null]) rfl).2.2.2 rfl rfl

end JsonMatch
