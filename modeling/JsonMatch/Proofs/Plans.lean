import JsonMatch.Plan.Compiled

/-!
# Plans of the built-in adapters

A plan is kept under the identity of its validator, and one identity belongs to
one validator.  When all compilers have the built-in adapters, whatever plan is
found for a validator has the strategy that these adapters choose for it, so
that an attempt does not depend on where its plan was kept.
-/

namespace JsonMatch

variable {m : Type → Type} [Monad m]

/-- The validators in use, found by their identities. -/
abbrev Registry (m : Type → Type) := Identity → Option (Validator m)

/-- Whether a validator is in use. -/
def Registry.Has (registry : Registry m) (validator : Validator m) : Prop :=
  registry validator.identity = some validator

/-- Whether a compiler has the built-in adapters and no others. -/
def Compiler.BuiltIn (compiler : Compiler m) : Prop :=
  compiler.adapters = Adapter.builtIn

/-- The strategy that the built-in adapters choose. -/
def Validator.strategy (validator : Validator m) : Strategy m :=
  (Compiler.shared.planFor validator).2

theorem Compiler.BuiltIn.planFor_eq {compiler : Compiler m}
    (builtIn : compiler.BuiltIn)
    (validator : Validator m) :
    (compiler.planFor validator).2 = validator.strategy := by
  rw [Validator.strategy, planFor, planFor, serving?, serving?, builtIn]
  rfl

theorem Compiler.BuiltIn.discriminator?_eq {compiler : Compiler m}
    (builtIn : compiler.BuiltIn) (validator : Validator m)
    (priority : List String) :
    compiler.discriminator? validator priority =
      shared.discriminator? validator priority := by
  rw [discriminator?, discriminator?, serving?, serving?, builtIn]
  rfl

/-- An attempt by the strategy that the built-in adapters choose. -/
def Validator.attemptBuiltIn (validator : Validator m) (waiting : Waiting)
    (input : Json) : m Attempt :=
  CompiledValidator.attemptWith ⟨validator, 0, "",
    validator.strategy⟩ waiting input

namespace Validator

variable [LawfulMonad m] {validator : Validator m}

theorem attemptBuiltIn_of_literal {literal : Json}
    (chosen : validator.strategy = .literal literal)
    (waiting : Waiting) (input : Json) :
    validator.attemptBuiltIn waiting input =
      pure (if input == literal then .matched input else .noMatch) := by
  cases waiting with
  | refuse =>
      change CompiledValidator.attempt _ input = _
      simp only [CompiledValidator.attempt, chosen]
  | await =>
      change (do
        return Attempt.ofVerdict (← CompiledValidator.settle _ input)) = _
      simp only [CompiledValidator.settle, chosen, pure_bind]
      split <;> rfl

theorem attemptBuiltIn_of_accelerated {check : Shortcut m}
    (chosen : validator.strategy = .accelerated check) (input : Json) :
    validator.attemptBuiltIn .refuse input = check.attempt validator input ∧
      validator.attemptBuiltIn .await input =
        Attempt.ofVerdict <$> check.settle validator input := by
  constructor
  · change CompiledValidator.attempt _ input = _
    simp only [CompiledValidator.attempt, chosen]
  · change (do
      return Attempt.ofVerdict (← CompiledValidator.settle _ input)) = _
    simp only [CompiledValidator.settle, chosen, bind_pure_comp]

theorem attemptBuiltIn_of_generic
    (chosen : validator.strategy = .generic) (input : Json) :
    validator.attemptBuiltIn .refuse input = validator.attempt input ∧
      validator.attemptBuiltIn .await input =
        Attempt.ofVerdict <$> validator.settle input := by
  constructor
  · change CompiledValidator.attempt _ input = _
    simp only [CompiledValidator.attempt, chosen]
  · change (do
      return Attempt.ofVerdict (← CompiledValidator.settle _ input)) = _
    simp only [CompiledValidator.settle, chosen, bind_pure_comp]

end Validator

theorem CompiledValidator.attemptWith_eq {compiled : CompiledValidator m}
    (chosen : compiled.plan.strategy = compiled.validator.strategy)
    (waiting : Waiting)
    (input : Json) :
    compiled.attemptWith waiting input =
      compiled.validator.attemptBuiltIn waiting input := by
  cases waiting with
  | refuse =>
      change compiled.attempt input = attempt _ input
      rw [attempt, attempt, chosen]
  | await =>
      change (do return .ofVerdict (← compiled.settle input)) =
        (do return .ofVerdict (← settle _ input) : m Attempt)
      rw [settle, settle, chosen]

omit [Monad m] in
theorem PlanTable.plan_of_insert {table : PlanTable m}
    {retired : Identity → Bool}
    {identity other : Identity} {plan found : Plan m}
    (kept : (table.insert retired identity plan).plan other = some found) :
    assign table.plan identity (some plan) other = some found := by
  unfold insert at kept
  split at kept
  · simp only [sweep] at kept
    split at kept
    · cases kept
    · exact kept
  · exact kept

namespace Store

omit [Monad m] in
theorem planOf_of_emptySlot {store : Store m} {validator : Validator m}
    (slotted : validator.slotted = true)
    (empty : store.slot validator.identity = none)
    (compiler : Compiler m) :
    (store.planOf compiler validator).1 =
      (store.build compiler validator).1 := by
  simp [planOf, slotted, empty]

omit [Monad m] in
theorem planOf_tables (store : Store m) (compiler : Compiler m)
    (validator : Validator m) :
    store.next ≤ (store.planOf compiler validator).2.next ∧
      (store.planOf compiler validator).2.table = store.table := by
  unfold planOf
  split
  · split
    · exact ⟨Nat.le_refl _, rfl⟩
    · exact ⟨Nat.le_succ _, rfl⟩
  · split
    · exact ⟨Nat.le_refl _, rfl⟩
    · exact ⟨Nat.le_succ _, rfl⟩

/-- Whether every plan kept for a validator in use is one of the built-in
adapters. -/
structure Faithful (registry : Registry m) (store : Store m) : Prop where
  slot : ∀ validator plan, registry.Has validator →
    store.slot validator.identity = some plan →
      plan.strategy = validator.strategy
  plans : ∀ compiler validator plan, registry.Has validator →
    (store.plans compiler).plan validator.identity = some plan →
    plan.strategy = validator.strategy

theorem faithful_empty (registry : Registry m) :
    ({} : Store m).Faithful registry where
  slot _ _ _ kept := nomatch kept
  plans _ _ _ _ kept := nomatch kept

namespace Faithful

variable {registry : Registry m} {store : Store m}

theorem of_eq {other : Store m} (faithful : store.Faithful registry)
    (slot : other.slot = store.slot) (plans : other.plans = store.plans) :
    other.Faithful registry where
  slot := slot ▸ faithful.slot
  plans := plans ▸ faithful.plans

theorem strategy_of_has {validator other : Validator m} {plan : Plan m}
    (has : registry.Has validator) (otherHas : registry.Has other)
    (chosen : plan.strategy = validator.strategy)
    (same : other.identity = validator.identity) :
    plan.strategy = other.strategy := by
  have one : other = validator := by
    rw [Registry.Has, same, has] at otherHas
    exact (Option.some.inj otherHas).symm
  rw [one, chosen]

theorem assignSlot {validator : Validator m} {plan : Plan m}
    (faithful : store.Faithful registry) (has : registry.Has validator)
    (chosen : plan.strategy = validator.strategy) :
    Faithful registry
      { store with
        slot := assign store.slot validator.identity (some plan) } where
  slot other found otherHas kept := by
    by_cases same : other.identity = validator.identity
    · simp only [same, assign_self, Option.some.injEq] at kept
      rw [← kept]
      exact strategy_of_has has otherHas chosen same
    · simp only [assign_of_ne _ _ same] at kept
      exact faithful.slot other found otherHas kept
  plans := faithful.plans

theorem assignPlans {validator : Validator m} {plan : Plan m}
    (faithful : store.Faithful registry) (has : registry.Has validator)
    (chosen : plan.strategy = validator.strategy) (compiler : Identity)
    (retired : Identity → Bool) :
    Faithful registry
      { store with
        plans := assign store.plans compiler ((store.plans compiler).insert
          retired validator.identity plan) } where
  slot := faithful.slot
  plans holder other found otherHas kept := by
    by_cases same : holder = compiler
    · simp only [same, assign_self] at kept
      have inserted := PlanTable.plan_of_insert kept
      by_cases here : other.identity = validator.identity
      · rw [here, assign_self, Option.some.injEq] at inserted
        rw [← inserted]
        exact strategy_of_has has otherHas chosen here
      · rw [assign_of_ne _ _ here] at inserted
        exact faithful.plans compiler other found otherHas inserted
    · simp only [assign_of_ne _ _ same] at kept
      exact faithful.plans holder other found otherHas kept

theorem build {compiler : Compiler m} {validator : Validator m}
    (faithful : store.Faithful registry) (builtIn : compiler.BuiltIn) :
    (store.build compiler validator).1.strategy = validator.strategy ∧
      (store.build compiler validator).2.Faithful registry :=
  ⟨builtIn.planFor_eq validator, faithful.of_eq rfl rfl⟩

/-- The plan found for a validator has the strategy of the built-in adapters,
and the store stays faithful. -/
theorem planOf {compiler : Compiler m} {validator : Validator m}
    (faithful : store.Faithful registry) (builtIn : compiler.BuiltIn)
    (has : registry.Has validator) :
    (store.planOf compiler validator).1.strategy = validator.strategy ∧
      (store.planOf compiler validator).2.Faithful registry := by
  obtain ⟨chosen, stays⟩ := faithful.build builtIn
  unfold Store.planOf
  split
  · split
    · rename_i plan kept
      exact ⟨faithful.slot validator plan has kept, faithful⟩
    · exact ⟨chosen, stays.assignSlot has chosen⟩
  · split
    · rename_i plan kept
      exact ⟨faithful.plans compiler.identity validator plan has kept, faithful⟩
    · exact ⟨chosen,
        stays.assignPlans has chosen compiler.identity store.retired⟩

end Faithful

end Store

end JsonMatch
