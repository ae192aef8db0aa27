import JsonMatch.Proofs.Plans
import Mathlib.Logic.Basic

/-!
# Requests for plans

A store answers requests for plans.  For a slotted validator the first request
decides, whichever compiler makes it; for any other validator each compiler
decides for itself.  In both cases the plan is built by that request and by no
later one, and a sweep takes away plans of validators that are gone only.
-/

namespace JsonMatch

variable {m : Type → Type}

/-- What a plan says, apart from its identity. -/
def Plan.content (plan : Plan m) : String × Strategy m :=
  (plan.family, plan.strategy)

/-- A compiler that is asked for the plan of a validator. -/
structure Request (m : Type → Type) where
  compiler : Compiler m
  validator : Validator m

/-- The compilers and the validators in use, found by their identities. -/
structure Catalogue (m : Type → Type) where
  compiler? : Identity → Option (Compiler m)
  validator? : Registry m

def Catalogue.HasCompiler (catalogue : Catalogue m)
    (compiler : Compiler m) : Prop :=
  catalogue.compiler? compiler.identity = some compiler

def Catalogue.HasValidator (catalogue : Catalogue m)
    (validator : Validator m) : Prop :=
  catalogue.validator?.Has validator

theorem Catalogue.HasValidator.eq_of_identity {catalogue : Catalogue m}
    {validator other : Validator m} (has : catalogue.HasValidator validator)
    (otherHas : catalogue.HasValidator other)
    (same : validator.identity = other.identity) : validator = other := by
  rw [HasValidator, Registry.Has, same, otherHas] at has
  exact (Option.some.inj has).symm

theorem Catalogue.HasCompiler.eq_of_identity {catalogue : Catalogue m}
    {compiler other : Compiler m} (has : catalogue.HasCompiler compiler)
    (otherHas : catalogue.HasCompiler other)
    (same : compiler.identity = other.identity) : compiler = other := by
  rw [HasCompiler, same, otherHas] at has
  exact (Option.some.inj has).symm

namespace Request

/-- Whether a request is for a validator. -/
def isFor (validator : Validator m) (request : Request m) : Bool :=
  request.validator.identity == validator.identity

/-- Whether a request is made of a compiler for a validator. -/
def isOf (compiler : Compiler m) (validator : Validator m)
    (request : Request m) : Bool :=
  request.compiler.identity == compiler.identity && request.isFor validator

theorem isFor_self (request : Request m) :
    request.isFor request.validator = true :=
  beq_self_eq_true _

theorem isOf_self (request : Request m) :
    request.isOf request.compiler request.validator = true := by
  simp [isOf, isFor]

end Request

namespace Build

def isFor (validator : Validator m) (build : Build) : Bool :=
  build.validator == validator.identity

def isOf (compiler : Compiler m) (validator : Validator m)
    (build : Build) : Bool :=
  build.compiler == compiler.identity && build.isFor validator

end Build

/-- The plan that is kept is the one that was first asked for, and it was built
once; nothing is kept and nothing was built when none was asked for. -/
structure BuiltOnce (asked : Option (String × Strategy m))
    (kept : Option (Plan m)) (builds : Nat) : Prop where
  content : kept.map Plan.content = asked
  builds : builds = if asked.isSome then 1 else 0

namespace BuiltOnce

variable {asked other : Option (Request m)}
variable {answer : Request m → String × Strategy m} {builds : Nat}

theorem again {plan : Plan m}
    (once : BuiltOnce (asked.map answer) (some plan) builds) :
    BuiltOnce ((asked.or other).map answer) (some plan) builds := by
  cases asked with
  | none => cases once.content
  | some first => exact once

theorem first (request : Request m) {plan : Plan m}
    (once : BuiltOnce (asked.map answer) none builds)
    (content : plan.content = answer request) :
    BuiltOnce ((asked.or (some request)).map answer)
      (some plan) (builds + 1) := by
  cases asked with
  | some earlier => cases once.content
  | none => exact ⟨congrArg some content, congrArg (· + 1) once.builds⟩

end BuiltOnce

/-- The note that a compiler built the plan of a validator. -/
def Compiler.buildFor (compiler : Compiler m)
    (validator : Validator m) : Build :=
  ⟨compiler.identity, validator.identity, (compiler.planFor validator).1⟩

theorem PlanTable.plan_insert_of_alive {table : PlanTable m}
    {retired : Identity → Bool} {identity other : Identity} {plan : Plan m}
    (alive : retired other = false) :
    (table.insert retired identity plan).plan other =
      assign table.plan identity (some plan) other := by
  unfold insert
  split
  · simp [sweep, alive]
  · rfl

namespace Store

/-- Whether a store has answered some requests, the first one first. -/
structure HasAnswered (catalogue : Catalogue m) (requests : List (Request m))
    (store : Store m) : Prop where
  /-- The first compiler asked decides for a slotted validator. -/
  slotted : ∀ validator, catalogue.HasValidator validator →
    validator.slotted = true →
    BuiltOnce
      ((requests.find? (·.isFor validator)).map (·.compiler.planFor validator))
      (store.slot validator.identity) (store.built.countP (·.isFor validator))
  /-- Every compiler decides for itself for a validator without a slot. -/
  unslotted : ∀ compiler, catalogue.HasCompiler compiler →
    ∀ validator, catalogue.HasValidator validator → validator.slotted = false →
    store.retired validator.identity = false →
    BuiltOnce
      ((requests.find? (·.isOf compiler validator)).map fun _ =>
        compiler.planFor validator)
      ((store.plans compiler.identity).plan validator.identity)
      (store.built.countP (·.isOf compiler validator))
  /-- The tables keep nothing else. -/
  tables : ∀ holder kept plan, (store.plans holder).plan kept = some plan →
    ∃ compiler validator, catalogue.HasCompiler compiler ∧
      catalogue.HasValidator validator ∧ validator.slotted = false ∧
      compiler.identity = holder ∧ validator.identity = kept ∧
      plan.content = compiler.planFor validator

/-- What answering requests one after another makes of a store. -/
def answerAll (store : Store m) (requests : List (Request m)) : Store m :=
  requests.foldl
    (fun store request => (store.planOf request.compiler request.validator).2)
    store

theorem answerAll_append (store : Store m) (requests later : List (Request m)) :
    store.answerAll (requests ++ later) =
      (store.answerAll requests).answerAll later :=
  List.foldl_append

/-- A plan is kept already, or it is built and then kept. -/
theorem planOf_cases (store : Store m) (compiler : Compiler m)
    (validator : Validator m) :
    (validator.slotted = true ∧
        ((∃ plan, store.slot validator.identity = some plan ∧
            (store.planOf compiler validator).2 = store) ∨
          store.slot validator.identity = none ∧
            (store.planOf compiler validator).2 =
              { store with
                next := store.next + 1
                built := compiler.buildFor validator :: store.built
                slot := assign store.slot validator.identity
                  (some (store.build compiler validator).1) })) ∨
      validator.slotted = false ∧
        ((∃ plan, (store.plans compiler.identity).plan validator.identity =
          some plan ∧
            (store.planOf compiler validator).2 = store) ∨
          (store.plans compiler.identity).plan validator.identity = none ∧
            (store.planOf compiler validator).2 =
              { store with
                next := store.next + 1
                built := compiler.buildFor validator :: store.built
                plans := assign store.plans compiler.identity
                  ((store.plans compiler.identity).insert store.retired
                    validator.identity
                    (store.build compiler validator).1) }) := by
  cases slotted : validator.slotted with
  | true =>
      refine .inl ⟨rfl, ?_⟩
      cases kept : store.slot validator.identity with
      | some plan => exact .inl ⟨plan, rfl, by rw [planOf_of_slot slotted kept]⟩
      | none =>
          refine .inr ⟨rfl, ?_⟩
          simp only [planOf, slotted, kept, if_true]
          rfl
  | false =>
      refine .inr ⟨rfl, ?_⟩
      cases kept : (store.plans compiler.identity).plan validator.identity with
      | some plan =>
        exact .inl ⟨plan, rfl, by rw [planOf_of_plans slotted kept]⟩
      | none =>
          refine .inr ⟨rfl, ?_⟩
          simp only [planOf, slotted, kept]
          rfl

theorem content_build (store : Store m) (compiler : Compiler m)
    (validator : Validator m) :
    (store.build compiler validator).1.content = compiler.planFor validator :=
  rfl

section Other

variable {store : Store m} {compiler : Compiler m} {validator : Validator m}

theorem slot_planOf_of_ne {other : Identity}
    (different : other ≠ validator.identity) :
    (store.planOf compiler validator).2.slot other = store.slot other := by
  rcases store.planOf_cases compiler validator with
    ⟨_, ⟨_, _, left⟩ | ⟨_, left⟩⟩ | ⟨_, ⟨_, _, left⟩ | ⟨_, left⟩⟩
  · rw [left]
  · rw [left]
    exact assign_of_ne _ _ different
  · rw [left]
  · rw [left]

theorem countP_planOf_of_ne {counts : Build → Bool}
    (different : counts (compiler.buildFor validator) = false) :
    (store.planOf compiler validator).2.built.countP counts =
      store.built.countP counts := by
  have notCounted : (compiler.buildFor validator :: store.built).countP counts =
      store.built.countP counts := by
    rw [List.countP_cons_of_neg]
    rw [different]
    exact Bool.false_ne_true
  rcases store.planOf_cases compiler validator with
    ⟨_, ⟨_, _, left⟩ | ⟨_, left⟩⟩ | ⟨_, ⟨_, _, left⟩ | ⟨_, left⟩⟩
  · rw [left]
  · rw [left]
    exact notCounted
  · rw [left]
  · rw [left]
    exact notCounted

/-- A request leaves the plans of other compilers and validators alone, but for
those of validators that are gone. -/
theorem plans_planOf_of_ne {holder kept : Identity}
    (different : holder ≠ compiler.identity ∨ kept ≠ validator.identity)
    (alive : store.retired kept = false) :
    ((store.planOf compiler validator).2.plans holder).plan kept =
      (store.plans holder).plan kept := by
  rcases store.planOf_cases compiler validator with
    ⟨_, ⟨_, _, left⟩ | ⟨_, left⟩⟩ | ⟨_, ⟨_, _, left⟩ | ⟨_, left⟩⟩
  · rw [left]
  · rw [left]
  · rw [left]
  · rw [left]
    change (assign store.plans compiler.identity _ holder).plan kept = _
    by_cases same : holder = compiler.identity
    · have other : kept ≠ validator.identity := by
        rcases different with differs | other
        · exact absurd same differs
        · exact other
      rw [same, assign_self, PlanTable.plan_insert_of_alive alive,
        assign_of_ne _ _ other]
    · rw [assign_of_ne _ _ same]

end Other

theorem retired_planOf (store : Store m) (compiler : Compiler m)
    (validator : Validator m) :
    (store.planOf compiler validator).2.retired = store.retired := by
  rcases store.planOf_cases compiler validator with
    ⟨_, ⟨_, _, left⟩ | ⟨_, left⟩⟩ | ⟨_, ⟨_, _, left⟩ | ⟨_, left⟩⟩ <;>
  rw [left]

theorem retired_answerAll (store : Store m) (requests : List (Request m)) :
    (store.answerAll requests).retired = store.retired := by
  induction requests generalizing store with
  | nil => rfl
  | cons request requests induction =>
      rw [← store.retired_planOf request.compiler request.validator]
      exact induction _

theorem answerAll_tables (store : Store m) (requests : List (Request m)) :
    store.next ≤ (store.answerAll requests).next ∧
      (store.answerAll requests).table = store.table := by
  induction requests generalizing store with
  | nil => exact ⟨Nat.le_refl _, rfl⟩
  | cons request requests induction =>
      obtain ⟨grows, same⟩ :=
        store.planOf_tables request.compiler request.validator
      obtain ⟨growsLater, sameLater⟩ := induction
        (store.planOf request.compiler request.validator).2
      exact ⟨Nat.le_trans grows growsLater, sameLater.trans same⟩

namespace HasAnswered

variable {catalogue : Catalogue m} {requests : List (Request m)}
    {store : Store m}

theorem start (catalogue : Catalogue m) :
    ({} : Store m).HasAnswered catalogue [] where
  slotted _ _ _ := ⟨rfl, rfl⟩
  unslotted _ _ _ _ _ _ := ⟨rfl, rfl⟩
  tables := nofun

/-- What is not kept or known of plans does not matter, and validators may go
away. -/
theorem of_eq (answered : store.HasAnswered catalogue requests)
    {other : Store m}
    (slot : other.slot = store.slot) (plans : other.plans = store.plans)
    (built : other.built = store.built)
    (retired : ∀ validator, store.retired validator = true →
      other.retired validator = true) :
    other.HasAnswered catalogue requests where
  slotted := by
    rw [slot, built]
    exact answered.slotted
  unslotted compiler compilerHas validator validatorHas unslotted alive := by
    rw [plans, built]
    apply answered.unslotted compiler compilerHas validator
      validatorHas unslotted
    cases gone : store.retired validator.identity with
    | false => rfl
    | true => rw [retired _ gone] at alive; cases alive
  tables := by
    rw [plans]
    exact answered.tables

private theorem slotted_planOf (answered : store.HasAnswered catalogue requests)
    {request : Request m}
    (requestedHas : catalogue.HasValidator request.validator)
    {validator : Validator m} (has : catalogue.HasValidator validator)
    (slotted : validator.slotted = true) :
    BuiltOnce
      (((requests ++ [request]).find? (·.isFor validator)).map
        (·.compiler.planFor validator))
      ((store.planOf request.compiler request.validator).2.slot
        validator.identity)
      ((store.planOf request.compiler request.validator).2.built.countP
        (·.isFor validator)) := by
  have before := answered.slotted validator has slotted
  rw [List.find?_append, List.find?_singleton]
  -- The slot changes only where it is empty and the request is for this
  -- validator.
  by_cases same : request.validator.identity = validator.identity
  · obtain rfl : request.validator = validator :=
      requestedHas.eq_of_identity has same
    rw [if_pos request.isFor_self]
    rcases store.planOf_cases request.compiler request.validator with
      ⟨_, ⟨plan, kept, left⟩ | ⟨empty, left⟩⟩ | ⟨unslotted, _⟩
    · rw [left, kept]
      rw [kept] at before
      exact before.again
    · rw [empty] at before
      have built := before.first request
        (store.content_build request.compiler request.validator)
      rw [left]
      dsimp only
      rwa [assign_self, List.countP_cons_of_pos]
      exact request.isFor_self
    · rw [slotted] at unslotted
      cases unslotted
  · have differs : request.isFor validator = false :=
      beq_eq_false_iff_ne.mpr same
    rw [differs, if_neg Bool.false_ne_true, Option.or_none,
      slot_planOf_of_ne (Ne.symm same), countP_planOf_of_ne]
    · exact before
    · exact differs

private theorem unslotted_planOf
    (answered : store.HasAnswered catalogue requests)
    {request : Request m} (askedHas : catalogue.HasCompiler request.compiler)
    (requestedHas : catalogue.HasValidator request.validator)
    {compiler : Compiler m} (compilerHas : catalogue.HasCompiler compiler)
    {validator : Validator m} (has : catalogue.HasValidator validator)
    (unslotted : validator.slotted = false)
    (alive : store.retired validator.identity = false) :
    BuiltOnce
      (((requests ++ [request]).find? (·.isOf compiler validator)).map fun _ =>
        compiler.planFor validator)
      (((store.planOf request.compiler request.validator).2.plans
        compiler.identity).plan validator.identity)
      ((store.planOf request.compiler request.validator).2.built.countP
        (·.isOf compiler validator)) := by
  have before :=
    answered.unslotted compiler compilerHas validator has unslotted alive
  rw [List.find?_append, List.find?_singleton]
  by_cases same : request.compiler.identity = compiler.identity ∧
      request.validator.identity = validator.identity
  · obtain rfl : request.compiler = compiler :=
      askedHas.eq_of_identity compilerHas same.1
    obtain rfl : request.validator = validator :=
      requestedHas.eq_of_identity has same.2
    rw [if_pos request.isOf_self]
    rcases store.planOf_cases request.compiler request.validator with
      ⟨slotted, _⟩ | ⟨_, ⟨plan, kept, left⟩ | ⟨empty, left⟩⟩
    · rw [unslotted] at slotted
      cases slotted
    · rw [left, kept]
      rw [kept] at before
      exact before.again
    · rw [empty] at before
      have built := before.first request
        (store.content_build request.compiler request.validator)
      rw [left]
      dsimp only
      rwa [assign_self, PlanTable.plan_insert_of_alive alive, assign_self,
        List.countP_cons_of_pos]
      exact request.isOf_self
  · have differs : request.isOf compiler validator = false := by
      simpa [Request.isOf, Request.isFor] using same
    rw [differs, if_neg Bool.false_ne_true, Option.or_none,
      plans_planOf_of_ne _ alive, countP_planOf_of_ne]
    · exact before
    · exact differs
    · exact (not_and_or.mp same).imp Ne.symm Ne.symm

private theorem tables_planOf (answered : store.HasAnswered catalogue requests)
    {request : Request m} (askedHas : catalogue.HasCompiler request.compiler)
    (requestedHas : catalogue.HasValidator request.validator)
    {holder kept : Identity} {plan : Plan m}
    (found :
      ((store.planOf request.compiler request.validator).2.plans holder).plan
      kept = some plan) :
    ∃ compiler validator, catalogue.HasCompiler compiler ∧
      catalogue.HasValidator validator ∧ validator.slotted = false ∧
      compiler.identity = holder ∧ validator.identity = kept ∧
      plan.content = compiler.planFor validator := by
  rcases store.planOf_cases request.compiler request.validator with
    ⟨_, ⟨_, _, left⟩ | ⟨_, left⟩⟩ | ⟨unslotted, ⟨_, _, left⟩ | ⟨_, left⟩⟩
  · rw [left] at found
    exact answered.tables holder kept plan found
  · rw [left] at found
    exact answered.tables holder kept plan found
  · rw [left] at found
    exact answered.tables holder kept plan found
  · rw [left] at found
    change (assign store.plans request.compiler.identity _ holder).plan kept =
      some plan at found
    by_cases same : holder = request.compiler.identity
    · rw [same, assign_self] at found
      -- An insertion may sweep the table, but a sweep brings nothing in.
      have inserted := PlanTable.plan_of_insert found
      by_cases here : kept = request.validator.identity
      · rw [here, assign_self, Option.some.injEq] at inserted
        exact ⟨request.compiler, request.validator, askedHas,
          requestedHas, unslotted,
          same.symm, here.symm, by rw [← inserted]; rfl⟩
      · rw [assign_of_ne _ _ here] at inserted
        rw [same]
        exact answered.tables _ kept plan inserted
    · rw [assign_of_ne _ _ same] at found
      exact answered.tables holder kept plan found

theorem planOf (answered : store.HasAnswered catalogue requests)
    {request : Request m} (askedHas : catalogue.HasCompiler request.compiler)
    (requestedHas : catalogue.HasValidator request.validator) :
    (store.planOf request.compiler request.validator).2.HasAnswered catalogue
      (requests ++ [request]) where
  slotted _ has slotted := answered.slotted_planOf requestedHas has slotted
  unslotted _ compilerHas _ has unslotted alive := by
    rw [retired_planOf] at alive
    exact answered.unslotted_planOf askedHas requestedHas
      compilerHas has unslotted alive
  tables _ _ _ found := answered.tables_planOf askedHas requestedHas found

theorem answerAll (answered : store.HasAnswered catalogue requests)
    {later : List (Request m)}
    (inUse : ∀ request ∈ later, catalogue.HasCompiler request.compiler ∧
      catalogue.HasValidator request.validator) :
    (store.answerAll later).HasAnswered catalogue (requests ++ later) := by
  induction later generalizing store requests with
  | nil =>
      rw [List.append_nil]
      exact answered
  | cons request later induction =>
      obtain ⟨askedHas, requestedHas⟩ := inUse request List.mem_cons_self
      have one := answered.planOf askedHas requestedHas
      have rest := induction one fun other member => inUse other
        (List.mem_cons_of_mem _ member)
      rw [List.append_assoc] at rest
      exact rest

end HasAnswered

end Store

end JsonMatch
