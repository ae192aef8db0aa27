import JsonMatch.Dispatch.Table
import JsonMatch.Plan.Adapter

/-!
# Plans and where they are kept

A compiler turns a validator into a plan, the part of a compiled validator that
does not hold the validator itself.  A plan is built once: a slotted validator
keeps its plan, whichever compiler built it, and every compiler keeps the plans
of the other validators that it compiled in a table of its own.  From time to
time that table is swept of validators that are gone.

The store holds all plans, the dispatch tables that matchers have built, and the
supply of identities.
-/

namespace JsonMatch

/-- How a compiled validator decides. -/
inductive Strategy (m : Type → Type) where
  /-- By comparing with the only value accepted. -/
  | literal (value : Json)
  | accelerated (check : Shortcut m)
  /-- By validation. -/
  | generic

def Strategy.name {m : Type → Type} : Strategy m → String
  | .literal _ => "literal"
  | .accelerated _ => "accelerated"
  | .generic => "generic"

/-- The part of a compiled validator that is kept. -/
structure Plan (m : Type → Type) where
  identity : Identity
  family : String
  strategy : Strategy m

/-- The plans a compiler keeps for validators without a slot. -/
structure PlanTable (m : Type → Type) where
  plan : Identity → Option (Plan m) := fun _ => none
  inserts : Nat := 0

/-- A plan that was built. -/
structure Build where
  compiler : Identity
  validator : Identity
  family : String
  deriving DecidableEq, Repr

/-- Everything that is kept under an identity. -/
structure Store (m : Type → Type) where
  /-- The least identity not given away. -/
  next : Identity := 1
  /-- The plan of a slotted validator. -/
  slot : Identity → Option (Plan m) := fun _ => none
  /-- The plans that a compiler keeps. -/
  plans : Identity → PlanTable m := fun _ => {}
  /-- Validators that are gone. -/
  retired : Identity → Bool := fun _ => false
  /-- What a matcher found out about its dispatch table. -/
  table : Identity → Option (Option DispatchTable) := fun _ => none
  /-- The plans built, the last one first. -/
  built : List Build := []

/-- A function changed at one identity. -/
def assign {α : Type} (held : Identity → α) (identity : Identity) (value : α) :
    Identity → α :=
  fun other => if other = identity then value else held other

@[simp] theorem assign_self {α : Type} (held : Identity → α)
    (identity : Identity) (value : α) :
    assign held identity value identity = value := by
  simp [assign]

theorem assign_of_ne {α : Type} (held : Identity → α)
    {identity other : Identity} (value : α) (different : other ≠ identity) :
    assign held identity value other = held other := by
  simp [assign, different]

/-- What is kept under an identity, found out now if there is nothing yet; and
all that is kept then. -/
def askOnce {α : Type} (kept : Identity → Option α) (identity : Identity)
    (find : Unit → α) : α × (Identity → Option α) :=
  match kept identity with
  | some value => (value, kept)
  | none =>
      let value := find ()
      (value, assign kept identity (some value))

namespace PlanTable

variable {m : Type → Type}

/-- Insertions from one sweep to the next. -/
def sweepInterval : Nat := 64

/-- Drops the plans of validators that are gone. -/
def sweep (table : PlanTable m) (retired : Identity → Bool) : PlanTable m :=
  { table with
    plan := fun identity => if retired identity then none
      else table.plan identity }

/-- Keeps a plan, and sweeps the table when it is time to. -/
def insert (table : PlanTable m) (retired : Identity → Bool)
    (identity : Identity) (plan : Plan m) : PlanTable m :=
  let grown : PlanTable m :=
    ⟨assign table.plan identity (some plan), table.inserts + 1⟩
  if table.inserts % sweepInterval = sweepInterval - 1 then grown.sweep retired
  else grown

end PlanTable

/-- A compiler with its adapters; the first that detects a validator serves
it. -/
structure Compiler (m : Type → Type) where
  identity : Identity
  adapters : List (Adapter m)

variable {m : Type → Type}

namespace Compiler

/-- The compiler used where none is named. -/
def shared [Monad m] : Compiler m :=
  ⟨0, Adapter.builtIn⟩

def serving? (compiler : Compiler m) (validator : Validator m) :
    Option (Adapter m) :=
  compiler.adapters.find? fun adapter => adapter.detects validator

/-- The strategy that an adapter offers: its literal, else its shortcut, else
none. -/
def strategyOf (adapter : Adapter m) (validator : Validator m) : Strategy m :=
  match adapter.literal? validator with
  | some literal => .literal literal
  | none =>
      match adapter.accelerate? validator with
      | some check => .accelerated check
      | none => .generic

/-- The family and the strategy for a validator. -/
def planFor (compiler : Compiler m) (validator : Validator m) :
    String × Strategy m :=
  match compiler.serving? validator with
  | some adapter => (adapter.name, strategyOf adapter validator)
  | none => ("generic", .generic)

/-- The discriminator that the adapter of a validator finds. -/
def discriminator? (compiler : Compiler m) (validator : Validator m)
    (priority : List String) : Option Discriminator :=
  (compiler.serving? validator).bind fun adapter =>
    adapter.discriminator? validator priority

end Compiler

namespace Store

def fresh (store : Store m) : Identity × Store m :=
  (store.next, { store with next := store.next + 1 })

def retire (store : Store m) (validator : Identity) : Store m :=
  { store with retired := assign store.retired validator true }

def build (store : Store m) (compiler : Compiler m) (validator : Validator m) :
    Plan m × Store m :=
  let (family, strategy) := compiler.planFor validator
  let (identity, store) := store.fresh
  (⟨identity, family, strategy⟩,
    { store with
      built := ⟨compiler.identity, validator.identity, family⟩ :: store.built })

/-- The plan of a validator, built if there is none yet. -/
def planOf (store : Store m) (compiler : Compiler m) (validator : Validator m) :
    Plan m × Store m :=
  if validator.slotted then
    match store.slot validator.identity with
    | some plan => (plan, store)
    | none =>
        let (plan, store) := store.build compiler validator
        (plan, { store with
          slot := assign store.slot validator.identity (some plan) })
  else
    match (store.plans compiler.identity).plan validator.identity with
    | some plan => (plan, store)
    | none =>
        let (plan, store) := store.build compiler validator
        let table := (store.plans compiler.identity).insert store.retired
          validator.identity plan
        (plan, { store with
          plans := assign store.plans compiler.identity table })

theorem planOf_of_slot {store : Store m} {validator : Validator m}
    {plan : Plan m} (slotted : validator.slotted = true)
    (kept : store.slot validator.identity = some plan) (compiler : Compiler m) :
    store.planOf compiler validator = (plan, store) := by
  simp [planOf, slotted, kept]

theorem planOf_of_plans {store : Store m} {compiler : Compiler m}
    {validator : Validator m} {plan : Plan m}
    (unslotted : validator.slotted = false)
    (kept : (store.plans compiler.identity).plan validator.identity =
      some plan) :
    store.planOf compiler validator = (plan, store) := by
  simp [planOf, unslotted, kept]

/-- Whether a validator has a slot, and then whether it is filled. -/
def slotFilled? (store : Store m) (validator : Validator m) : Option Bool :=
  if validator.slotted then some (store.slot validator.identity).isSome
  else none

/-- What is kept in a cell for a dispatch table, found out now if there is
nothing yet. -/
def tableOf (store : Store m) (cell : Identity)
    (build : Unit → Option DispatchTable) : Option DispatchTable × Store m :=
  let (found, table) := askOnce store.table cell build
  (found, { store with table })

/-- How often a compiler built a plan of a family. -/
def buildCount (store : Store m) (compiler : Identity)
    (family : String) : Nat :=
  store.built.countP fun build =>
    build.compiler == compiler && build.family == family

end Store

end JsonMatch
