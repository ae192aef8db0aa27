import JsonMatch.Proofs.Scanning
import JsonMatch.Proofs.Workspaces

/-!
# Workspaces with the built-in adapters

When all compilers of a workspace have the built-in adapters, every plan that it
keeps is one that these adapters choose.  So what a matcher does, whatever was
done in the workspace before, is a scan of the clauses that its own table makes
it visit.
-/

namespace JsonMatch

section Plain

variable {m : Type → Type} [Monad m] {ρ ε σ : Type}

/-- All compilers with the built-in adapters, and the validators in use. -/
def Catalogue.builtIn (registry : Registry m) : Catalogue m where
  compiler? identity := some ⟨identity, Adapter.builtIn⟩
  validator? := registry

theorem Catalogue.hasCompiler_builtIn {registry : Registry m}
    {compiler : Compiler m} :
    (builtIn registry).HasCompiler compiler ↔ compiler.BuiltIn := by
  obtain ⟨identity, adapters⟩ := compiler
  simp [HasCompiler, builtIn, Compiler.BuiltIn, eq_comm]

theorem Store.Faithful.answerAll {registry : Registry m} {store : Store m}
    (faithful : store.Faithful registry) {requests : List (Request m)}
    (inUse : ∀ request ∈ requests,
      (Catalogue.builtIn registry).HasCompiler request.compiler ∧
        (Catalogue.builtIn registry).HasValidator request.validator) :
    (store.answerAll requests).Faithful registry := by
  induction requests generalizing store with
  | nil => exact faithful
  | cons request requests induction =>
      obtain ⟨compilerHas, validatorHas⟩ := inUse request List.mem_cons_self
      have builtIn := Catalogue.hasCompiler_builtIn.mp compilerHas
      exact induction (faithful.planOf builtIn validatorHas).2
        fun other member => inUse other (List.mem_cons_of_mem _ member)

namespace Workspace

/-- Whether lists and matchers find what is their own, all plans are those of
the built-in adapters, and all compilers and validators of matchers are in
use. -/
structure Plain (registry : Registry m) (workspace : Workspace m ρ σ) :
    Prop where
  orderly : workspace.Orderly
  faithful : workspace.store.Faithful registry
  inUse : ∀ matcher ∈ workspace.matchers, matcher.InUse (.builtIn registry)

namespace Plain

variable {registry : Registry m} {workspace : Workspace m ρ σ}
    {matcher : Matcher m ρ}

theorem start (registry : Registry m) (world : σ) :
    Plain registry ({ world } : Workspace m ρ σ) where
  orderly := .start world
  faithful := Store.faithful_empty registry
  inUse := nofun

theorem builtIn (plain : workspace.Plain registry)
    (member : matcher ∈ workspace.matchers) : matcher.compiler.BuiltIn :=
  Catalogue.hasCompiler_builtIn.mp (plain.inUse matcher member).1

theorem has (plain : workspace.Plain registry)
    (member : matcher ∈ workspace.matchers) :
    ∀ clause ∈ matcher.clauses.toList, ∀ validator ∈ clause.validators,
      registry.Has validator :=
  (plain.inUse matcher member).2

theorem change (plain : workspace.Plain registry) {operation : Operation m ρ}
    (brings : operation.InUse (.builtIn registry)) {requests : List (Request m)}
    {gone : List Identity} {changed : Workspace m ρ σ}
    (change : workspace.Change operation requests gone changed) :
    changed.Plain registry := by
  obtain ⟨store, left, slot, plans, _, _⟩ := change.exists_store
  obtain ⟨requested, inUse⟩ := change.inUse brings plain.inUse
  constructor
  case orderly => exact plain.orderly.change change
  case faithful =>
    rw [left]
    exact (plain.faithful.of_eq slot plans).answerAll requested
  case inUse => exact inUse

theorem after [Runs m ε σ] [Rescue m] {operations : List (Operation m ρ)}
    (brings : ∀ operation ∈ operations, operation.InUse (.builtIn registry))
    (world : σ) : (Workspace.after world operations).Plain registry :=
  holds_after (start registry world) fun _ plain operation member =>
    plain.change (brings operation member)
      (change_perform plain.orderly operation)

end Plain

end Workspace

end Plain

variable {ρ : Type}

namespace Engine

variable {α β : Type}

/-- A computation that keeps a store only, on the store of a machine. -/
def onStore (computation : StateT (Store Id) Id α) : Engine Id ρ Empty Unit α :=
  .ofRun fun machine =>
    let (value, store) := (computation.run machine.store).run
    (.ok value, { machine with store })

theorem onStore_bind (computation : StateT (Store Id) Id α)
    (next : α → StateT (Store Id) Id β) :
    (onStore (computation >>= next) : Engine Id ρ Empty Unit β) =
      onStore computation >>= fun value => onStore (next value) := rfl

variable {waiting : Waiting} {compiler : Compiler Id} {input : Json}

theorem onStore_finish (handler : Handler Id ρ) (output : Json) :
    (onStore (handler.finish waiting output input) : Engine Id ρ Empty Unit _) =
      handler.finish waiting output input := by
  unfold Handler.finish
  split
  · rfl
  · rfl

theorem onStore_trySchemas (guard : Option (Guard Id)) (handler : Handler Id ρ)
    (position : Nat) (validators : List (Validator Id)) :
    (onStore (Clause.trySchemas waiting compiler guard handler input position
        validators) : Engine Id ρ Empty Unit _) =
      Clause.trySchemas waiting compiler guard handler
        input position validators := by
  induction validators generalizing position with
  | nil => rfl
  | cons validator validators induction =>
      have further := induction (position + 1)
      rw [Clause.trySchemas, Clause.trySchemas, onStore_bind]
      congr 1
      funext compiled
      rw [onStore_bind]
      congr 1
      funext attempt
      cases attempt with
      | noMatch => exact further
      | asyncRequired => rfl
      | matched output =>
          cases guard with
          | none => exact onStore_finish handler output
          | some guard =>
              dsimp only
              split
              · rfl
              · rw [onStore_bind]
                congr 1
                funext admitted
                cases admitted with
                | true => exact onStore_finish handler output
                | false => exact further

theorem onStore_trial (clause : Clause Id ρ) :
    (onStore (clause.trial waiting compiler input) : Engine Id ρ Empty Unit _) =
      clause.trial waiting compiler input := by
  cases clause with
  | schemas validators guard handler =>
    exact onStore_trySchemas guard handler 0 _
  | when predicate handler =>
      rw [Clause.trial, Clause.trial]
      split
      · rfl
      · rw [onStore_bind]
        congr 1
        funext holds
        cases holds with
        | true => exact onStore_finish handler input
        | false => rfl

/-- An engine runs clauses as a computation that keeps a store only. -/
theorem onStore_execute (clauses : List (Clause Id ρ))
    (table : Option DispatchTable) :
    (onStore (Clause.execute waiting clauses table compiler input) :
      Engine Id ρ Empty Unit _) =
      Clause.execute waiting clauses table compiler input := by
  rw [Clause.execute, Clause.execute]
  generalize casesToVisit clauses.length table input = cases
  induction cases with
  | nil => rfl
  | cons case cases induction =>
      rw [Clause.visit, Clause.visit]
      cases clauses[case]? with
      | none => exact induction
      | some clause =>
          dsimp only
          rw [onStore_bind, onStore_trial]
          congr 1
          funext trial
          cases trial with
          | passed => exact induction
          | hit output => rfl
          | blocked origin => rfl

end Engine

namespace Workspace.Plain

variable {registry : Registry Id} {workspace : Workspace Id ρ Unit}
variable {matcher : Matcher Id ρ}

theorem execute_eq (plain : workspace.Plain registry)
    (made : matcher ∈ workspace.matchers) (waiting : Waiting) (input : Json) :
    ∃ store : Store Id, store.Faithful registry ∧
      (Engine.runIn (matcher.execute waiting input) workspace.toMachine).1 =
        .ok (StateT.run (m := Id) (Clause.execute waiting matcher.clauses.toList
          (DispatchTable.build? matcher.clauses.toList
            matcher.compiler matcher.config)
          matcher.compiler input) store).1 := by
  have looks := plain.orderly.lookIn_eq made
  refine ⟨(matcher.askTable workspace.store).2,
    plain.faithful.of_eq rfl rfl, ?_⟩
  rw [Matcher.execute,
    Engine.runIn_bind_of_ok (matcher.runIn_look workspace.toMachine), looks]
  dsimp only
  rw [← Engine.onStore_execute]
  rfl

/-- A matcher scans the clauses that its own table makes it visit. -/
theorem execute_of_visited (plain : workspace.Plain registry)
    (made : matcher ∈ workspace.matchers) {waiting : Waiting} {input : Json}
    {keep : Clause Id ρ → Bool}
    (visited : casesToVisit matcher.clauses.toList.length
      (DispatchTable.build? matcher.clauses.toList matcher.compiler
        matcher.config)
      input = positions keep matcher.clauses.toList) :
    (Engine.runIn (matcher.execute waiting input) workspace.toMachine).1 =
      .ok (Clause.scan waiting (·.attemptBuiltIn waiting input) input
        (matcher.clauses.toList.zipIdx.filter fun entry => keep entry.1) :
        Id (Except (Fault Id) (Execution ρ))) := by
  obtain ⟨store, faithful, runs⟩ := plain.execute_eq made waiting input
  have follows : Follows (Store.Faithful registry)
      (Clause.execute waiting matcher.clauses.toList _ matcher.compiler input)
        _ :=
    Clause.follows_execute_of_visited (plain.builtIn made)
      (plain.has made) visited
  rw [runs]
  exact congrArg Except.ok (follows.output_eq faithful)

end Workspace.Plain

end JsonMatch
