import JsonMatch.Match.Execution
import JsonMatch.Proofs.DispatchTables
import JsonMatch.Proofs.Plans
import Mathlib.Tactic.Choose

/-!
# Runs as plain scans

A run of clauses keeps plans in a store and visits the clauses that a dispatch
table leaves.  Neither shows in what it does: it calls the callbacks that a scan
of all clauses calls, one after another, and ends like it.  The scan has no
store, and the built-in adapters attempt every validator anew.
-/

namespace JsonMatch

section Follows

variable {σ α β : Type} {m : Type → Type} [Monad m] [LawfulMonad m]

/-- From a good state on, a computation keeps the state good, and does otherwise
what a computation without a state does. -/
def Follows (good : σ → Prop) (computation : StateT σ m α)
    (plain : m α) : Prop :=
  ∀ state, good state → ∃ kept : m (α × { state // good state }),
    computation.run state = (fun result => (result.1, result.2.1)) <$> kept ∧
      Prod.fst <$> kept = plain

namespace Follows

variable {good : σ → Prop}

theorem pure (value : α) :
    Follows good (pure value : StateT σ m α) (pure value) := by
  intro state isGood
  refine ⟨Pure.pure (value, ⟨state, isGood⟩), ?_, ?_⟩
  · rw [map_pure]
    rfl
  · rw [map_pure]

theorem lift (plain : m α) :
    Follows good (liftM plain : StateT σ m α) plain := by
  intro state isGood
  refine ⟨(fun value => (value, ⟨state, isGood⟩)) <$> plain, ?_, ?_⟩
  · rw [Functor.map_map]
    exact map_eq_pure_bind _ _ |>.symm
  · rw [Functor.map_map, id_map']

theorem bind {computation : StateT σ m α} {plain : m α}
    {next : α → StateT σ m β} {plainNext : α → m β}
    (first : Follows good computation plain)
    (later : ∀ value, Follows good (next value) (plainNext value)) :
    Follows good (computation >>= next) (plain >>= plainNext) := by
  intro state isGood
  obtain ⟨kept, run, outputs⟩ := first state isGood
  -- Each result of the first part has its own continuation from a good state.
  choose keptNext runNext outputsNext using
    fun result : α × { state // good state } =>
      later result.1 result.2.1 result.2.2
  refine ⟨kept >>= keptNext, ?_, ?_⟩
  · rw [StateT.run_bind, run, bind_map_left, map_bind]
    exact bind_congr runNext
  · rw [map_bind, ← outputs, bind_map_left]
    exact bind_congr outputsNext

/-- What a computation gives does not depend on the good state that it starts
in. -/
theorem output_eq {computation : StateT σ m α} {plain : m α}
    (follows : Follows good computation plain) {state : σ}
    (isGood : good state) :
    Prod.fst <$> computation.run state = plain := by
  obtain ⟨kept, run, outputs⟩ := follows state isGood
  rw [run, Functor.map_map]
  exact outputs

end Follows

end Follows

theorem exists_pure {α : Type} (computation : Id α) :
    ∃ value, computation = pure value :=
  ⟨_, rfl⟩

/-- Whether a run stops at a part of a clause, which may have to be awaited. -/
abbrev Waiting.StopsAt (waiting : Waiting) (suspends : Bool) : Prop :=
  waiting = .refuse ∧ suspends = true

theorem Handler.finish_of_goes {ρ : Type} {waiting : Waiting}
    {handler : Handler Id ρ} (goes : ¬ waiting.StopsAt handler.suspends)
    (output input : Json) :
    (handler.finish waiting output input : Id (Trial ρ)) =
      pure (.hit (handler.respond output input)) := by
  rw [Handler.finish, if_neg goes]
  rfl

namespace Clause

section Scan

variable {m : Type → Type} [Monad m] {ρ : Type}
variable (waiting : Waiting) (attempt : Validator m → m Attempt) (input : Json)

/-- Tries validators in order by `attempt`, `position` being that of the first
one. -/
def scanValidators (guard : Option (Guard m)) (handler : Handler m ρ) :
    Nat → List (Validator m) → m (Trial ρ)
  | _, [] => return .passed
  | position, validator :: validators => do
      match ← attempt validator with
      | .noMatch => scanValidators guard handler (position + 1) validators
      | .asyncRequired => return .blocked (.validator position)
      | .matched output =>
          match guard with
          | none => handler.finish waiting output input
          | some guard =>
              if waiting = .refuse ∧ guard.suspends then return .blocked .guard
              else if ← guard.admits output input then
                handler.finish waiting output input
              else scanValidators (some guard) handler (position + 1) validators

/-- Tries a clause, its validators by `attempt`. -/
def scanClause : Clause m ρ → m (Trial ρ)
  | .schemas validators guard handler =>
      scanValidators waiting attempt input guard handler 0 validators
  | .when predicate handler => do
      if waiting = .refuse ∧ predicate.suspends then return .blocked .predicate
      else if ← predicate.holds input then handler.finish waiting input input
      else return .passed

/-- Tries clauses, each with its position, up to the first that hits or
blocks. -/
def scan : List (Clause m ρ × Nat) → m (Except (Fault m) (Execution ρ))
  | [] => return .ok .unmatched
  | (clause, case) :: entries => do
      match ← clause.scanClause waiting attempt input with
      | .passed => scan entries
      | .hit output => return .ok (.matched case output)
      | .blocked origin => return .error (.asyncRequired case origin)

variable [LawfulMonad m]

variable {waiting attempt input}

theorem scanClause_of_rejects {clause : Clause m ρ}
    (some_validator : clause.validators ≠ [])
    (rejects : ∀ validator ∈ clause.validators,
      attempt validator = pure .noMatch) :
    clause.scanClause waiting attempt input = pure .passed := by
  cases clause with
  | when predicate handler => exact absurd rfl some_validator
  | schemas validators guard handler =>
      suffices passes : ∀ position,
          scanValidators waiting attempt input guard
            handler position validators = pure .passed from passes 0
      clear some_validator
      induction validators with
      | nil => exact fun _ => rfl
      | cons validator validators induction =>
          intro position
          have rejected : attempt validator = pure .noMatch :=
            rejects validator List.mem_cons_self
          rw [scanValidators, rejected, pure_bind]
          exact induction (fun other member => rejects other
            (List.mem_cons_of_mem _ member)) _

theorem scan_filter (keep : Clause m ρ → Bool)
    {entries : List (Clause m ρ × Nat)}
    (passes : ∀ entry ∈ entries, keep entry.1 = false →
      entry.1.scanClause waiting attempt input = pure .passed) :
    scan waiting attempt input (entries.filter fun entry => keep entry.1) =
      scan waiting attempt input entries := by
  induction entries with
  | nil => rfl
  | cons entry entries induction =>
      have rest := induction fun other member => passes other
        (List.mem_cons_of_mem _ member)
      rw [List.filter_cons]
      cases kept : keep entry.1 with
      | true =>
          rw [if_pos rfl, scan, scan, rest]
      | false =>
          have passed := passes entry List.mem_cons_self kept
          rw [if_neg (by simp), rest, scan, passed, pure_bind]

end Scan

section Runs

variable {m : Type → Type} [Monad m] [LawfulMonad m] {ρ α : Type}
variable {registry : Registry m} {compiler : Compiler m}
variable {waiting : Waiting} {input : Json}

theorem follows_compile (builtIn : compiler.BuiltIn) {validator : Validator m}
    (has : registry.Has validator)
    {next : CompiledValidator m → StateT (Store m) m α}
    {plain : m α}
    (later : ∀ compiled : CompiledValidator m, compiled.validator = validator →
      compiled.plan.strategy = validator.strategy →
      Follows (Store.Faithful registry) (next compiled) plain) :
    Follows (Store.Faithful registry)
      (compiler.compile validator >>= next) plain := by
  intro store faithful
  obtain ⟨chosen, stays⟩ := faithful.planOf builtIn has
  obtain ⟨kept, run, outputs⟩ :=
    later ⟨validator, (store.planOf compiler validator).1⟩ rfl chosen _ stays
  refine ⟨kept, ?_, outputs⟩
  rw [← run]
  have compiled :
      (compiler.compile validator : StateT (Store m) m _).run store =
      pure (⟨validator, (store.planOf compiler validator).1⟩,
        (store.planOf compiler validator).2) := by
    rw [Compiler.compile, StateT.run_bind]
    change pure (store.planOf compiler validator) >>= _ = _
    rw [pure_bind]
    rfl
  rw [StateT.run_bind, compiled, pure_bind]

private theorem follows_finish (handler : Handler m ρ) (output : Json) :
    Follows (Store.Faithful registry)
      (handler.finish waiting output input : StateT (Store m) m (Trial ρ))
      (handler.finish waiting output input) := by
  unfold Handler.finish
  split
  · exact .pure _
  · exact (Follows.lift _).bind fun result => .pure _

theorem follows_trySchemas (builtIn : compiler.BuiltIn)
    (guard : Option (Guard m))
    (handler : Handler m ρ) {validators : List (Validator m)}
    (inUse : ∀ validator ∈ validators, registry.Has validator)
    (position : Nat) :
    Follows (Store.Faithful registry)
      (trySchemas waiting compiler guard handler input position validators)
      (scanValidators waiting (·.attemptBuiltIn waiting input) input
        guard handler position
        validators) := by
  induction validators generalizing position with
  | nil => exact .pure _
  | cons validator validators induction =>
      have further := fun position => induction
        (fun other member => inUse other (List.mem_cons_of_mem _ member))
          position
      rw [trySchemas, scanValidators]
      apply follows_compile builtIn (inUse validator List.mem_cons_self)
      intro compiled same chosen
      subst same
      rw [← CompiledValidator.attemptWith_eq chosen]
      refine (Follows.lift _).bind fun attempt => ?_
      cases attempt with
      | noMatch => exact further _
      | asyncRequired => exact .pure _
      | matched output =>
          cases guard with
          | none => exact follows_finish handler output
          | some guard =>
              dsimp only
              split
              · exact .pure _
              · refine (Follows.lift _).bind fun admitted => ?_
                cases admitted with
                | true => exact follows_finish handler output
                | false => exact further _

theorem follows_trial (builtIn : compiler.BuiltIn) {clause : Clause m ρ}
    (inUse : ∀ validator ∈ clause.validators, registry.Has validator) :
    Follows (Store.Faithful registry) (clause.trial waiting compiler input)
      (clause.scanClause waiting (·.attemptBuiltIn waiting input) input) := by
  cases clause with
  | schemas validators guard handler =>
      exact follows_trySchemas builtIn guard handler inUse 0
  | when predicate handler =>
      rw [trial, scanClause]
      split
      · exact .pure _
      · refine (Follows.lift _).bind fun holds => ?_
        cases holds with
        | true => exact follows_finish handler input
        | false => exact .pure _

/-- Visiting clauses of a list by their positions does what a scan of them
does. -/
theorem follows_visit (builtIn : compiler.BuiltIn) {clauses : List (Clause m ρ)}
    {entries : List (Clause m ρ × Nat)}
    (listed : ∀ entry ∈ entries, clauses[entry.2]? = some entry.1)
    (inUse : ∀ entry ∈ entries, ∀ validator ∈ entry.1.validators,
      registry.Has validator) :
    Follows (Store.Faithful registry)
      (visit waiting clauses compiler input (entries.map Prod.snd))
      (scan waiting (·.attemptBuiltIn waiting input) input entries) := by
  induction entries with
  | nil => exact .pure _
  | cons entry entries induction =>
      have further := induction
        (fun other member => listed other (List.mem_cons_of_mem _ member))
        (fun other member => inUse other (List.mem_cons_of_mem _ member))
      rw [List.map_cons, visit, scan, listed entry List.mem_cons_self]
      refine (follows_trial builtIn (inUse entry List.mem_cons_self)).bind
        fun trial => ?_
      cases trial with
      | passed => exact further
      | hit output => exact .pure _
      | blocked origin => exact .pure _

theorem follows_execute_of_visited (builtIn : compiler.BuiltIn)
    {clauses : List (Clause m ρ)}
    (inUse : ∀ clause ∈ clauses, ∀ validator ∈ clause.validators,
      registry.Has validator)
    {table : Option DispatchTable} {keep : Clause m ρ → Bool}
    (visited : casesToVisit clauses.length table input =
      positions keep clauses) :
    Follows (Store.Faithful registry)
      (execute waiting clauses table compiler input)
      (scan waiting (·.attemptBuiltIn waiting input) input
        (clauses.zipIdx.filter fun entry => keep entry.1)) := by
  rw [execute, visited, positions]
  apply follows_visit builtIn
  · intro entry member
    exact List.mem_zipIdx_iff_getElem?.mp (List.mem_filter.mp member).1
  · intro entry member
    have listed := (List.mem_filter.mp member).1
    exact inUse entry.1 (List.fst_mem_of_mem_zipIdx listed)

/-- A run with its own table, or with none, does what a scan of all clauses
does, if no validator accepts an input that its discriminator excludes. -/
theorem follows_execute (builtIn : compiler.BuiltIn)
    {clauses : List (Clause m ρ)}
    (inUse : ∀ clause ∈ clauses, ∀ validator ∈ clause.validators,
      registry.Has validator)
    {config : Config} {table : Option DispatchTable}
    (own : ∀ built, table = some built →
      DispatchTable.build? clauses compiler config = some built)
    (excluded : ∀ clause ∈ clauses,
      ∀ validator ∈ clause.validators, ∀ discriminator,
      Compiler.shared.discriminator? validator config.priority =
        some discriminator →
      discriminator.Excludes input →
        validator.attemptBuiltIn waiting input = pure .noMatch) :
    Follows (Store.Faithful registry)
      (execute waiting clauses table compiler input)
      (scan waiting (·.attemptBuiltIn waiting input) input clauses.zipIdx) := by
  obtain ⟨keep, visited, dropped⟩ := DispatchTable.exists_kept table own input
  have inList : ∀ entry ∈ clauses.zipIdx, entry.1 ∈ clauses :=
    fun entry member =>
      List.fst_mem_of_mem_zipIdx member
  have passes : ∀ entry ∈ clauses.zipIdx, keep entry.1 = false →
      entry.1.scanClause waiting (·.attemptBuiltIn waiting input) input =
        pure .passed := by
    intro entry member isDropped
    obtain ⟨some_validator, excludes⟩ :=
      dropped entry.1 (inList entry member) isDropped
    apply scanClause_of_rejects some_validator
    intro validator listed
    obtain ⟨discriminator, found, demands⟩ := excludes validator listed
    rw [builtIn.discriminator?_eq] at found
    exact excluded entry.1 (inList entry member) validator listed
      discriminator found demands
  rw [← scan_filter keep passes]
  exact follows_execute_of_visited builtIn inUse visited

end Runs

end Clause

end JsonMatch
