import JsonMatch.Proofs.PlanRequests
import JsonMatch.Proofs.Revisions

/-!
# Engines

Callbacks may raise, and may share a world that they read and change.  A
callback that raises leaves the world as it was at that point, and a rescue does
not undo this.

An engine runs matchers with callbacks and keeps what matchers share in a
memory.  A run asks for the clauses of a matcher and for its table, then for the
plans of the validators that it tries, in their order, and otherwise leaves the
memory as it was, also when it ends by raising.
-/

namespace JsonMatch

/-- Callbacks that may raise, in a world that they share. -/
abbrev Callback (ε σ : Type) : Type → Type := ExceptT ε (StateM σ)

namespace Callback

variable {ε σ α β : Type}

/-- The callback that comes to this in a world, and leaves this world. -/
def ofRun (run : σ → Except ε α × σ) : Callback ε σ α :=
  ExceptT.mk fun world => pure (run world)

/-- What a callback comes to in a world, and the world that it leaves. -/
def runIn (call : Callback ε σ α) (world : σ) : Except ε α × σ :=
  (call.run.run world).run

theorem runIn_bind (call : Callback ε σ α) (next : α → Callback ε σ β)
    (world : σ) :
    (call >>= next).runIn world =
      match call.runIn world with
      | (.ok value, left) => (next value).runIn left
      | (.error fault, left) => (.error fault, left) := by
  unfold runIn ExceptT.run StateT.run Id.run
  simp only [bind, ExceptT.bind, ExceptT.mk, StateT.bind, ExceptT.bindCont]
  cases call world with
  | mk result left => cases result <;> rfl

/-- A rescue gives no value where the callback raises, and keeps the world. -/
@[simp] theorem runIn_rescue (call : Callback ε σ α) (world : σ) :
    (Rescue.rescue call : Callback ε σ (Option α)).runIn world =
      (.ok (call.runIn world).1.toOption, (call.runIn world).2) := rfl

theorem runIn_bind_of_ok {call : Callback ε σ α} {next : α → Callback ε σ β}
    {world left : σ} {value : α}
    (given : call.runIn world = (.ok value, left)) :
    (call >>= next).runIn world = (next value).runIn left := by
  rw [runIn_bind, given]

end Callback

/-- Callbacks in `m` that may raise an `ε`, in a world of type `σ`. -/
class Runs (m : Type → Type) (ε σ : outParam Type) where
  runIn {α : Type} : m α → σ → Except ε α × σ

instance {ε σ : Type} : Runs (Callback ε σ) ε σ where
  runIn := Callback.runIn

/-- Callbacks without effects raise nothing, and need no world. -/
instance : Runs Id Empty Unit where
  runIn call _ := (.ok call.run, ())

/-- What matchers share, and the world of the callbacks. -/
structure Machine (m : Type → Type) (ρ σ : Type) where
  store : Store m := {}
  sequences : Sequences m ρ := {}
  world : σ

/-- Computations that keep what matchers share, and run callbacks of `m`. -/
abbrev Engine (m : Type → Type) (ρ ε σ : Type) : Type → Type :=
  Callback ε (Machine m ρ σ)

namespace Engine

variable {m : Type → Type} {ρ ε σ α β : Type}

instance : MonadStateOf (Store m) (Engine m ρ ε σ) where
  get := .ofRun fun machine => (.ok machine.store, machine)
  set store := .ofRun fun machine => (.ok ⟨⟩, { machine with store })
  modifyGet change := .ofRun fun machine =>
    let (value, store) := change machine.store
    (.ok value, { machine with store })

instance : MonadStateOf (Sequences m ρ) (Engine m ρ ε σ) where
  get := .ofRun fun machine => (.ok machine.sequences, machine)
  set sequences := .ofRun fun machine => (.ok ⟨⟩, { machine with sequences })
  modifyGet change := .ofRun fun machine =>
    let (value, sequences) := change machine.sequences
    (.ok value, { machine with sequences })

instance [Runs m ε σ] : MonadLift m (Engine m ρ ε σ) where
  monadLift call := .ofRun fun machine =>
    let (result, world) := Runs.runIn call machine.world
    (result, { machine with world })

/-- What a computation comes to, and the machine that it leaves. -/
def runIn [Runs m ε σ] (computation : Engine m ρ ε σ α)
    (machine : Machine m ρ σ) : Except ε α × Machine m ρ σ :=
  Callback.runIn computation machine

variable [Runs m ε σ]

theorem runIn_lift (call : m α) (machine : Machine m ρ σ) :
    (liftM call : Engine m ρ ε σ α).runIn machine =
      ((Runs.runIn call machine.world).1,
        { machine with world := (Runs.runIn call machine.world).2 }) := rfl

theorem runIn_bind (computation : Engine m ρ ε σ α)
    (next : α → Engine m ρ ε σ β) (machine : Machine m ρ σ) :
    (computation >>= next).runIn machine =
      match computation.runIn machine with
      | (.ok value, left) => (next value).runIn left
      | (.error fault, left) => (.error fault, left) := by
  unfold runIn
  rw [Callback.runIn_bind]
  rcases Callback.runIn computation machine with ⟨fault | value, left⟩ <;> rfl

theorem runIn_bind_of_ok {computation : Engine m ρ ε σ α}
    {next : α → Engine m ρ ε σ β} {machine left : Machine m ρ σ} {value : α}
    (given : computation.runIn machine = (.ok value, left)) :
    (computation >>= next).runIn machine = (next value).runIn left :=
  Callback.runIn_bind_of_ok given

/-- Whether a computation only runs callbacks. -/
def Quiet (computation : Engine m ρ ε σ α) : Prop :=
  ∀ machine, ∃ world, (computation.runIn machine).2 = { machine with world }

theorem quiet_pure (value : α) : (pure value : Engine m ρ ε σ α).Quiet :=
  fun machine => ⟨machine.world, rfl⟩

theorem quiet_lift (call : m α) : (liftM call : Engine m ρ ε σ α).Quiet :=
  fun machine => ⟨(Runs.runIn call machine.world).2, rfl⟩

theorem Quiet.bind {computation : Engine m ρ ε σ α}
    {next : α → Engine m ρ ε σ β} (first : computation.Quiet)
    (later : ∀ value, (next value).Quiet) :
    (computation >>= next).Quiet := by
  intro machine
  obtain ⟨world, left⟩ := first machine
  rw [runIn_bind]
  generalize computation.runIn machine = ended at left ⊢
  rcases ended with ⟨fault | value, after⟩
  · exact ⟨world, left⟩
  · obtain rfl : after = { machine with world } := left
    exact later value _

end Engine

section Trials

variable {m : Type → Type} {ρ ε σ : Type} [Runs m ε σ]
variable {waiting : Waiting} {compiler : Compiler m} {input : Json}

theorem Handler.quiet_finish (handler : Handler m ρ) (output : Json) :
    Engine.Quiet (handler.finish waiting output input :
      Engine m ρ ε σ (Trial ρ)) := by
  unfold finish
  split
  · exact Engine.quiet_pure _
  · exact (Engine.quiet_lift _).bind fun _ => Engine.quiet_pure _

theorem Handler.finish_ne_passed (handler : Handler m ρ) (waiting : Waiting)
    (output input : Json) (machine : Machine m ρ σ) :
    (Engine.runIn (handler.finish waiting output input) machine).1 ≠
      .ok .passed := by
  unfold finish
  split
  · intro passed
    cases passed
  · rw [Engine.runIn_bind, Engine.runIn_lift]
    rcases Runs.runIn (handler.respond output input) machine.world with
      ⟨fault | value, left⟩
    · intro passed
      cases passed
    · intro passed
      cases passed

namespace Clause

variable {guard : Option (Guard m)} {handler : Handler m ρ}

/-- What is done with an attempt at a validator, when other validators come
after it. -/
def judge (waiting : Waiting) (guard : Option (Guard m)) (handler : Handler m ρ)
    (input : Json) (position : Nat) (others : Engine m ρ ε σ (Trial ρ)) :
    Attempt → Engine m ρ ε σ (Trial ρ)
  | .noMatch => others
  | .asyncRequired => return .blocked (.validator position)
  | .matched output =>
      match guard with
      | none => handler.finish waiting output input
      | some guard => do
          if waiting = .refuse ∧ guard.suspends then return .blocked .guard
          else if ← guard.admits output input then
            handler.finish waiting output input
          else others

private theorem finish_runIn (output : Json)
    (others : Machine m ρ σ → Except ε (Trial ρ) × Machine m ρ σ)
    (machine : Machine m ρ σ) :
    Engine.runIn (handler.finish waiting output input) machine =
      match Engine.runIn (handler.finish waiting output input) machine with
      | (.ok .passed, left) => others left
      | ended => ended := by
  have ends := handler.finish_ne_passed waiting output input machine
  generalize Engine.runIn (handler.finish waiting output input) machine =
    ended at ends ⊢
  rcases ended with ⟨fault | trial, left⟩
  · rfl
  · cases trial with
    | passed => exact absurd rfl ends
    | hit result => rfl
    | blocked origin => rfl

private theorem judge_runIn (position : Nat) (others : Engine m ρ ε σ (Trial ρ))
    (attempt : Attempt) (machine : Machine m ρ σ) :
    (judge waiting guard handler input position others attempt).runIn machine =
      match (judge waiting guard handler input position (pure .passed)
        attempt).runIn machine with
      | (.ok .passed, left) => others.runIn left
      | ended => ended := by
  cases attempt with
  | noMatch => rfl
  | asyncRequired => rfl
  | matched output =>
      cases guard with
      | none => exact finish_runIn output others.runIn machine
      | some guard =>
          unfold judge
          dsimp only
          split
          · rfl
          · rw [Engine.runIn_bind, Engine.runIn_bind, Engine.runIn_lift]
            rcases Runs.runIn (guard.admits output input) machine.world with
              ⟨fault | admitted, left⟩
            · rfl
            · cases admitted with
              | true => exact finish_runIn output others.runIn _
              | false => rfl

private theorem quiet_judge (position : Nat) (attempt : Attempt) :
    (judge waiting guard handler input position
      (pure .passed : Engine m ρ ε σ (Trial ρ)) attempt).Quiet := by
  cases attempt with
  | noMatch => exact Engine.quiet_pure _
  | asyncRequired => exact Engine.quiet_pure _
  | matched output =>
      cases guard with
      | none => exact handler.quiet_finish output
      | some guard =>
          unfold judge
          dsimp only
          split
          · exact Engine.quiet_pure _
          · apply (Engine.quiet_lift _).bind
            intro admitted
            cases admitted with
            | true => exact handler.quiet_finish output
            | false => exact Engine.quiet_pure _

variable [Monad m]

theorem trySchemas_eq_judge (position : Nat) (validator : Validator m)
    (validators : List (Validator m)) :
    (trySchemas waiting compiler guard handler input position
        (validator :: validators) : Engine m ρ ε σ (Trial ρ)) = (do
      let compiled ← compiler.compile validator
      let attempt ← compiled.attemptWith waiting input
      judge waiting guard handler input position
        (trySchemas waiting compiler guard handler input
          (position + 1) validators)
        attempt) := by
  rw [trySchemas]
  congr 1
  funext compiled
  congr 1
  funext attempt
  cases attempt with
  | noMatch => rfl
  | asyncRequired => rfl
  | matched output =>
      cases guard with
      | none => rfl
      | some guard => rfl

variable {position : Nat} {validator : Validator m}
    {validators : List (Validator m)}
variable {machine : Machine m ρ σ}

/-- Trying validators is trying the first one, and then the others if that
passes. -/
theorem trySchemas_cons_runIn :
    Engine.runIn (trySchemas waiting compiler guard handler input position
        (validator :: validators)) machine =
      match Engine.runIn (trySchemas waiting compiler guard handler input
        position [validator]) machine with
      | (.ok .passed, left) =>
          Engine.runIn (trySchemas waiting compiler guard handler input
            (position + 1) validators) left
      | ended => ended := by
  rw [trySchemas_eq_judge, trySchemas_eq_judge, Engine.runIn_bind,
    Engine.runIn_bind]
  rcases Engine.runIn (compiler.compile validator) machine with
    ⟨fault | compiled, compiledIn⟩
  · rfl
  · dsimp only
    rw [Engine.runIn_bind, Engine.runIn_bind, Engine.runIn_lift]
    rcases Runs.runIn (compiled.attemptWith waiting input) compiledIn.world with
      ⟨fault | attempt, world⟩
    · rfl
    · exact judge_runIn position _ attempt _

theorem left_trySchemas_singleton :
    ∃ world, (Engine.runIn (trySchemas waiting compiler guard handler input
        position [validator]) machine).2 =
      { machine with
        store := (machine.store.planOf compiler validator).2, world } := by
  have compiles : Engine.runIn (compiler.compile validator) machine =
      (.ok ⟨validator, (machine.store.planOf compiler validator).1⟩,
        { machine with
          store := (machine.store.planOf compiler validator).2 }) := rfl
  rw [trySchemas_eq_judge, Engine.runIn_bind_of_ok compiles]
  exact ((Engine.quiet_lift _).bind fun attempt =>
    quiet_judge position attempt) _

/-- The validators that are tried: those up to the first whose trial does not
pass. -/
def triedValidators (waiting : Waiting) (compiler : Compiler m)
    (guard : Option (Guard m)) (handler : Handler m ρ) (input : Json) :
    Nat → List (Validator m) → Machine m ρ σ → List (Validator m)
  | _, [], _ => []
  | position, validator :: validators, machine =>
      validator ::
        match Engine.runIn (trySchemas waiting compiler guard handler input
          position [validator]) machine with
        | (.ok .passed, left) =>
            triedValidators waiting compiler guard handler input (position + 1)
              validators left
        | _ => []

theorem mem_of_triedValidators {tried : Validator m}
    (member : tried ∈ triedValidators waiting compiler guard handler input
      position validators machine) : tried ∈ validators := by
  induction validators generalizing position machine with
  | nil => cases member
  | cons validator validators induction =>
      rcases List.mem_cons.mp member with rfl | later
      · exact List.mem_cons_self
      · split at later
        · exact List.mem_cons_of_mem _ (induction later)
        · cases later

theorem left_trySchemas :
    ∃ world,
      (Engine.runIn (trySchemas waiting compiler guard handler input position
        validators) machine).2 =
      { machine with
        store := machine.store.answerAll
          ((triedValidators waiting compiler guard handler input position
            validators machine).map (Request.mk compiler))
        world } := by
  induction validators generalizing position machine with
  | nil => exact ⟨machine.world, rfl⟩
  | cons validator validators induction =>
      obtain ⟨world, asked⟩ : ∃ world,
          (Engine.runIn (trySchemas waiting compiler guard handler input
            position [validator]) machine).2 =
            { machine with
              store := (machine.store.planOf compiler validator).2, world } :=
        left_trySchemas_singleton
      rw [trySchemas_cons_runIn, triedValidators, List.map_cons]
      generalize Engine.runIn (trySchemas waiting compiler guard handler input
        position [validator]) machine = ended at asked ⊢
      rcases ended with ⟨fault | trial, left⟩
      · exact ⟨world, asked⟩
      · cases trial with
        | passed =>
            dsimp only at asked ⊢
            subst asked
            exact induction
        | hit output => exact ⟨world, asked⟩
        | blocked origin => exact ⟨world, asked⟩

def triedValidatorsOf (waiting : Waiting) (compiler : Compiler m) (input : Json)
    (machine : Machine m ρ σ) : Clause m ρ → List (Validator m)
  | .schemas validators guard handler =>
      triedValidators waiting compiler guard handler input 0 validators machine
  | .when _ _ => []

theorem left_trial (clause : Clause m ρ) (machine : Machine m ρ σ) :
    ∃ world, (Engine.runIn (clause.trial waiting compiler input) machine).2 =
      { machine with
        store := machine.store.answerAll
          ((clause.triedValidatorsOf waiting compiler input machine).map
            (Request.mk compiler))
        world } := by
  cases clause with
  | schemas validators guard handler => exact left_trySchemas
  | when predicate handler =>
      have quiet : Engine.Quiet (Clause.trial waiting compiler input
          (.when predicate handler) : Engine m ρ ε σ (Trial ρ)) := by
        rw [trial]
        split
        · exact Engine.quiet_pure _
        · apply (Engine.quiet_lift _).bind
          intro holds
          cases holds with
          | true => exact handler.quiet_finish input
          | false => exact Engine.quiet_pure _
      exact quiet machine

/-- The validators that a visit to clauses tries: those of the clauses up to the
first whose trial does not pass. -/
def triedOnVisit (waiting : Waiting) (clauses : List (Clause m ρ))
    (compiler : Compiler m) (input : Json) :
    List Nat → Machine m ρ σ → List (Validator m)
  | [], _ => []
  | case :: cases, machine =>
      match clauses[case]? with
      | none => triedOnVisit waiting clauses compiler input cases machine
      | some clause =>
          clause.triedValidatorsOf waiting compiler input machine ++
            match Engine.runIn (clause.trial waiting compiler input)
              machine with
            | (.ok .passed, left) =>
                triedOnVisit waiting clauses compiler input cases left
            | _ => []

theorem mem_of_triedOnVisit {clauses : List (Clause m ρ)} {cases : List Nat}
    (member : validator ∈ triedOnVisit waiting clauses
      compiler input cases machine) :
    ∃ clause ∈ clauses, validator ∈ clause.validators := by
  induction cases generalizing machine with
  | nil => cases member
  | cons case cases induction =>
      rw [triedOnVisit] at member
      cases found : clauses[case]? with
      | none =>
          rw [found] at member
          exact induction member
      | some clause =>
          rw [found] at member
          rcases List.mem_append.mp member with here | later
          · refine ⟨clause, List.mem_of_getElem? found, ?_⟩
            cases clause with
            | schemas validators guard handler =>
              exact mem_of_triedValidators here
            | when predicate handler => cases here
          · split at later
            · exact induction later
            · cases later

theorem left_visit {clauses : List (Clause m ρ)} {cases : List Nat} :
    ∃ world,
      (Engine.runIn (visit waiting clauses compiler input cases) machine).2 =
      { machine with
        store := machine.store.answerAll
          ((triedOnVisit waiting clauses compiler input cases machine).map
            (Request.mk compiler))
        world } := by
  induction cases generalizing machine with
  | nil => exact ⟨machine.world, rfl⟩
  | cons case cases induction =>
      rw [visit, triedOnVisit]
      cases clauses[case]? with
      | none => exact induction
      | some clause =>
          obtain ⟨world, asked⟩ := clause.left_trial machine
          dsimp only
          rw [Engine.runIn_bind, List.map_append, Store.answerAll_append]
          generalize Engine.runIn
            (clause.trial waiting compiler input) machine =
            ended at asked ⊢
          rcases ended with ⟨fault | trial, left⟩
          · exact ⟨world, asked⟩
          · cases trial with
            | passed =>
                dsimp only at asked ⊢
                subst asked
                exact induction
            | hit output => exact ⟨world, asked⟩
            | blocked origin => exact ⟨world, asked⟩

end Clause

end Trials

namespace Matcher

variable {m : Type → Type} {ρ ε σ : Type}

/-- The clauses of a matcher in order and its dispatch table, when it looks for
them, and the machine that is left. -/
def lookIn (matcher : Matcher m ρ) (machine : Machine m ρ σ) :
    (List (Clause m ρ) × Option DispatchTable) × Machine m ρ σ :=
  let (sequence, sequences) := machine.sequences.ask matcher.clauses
  let clauses := sequence.map Prod.snd
  let (table, store) := machine.store.tableOf matcher.cell fun _ =>
    DispatchTable.build? clauses matcher.compiler matcher.config
  ((clauses, table), ⟨store, sequences, machine.world⟩)

variable [Runs m ε σ] (matcher : Matcher m ρ) (machine : Machine m ρ σ)

theorem runIn_look :
    Engine.runIn matcher.look machine =
      (.ok (matcher.lookIn machine).1, (matcher.lookIn machine).2) := rfl

theorem runIn_dispatchTable :
    Engine.runIn matcher.dispatchTable machine =
      (.ok (matcher.lookIn machine).1.2, (matcher.lookIn machine).2) := rfl

variable [Monad m]

/-- The validators that a run of a matcher tries. -/
def triedValidators (waiting : Waiting) (input : Json) : List (Validator m) :=
  let ((clauses, table), left) := matcher.lookIn machine
  Clause.triedOnVisit waiting clauses matcher.compiler input
    (casesToVisit clauses.length table input) left

/-- Running a matcher asks for its clauses and its table, and for the plans of
what is tried. -/
theorem left_execute (waiting : Waiting) (input : Json) :
    ∃ world, (Engine.runIn (matcher.execute waiting input) machine).2 =
      { (matcher.lookIn machine).2 with
        store := (matcher.lookIn machine).2.store.answerAll
          ((matcher.triedValidators machine waiting input).map
            (Request.mk matcher.compiler))
        world } := by
  rw [execute, Engine.runIn_bind_of_ok (matcher.runIn_look machine)]
  exact Clause.left_visit

theorem mem_of_triedValidators {waiting : Waiting} {input : Json}
    {validator : Validator m}
    (tried : validator ∈ matcher.triedValidators machine waiting input) :
    ∃ clause ∈ (matcher.lookIn machine).1.1, validator ∈ clause.validators :=
  Clause.mem_of_triedOnVisit tried

theorem left_diagnose [Rescue m] (waiting : Waiting) (schedule : Schedule)
    (input : Json) :
    ∃ world,
      (Engine.runIn (matcher.diagnose waiting schedule input) machine).2 =
      { (matcher.lookIn machine).2 with world } := by
  rw [diagnose, Engine.runIn_bind_of_ok (matcher.runIn_look machine)]
  exact Engine.quiet_lift _ _

end Matcher

end JsonMatch
