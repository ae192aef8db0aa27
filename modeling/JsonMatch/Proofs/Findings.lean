import JsonMatch.Schema.Walk

/-!
# What a walk finds

A walk only ever adds to its state: issues behind those found before, and marks.
It leaves the path as it was.  So a walk is known by what it gives and what it
adds at each path, and the two are known for a walk made of parts as soon as
they are known for the parts.  Callbacks have no effect here besides their
answers.
-/

namespace JsonMatch

variable {α β : Type}

/-- What a walk adds to its state. -/
structure Findings where
  issues : List Issue := []
  deferred : Bool := false
  guessed : Bool := false
  deriving DecidableEq, Repr

namespace Findings

/-- What two walks in a row add. -/
def append (earlier later : Findings) : Findings where
  issues := earlier.issues ++ later.issues
  deferred := earlier.deferred || later.deferred
  guessed := earlier.guessed || later.guessed

instance : Append Findings := ⟨append⟩

@[simp] theorem append_issues (earlier later : Findings) :
    (earlier ++ later).issues = earlier.issues ++ later.issues := rfl

@[simp] theorem append_deferred (earlier later : Findings) :
    (earlier ++ later).deferred = (earlier.deferred || later.deferred) := rfl

@[simp] theorem append_guessed (earlier later : Findings) :
    (earlier ++ later).guessed = (earlier.guessed || later.guessed) := rfl

@[ext] theorem ext {left right : Findings} (issues : left.issues = right.issues)
    (deferred : left.deferred = right.deferred)
    (guessed : left.guessed = right.guessed) :
    left = right := by
  cases left
  cases right
  simp_all

@[simp] theorem append_nothing (found : Findings) :
    found ++ ({} : Findings) = found := by
  ext1 <;> simp

end Findings

namespace WalkState

/-- The state after a walk that adds `found`. -/
def add (state : WalkState) (found : Findings) : WalkState where
  path := state.path
  issues := state.issues ++ found.issues
  deferred := state.deferred || found.deferred
  guessed := state.guessed || found.guessed

/-- What was found on the way to a state. -/
def findings (state : WalkState) : Findings :=
  ⟨state.issues, state.deferred, state.guessed⟩

@[simp] theorem add_nothing (state : WalkState) : state.add {} = state := by
  simp [add]

theorem add_append (state : WalkState) (earlier later : Findings) :
    state.add (earlier ++ later) = (state.add earlier).add later := by
  simp [add, Bool.or_assoc]

end WalkState

namespace Walk

/-- What a walk gives at a path. -/
def output (walk : Walk Id α) (path : Path) : α :=
  (walk.run { path }).1

/-- What a walk adds at a path. -/
def findings (walk : Walk Id α) (path : Path) : Findings :=
  (walk.run { path }).2.findings

/-- What a walk gives and adds depends on the path alone. -/
def Steady (walk : Walk Id α) : Prop :=
  ∀ state, walk.run state =
    (walk.output state.path, state.add (walk.findings state.path))

/-- At a path, a walk gives `output` and adds `found`, whatever was found
before. -/
def Yields (walk : Walk Id α) (path : Path) (output : α) (found : Findings) :
    Prop :=
  ∀ state : WalkState, state.path = path →
    walk.run state = (output, state.add found)

namespace Yields

variable {walk : Walk Id α} {path : Path} {result : α} {found : Findings}

theorem output_eq (yields : walk.Yields path result found) :
    walk.output path = result :=
  congrArg Prod.fst (yields { path } rfl)

theorem findings_eq (yields : walk.Yields path result found) :
    walk.findings path = found :=
  congrArg (fun run : α × WalkState => run.2.findings) (yields { path } rfl)

theorem bind {next : α → Walk Id β} {later : β} {added : Findings}
    (yields : walk.Yields path result found)
    (follows : (next result).Yields path later added) :
    Walk.Yields (walk >>= next) path later (found ++ added) := by
  intro state there
  have first := yields state there
  have second := follows (state.add found) there
  change (next (walk.run state).1).run (walk.run state).2 = _
  rw [first, second, WalkState.add_append]

theorem pure (path : Path) (value : α) :
    Walk.Yields (Pure.pure value : Walk Id α) path value {} := by
  intro state _
  rw [WalkState.add_nothing]
  rfl

end Yields

theorem Steady.yields {walk : Walk Id α} (steady : walk.Steady) (path : Path) :
    walk.Yields path (walk.output path) (walk.findings path) := by
  intro state there
  subst there
  exact steady state

theorem steady_of_yields {walk : Walk Id α} {result : Path → α}
    {found : Path → Findings}
    (yields : ∀ path, walk.Yields path (result path) (found path)) :
    walk.Steady := by
  intro state
  rw [(yields state.path).output_eq, (yields state.path).findings_eq]
  exact yields state.path state rfl

end Walk

end JsonMatch
