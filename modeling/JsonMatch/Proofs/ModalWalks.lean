import JsonMatch.Proofs.Findings

/-!
# Walks in two modes

A walk that can be taken in either mode, and the ways in which the checks of a
schema put such walks together: a walk continued on its output, walks through
parts that all have to be accepted, and an attempt with a fallback.  For each of
them it is said what it gives and what it finds, in terms of what it is made of.
-/

namespace JsonMatch

/-- A walk that can be taken in either mode: an output, or `none` for a
rejection. -/
abbrev ModalWalk (m : Type → Type) (α : Type) := Mode → Walk m (Option α)

namespace ModalWalk

variable {m : Type → Type} [Monad m] {α β : Type}

/-- Accepts with an output. -/
def accept (value : α) : ModalWalk m α := fun _ => return some value

/-- A walk, and a second one on its output. -/
def andThen (part : ModalWalk m α) (next : α → ModalWalk m β) : ModalWalk m β :=
  fun mode => do
    match ← part mode with
    | some value => next value mode
    | none => return none

/-- A walk through a part and a walk through the parts after it. -/
def both (part : ModalWalk m α) (others : ModalWalk m (List α)) :
    ModalWalk m (List α) :=
  fun mode => do
    match ← part mode with
    | some value => return (← others mode).map (value :: ·)
    | none =>
        if mode = .collect then
          let _ ← others mode
        return none

/-- A walk through all parts in order. -/
def all (parts : List (ModalWalk m α)) : ModalWalk m (List α) :=
  fun mode => Walk.allOf mode (parts.map (· mode))

/-- An attempt that is made in neither mode, and what is done when it gives
nothing. -/
def orElse (attempt : Walk m (Option α)) (fallback : ModalWalk m α) :
    ModalWalk m α :=
  fun mode => do
    match ← attempt with
    | some value => return some value
    | none => fallback mode

/-- A walk taken for its issues only: a fail-fast walk leaves it out. -/
def forIssues (part : ModalWalk m α) : ModalWalk m α :=
  fun mode => do
    if mode = .collect then
      let _ ← part mode
    return none

/-- A walk with a function on its output. -/
def mapped (part : ModalWalk m α) (function : α → β) : ModalWalk m β :=
  fun mode => do return (← part mode).map function

/-- A walk through a part of the value. -/
def inside (step : PathStep) (part : ModalWalk m α) : ModalWalk m α :=
  fun mode => Walk.within step (part mode)

theorem all_cons (part : ModalWalk m α) (parts : List (ModalWalk m α)) :
    all (part :: parts) = both part (all parts) := rfl

end ModalWalk

namespace Walk

variable {α β : Type}

theorem yields_defer (path : Path) :
    (defer : Walk Id PUnit).Yields path ⟨⟩ { deferred := true } := by
  intro state _
  change ((⟨⟩ : PUnit), { state with deferred := true }) = _
  simp [WalkState.add]

theorem yields_guess (path : Path) :
    (guess : Walk Id PUnit).Yields path ⟨⟩
      { deferred := true, guessed := true } := by
  intro state _
  change ((⟨⟩ : PUnit), { state with deferred := true, guessed := true }) = _
  simp [WalkState.add]

/-- The findings of a rejection with some issues. -/
def rejected (mode : Mode) (issues : List Issue) : Findings :=
  match mode with
  | .collect => { issues }
  | .failFast => {}

theorem yields_reject (mode : Mode) (code message : String) (path : Path) :
    (reject mode code message : Walk Id (Option α)).Yields path none
      (rejected mode [⟨path, message, code⟩]) := by
  intro state there
  subst there
  cases mode with
  | collect =>
      change (none, { state with issues := state.issues ++ [_] }) = _
      simp [WalkState.add, rejected]
  | failFast =>
      change (none, state) = _
      simp [rejected]

theorem yields_rejectWith (mode : Mode) (issues : Issues) (path : Path) :
    (rejectWith mode issues : Walk Id (Option α)).Yields path none
      (rejected mode (issues.toList.map fun issue =>
        issue.moveTo (issue.path.below path))) := by
  intro state there
  subst there
  cases mode with
  | collect =>
      change (none, { state with issues := state.issues ++ _ }) = _
      simp [WalkState.add, rejected]
  | failFast =>
      change (none, state) = _
      simp [rejected]

/-- A walk through a part is the walk of that part at its own path. -/
theorem Yields.within {walk : Walk Id α} {path : Path}
    {step : PathStep} {result : α}
    {found : Findings} (yields : walk.Yields (path.enter step) result found) :
    Walk.Yields (within step walk) path result found := by
  intro state there
  subst there
  have inside := yields { state with path := state.path.enter step } rfl
  change ((walk.run { state with path := state.path.enter step }).1,
    { (walk.run { state with path := state.path.enter step }).2 with
      path := (walk.run
        { state with path := state.path.enter step }).2.path.leave }) = _
  rw [inside]
  simp [WalkState.add]

/-- The findings of a tried option. -/
def tried (output : Option α) (found : Findings) : Findings :=
  if found.guessed || (output.isSome && found.deferred) then
    { deferred := true, guessed := true }
  else {}

theorem yields_tryOption (option : Check Id) (value : Json) (path : Path) :
    (tryOption option value).Yields path ((option .failFast value).output path)
      (tried ((option .failFast value).output path)
        ((option .failFast value).findings path)) := by
  intro state there
  subst there
  let output := (option .failFast value).output state.path
  let found := (option .failFast value).findings state.path
  have unfolded : (tryOption option value).run state =
      (if found.guessed || (output.isSome && found.deferred) then do
          guess
          return output
        else return output : Walk Id _).run state := rfl
  have marked : Walk.Yields
      (do guess; return output : Walk Id (Option Json)) state.path
      output (({ deferred := true, guessed := true } : Findings) ++ {}) :=
    (yields_guess state.path).bind (Yields.pure state.path output)
  rw [unfolded, tried]
  split
  · exact marked state rfl
  · exact Yields.pure state.path _ state rfl

theorem output_tryOption (option : Check Id) (value : Json) (path : Path) :
    (tryOption option value).output path =
      (option .failFast value).output path :=
  (yields_tryOption option value path).output_eq

theorem findings_tryOption (option : Check Id) (value : Json) (path : Path) :
    (tryOption option value).findings path =
      tried ((option .failFast value).output path)
        ((option .failFast value).findings path) :=
  (yields_tryOption option value path).findings_eq

theorem steady_tryOption (option : Check Id) (value : Json) :
    (tryOption option value).Steady :=
  steady_of_yields (yields_tryOption option value)

theorem Yields.map {walk : Walk Id α} {path : Path} {result : α}
    {found : Findings} (yields : walk.Yields path result found)
    (function : α → β) :
    Walk.Yields (do return function (← walk)) path (function result) found := by
  have mapped : Walk.Yields (do return function (← walk)) path (function result)
      (found ++ {}) := yields.bind (Yields.pure path (function result))
  rwa [Findings.append_nothing] at mapped

theorem Yields.skip {walk : Walk Id α} {path : Path} {result : α}
    {found : Findings} (yields : walk.Yields path result found) (value : β) :
    Walk.Yields (do let _ ← walk; return value) path value found :=
  yields.map fun _ => value

theorem steady_pure (value : α) : Walk.Steady (pure value : Walk Id α) :=
  steady_of_yields fun path => Yields.pure path value

@[simp] theorem output_pure (value : α) (path : Path) :
    Walk.output (pure value : Walk Id α) path = value := rfl

@[simp] theorem findings_pure (value : α) (path : Path) :
    Walk.findings (pure value : Walk Id α) path = {} := rfl

theorem steady_reject (mode : Mode) (code message : String) :
    (reject mode code message : Walk Id (Option α)).Steady :=
  steady_of_yields (yields_reject mode code message)

theorem steady_rejectWith (mode : Mode) (issues : Issues) :
    (rejectWith mode issues : Walk Id (Option α)).Steady :=
  steady_of_yields (yields_rejectWith mode issues)

end Walk

namespace ModalWalk

open Walk

variable {α β : Type} {mode : Mode}

section AndThen

variable {part : ModalWalk Id α} {next : α → ModalWalk Id β}

private theorem yields_andThen (steady : (part mode).Steady)
    (follows : ∀ value, (next value mode).Steady) (path : Path) :
    (andThen part next mode).Yields path
      (((part mode).output path).bind
        fun value => (next value mode).output path)
      ((part mode).findings path ++
        ((part mode).output path).elim {} fun value =>
          (next value mode).findings path) := by
  refine (steady.yields path).bind ?_
  cases (part mode).output path with
  | none => exact Yields.pure path none
  | some value => exact (follows value).yields path

theorem steady_andThen (steady : (part mode).Steady)
    (follows : ∀ value, (next value mode).Steady) :
    (andThen part next mode).Steady :=
  steady_of_yields (yields_andThen steady follows)

theorem output_andThen (steady : (part mode).Steady)
    (follows : ∀ value, (next value mode).Steady) (path : Path) :
    (andThen part next mode).output path =
      ((part mode).output path).bind fun value =>
        (next value mode).output path :=
  (yields_andThen steady follows path).output_eq

theorem findings_andThen (steady : (part mode).Steady)
    (follows : ∀ value, (next value mode).Steady) (path : Path) :
    (andThen part next mode).findings path =
      (part mode).findings path ++
        ((part mode).output path).elim {} fun value =>
          (next value mode).findings path :=
  (yields_andThen steady follows path).findings_eq

end AndThen

section Both

variable {part : ModalWalk Id α} {others : ModalWalk Id (List α)}

/-- Whether a walk goes on after a part with this output. -/
def goesOn (mode : Mode) (output : Option α) : Bool :=
  output.isSome || mode == .collect

private theorem yields_both (steady : (part mode).Steady)
    (later : (others mode).Steady)
    (path : Path) :
    (both part others mode).Yields path
      (((part mode).output path).bind fun value =>
        ((others mode).output path).map (value :: ·))
      ((part mode).findings path ++
        if goesOn mode ((part mode).output path) then
          (others mode).findings path else {}) := by
  refine (steady.yields path).bind ?_
  cases (part mode).output path with
  | some value => exact (later.yields path).map _
  | none =>
      cases mode with
      | collect => exact (later.yields path).skip none
      | failFast => exact Yields.pure path none

theorem steady_both (steady : (part mode).Steady)
    (later : (others mode).Steady) :
    (both part others mode).Steady :=
  steady_of_yields (yields_both steady later)

theorem output_both (steady : (part mode).Steady) (later : (others mode).Steady)
    (path : Path) :
    (both part others mode).output path =
      ((part mode).output path).bind fun value =>
        ((others mode).output path).map (value :: ·) :=
  (yields_both steady later path).output_eq

theorem findings_both (steady : (part mode).Steady)
    (later : (others mode).Steady) (path : Path) :
    (both part others mode).findings path =
      (part mode).findings path ++
        if goesOn mode ((part mode).output path) then
          (others mode).findings path else {} :=
  (yields_both steady later path).findings_eq

end Both

section OrElse

variable {attempt : Walk Id (Option α)} {fallback : ModalWalk Id α}

private theorem yields_orElse (steady : attempt.Steady)
    (later : (fallback mode).Steady)
    (path : Path) :
    (orElse attempt fallback mode).Yields path
      ((attempt.output path).or ((fallback mode).output path))
      (attempt.findings path ++
        if (attempt.output path).isSome then {}
          else (fallback mode).findings path) := by
  refine (steady.yields path).bind ?_
  cases attempt.output path with
  | none => exact later.yields path
  | some value => exact Yields.pure path (some value)

theorem steady_orElse (steady : attempt.Steady)
    (later : (fallback mode).Steady) :
    (orElse attempt fallback mode).Steady :=
  steady_of_yields (yields_orElse steady later)

theorem output_orElse (steady : attempt.Steady) (later : (fallback mode).Steady)
    (path : Path) :
    (orElse attempt fallback mode).output path =
      (attempt.output path).or ((fallback mode).output path) :=
  (yields_orElse steady later path).output_eq

theorem findings_orElse (steady : attempt.Steady)
    (later : (fallback mode).Steady) (path : Path) :
    (orElse attempt fallback mode).findings path =
      attempt.findings path ++
        if (attempt.output path).isSome then {}
          else (fallback mode).findings path :=
  (yields_orElse steady later path).findings_eq

end OrElse

section ForIssues

variable {part : ModalWalk Id α}

private theorem yields_forIssues (steady : (part mode).Steady) (path : Path) :
    (forIssues part mode).Yields path none
      (if mode = .collect then (part mode).findings path else {}) := by
  cases mode with
  | collect => exact (steady.yields path).skip none
  | failFast => exact Yields.pure path none

theorem steady_forIssues (steady : (part mode).Steady) :
    (forIssues part mode).Steady :=
  steady_of_yields (yields_forIssues steady)

theorem output_forIssues (steady : (part mode).Steady) (path : Path) :
    (forIssues part mode).output path = none :=
  (yields_forIssues steady path).output_eq

theorem findings_forIssues (steady : (part mode).Steady) (path : Path) :
    (forIssues part mode).findings path =
      if mode = .collect then (part mode).findings path else {} :=
  (yields_forIssues steady path).findings_eq

end ForIssues

section Mapped

variable {part : ModalWalk Id α} {function : α → β}

private theorem yields_mapped (steady : (part mode).Steady) (path : Path) :
    (mapped part function mode).Yields path
      (((part mode).output path).map function) ((part mode).findings path) :=
  (steady.yields path).map _

theorem steady_mapped (steady : (part mode).Steady) :
    (mapped part function mode).Steady :=
  steady_of_yields (yields_mapped steady)

theorem output_mapped (steady : (part mode).Steady) (path : Path) :
    (mapped part function mode).output path =
      ((part mode).output path).map function :=
  (yields_mapped steady path).output_eq

theorem findings_mapped (steady : (part mode).Steady) (path : Path) :
    (mapped part function mode).findings path = (part mode).findings path :=
  (yields_mapped steady path).findings_eq

end Mapped

section Inside

variable {part : ModalWalk Id α} {step : PathStep}

private theorem yields_inside (steady : (part mode).Steady) (path : Path) :
    (inside step part mode).Yields path ((part mode).output (path.enter step))
      ((part mode).findings (path.enter step)) :=
  (steady.yields (path.enter step)).within

theorem steady_inside (steady : (part mode).Steady) :
    (inside step part mode).Steady :=
  steady_of_yields (yields_inside steady)

theorem output_inside (steady : (part mode).Steady) (path : Path) :
    (inside step part mode).output path =
      (part mode).output (path.enter step) :=
  (yields_inside steady path).output_eq

theorem findings_inside (steady : (part mode).Steady) (path : Path) :
    (inside step part mode).findings path =
      (part mode).findings (path.enter step) :=
  (yields_inside steady path).findings_eq

end Inside

end ModalWalk

namespace Walk

section FirstOf

variable (value : Json)

theorem firstOf_cons (option : Check Id) (options : List (Check Id))
    (mode : Mode) :
    firstOf value (option :: options) =
      ModalWalk.orElse (tryOption option value)
        (fun _ => firstOf value options) mode := by
  rw [firstOf, ModalWalk.orElse]
  congr 1
  funext output
  cases output <;> rfl

theorem steady_firstOf (options : List (Check Id)) :
    (firstOf value options).Steady := by
  induction options with
  | nil => exact steady_pure none
  | cons option options induction =>
      rw [firstOf_cons value option options .failFast]
      exact ModalWalk.steady_orElse (steady_tryOption option value) induction

theorem output_firstOf_cons (option : Check Id)
    (options : List (Check Id)) (path : Path) :
    (firstOf value (option :: options)).output path =
      ((option .failFast value).output path).or
        ((firstOf value options).output path) := by
  rw [firstOf_cons value option options .failFast,
    ModalWalk.output_orElse (steady_tryOption option value)
      (steady_firstOf value options),
    output_tryOption]

theorem findings_firstOf_cons (option : Check Id)
    (options : List (Check Id)) (path : Path) :
    (firstOf value (option :: options)).findings path =
      (tryOption option value).findings path ++
        if ((option .failFast value).output path).isSome then {}
        else (firstOf value options).findings path := by
  rw [firstOf_cons value option options .failFast,
    ModalWalk.findings_orElse (steady_tryOption option value)
      (steady_firstOf value options),
    output_tryOption]

/-- No option wins exactly when each of them rejects. -/
theorem output_firstOf_eq_none {options : List (Check Id)} {path : Path} :
    (firstOf value options).output path = none ↔
      ∀ option ∈ options, (option .failFast value).output path = none := by
  induction options with
  | nil => simp [firstOf]
  | cons option options induction =>
      rw [output_firstOf_cons, Option.or_eq_none_iff, induction,
        List.forall_mem_cons]

end FirstOf

end Walk

end JsonMatch
