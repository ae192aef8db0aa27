import JsonMatch.Proofs.CheckWalks
import JsonMatch.Proofs.SchemaParts

/-!
# Walks at another path

A walk takes no notice of the steps above the part that it looks at.  Moved
below an outer path it gives the same output and finds the same issues, each of
them moved likewise.  So what a walk finds in a part is what it finds there on
its own.
-/

namespace JsonMatch

/-- The issue seen from a value that contains the outermost one at `outer`. -/
def Issue.below (issue : Issue) (outer : Path) : Issue :=
  issue.moveTo (issue.path.below outer)

def WalkState.below (state : WalkState) (outer : Path) : WalkState :=
  { state with
    path := state.path.below outer
    issues := state.issues.map (·.below outer) }

namespace Walk

variable {α β : Type}

/-- A walk that leaves the path as it was, and goes the same way below any other
path. -/
structure Relocates (walk : Walk Id α) : Prop where
  keeps : ∀ state, (walk.run state).2.path = state.path
  moves : ∀ outer state, walk.run (state.below outer) =
    ((walk.run state).1, (walk.run state).2.below outer)

namespace Relocates

theorem issues_findings {walk : Walk Id α} (relocates : walk.Relocates)
    (path : Path) :
    (walk.findings path).issues =
      (walk.findings []).issues.map (·.below path) := by
  have moved := relocates.moves path {}
  have start : ({} : WalkState).below path = { path } := by
    simp [WalkState.below, Path.below]
  rw [start] at moved
  exact congrArg (fun run : α × WalkState => run.2.issues) moved

theorem pure (value : α) : Relocates (Pure.pure value : Walk Id α) := by
  constructor
  · intro state
    rfl
  · intro outer state
    rfl

theorem bind {walk : Walk Id α} {next : α → Walk Id β}
    (relocates : walk.Relocates) (follows : ∀ value, (next value).Relocates) :
    Relocates (walk >>= next) := by
  constructor
  · intro state
    have later := (follows (walk.run state).1).keeps (walk.run state).2
    exact later.trans (relocates.keeps state)
  · intro outer state
    change (next (walk.run (state.below outer)).1).run
      (walk.run (state.below outer)).2 = _
    rw [relocates.moves]
    exact (follows _).moves outer _

theorem modify {change : WalkState → WalkState}
    (keeps : ∀ state, (change state).path = state.path)
    (moves : ∀ outer state,
      change (WalkState.below state outer) = (change state).below outer) :
    Relocates (modify change : Walk Id PUnit) := by
  constructor
  · exact keeps
  · intro outer state
    change (PUnit.unit, change (state.below outer)) = _
    rw [moves]
    rfl

theorem reject (mode : Mode) (code message : String) :
    Relocates (Walk.reject mode code message : Walk Id (Option α)) := by
  cases mode with
  | failFast => exact pure none
  | collect =>
      refine (modify ?_ ?_).bind fun _ => pure none
      · intro state
        rfl
      · intro outer state
        simp [WalkState.below, Issue.below, Issue.moveTo]

theorem rejectWith (mode : Mode) (issues : Issues) :
    Relocates (Walk.rejectWith mode issues : Walk Id (Option α)) := by
  cases mode with
  | failFast => exact pure none
  | collect =>
      refine (modify ?_ ?_).bind fun _ => pure none
      · intro state
        rfl
      · intro outer state
        simp [WalkState.below, Issue.below, Issue.moveTo, Path.below]

theorem defer : Relocates (Walk.defer : Walk Id PUnit) := by
  apply modify
  · intro state
    rfl
  · intro outer state
    rfl

theorem guess : Relocates (Walk.guess : Walk Id PUnit) := by
  apply modify
  · intro state
    rfl
  · intro outer state
    rfl

theorem within {walk : Walk Id α} (relocates : walk.Relocates)
    (step : PathStep) :
    Relocates (Walk.within step walk) := by
  have run (state : WalkState) : (Walk.within step walk).run state =
      ((walk.run { state with path := state.path.enter step }).1,
        { (walk.run { state with path := state.path.enter step }).2 with
          path := (walk.run
            { state with path := state.path.enter step }).2.path.leave }) :=
    rfl
  constructor
  · intro state
    rw [run, relocates.keeps]
    exact Path.leave_enter state.path step
  · intro outer state
    have entered : { state.below outer with
        path := (state.below outer).path.enter step } =
          ({ state with path := state.path.enter step } : WalkState).below
            outer := by
      simp [WalkState.below, Path.enter_below]
    rw [run, run, entered, relocates.moves]
    -- The path ends with the step on both sides, as the walk has left it alone.
    have inside := relocates.keeps { state with path := state.path.enter step }
    simp only [WalkState.below, inside, Path.leave_enter, Path.enter_below]

theorem tryOption {option : Check Id} {value : Json}
    (relocates : (option .failFast value).Relocates) :
    Relocates (Walk.tryOption option value) := by
  have marked (open_check : Bool) (output : Option Json) :
      Relocates (if open_check then do Walk.guess; return output
        else return output : Walk Id (Option Json)) := by
    cases open_check with
    | true => exact guess.bind fun _ => pure output
    | false => exact pure output
  let run (path : Path) := (option .failFast value).run { path }
  have unfolded (state : WalkState) : (Walk.tryOption option value).run state =
      (if (run state.path).2.guessed ||
          ((run state.path).1.isSome && (run state.path).2.deferred) then do
        Walk.guess
        return (run state.path).1
      else return (run state.path).1 : Walk Id (Option Json)).run state := rfl
  constructor
  · intro state
    rw [unfolded]
    exact (marked _ _).keeps state
  · intro outer state
    have moved : run (state.below outer).path =
        ((run state.path).1, (run state.path).2.below outer) :=
      relocates.moves outer { path := state.path }
    rw [unfolded, unfolded, moved]
    exact (marked _ _).moves outer state

theorem firstOf {value : Json} {options : List (Check Id)}
    (relocates : ∀ option ∈ options, (option .failFast value).Relocates) :
    Relocates (Walk.firstOf value options) := by
  induction options with
  | nil => exact pure none
  | cons option options induction =>
      have first := relocates option List.mem_cons_self
      refine first.tryOption.bind fun output => ?_
      cases output with
      | some output => exact pure (some output)
      | none =>
          exact induction fun other member =>
            relocates other (List.mem_cons_of_mem _ member)

end Relocates

end Walk

namespace ModalWalk

variable {α β : Type}

/-- A walk that takes no notice of where it is, in either mode. -/
def Relocates (part : ModalWalk Id α) : Prop :=
  ∀ mode, (part mode).Relocates

namespace Relocates

variable {part : ModalWalk Id α}

theorem accept (value : α) :
    (ModalWalk.accept value : ModalWalk Id α).Relocates := by
  intro mode
  exact .pure (some value)

theorem rejection (code message : String) :
    (Check.rejection code message : ModalWalk Id α).Relocates := by
  intro mode
  exact .reject mode code message

theorem decided (holds : Bool) (output : α) (code message : String) :
    (Check.decided holds output code message : ModalWalk Id α).Relocates := by
  cases holds with
  | true => exact accept output
  | false => exact rejection code message

theorem outcomeWalk (outcome : Outcome) :
    (Check.outcomeWalk outcome : ModalWalk Id Json).Relocates := by
  cases outcome with
  | success output => exact accept output
  | failure issues =>
      intro mode
      exact .rejectWith mode issues

theorem leftOpen (output : α) :
    (Check.leftOpen output : ModalWalk Id α).Relocates := by
  intro mode
  exact Walk.Relocates.defer.bind fun _ => .pure (some output)

theorem stoodIn (output : α) :
    (Check.stoodIn output : ModalWalk Id α).Relocates := by
  intro mode
  exact Walk.Relocates.guess.bind fun _ => .pure (some output)

theorem inside (relocates : part.Relocates) (step : PathStep) :
    (part.inside step).Relocates := by
  intro mode
  exact (relocates mode).within step

theorem mapped (relocates : part.Relocates) (function : α → β) :
    (part.mapped function).Relocates := by
  intro mode
  exact (relocates mode).bind fun _ => .pure _

theorem andThen {next : α → ModalWalk Id β} (relocates : part.Relocates)
    (follows : ∀ value, (next value).Relocates) :
    (part.andThen next).Relocates := by
  intro mode
  refine (relocates mode).bind fun output => ?_
  cases output with
  | some output => exact follows output mode
  | none => exact .pure none

theorem both {others : ModalWalk Id (List α)} (relocates : part.Relocates)
    (later : others.Relocates) : (part.both others).Relocates := by
  intro mode
  refine (relocates mode).bind fun output => ?_
  cases output with
  | some output => exact (later mode).bind fun _ => .pure _
  | none =>
      cases mode with
      | failFast => exact .pure none
      | collect => exact (later .collect).bind fun _ => .pure none

theorem all {parts : List (ModalWalk Id α)}
    (relocates : ∀ part ∈ parts, part.Relocates) :
    (ModalWalk.all parts).Relocates := by
  induction parts with
  | nil => exact accept []
  | cons part parts induction =>
      rw [all_cons]
      apply (relocates part List.mem_cons_self).both
      apply induction
      intro other member
      exact relocates other (List.mem_cons_of_mem _ member)

theorem orElse {attempt : Walk Id (Option α)} {fallback : ModalWalk Id α}
    (relocates : attempt.Relocates) (later : fallback.Relocates) :
    (ModalWalk.orElse attempt fallback).Relocates := by
  intro mode
  refine relocates.bind fun output => ?_
  cases output with
  | some output => exact .pure (some output)
  | none => exact later mode

theorem forIssues (relocates : part.Relocates) : part.forIssues.Relocates := by
  intro mode
  cases mode with
  | failFast => exact .pure none
  | collect => exact (relocates .collect).bind fun _ => .pure none

end Relocates

end ModalWalk

namespace Check

open ModalWalk

/-- A check whose walks take no notice of where they are. -/
def Relocates (check : Check Id) : Prop :=
  ∀ value, (check.on value).Relocates

private theorem relocates_declaredField (members : Members)
    {field : Field (Check Id)} (relocates : field.schema.Relocates) :
    ModalWalk.Relocates fun mode => declaredField mode members field := by
  simp only [declaredField]
  cases members.get? field.name with
  | some value => exact ((relocates value).inside _).mapped _
  | none =>
      cases field.presence with
      | required => exact (ModalWalk.Relocates.rejection _ _).inside _
      | optional => exact .accept []
      | default value => exact .accept _

private theorem relocates_unknownMember {unknown : OtherKeys (Check Id)}
    (relocates : ∀ check, unknown = .validate check → check.Relocates)
    (member : String × Json) :
    ModalWalk.Relocates fun mode => unknownMember mode unknown member := by
  cases unknown with
  | allow => exact .accept _
  | deny => exact (ModalWalk.Relocates.rejection _ _).inside _
  | validate check => exact ((relocates check rfl member.2).inside _).mapped _

theorem relocates_object {fields : List (Field (Check Id))}
    {unknown : OtherKeys (Check Id)}
    (declared : ∀ field ∈ fields, field.schema.Relocates)
    (others : ∀ check, unknown = .validate check → check.Relocates) :
    (object fields unknown).Relocates := by
  intro value
  cases value with
  | object members =>
      rw [object_on]
      apply ModalWalk.Relocates.mapped
      apply ModalWalk.Relocates.all
      intro part member
      rcases List.mem_append.mp member with listed | listed
      · obtain ⟨field, found, rfl⟩ := List.mem_map.mp listed
        exact relocates_declaredField members (declared field found)
      · obtain ⟨extra, _, rfl⟩ := List.mem_map.mp listed
        exact relocates_unknownMember others extra
  | _ => exact .rejection _ _

private theorem relocates_itemParts {checkAt : Nat → Option (Check Id)}
    (relocates : ∀ position check, checkAt position = some check →
      check.Relocates)
    (values : List Json) : (all (itemParts checkAt values)).Relocates := by
  apply ModalWalk.Relocates.all
  intro part member
  obtain ⟨entry, _, found⟩ := List.mem_filterMap.mp member
  obtain ⟨check, chosen, rfl⟩ := Option.map_eq_some_iff.mp found
  exact (relocates entry.2 check chosen entry.1).inside _

theorem relocates_array {item : Check Id} (relocates : item.Relocates) :
    (array item).Relocates := by
  intro value
  cases value with
  | array values =>
      rw [array_on]
      apply ModalWalk.Relocates.mapped
      apply relocates_itemParts
      intro position check same
      cases same
      exact relocates
  | _ => exact .rejection _ _

theorem relocates_tuple {positions : List (Check Id)} {rest : Option (Check Id)}
    (listed : ∀ check ∈ positions, check.Relocates)
    (after : ∀ check, rest = some check → check.Relocates) :
    (tuple positions rest).Relocates := by
  intro value
  cases value with
  | array values =>
      rw [tuple_on]
      split
      · apply ModalWalk.Relocates.mapped
        apply relocates_itemParts
        intro position check chosen
        rcases Option.or_eq_some_iff.mp chosen with here | ⟨_, last⟩
        · exact listed check (List.mem_of_getElem? here)
        · exact after check last
      · exact .rejection _ _
  | _ => exact .rejection _ _

private theorem relocates_firstOf {value : Json} {options : List (Check Id)}
    {fallback : ModalWalk Id Json}
    (relocates : ∀ option ∈ options, option.Relocates)
    (later : fallback.Relocates) :
    (orElse (Walk.firstOf value options) fallback).Relocates := by
  apply ModalWalk.Relocates.orElse _ later
  apply Walk.Relocates.firstOf
  intro option member
  exact relocates option member value .failFast

theorem relocates_union {options : List (Check Id)}
    (relocates : ∀ option ∈ options, option.Relocates) :
    (union options).Relocates := by
  intro value
  rw [union_on]
  exact relocates_firstOf relocates (.rejection _ _)

theorem relocates_variant {key : String}
    {options : List (Option Json × Check Id)}
    (relocates : ∀ option ∈ options, option.2.Relocates) :
    (variant key options).Relocates := by
  intro value
  cases value with
  | object members =>
      cases meant : candidates (Members.get? members key) options with
      | nil =>
          rw [variant_on_of_nil meant]
          exact (ModalWalk.Relocates.rejection _ _).inside _
      | cons first others =>
          rw [variant_on_of_cons meant]
          have relocatesMeant :
              ∀ option ∈ first :: others, option.Relocates := by
            intro option member
            rw [← meant] at member
            obtain ⟨tagged, listed, rfl⟩ := List.mem_map.mp member
            exact relocates tagged (List.mem_filter.mp listed).1
          apply relocates_firstOf relocatesMeant
          exact (relocatesMeant first List.mem_cons_self _).forIssues
  | _ => exact .rejection _ _

theorem relocates_asyncRefined {inner : Check Id} (relocates : inner.Relocates)
    (waiting : Waiting) (test : Json → Bool) (message : String) :
    (asyncRefined waiting inner test message : Check Id).Relocates := by
  intro value
  cases waiting with
  | refuse =>
      rw [asyncRefined_refuse_on]
      exact (relocates value).andThen fun output => .leftOpen output
  | await =>
      rw [asyncRefined_await_on]
      exact (relocates value).andThen fun output => .decided _ output _ _

theorem relocates_custom (waiting : Waiting) (validate : Json → Answer Id) :
    (custom waiting validate : Check Id).Relocates := by
  intro value
  cases waiting with
  | await =>
      rw [custom_await_on]
      exact .outcomeWalk _
  | refuse =>
      rw [custom_refuse_on]
      cases validate value with
      | ready outcome => exact .outcomeWalk outcome
      | pending _ => exact .stoodIn value

end Check

/-- The walk of a schema takes no notice of where it is. -/
theorem Schema.relocates (schema : Schema Id) (waiting : Waiting) :
    (schema.check waiting).Relocates := by
  apply Schema.check_induction (motive := Check.Relocates)
  case literal =>
    intro expected value
    rw [Check.literal_on]
    exact .decided _ _ _ _
  case primitive =>
    intro kind value
    rw [Check.primitive_on]
    exact .decided _ _ _ _
  case object =>
    intro fields unknown declared others
    exact Check.relocates_object declared others
  case tuple =>
    intro items rest listed after
    exact Check.relocates_tuple listed after
  case array =>
    intro item relocates
    exact Check.relocates_array relocates
  case union =>
    intro options relocates
    exact Check.relocates_union relocates
  case variant =>
    intro key options relocates
    exact Check.relocates_variant relocates
  case refined =>
    intro inner rule message relocates value
    rw [Check.refined_on]
    exact (relocates value).andThen fun output => .decided _ output _ _
  case transform =>
    intro inner map relocates value
    rw [Check.transform_on]
    exact (relocates value).andThen fun output => .accept (map output)
  case asyncRefined =>
    intro inner test message relocates
    exact Check.relocates_asyncRefined relocates waiting test message
  case custom =>
    intro validate
    exact Check.relocates_custom waiting validate

end JsonMatch
