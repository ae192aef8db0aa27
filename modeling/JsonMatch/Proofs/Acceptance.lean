import JsonMatch.Plan.Validator
import JsonMatch.Proofs.Regularity
import Mathlib.Data.List.Forall2

/-!
# What schemas accept

The verdict of a schema on a value is the output of its walk, which depends
neither on the mode nor on the path.  It obeys one equation for each kind of
node.
-/

namespace JsonMatch

open Walk

/-- All outputs, if there is one everywhere. -/
def allGiven {α : Type} : List (Option α) → Option (List α)
  | [] => some []
  | first :: others =>
    first.bind fun output => (allGiven others).map (output :: ·)

theorem allGiven_eq_some {α : Type} {given : List (Option α)}
    {outputs : List α} :
    allGiven given = some outputs ↔ given = outputs.map some := by
  induction given generalizing outputs with
  | nil => cases outputs <;> simp [allGiven]
  | cons first others induction =>
      cases first <;> cases outputs <;> simp [allGiven, induction, and_comm]

theorem some_mem_iff_of_allGiven {α : Type} {given : List (Option α)}
    {outputs : List α} (all : allGiven given = some outputs) {output : α} :
    some output ∈ given ↔ output ∈ outputs := by
  rw [allGiven_eq_some.mp all]
  simp

theorem allGiven_ne_none {α : Type} {given : List (Option α)} :
    allGiven given ≠ none ↔ ∀ output ∈ given, output ≠ none := by
  induction given with
  | nil => simp [allGiven]
  | cons first others induction =>
      rw [List.forall_mem_cons, ← induction]
      cases first with
      | none => simp [allGiven]
      | some output => cases later : allGiven others <;> simp [allGiven, later]

theorem given_of_allGiven {α : Type} {given : List (Option α)}
    {outputs : List α} (all : allGiven given = some outputs) {output : Option α}
    (member : output ∈ given) :
    output ≠ none := by
  apply allGiven_ne_none.mp _ output member
  simp [all]

namespace Schema

/-- What a schema makes of a value, if it accepts it. -/
def verdict (schema : Schema Id) (waiting : Waiting) (value : Json) :
    Option Json :=
  (schema.check waiting .collect value).output []

theorem output_eq_verdict (schema : Schema Id) (waiting : Waiting) (mode : Mode)
    (value : Json) (path : Path) :
    (schema.check waiting mode value).output path =
      schema.verdict waiting value :=
  (schema.regular waiting value).uniform mode path

theorem steady (schema : Schema Id) (waiting : Waiting)
    (mode : Mode) (value : Json) :
    (schema.check waiting mode value).Steady :=
  (schema.regular waiting value).steady mode

end Schema

namespace ModalWalk

variable {α β : Type}

/-- A walk with an output that is the same in both modes and at all paths. -/
def Gives (part : ModalWalk Id α) (output : Option α) : Prop :=
  ∀ mode, (part mode).Steady ∧ ∀ path, (part mode).output path = output

namespace Gives

variable {part : ModalWalk Id α} {output : Option α}

theorem schema (schema : Schema Id) (waiting : Waiting) (value : Json) :
    ((schema.check waiting).on value).Gives (schema.verdict waiting value) :=
  fun mode =>
    ⟨schema.steady waiting mode value,
     schema.output_eq_verdict waiting mode value⟩

theorem accept (value : α) :
    (ModalWalk.accept value : ModalWalk Id α).Gives (some value) :=
  fun _ => ⟨steady_pure _, fun _ => rfl⟩

theorem rejection (code message : String) :
    (Check.rejection code message : ModalWalk Id α).Gives none :=
  fun mode => ⟨steady_reject mode code message,
    fun path => (yields_reject mode code message path).output_eq⟩

theorem decided (holds : Bool) (value : α) (code message : String) :
    (Check.decided holds value code message : ModalWalk Id α).Gives
      (if holds then some value else none) := by
  cases holds with
  | true => exact accept value
  | false => exact rejection code message

theorem inside (gives : part.Gives output) (step : PathStep) :
    (part.inside step).Gives output :=
  fun mode => ⟨steady_inside (gives mode).1,
    fun path => (output_inside (gives mode).1 path).trans ((gives mode).2 _)⟩

theorem mapped (gives : part.Gives output) (function : α → β) :
    (part.mapped function).Gives (output.map function) :=
  fun mode => ⟨steady_mapped (gives mode).1, fun path => by
    rw [output_mapped (gives mode).1, (gives mode).2]⟩

theorem andThen {next : α → ModalWalk Id β} {later : α → Option β}
    (gives : part.Gives output)
    (follows : ∀ value, (next value).Gives (later value)) :
    (part.andThen next).Gives (output.bind later) := by
  intro mode
  have later_steady := fun value => (follows value mode).1
  refine ⟨steady_andThen (gives mode).1 later_steady, fun path => ?_⟩
  rw [output_andThen (gives mode).1 later_steady, (gives mode).2]
  exact Option.bind_congr fun value _ => (follows value mode).2 path

theorem filtered {part : ModalWalk Id α} {output : Option α}
    (gives : part.Gives output)
    (test : α → Bool) (code : α → String) (message : α → String) :
    (part.andThen fun value =>
      Check.decided (test value) value (code value) (message value)).Gives
      (output.filter test) := by
  have tested := gives.andThen fun value =>
    decided (test value) value (code value) (message value)
  cases output <;> exact tested

theorem all {parts : List (ModalWalk Id α)} {outputs : List (Option α)}
    (gives : List.Forall₂ Gives parts outputs) :
    (ModalWalk.all parts).Gives (allGiven outputs) := by
  induction gives with
  | nil => exact accept []
  | cons first _ induction =>
      intro mode
      rw [all_cons]
      refine ⟨steady_both (first mode).1 (induction mode).1, fun path => ?_⟩
      rw [output_both (first mode).1 (induction mode).1, (first mode).2,
        (induction mode).2]
      rfl

theorem forIssues (gives : part.Gives output) : part.forIssues.Gives none :=
  fun mode => ⟨steady_forIssues (gives mode).1, output_forIssues (gives mode).1⟩

theorem of_yields {found : Path → Findings}
    (yields : ∀ mode path, (part mode).Yields path output (found path)) :
    part.Gives output :=
  fun mode => ⟨steady_of_yields (yields mode), fun path =>
    (yields mode path).output_eq⟩

theorem outcomeWalk (outcome : Outcome) :
    (Check.outcomeWalk outcome : ModalWalk Id Json).Gives
      outcome.accepted? := by
  cases outcome with
  | success output => exact accept output
  | failure issues =>
      exact fun mode => ⟨steady_rejectWith mode issues,
        fun path => (yields_rejectWith mode issues path).output_eq⟩

theorem verdict_eq {schema : Schema Id} {waiting : Waiting} {value : Json}
    {verdict : Option Json}
    (gives : ((schema.check waiting).on value).Gives verdict) :
    schema.verdict waiting value = verdict :=
  (gives .collect).2 []

end Gives

end ModalWalk

namespace Schema

variable (waiting : Waiting)

/-- What a declared field adds to the output. -/
def fieldVerdict (members : Members) (field : Field (Schema Id)) :
    Option (List (String × Json)) :=
  match members.get? field.name with
  | some value => (field.schema.verdict waiting value).map fun output =>
      [(field.name, output)]
  | none =>
      match field.presence with
      | .required => none
      | .optional => some []
      | .default value => some [(field.name, value)]

/-- What a member that is not declared adds to the output. -/
def unknownVerdict (unknown : OtherKeys (Schema Id)) (member : String × Json) :
    Option (List (String × Json)) :=
  match unknown with
  | .allow => some [member]
  | .deny => none
  | .validate schema =>
      (schema.verdict waiting member.2).map fun output => [(member.1, output)]

/-- What all members of an object add to the output, the declared ones first. -/
def memberVerdicts (fields : List (Field (Schema Id)))
    (unknown : OtherKeys (Schema Id))
    (members : Members) : List (Option (List (String × Json))) :=
  fields.map (fieldVerdict waiting members) ++
    (members.filter fun member => !Field.declares fields member.1).map
      (unknownVerdict waiting unknown)

/-- What the items of an array add to the output. -/
def itemVerdicts (schemaAt : Nat → Option (Schema Id)) (values : List Json) :
    List (Option Json) :=
  values.zipIdx.filterMap fun entry =>
    (schemaAt entry.2).map fun schema => schema.verdict waiting entry.1

/-- The options of a variant that can be meant. -/
def meantOptions (key : String) (options : List (Schema Id))
    (members : Members) : List (Schema Id) :=
  options.filter fun option => Check.isCandidate (members.get? key)
    (option.tag? key)

open ModalWalk

theorem verdict_literal (expected value : Json) :
    (literal expected : Schema Id).verdict waiting value =
      if value == expected then some value else none := by
  apply Gives.verdict_eq
  rw [check, Check.literal_on]
  exact .decided _ _ _ _

theorem verdict_primitive (kind : Primitive) (value : Json) :
    (primitive kind : Schema Id).verdict waiting value =
      if kind.accepts value then some value else none := by
  apply Gives.verdict_eq
  rw [check, Check.primitive_on]
  exact .decided _ _ _ _

private theorem gives_declaredField (members : Members)
    (field : Field (Schema Id)) :
    Gives
      (fun mode => Check.declaredField mode members (field.map (check waiting)))
      (fieldVerdict waiting members field) := by
  simp only [Check.declaredField, Field.map, fieldVerdict]
  cases members.get? field.name with
  | some value =>
      exact ((Gives.schema field.schema waiting value).inside _).mapped _
  | none =>
      cases field.presence with
      | required => exact (Gives.rejection _ _).inside _
      | optional => exact .accept []
      | default value => exact .accept _

private theorem gives_unknownMember (unknown : OtherKeys (Schema Id))
    (member : String × Json) :
    Gives (fun mode => Check.unknownMember mode
      (unknown.map (check waiting)) member)
      (unknownVerdict waiting unknown member) := by
  cases unknown with
  | allow => exact .accept _
  | deny => exact (Gives.rejection _ _).inside _
  | validate schema =>
      exact ((Gives.schema schema waiting member.2).inside _).mapped _

theorem verdict_object (fields : List (Field (Schema Id)))
    (unknown : OtherKeys (Schema Id))
    (members : Members) :
    (object fields unknown).verdict waiting (.object members) =
      (allGiven (memberVerdicts waiting fields unknown members)).map
        fun outputs => .object (Members.ofList outputs.flatten) := by
  apply Gives.verdict_eq
  rw [check_object, Check.object_on]
  refine .mapped (.all ?_) _
  simp only [Check.objectParts, memberVerdicts, Field.declares_map,
    List.map_map]
  refine List.rel_append ?_ ?_
  · rw [List.forall₂_map_left_iff, List.forall₂_map_right_iff,
      List.forall₂_same]
    exact fun field _ => gives_declaredField waiting members field
  · rw [List.forall₂_map_left_iff, List.forall₂_map_right_iff,
      List.forall₂_same]
    exact fun member _ => gives_unknownMember waiting unknown member

private theorem gives_items (schemaAt : Nat → Option (Schema Id))
    (values : List Json) :
    Gives (all (Check.itemParts
      (fun position => (schemaAt position).map (check waiting))
      values)) (allGiven (itemVerdicts waiting schemaAt values)) := by
  refine .all (List.rel_filterMap (R := Eq) ?_ (List.forall₂_refl _))
  rintro ⟨value, position⟩ _ rfl
  dsimp only
  cases schemaAt position with
  | none => exact .none
  | some schema => exact .some ((Gives.schema schema waiting value).inside _)

theorem itemVerdicts_const (item : Schema Id) (values : List Json) :
    itemVerdicts waiting (fun _ => some item) values =
      values.map (item.verdict waiting) := by
  simp only [itemVerdicts, Option.map_some, List.filterMap_eq_map']
  conv => rhs; rw [← List.zipIdx_map_fst 0 values, List.map_map]
  rfl

theorem verdict_array (item : Schema Id) (values : List Json) :
    (array item).verdict waiting (.array values) =
      (allGiven (values.map (item.verdict waiting))).map Json.array := by
  apply Gives.verdict_eq
  rw [check, Check.array_on]
  have items := gives_items waiting (fun _ => some item) values
  rw [itemVerdicts_const] at items
  exact items.mapped _

theorem verdict_tuple (items : List (Schema Id)) (rest : Option (Schema Id))
    (values : List Json) :
    (tuple items rest).verdict waiting (.array values) =
      if tupleLengthFits items.length rest.isSome values.length then
        (allGiven
          (itemVerdicts waiting (fun position => items[position]?.or rest)
            values)).map Json.array
      else none := by
  apply Gives.verdict_eq
  rw [check_tuple, Check.tuple_on]
  simp only [List.length_map, Option.isSome_map, List.getElem?_map,
    ← Option.map_or]
  split
  · exact (gives_items waiting _ values).mapped _
  · exact .rejection _ _

private theorem output_firstOf_map (options : List (Schema Id))
    (value : Json) (path : Path) :
    (Walk.firstOf value (options.map (check waiting))).output path =
      options.findSome? (·.verdict waiting value) := by
  induction options with
  | nil => rfl
  | cons option options induction =>
      rw [List.map_cons, Walk.output_firstOf_cons, output_eq_verdict, induction,
        List.findSome?_cons]
      cases option.verdict waiting value <;> rfl

private theorem gives_orElse_none (options : List (Schema Id)) {value : Json}
    {fallback : ModalWalk Id Json} (gives : fallback.Gives none) :
    Gives (orElse (Walk.firstOf value (options.map (check waiting))) fallback)
      (options.findSome? (·.verdict waiting value)) := by
  intro mode
  refine ⟨steady_orElse (Walk.steady_firstOf _ _) (gives mode).1,
    fun path => ?_⟩
  rw [output_orElse (Walk.steady_firstOf _ _) (gives mode).1,
    output_firstOf_map, (gives mode).2, Option.or_none]

theorem verdict_union (options : List (Schema Id)) (value : Json) :
    (union options).verdict waiting value =
      options.findSome? (·.verdict waiting value) := by
  apply Gives.verdict_eq
  rw [check_union, Check.union_on]
  exact gives_orElse_none waiting options (.rejection _ _)

theorem verdict_variant (key : String) (options : List (Schema Id))
    (members : Members) :
    (variant key options).verdict waiting (.object members) =
      (meantOptions key options members).findSome?
        (·.verdict waiting (.object members)) := by
  apply Gives.verdict_eq
  rw [check_variant]
  cases meant : meantOptions key options members with
  | nil =>
      rw [Check.variant_on_of_nil
        (by rw [Check.candidates_map]; exact congrArg _ meant)]
      exact (Gives.rejection _ _).inside _
  | cons first others =>
      rw [Check.variant_on_of_cons
        (by rw [Check.candidates_map]; exact congrArg _ meant)]
      exact gives_orElse_none waiting (first :: others)
        (Gives.schema first waiting _).forIssues

theorem verdict_refined (inner : Schema Id) (rule : Rule Id)
    (message : Option String)
    (value : Json) :
    (refined inner rule message).verdict waiting value =
      (inner.verdict waiting value).filter fun output =>
        (rule.holds output).run := by
  apply Gives.verdict_eq
  rw [check, Check.refined_on]
  exact (Gives.schema inner waiting value).filtered _ _ _

theorem verdict_transform (inner : Schema Id) (map : Json → Json)
    (value : Json) :
    (transform inner map : Schema Id).verdict waiting value =
      (inner.verdict waiting value).map map := by
  apply Gives.verdict_eq
  rw [check, Check.transform_on, Option.map_eq_bind]
  exact (Gives.schema inner waiting value).andThen fun output => .accept _

theorem verdict_asyncRefined_await (inner : Schema Id) (test : Json → Bool)
    (message : String) (value : Json) :
    (asyncRefined inner test message : Schema Id).verdict .await value =
      (inner.verdict .await value).filter test := by
  apply Gives.verdict_eq
  rw [check, Check.asyncRefined_await_on]
  exact (Gives.schema inner .await value).filtered _ _ _

theorem verdict_asyncRefined_refuse (inner : Schema Id) (test : Json → Bool)
    (message : String) (value : Json) :
    (asyncRefined inner test message : Schema Id).verdict .refuse value =
      inner.verdict .refuse value := by
  apply Gives.verdict_eq
  rw [check, Check.asyncRefined_refuse_on]
  have gives := (Gives.schema inner .refuse value).andThen fun output =>
    .of_yields (Check.yields_leftOpen output)
  rwa [Option.bind_fun_some] at gives

theorem verdict_custom_await (validate : Json → Answer Id) (value : Json) :
    (custom validate : Schema Id).verdict .await value =
      (validate value).settle.run.accepted? := by
  apply Gives.verdict_eq
  rw [check, Check.custom_await_on]
  exact .outcomeWalk _

section WrongKind

variable {value : Json}

theorem verdict_object_of_ne (fields : List (Field (Schema Id)))
    (unknown : OtherKeys (Schema Id))
    (other : ∀ members, value ≠ .object members) :
    (object fields unknown).verdict waiting value = none := by
  apply Gives.verdict_eq
  rw [check_object, Check.object_on_of_ne _ _ other]
  exact .rejection _ _

theorem verdict_variant_of_ne (key : String) (options : List (Schema Id))
    (other : ∀ members, value ≠ .object members) :
    (variant key options).verdict waiting value = none := by
  apply Gives.verdict_eq
  rw [check_variant, Check.variant_on_of_ne _ _ other]
  exact .rejection _ _

theorem verdict_array_of_ne (item : Schema Id)
    (other : ∀ values, value ≠ .array values) :
    (array item).verdict waiting value = none := by
  apply Gives.verdict_eq
  rw [check, Check.array_on_of_ne _ other]
  exact .rejection _ _

theorem verdict_tuple_of_ne (items : List (Schema Id))
    (rest : Option (Schema Id)) (other : ∀ values, value ≠ .array values) :
    (tuple items rest).verdict waiting value = none := by
  apply Gives.verdict_eq
  rw [check_tuple, Check.tuple_on_of_ne _ _ other]
  exact .rejection _ _

end WrongKind

end Schema

end JsonMatch
