import JsonMatch.Proofs.MemberLists
import JsonMatch.Proofs.Prechecks
import JsonMatch.Proofs.Verdicts

/-!
# Schemas that never wait

The walk of a schema leaves nothing open when no part of it has a check that is
awaited or a validator that holds back its answer.  A complete precheck is one
of such a schema, and then decides acceptance alone: what passes is accepted as
it is.
-/

namespace JsonMatch

open Walk

/-- Whether nothing in a schema ever has to be awaited. -/
inductive Schema.Immediate : Schema Id → Prop where
  | literal (value : Json) : Immediate (.literal value)
  | primitive (kind : Primitive) : Immediate (.primitive kind)
  | object {fields : List (Field (Schema Id))} {unknown : OtherKeys (Schema Id)}
      (immediateFields : ∀ field ∈ fields, Immediate field.schema)
      (immediateUnknown : ∀ schema, unknown = .validate schema →
        Immediate schema) :
      Immediate (.object fields unknown)
  | tuple {items : List (Schema Id)} {rest : Option (Schema Id)}
      (immediateItems : ∀ item ∈ items, Immediate item)
      (immediateRest : ∀ schema, rest = some schema → Immediate schema) :
      Immediate (.tuple items rest)
  | array {item : Schema Id} (immediate : Immediate item) :
      Immediate (.array item)
  | union {options : List (Schema Id)}
      (immediate : ∀ option ∈ options, Immediate option) :
      Immediate (.union options)
  | variant {key : String} {options : List (Schema Id)}
      (immediate : ∀ option ∈ options, Immediate option) :
        Immediate (.variant key options)
  | refined {inner : Schema Id} {rule : Rule Id} {message : Option String}
      (immediate : Immediate inner) : Immediate (.refined inner rule message)
  | transform {inner : Schema Id} {map : Json → Json}
      (immediate : Immediate inner) :
      Immediate (.transform inner map)
  | custom {validate : Json → Answer Id}
      (ready : ∀ value, ∃ outcome, validate value = .ready outcome) :
      Immediate (.custom validate)

namespace Findings

/-- Whether a walk left nothing open. -/
structure Clear (found : Findings) : Prop where
  deferred : found.deferred = false
  guessed : found.guessed = false

theorem clear_nothing : Clear {} := ⟨rfl, rfl⟩

theorem Clear.append {earlier later : Findings} (first : earlier.Clear)
    (second : later.Clear) : (earlier ++ later).Clear := by
  constructor
  · simp [first.deferred, second.deferred]
  · simp [first.guessed, second.guessed]

theorem clear_rejected (mode : Mode) (issues : List Issue) :
    (rejected mode issues).Clear := by
  cases mode <;> exact ⟨rfl, rfl⟩

theorem clear_tried {α : Type} {output : Option α} {found : Findings}
    (clear : found.Clear) :
    (tried output found).Clear := by
  simp [tried, clear.deferred, clear.guessed, clear_nothing]

end Findings

open Findings

namespace ModalWalk

variable {α β : Type}

/-- A walk that leaves nothing open. -/
structure Closed (part : ModalWalk Id α) : Prop where
  steady : ∀ mode, (part mode).Steady
  clear : ∀ mode path, ((part mode).findings path).Clear

namespace Closed

variable {part : ModalWalk Id α}

theorem of_yields {output : Option α} {found : Mode → Path → Findings}
    (yields : ∀ mode path, (part mode).Yields path output (found mode path))
    (clear : ∀ mode path, (found mode path).Clear) : part.Closed where
  steady mode := steady_of_yields (yields mode)
  clear mode path := by
    rw [(yields mode path).findings_eq]
    exact clear mode path

theorem accept (value : α) : (ModalWalk.accept value : ModalWalk Id α).Closed :=
  of_yields (fun _ path => .pure path (some value)) fun _ _ => clear_nothing

theorem rejection (code message : String) :
    (Check.rejection code message : ModalWalk Id α).Closed :=
  of_yields (fun mode => yields_reject mode code message) fun mode _ =>
    clear_rejected mode _

theorem decided (holds : Bool) (output : α) (code message : String) :
    (Check.decided holds output code message : ModalWalk Id α).Closed := by
  cases holds with
  | true => exact accept output
  | false => exact rejection code message

theorem outcomeWalk (outcome : Outcome) :
    (Check.outcomeWalk outcome : ModalWalk Id Json).Closed := by
  cases outcome with
  | success output => exact accept output
  | failure issues =>
      exact of_yields (fun mode => yields_rejectWith mode issues)
        fun mode _ => clear_rejected mode _

theorem inside (closed : part.Closed) (step : PathStep) :
    (part.inside step).Closed where
  steady mode := steady_inside (closed.steady mode)
  clear mode path := by
    rw [findings_inside (closed.steady mode)]
    exact closed.clear mode _

theorem mapped (closed : part.Closed) (function : α → β) :
    (part.mapped function).Closed where
  steady mode := steady_mapped (closed.steady mode)
  clear mode path := by
    rw [findings_mapped (closed.steady mode)]
    exact closed.clear mode path

theorem andThen {next : α → ModalWalk Id β} (closed : part.Closed)
    (follows : ∀ value, (next value).Closed) : (part.andThen next).Closed where
  steady mode := steady_andThen (closed.steady mode) fun value =>
    (follows value).steady mode
  clear mode path := by
    rw [findings_andThen (closed.steady mode) fun value =>
      (follows value).steady mode]
    apply (closed.clear mode path).append
    cases (part mode).output path with
    | none => exact clear_nothing
    | some value => exact (follows value).clear mode path

theorem both {others : ModalWalk Id (List α)} (closed : part.Closed)
    (later : others.Closed) : (part.both others).Closed where
  steady mode := steady_both (closed.steady mode) (later.steady mode)
  clear mode path := by
    rw [findings_both (closed.steady mode) (later.steady mode)]
    apply (closed.clear mode path).append
    split
    · exact later.clear mode path
    · exact clear_nothing

theorem all {parts : List (ModalWalk Id α)}
    (closed : ∀ part ∈ parts, part.Closed) :
    (ModalWalk.all parts).Closed := by
  induction parts with
  | nil => exact accept []
  | cons first others induction =>
      rw [all_cons]
      exact (closed first List.mem_cons_self).both
        (induction fun part member =>
          closed part (List.mem_cons_of_mem _ member))

theorem orElse {attempt : Walk Id (Option α)} {fallback : ModalWalk Id α}
    (steady : attempt.Steady) (clear : ∀ path, (attempt.findings path).Clear)
    (closed : fallback.Closed) :
    (ModalWalk.orElse attempt fallback).Closed where
  steady mode := steady_orElse steady (closed.steady mode)
  clear mode path := by
    rw [findings_orElse steady (closed.steady mode)]
    apply (clear path).append
    split
    · exact clear_nothing
    · exact closed.clear mode path

theorem forIssues (closed : part.Closed) : part.forIssues.Closed where
  steady mode := steady_forIssues (closed.steady mode)
  clear mode path := by
    rw [findings_forIssues (closed.steady mode)]
    split
    · exact closed.clear mode path
    · exact clear_nothing

end Closed

end ModalWalk

namespace Walk

theorem clear_firstOf {value : Json} {options : List (Check Id)}
    (closed : ∀ option ∈ options, (option.on value).Closed) (path : Path) :
    ((firstOf value options).findings path).Clear := by
  induction options with
  | nil => exact clear_nothing
  | cons option options induction =>
      rw [findings_firstOf_cons, findings_tryOption]
      have first := closed option List.mem_cons_self
      apply (clear_tried (first.clear .failFast path)).append
      split
      · exact clear_nothing
      · exact induction fun other member => closed other
          (List.mem_cons_of_mem _ member)

end Walk

namespace Schema

open ModalWalk

/-- Whether the walk of a schema without waiting leaves nothing open. -/
def Closed (schema : Schema Id) : Prop :=
  ∀ value, ModalWalk.Closed ((schema.check .refuse).on value)

private theorem closed_declaredField {members : Members}
    {field : Field (Schema Id)} (closed : field.schema.Closed) :
    ModalWalk.Closed fun mode => Check.declaredField mode members
      (field.map (check .refuse)) := by
  simp only [Check.declaredField, Field.map]
  cases members.get? field.name with
  | some value => exact ((closed value).inside _).mapped _
  | none =>
      cases field.presence with
      | required => exact (ModalWalk.Closed.rejection _ _).inside _
      | optional => exact .accept []
      | default value => exact .accept _

private theorem closed_unknownMember {unknown : OtherKeys (Schema Id)}
    (closed : ∀ schema, unknown = .validate schema → schema.Closed)
    (member : String × Json) :
    ModalWalk.Closed fun mode => Check.unknownMember mode
      (unknown.map (check .refuse)) member := by
  cases unknown with
  | allow => exact .accept _
  | deny => exact (ModalWalk.Closed.rejection _ _).inside _
  | validate schema => exact ((closed schema rfl member.2).inside _).mapped _

private theorem closed_items {schemaAt : Nat → Option (Schema Id)}
    (closed : ∀ position schema, schemaAt position = some schema →
      schema.Closed) (values : List Json) :
    (all (Check.itemParts
      (fun position => (schemaAt position).map (check .refuse))
      values)).Closed := by
  apply ModalWalk.Closed.all
  intro part member
  obtain ⟨entry, _, found⟩ := List.mem_filterMap.mp member
  rw [Option.map_map] at found
  obtain ⟨schema, chosen, rfl⟩ := Option.map_eq_some_iff.mp found
  exact (closed entry.2 schema chosen entry.1).inside _

private theorem closed_firstOf {options : List (Schema Id)} {value : Json}
    {fallback : ModalWalk Id Json} (closed : ∀ option ∈ options, option.Closed)
    (otherwise : fallback.Closed) :
    (orElse (Walk.firstOf value (options.map (check .refuse)))
      fallback).Closed := by
  refine .orElse (steady_firstOf _ _)
    (clear_firstOf fun option member => ?_) otherwise
  obtain ⟨schema, found, rfl⟩ := List.mem_map.mp member
  exact closed schema found value

private theorem closed_object {fields : List (Field (Schema Id))}
    {unknown : OtherKeys (Schema Id)}
    (closedFields : ∀ field ∈ fields, field.schema.Closed)
    (closedUnknown : ∀ schema, unknown = .validate schema → schema.Closed) :
    (object fields unknown).Closed := by
  intro value
  cases value with
  | object members =>
      rw [check_object, Check.object_on]
      refine .mapped (.all fun part member => ?_) _
      rcases List.mem_append.mp member with declared | other
      · rw [List.map_map] at declared
        obtain ⟨field, found, rfl⟩ := List.mem_map.mp declared
        exact closed_declaredField (closedFields field found)
      · obtain ⟨extra, _, rfl⟩ := List.mem_map.mp other
        exact closed_unknownMember closedUnknown extra
  | _ => exact .rejection _ _

private theorem closed_tuple {items : List (Schema Id)}
    {rest : Option (Schema Id)} (closedItems : ∀ item ∈ items, item.Closed)
    (closedRest : ∀ schema, rest = some schema → schema.Closed) :
    (tuple items rest).Closed := by
  intro value
  cases value with
  | array values =>
      rw [check_tuple, Check.tuple_on]
      simp only [List.length_map, Option.isSome_map, List.getElem?_map,
        ← Option.map_or]
      split
      · refine .mapped (closed_items (fun position schema chosen => ?_) values)
          _
        rcases Option.or_eq_some_iff.mp chosen with listed | ⟨_, after⟩
        · exact closedItems schema (List.mem_of_getElem? listed)
        · exact closedRest schema after
      · exact .rejection _ _
  | _ => exact .rejection _ _

private theorem closed_array {item : Schema Id} (closed : item.Closed) :
    (array item).Closed := by
  intro value
  cases value with
  | array values =>
      rw [check, Check.array_on]
      have closedItems : ∀ (position : Nat) schema, some item = some schema →
          schema.Closed := by
        intro _ schema same
        cases same
        exact closed
      exact (closed_items closedItems values).mapped _
  | _ => exact .rejection _ _

private theorem closed_variant {key : String} {options : List (Schema Id)}
    (closed : ∀ option ∈ options, option.Closed) :
    (variant key options).Closed := by
  intro value
  cases value with
  | object members =>
      rw [check_variant]
      cases meant : meantOptions key options members with
      | nil =>
          rw [Check.variant_on_of_nil
            (by rw [Check.candidates_map]; exact congrArg _ meant)]
          exact (ModalWalk.Closed.rejection _ _).inside _
      | cons first others =>
          rw [Check.variant_on_of_cons
            (by rw [Check.candidates_map]; exact congrArg _ meant)]
          have closedMeant : ∀ option ∈ first :: others, option.Closed :=
            fun option member =>
              closed option (List.mem_filter.mp (meant ▸ member)).1
          exact closed_firstOf closedMeant
            (closedMeant first List.mem_cons_self _).forIssues
  | _ => exact .rejection _ _

/-- The walk of a schema in which nothing is awaited leaves nothing open. -/
theorem Immediate.closed {schema : Schema Id} (immediate : schema.Immediate) :
    schema.Closed := by
  induction immediate with
  | literal expected =>
      intro value
      rw [check, Check.literal_on]
      exact .decided _ _ _ _
  | primitive kind =>
      intro value
      rw [check, Check.primitive_on]
      exact .decided _ _ _ _
  | object _ _ closedFields closedUnknown =>
      exact closed_object closedFields closedUnknown
  | tuple _ _ closedItems closedRest =>
    exact closed_tuple closedItems closedRest
  | array _ closed => exact closed_array closed
  | union _ closed =>
      intro value
      rw [check_union, Check.union_on]
      exact closed_firstOf closed (.rejection _ _)
  | variant _ closed => exact closed_variant closed
  | refined _ closed =>
      intro value
      rw [check, Check.refined_on]
      exact (closed value).andThen fun _ => .decided _ _ _ _
  | transform _ closed =>
      intro value
      rw [check, Check.transform_on]
      exact (closed value).andThen fun _ => .accept _
  | custom ready =>
      intro value
      rw [check, Check.custom_refuse_on]
      obtain ⟨outcome, answered⟩ := ready value
      rw [answered]
      exact .outcomeWalk outcome

theorem Immediate.validate_ready {schema : Schema Id}
    (immediate : schema.Immediate) (value : Json) :
    ∃ outcome, schema.validate value = (.ready outcome : Answer Id) := by
  have clear := (immediate.closed value).clear .collect []
  rcases schema.validate_cases value with ⟨output, _, _, accepted⟩ |
    ⟨issues, _, _, rejected⟩ | ⟨⟨_, deferred⟩ | guessed, _⟩
  · exact ⟨.success output, accepted⟩
  · exact ⟨.failure issues, rejected⟩
  · exact absurd deferred (by simp [finds, clear.deferred])
  · exact absurd guessed (by simp [finds, clear.guessed])

section Completeness

variable {schema : Schema Id} {fields : List (Field (Schema Id))}
variable {unknown : OtherKeys (Schema Id)} {items : List (Schema Id)}
variable {rest : Option (Schema Id)}

/-- Whether the precheck of a schema decides acceptance alone. -/
abbrev Complete (schema : Schema Id) : Prop :=
  schema.precheck.complete = true

theorem complete_object :
    (object fields unknown).Complete ↔
      (∀ field ∈ fields, field.schema.Complete ∧
        ∀ value, field.presence ≠ .default value) ∧
        ∀ schema, unknown = .validate schema → schema.Complete := by
  simp only [Complete, precheck, Derivation.object, precheckFields_eq_map,
    precheckUnknown_eq_map, Bool.and_eq_true, List.all_map, List.all_eq_true,
    Function.comp_apply, Field.map]
  refine and_congr (forall₂_congr fun field _ => and_congr_right fun _ => ?_) ?_
  · cases field.presence <;> simp
  · cases unknown <;> simp [OtherKeys.map]

theorem complete_tuple :
    (tuple items rest).Complete ↔
      (∀ item ∈ items, item.Complete) ∧
        ∀ schema, rest = some schema → schema.Complete := by
  simp only [Complete, precheck, Derivation.tuple, Derivation.allComplete,
    precheckAll_eq_map, precheckRest_eq_map, Bool.and_eq_true, List.all_map,
    List.all_eq_true, Function.comp_apply]
  cases rest <;> simp

theorem complete_union :
    (union items).Complete ↔ ∀ option ∈ items, option.Complete := by
  simp only [Complete, precheck, Derivation.union, Derivation.allComplete,
    precheckAll_eq_map, List.all_map, List.all_eq_true, Function.comp_apply]

theorem complete_variant {key : String} :
    (variant key items).Complete ↔ ∀ option ∈ items, option.Complete := by
  simp only [Complete, precheck, Derivation.variant, Derivation.allComplete,
    precheckAll_eq_map, List.zip_map', List.map_map,
    List.all_map, List.all_eq_true, Function.comp_apply]

theorem Complete.immediate (complete : schema.Complete) : schema.Immediate := by
  induction schema with
  | literal value => exact .literal value
  | primitive kind => exact .primitive kind
  | object fields unknown immediateFields immediateUnknown =>
      obtain ⟨completeFields, completeUnknown⟩ := complete_object.mp complete
      exact .object
        (fun field member => immediateFields field member
          (completeFields field member).1)
        fun schema same => immediateUnknown schema same
          (completeUnknown schema same)
  | tuple items rest immediateItems immediateRest =>
      obtain ⟨completeItems, completeRest⟩ := complete_tuple.mp complete
      exact .tuple (fun item member => immediateItems item member
        (completeItems item member))
        fun schema same => immediateRest schema same (completeRest schema same)
  | array item immediate => exact .array (immediate complete)
  | union options immediate =>
      have completeOptions := complete_union.mp complete
      exact .union fun option member =>
        immediate option member (completeOptions option member)
  | variant key options immediate =>
      have completeOptions := complete_variant.mp complete
      exact .variant fun option member =>
        immediate option member (completeOptions option member)
  | refined inner rule message _ => cases complete
  | transform inner map _ => cases complete
  | asyncRefined inner test message _ => cases complete
  | custom validate => cases complete

variable (waiting : Waiting)

/-- The members of an object, in the order in which a schema takes them up. -/
private def keptMembers (fields : List (Field (Schema Id)))
    (members : Members) : List (List (String × Json)) :=
  (fields.map fun field =>
      (members.get? field.name).elim [] fun value => [(field.name, value)]) ++
    (members.filter fun member => !Field.declares fields member.1).map
      fun member => [member]

private theorem ofList_keptMembers {members : Members}
    (ascending : members.Ascending) :
    Members.ofList (keptMembers fields members).flatten = members := by
  apply Members.ofList_eq ascending
  · intro entry member
    obtain ⟨part, found, inside⟩ := List.mem_flatten.mp member
    rcases List.mem_append.mp found with declared | other
    · obtain ⟨field, _, rfl⟩ := List.mem_map.mp declared
      cases held : members.get? field.name with
      | none =>
          rw [held] at inside
          cases inside
      | some value =>
          rw [held] at inside
          obtain rfl := List.mem_singleton.mp inside
          exact Members.mem_of_get? held
    · obtain ⟨extra, kept, rfl⟩ := List.mem_map.mp other
      obtain rfl := List.mem_singleton.mp inside
      exact (List.mem_filter.mp kept).1
  · intro member found
    rw [List.mem_flatten]
    cases declared : Field.declares fields member.1 with
    | false =>
        have extra : member ∈
            members.filter fun member => !Field.declares fields member.1 :=
          List.mem_filter.mpr ⟨found, by simp [declared]⟩
        exact ⟨[member], List.mem_append_right _ (List.mem_map_of_mem extra),
          List.mem_singleton_self member⟩
    | true =>
        obtain ⟨field, declares, named⟩ := List.any_eq_true.mp declared
        have sameName : field.name = member.1 := beq_iff_eq.mp named
        refine ⟨[member], List.mem_append_left _
          (List.mem_map.mpr ⟨field, declares, ?_⟩),
          List.mem_singleton_self member⟩
        rw [sameName, ascending.get?_of_mem found]
        rfl

private theorem memberVerdicts_of_complete {members : Members}
    (keeps : ∀ field ∈ fields, ∀ value, members.get? field.name = some value →
      field.schema.verdict waiting value = some value)
    (noDefault : ∀ field ∈ fields, ∀ value, field.presence ≠ .default value)
    (present : ∀ field ∈ fields, members.get? field.name = none →
      field.presence ≠ .required)
    (keepsOther : ∀ member ∈ members, Field.declares fields member.1 = false →
      unknownVerdict waiting unknown member = some [member]) :
    memberVerdicts waiting fields unknown members =
      (keptMembers fields members).map some := by
  rw [memberVerdicts, keptMembers, List.map_append, List.map_map, List.map_map]
  congr 1
  · apply List.map_congr_left
    intro field member
    rw [fieldVerdict, Function.comp_apply]
    cases held : members.get? field.name with
    | some value =>
        simp only [keeps field member value held]
        rfl
    | none =>
        cases presence : field.presence with
        | required => exact absurd presence (present field member held)
        | optional => rfl
        | default value => exact absurd presence (noDefault field member value)
  · apply List.map_congr_left
    intro extra kept
    obtain ⟨found, other⟩ := List.mem_filter.mp kept
    exact keepsOther extra found (by simpa using other)

theorem exists_schemaAt {values : List Json}
    (fits : tupleLengthFits items.length rest.isSome values.length = true)
    {entry : Json × Nat} (member : entry ∈ values.zipIdx) :
    ∃ schema, items[entry.2]?.or rest = some schema := by
  cases rest with
  | some schema => cases items[entry.2]? <;> simp
  | none =>
      have length : values.length = items.length := by
        simpa [tupleLengthFits] using fits
      have position : entry.2 < items.length := by
        have bound := List.snd_lt_of_mem_zipIdx member
        omega
      exact ⟨items[entry.2], by simp [position]⟩

/-- Whether what passes the precheck of a schema is accepted as it is. -/
def TakesAsIs (schema : Schema Id) : Prop :=
  ∀ value, value.isWellFormed = true → schema.passes value = true →
    schema.verdict waiting value = some value

variable {waiting}

private theorem findSome?_verdict {options : List (Schema Id)} {value : Json}
    (wellFormed : value.isWellFormed = true)
    (takes : ∀ option ∈ options, option.TakesAsIs waiting)
    (passes : ∃ option ∈ options, option.passes value = true) :
    options.findSome? (·.verdict waiting value) = some value := by
  induction options with
  | nil =>
      obtain ⟨option, member, _⟩ := passes
      cases member
  | cons first others induction =>
      have takesFirst := takes first List.mem_cons_self value wellFormed
      rw [List.findSome?_cons]
      cases given : first.verdict waiting value with
      | some output =>
          have accepts : first.verdict waiting value ≠ none := by simp [given]
          have firstPasses := first.passes_of_verdict waiting accepts
          exact given.symm.trans (takesFirst firstPasses)
      | none =>
          apply induction
          · intro option member
            exact takes option (List.mem_cons_of_mem _ member)
          · obtain ⟨option, member, optionPasses⟩ := passes
            rcases List.mem_cons.mp member with rfl | later
            · rw [takesFirst optionPasses] at given
              cases given
            · exact ⟨option, later, optionPasses⟩

private theorem unknownVerdict_of_takes {member : String × Json}
    (takes : ∀ schema, unknown = .validate schema → schema.TakesAsIs waiting)
    (wellFormed : member.2.isWellFormed = true)
    (passes : UnknownPasses unknown member.2) :
    unknownVerdict waiting unknown member = some [member] := by
  cases unknown with
  | allow => rfl
  | deny => exact passes.elim
  | validate schema =>
      rw [unknownVerdict, takes schema rfl member.2 wellFormed passes]
      rfl

private theorem takesAsIs_object
    (takesFields : ∀ field ∈ fields, field.schema.TakesAsIs waiting)
    (noDefault : ∀ field ∈ fields, ∀ value, field.presence ≠ .default value)
    (takesUnknown : ∀ schema, unknown = .validate schema →
      schema.TakesAsIs waiting) :
        (object fields unknown).TakesAsIs waiting := by
  intro value wellFormed passes
  cases value with
  | object members =>
      obtain ⟨fieldsPass, othersPass⟩ := (passes_object _ _ _).mp passes
      obtain ⟨ascending, partsWellFormed⟩ :=
        (Json.isWellFormed_object _).mp wellFormed
      have kept : memberVerdicts waiting fields unknown members =
          (keptMembers fields members).map some := by
        apply memberVerdicts_of_complete
        · intro field member part held
          have fieldPasses := fieldsPass field member
          rw [FieldPasses, held] at fieldPasses
          exact takesFields field member part
            (partsWellFormed _ (Members.mem_of_get? held)) fieldPasses
        · exact noDefault
        · intro field member absent
          have fieldPasses := fieldsPass field member
          rwa [FieldPasses, absent] at fieldPasses
        · intro extra member free
          exact unknownVerdict_of_takes takesUnknown
            (partsWellFormed extra member) (othersPass extra member free)
      rw [verdict_object, allGiven_eq_some.mpr kept, Option.map_some,
        ofList_keptMembers ascending]
  | _ => cases passes

private theorem takesAsIs_tuple
    (takesItems : ∀ item ∈ items, item.TakesAsIs waiting)
    (takesRest : ∀ schema, rest = some schema → schema.TakesAsIs waiting) :
    (tuple items rest).TakesAsIs waiting := by
  intro value wellFormed passes
  cases value with
  | array values =>
      obtain ⟨fits, itemsPass⟩ := (passes_tuple _ _ _).mp passes
      have partsWellFormed := (Json.isWellFormed_array _).mp wellFormed
      have kept :
          itemVerdicts waiting (fun position => items[position]?.or rest)
          values = values.map some := by
        conv => rhs; rw [← List.zipIdx_map_fst 0 values, List.map_map]
        rw [itemVerdicts, ← List.filterMap_eq_map]
        apply List.filterMap_congr
        intro entry member
        obtain ⟨schema, chosen⟩ := exists_schemaAt fits member
        have partPasses := itemsPass entry member schema chosen
        have partWellFormed :=
          partsWellFormed entry.1 (List.fst_mem_of_mem_zipIdx member)
        have takes : schema.TakesAsIs waiting := by
          rcases Option.or_eq_some_iff.mp chosen with listed | ⟨_, after⟩
          · exact takesItems schema (List.mem_of_getElem? listed)
          · exact takesRest schema after
        rw [chosen, Option.map_some, takes _ partWellFormed partPasses]
        rfl
      rw [verdict_tuple, if_pos fits, allGiven_eq_some.mpr kept,
        Option.map_some]
  | _ => cases passes

private theorem takesAsIs_array {item : Schema Id}
    (takes : item.TakesAsIs waiting) :
    (array item).TakesAsIs waiting := by
  intro value wellFormed passes
  cases value with
  | array values =>
      have itemsPass := (passes_array _ _).mp passes
      have partsWellFormed := (Json.isWellFormed_array _).mp wellFormed
      have kept : values.map (item.verdict waiting) = values.map some := by
        apply List.map_congr_left
        intro part member
        exact takes part (partsWellFormed part member) (itemsPass part member)
      rw [verdict_array, allGiven_eq_some.mpr kept, Option.map_some]
  | _ => cases passes

private theorem takesAsIs_variant {key : String}
    (takes : ∀ option ∈ items, option.TakesAsIs waiting) :
    (variant key items).TakesAsIs waiting := by
  intro value wellFormed passes
  cases value with
  | object members =>
      obtain ⟨option, member, candidate, optionPasses⟩ :=
        (passes_variant _ _ _).mp passes
      rw [verdict_variant]
      apply findSome?_verdict wellFormed
      · intro meant listed
        exact takes meant (List.mem_filter.mp listed).1
      · exact ⟨option, List.mem_filter.mpr ⟨member, candidate⟩, optionPasses⟩
  | _ => cases passes

private theorem takesAsIs_of_complete (complete : schema.Complete) :
    schema.TakesAsIs waiting := by
  induction schema with
  | literal expected =>
      intro value _ passes
      rw [verdict_literal]
      exact if_pos passes
  | primitive kind =>
      intro value _ passes
      rw [passes_primitive] at passes
      rw [verdict_primitive]
      exact if_pos passes
  | object fields unknown takesFields takesUnknown =>
      obtain ⟨completeFields, completeUnknown⟩ := complete_object.mp complete
      apply takesAsIs_object
      · intro field member
        exact takesFields field member (completeFields field member).1
      · intro field member
        exact (completeFields field member).2
      · intro schema same
        exact takesUnknown schema same (completeUnknown schema same)
  | tuple items rest takesItems takesRest =>
      obtain ⟨completeItems, completeRest⟩ := complete_tuple.mp complete
      apply takesAsIs_tuple
      · intro item member
        exact takesItems item member (completeItems item member)
      · intro schema same
        exact takesRest schema same (completeRest schema same)
  | array item takes => exact takesAsIs_array (takes complete)
  | union options takes =>
      intro value wellFormed passes
      rw [verdict_union]
      apply findSome?_verdict wellFormed
      · intro option member
        exact takes option member (complete_union.mp complete option member)
      · exact (passes_union _ _).mp passes
  | variant key options takes =>
      apply takesAsIs_variant
      intro option member
      exact takes option member (complete_variant.mp complete option member)
  | refined inner rule message _ => cases complete
  | transform inner map _ => cases complete
  | asyncRefined inner test message _ => cases complete
  | custom validate => cases complete

variable (waiting)

theorem Complete.verdict_eq (complete : schema.Complete) {value : Json}
    (wellFormed : value.isWellFormed = true)
    (passes : schema.passes value = true) :
    schema.verdict waiting value = some value :=
  takesAsIs_of_complete complete value wellFormed passes

/-- A complete precheck has the verdict of the schema. -/
theorem Complete.verdict_eq_ite (complete : schema.Complete) {value : Json}
    (wellFormed : value.isWellFormed = true) :
    schema.verdict waiting value =
      if schema.passes value = true then some value else none := by
  by_cases passes : schema.passes value = true
  · rw [if_pos passes]
    exact complete.verdict_eq waiting wellFormed passes
  · rw [if_neg passes]
    by_contra accepts
    exact passes (schema.passes_of_verdict waiting accepts)

end Completeness

/-- What a walk that waits accepts meets the precheck.  A value meets a complete
precheck exactly when the walk without waiting accepts it, which then gives the
value itself; and that walk sets no mark, whatever its verdict. -/
theorem precheck_decides (schema : Schema Id) (value : Json) (mode : Mode)
    (start : WalkState) :
    let early := (schema.check .refuse mode value).run start
    let late := (schema.check .await mode value).run start
    (late.1 ≠ none → schema.precheck.check.passes value = true) ∧
      (schema.precheck.complete = true → value.isWellFormed = true →
        (schema.precheck.check.passes value = true ↔ early.1 ≠ none) ∧
        (∀ output, early.1 = some output → output = value) ∧
        early.2.deferred = start.deferred ∧
          early.2.guessed = start.guessed) := by
  intro early late
  have earlyRun : early = (schema.verdict .refuse value,
      start.add ((schema.check .refuse mode value).findings start.path)) := by
    have run := schema.steady .refuse mode value start
    rwa [schema.output_eq_verdict] at run
  have lateVerdict : late.1 = schema.verdict .await value :=
    (congrArg Prod.fst (schema.steady .await mode value start)).trans
      (schema.output_eq_verdict .await mode value start.path)
  refine ⟨fun accepts => ?_, fun complete wellFormed => ?_⟩
  · rw [lateVerdict] at accepts
    exact schema.passes_of_verdict .await accepts
  · have verdict := Complete.verdict_eq_ite .refuse complete wellFormed
    have clear :=
      ((Complete.immediate complete).closed value).clear mode start.path
    rw [earlyRun]
    refine ⟨?_, fun output given => ?_, ?_, ?_⟩
    · constructor
      · intro passes
        exact verdict.trans (if_pos passes) ▸ Option.some_ne_none value
      · exact schema.passes_of_verdict .refuse
    · rw [verdict, Option.ite_none_right_eq_some] at given
      exact (Option.some.inj given.2).symm
    · simp [WalkState.add, clear.deferred]
    · simp [WalkState.add, clear.guessed]

/-- A pair behind a tag, or an object whose members are texts.  A pair is
accepted as it is and a wrong one is not, and what an awaited check accepts
meets the precheck. -/
theorem precheck_decides_tagged :
    let pair : Schema Id :=
      .tuple [.primitive .string] (some (.primitive .integer))
    let schema : Schema Id :=
      .variant "kind"
        [.object [⟨"kind", .required, .literal (.string "pair")⟩,
          ⟨"parts", .required, pair⟩] .deny,
        .object [⟨"tag", .optional, .primitive .null⟩]
          (.validate (.primitive .string))]
    let checked : Schema Id := .asyncRefined schema (fun _ => true) "taken"
    let parts (second : Json) :=
      Json.object [("kind", .string "pair"),
        ("parts", .array [.string "a", second])]
    let start : WalkState := { path := [.index 0], guessed := true }
    checked.precheck.check.passes (parts (.int 1)) = true ∧
      ((schema.check .refuse .collect (parts (.int 1))).run start).1 ≠ none ∧
      schema.precheck.check.passes (parts .null) ≠ true ∧
      ((schema.check .refuse .collect (parts .null)).run start).2.deferred =
        false := by
  intro pair schema checked parts start
  refine ⟨?_, ?_, ?_, ?_⟩
  · exact (precheck_decides checked (parts (.int 1)) .failFast start).1 nofun
  · exact ((precheck_decides schema (parts (.int 1)) .collect start).2
      rfl rfl).1.mp rfl
  · intro passes
    exact ((precheck_decides schema (parts .null) .collect start).2
      rfl rfl).1.mp passes rfl
  · exact ((precheck_decides schema (parts .null) .collect start).2
      rfl rfl).2.2.1

end Schema

end JsonMatch
