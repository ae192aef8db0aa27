import JsonMatch.Proofs.FieldDeclarations
import JsonMatch.Proofs.Immediacy
import JsonMatch.Proofs.Relocation
import JsonMatch.Proofs.WalkModes

/-!
# Containers and their parts

An object, an array or a tuple is accepted when its own conditions hold and each
part is accepted by its own schema.  Its output is made of the outputs of the
parts, and its issues are those that the parts have on their own, one part after
another, with the step to the part in front of their paths.
-/

namespace JsonMatch

/-- The outcome of a single issue at the value itself. -/
def Outcome.refusal (code message : String) : Outcome :=
  .failure ⟨⟨[], message, code⟩, []⟩

theorem Outcome.eq_refusal {outcome : Outcome} {code message : String}
    (issues : outcome.issues = [⟨[], message, code⟩]) :
    outcome = .refusal code message := by
  cases outcome with
  | success output => cases issues
  | failure found =>
      obtain ⟨first, rest⟩ := found
      cases issues
      rfl

namespace ModalWalk

open Walk

variable {α β : Type}

/-- What a collecting walk finds from the value itself on. -/
structure Reports (part : ModalWalk Id α) (issues : List Issue) : Prop where
  steady : (part .collect).Steady
  issues_eq : ((part .collect).findings []).issues = issues

namespace Reports

variable {part : ModalWalk Id α} {issues : List Issue}

theorem accept (value : α) :
    (ModalWalk.accept value : ModalWalk Id α).Reports [] :=
  ⟨steady_pure _, rfl⟩

theorem rejection (code message : String) :
    (Check.rejection code message : ModalWalk Id α).Reports
      [⟨[], message, code⟩] where
  steady := steady_reject .collect code message
  issues_eq := by
    rw [(yields_reject .collect code message []).findings_eq]
    rfl

theorem mapped (reports : part.Reports issues) (function : α → β) :
    (part.mapped function).Reports issues where
  steady := steady_mapped reports.steady
  issues_eq := by
    rw [findings_mapped reports.steady, reports.issues_eq]

theorem inside (reports : part.Reports issues) (relocates : part.Relocates)
    (step : PathStep) :
    (part.inside step).Reports (issues.map (·.below [step])) where
  steady := steady_inside reports.steady
  issues_eq := by
    rw [findings_inside reports.steady, (relocates .collect).issues_findings,
      reports.issues_eq]
    rfl

theorem both {others : ModalWalk Id (List α)} {later : List Issue}
    (reports : part.Reports issues) (reportsLater : others.Reports later) :
    (part.both others).Reports (issues ++ later) where
  steady := steady_both reports.steady reportsLater.steady
  issues_eq := by
    -- A collecting walk goes on after every part.
    rw [findings_both reports.steady reportsLater.steady,
      goesOn, beq_self_eq_true,
      Bool.or_true, if_pos rfl, Findings.append_issues, reports.issues_eq,
      reportsLater.issues_eq]

theorem all {parts : List (ModalWalk Id α)} {found : List (List Issue)}
    (reports : List.Forall₂ Reports parts found) :
    (ModalWalk.all parts).Reports found.flatten := by
  induction reports with
  | nil => exact accept []
  | cons first _ induction => exact first.both induction

end Reports

end ModalWalk

namespace Schema

open ModalWalk

/-- What validation comes to, awaited if the answer is held back. -/
def outcome (schema : Schema Id) (value : Json) : Outcome :=
  (schema.validate value : Answer Id).settle

theorem Immediate.validate_eq {schema : Schema Id}
    (immediate : schema.Immediate) (value : Json) :
    schema.validate value = (.ready (schema.outcome value) : Answer Id) := by
  obtain ⟨answered, ready⟩ := immediate.validate_ready value
  rw [outcome, ready]
  rfl

theorem accepted?_outcome (schema : Schema Id) (value : Json) :
    (schema.outcome value).accepted? = schema.verdict .await value :=
  schema.settle_validate_accepted? value

theorem Immediate.issues_outcome {schema : Schema Id}
    (immediate : schema.Immediate) (value : Json) :
    (schema.outcome value).issues =
      (schema.finds .refuse .collect value).issues := by
  rw [schema.issues_of_validate_ready value (immediate.validate_eq value),
    walk_eq]
  simp [WalkState.add]

/-- The issues that a part has on its own, seen from the whole. -/
def issuesAt (schema : Schema Id) (step : PathStep) (value : Json) :
    List Issue :=
  (schema.outcome value).issues.map (·.below [step])

/-- The issues of a declared field. -/
def fieldIssues (members : Members) (field : Field (Schema Id)) : List Issue :=
  match members.get? field.name, field.presence with
  | some value, _ => field.schema.issuesAt (.key field.name) value
  | none, .required =>
      [⟨[.key field.name], "required field '" ++ field.name ++ "' is missing",
        "required"⟩]
  | none, _ => []

/-- The issues of a member that is not declared. -/
def unknownIssues (unknown : OtherKeys (Schema Id)) (member : String × Json) :
    List Issue :=
  match unknown with
  | .allow => []
  | .deny =>
    [⟨[.key member.1], "unknown field '" ++ member.1 ++ "'", "unknown_field"⟩]
  | .validate schema => schema.issuesAt (.key member.1) member.2

/-- What the output of an object has at a key. -/
def outputAt (fields : List (Field (Schema Id)))
    (unknown : OtherKeys (Schema Id)) (members : Members) (key : String) :
    Option Json :=
  match fields.find? (·.name == key), members.get? key with
  | some field, some value => (field.schema.outcome value).accepted?
  | some field, none =>
      match field.presence with
      | .default value => some value
      | _ => none
  | none, some value =>
      match unknown with
      | .allow => some value
      | .deny => none
      | .validate schema => (schema.outcome value).accepted?
  | none, none => none

/-- How the outcome for an object is made of those of its members. -/
structure AssemblesMembers (fields : List (Field (Schema Id)))
    (unknown : OtherKeys (Schema Id)) (members : Members) (outcome : Outcome) :
    Prop where
  accepts : outcome.accepted? ≠ none ↔
    (∀ field ∈ fields, field.presence = .required →
      members.get? field.name ≠ none) ∧
    (∀ field ∈ fields, ∀ value, members.get? field.name = some value →
      (field.schema.outcome value).accepted? ≠ none) ∧
    ∀ member ∈ members, Field.declares fields member.1 = false →
      unknown ≠ .deny ∧ ∀ schema, unknown = .validate schema →
        (schema.outcome member.2).accepted? ≠ none
  output : ∀ output, outcome.accepted? = some output →
    ∃ made : Members, output = .object made ∧ made.Ascending ∧
      ∀ key, made.get? key = outputAt fields unknown members key
  issues : outcome.issues = fields.flatMap (fieldIssues members) ++
    (members.filter fun member => !Field.declares fields member.1).flatMap
      (unknownIssues unknown)

/-- How the outcome for an array is made of those of its items, each held to the
schema for its position. -/
structure AssemblesItems (schemaAt : Nat → Option (Schema Id))
    (values : List Json) (outcome : Outcome) : Prop where
  accepts : outcome.accepted? ≠ none ↔
    ∀ position value, values[position]? = some value →
      ∃ schema, schemaAt position = some schema ∧
        (schema.outcome value).accepted? ≠ none
  output : ∀ output, outcome.accepted? = some output →
    ∃ made : List Json, output = .array made ∧ made.length = values.length ∧
      ∀ position value, values[position]? = some value →
        ∃ schema, schemaAt position = some schema ∧
          (schema.outcome value).accepted? = made[position]?
  issues : outcome.issues = values.zipIdx.flatMap fun entry =>
    (schemaAt entry.2).elim [] fun schema =>
      schema.issuesAt (.index entry.2) entry.1

section Issues

variable {schema : Schema Id} {value : Json}

theorem Immediate.issues_of_reports {issues : List Issue}
    (immediate : schema.Immediate)
    (reports : ((schema.check .refuse).on value).Reports issues) :
    (schema.outcome value).issues = issues := by
  rw [immediate.issues_outcome]
  exact reports.issues_eq

theorem Immediate.reports (immediate : schema.Immediate) (step : PathStep)
    (value : Json) :
    (ModalWalk.inside step ((schema.check .refuse).on value)).Reports
      (schema.issuesAt step value) := by
  have own : ((schema.check .refuse).on value).Reports
      (schema.outcome value).issues := by
    constructor
    · exact schema.steady .refuse .collect value
    · exact (immediate.issues_outcome value).symm
  exact own.inside (schema.relocates .refuse value) step

private theorem reports_refusal {α : Type} (step : PathStep)
    (code message : String) :
    (ModalWalk.inside step (Check.rejection code message :
      ModalWalk Id α)).Reports [⟨[step], message, code⟩] :=
  (Reports.rejection code message).inside (.rejection code message) step

private theorem reports_declaredField (members : Members)
    {field : Field (Schema Id)} (immediate : field.schema.Immediate) :
    ModalWalk.Reports
      (fun mode => Check.declaredField mode members (field.map (check .refuse)))
      (fieldIssues members field) := by
  simp only [Check.declaredField, Field.map, fieldIssues]
  cases members.get? field.name with
  | some value => exact (immediate.reports _ value).mapped _
  | none =>
      cases field.presence with
      | required => exact reports_refusal _ _ _
      | optional => exact .accept _
      | default value => exact .accept _

private theorem reports_unknownMember {unknown : OtherKeys (Schema Id)}
    (immediate : ∀ schema, unknown = .validate schema → schema.Immediate)
    (member : String × Json) :
    ModalWalk.Reports
      (fun mode => Check.unknownMember mode
        (unknown.map (check .refuse)) member)
      (unknownIssues unknown member) := by
  cases unknown with
  | allow => exact .accept _
  | deny => exact reports_refusal _ _ _
  | validate schema =>
    exact ((immediate schema rfl).reports _ member.2).mapped _

private theorem reports_object {fields : List (Field (Schema Id))}
    {unknown : OtherKeys (Schema Id)}
    (immediateFields : ∀ field ∈ fields, field.schema.Immediate)
    (immediateUnknown : ∀ schema, unknown = .validate schema → schema.Immediate)
    (members : Members) :
    (((object fields unknown).check .refuse).on (.object members)).Reports
      (fields.flatMap (fieldIssues members) ++
        (members.filter fun member => !Field.declares fields member.1).flatMap
          (unknownIssues unknown)) := by
  rw [check_object, Check.object_on, List.flatMap_def, List.flatMap_def,
    ← List.flatten_append]
  refine .mapped (.all ?_) _
  simp only [Check.objectParts, Field.declares_map, List.map_map]
  apply List.rel_append
  · rw [List.forall₂_map_left_iff, List.forall₂_map_right_iff,
      List.forall₂_same]
    intro field member
    exact reports_declaredField members (immediateFields field member)
  · rw [List.forall₂_map_left_iff, List.forall₂_map_right_iff,
      List.forall₂_same]
    intro member _
    exact reports_unknownMember immediateUnknown member

private theorem reports_items {schemaAt : Nat → Option (Schema Id)}
    (immediate : ∀ position schema, schemaAt position = some schema →
      schema.Immediate)
    (values : List Json) :
    (ModalWalk.all (Check.itemParts
      (fun position => (schemaAt position).map (check .refuse)) values)).Reports
      (values.zipIdx.flatMap fun entry =>
        (schemaAt entry.2).elim [] fun schema =>
          schema.issuesAt (.index entry.2) entry.1) := by
  have listed : (values.zipIdx.flatMap fun entry =>
      (schemaAt entry.2).elim [] fun schema =>
        schema.issuesAt (.index entry.2) entry.1) =
      (values.zipIdx.filterMap fun entry => (schemaAt entry.2).map fun schema =>
        schema.issuesAt (.index entry.2) entry.1).flatten := by
    induction values.zipIdx with
    | nil => rfl
    | cons entry entries induction =>
        rw [List.flatMap_cons, induction]
        cases chosen : schemaAt entry.2 <;> simp [chosen]
  rw [listed]
  refine .all (List.rel_filterMap (R := Eq) ?_ (List.forall₂_refl _))
  rintro ⟨value, position⟩ _ rfl
  dsimp only
  cases chosen : schemaAt position with
  | none => exact .none
  | some schema =>
    exact .some ((immediate position schema chosen).reports _ value)

end Issues

section Outputs

variable {fields : List (Field (Schema Id))} {unknown : OtherKeys (Schema Id)}
variable {members : Members} {member : String × Json}
    {field : Field (Schema Id)}

theorem fieldVerdict_ne_none :
    fieldVerdict .await members field ≠ none ↔
      (field.presence = .required → members.get? field.name ≠ none) ∧
      ∀ value, members.get? field.name = some value →
        (field.schema.outcome value).accepted? ≠ none := by
  unfold fieldVerdict
  cases members.get? field.name with
  | some value => simp [accepted?_outcome]
  | none => cases field.presence <;> simp

theorem unknownVerdict_ne_none :
    unknownVerdict .await unknown member ≠ none ↔
      unknown ≠ .deny ∧ ∀ schema, unknown = .validate schema →
        (schema.outcome member.2).accepted? ≠ none := by
  cases unknown <;> simp [unknownVerdict, accepted?_outcome]

theorem mem_memberVerdicts {verdict : Option (List (String × Json))} :
    verdict ∈ memberVerdicts .await fields unknown members ↔
      (∃ field ∈ fields, fieldVerdict .await members field = verdict) ∨
      ∃ member ∈ members, Field.declares fields member.1 = false ∧
        unknownVerdict .await unknown member = verdict := by
  simp [memberVerdicts, and_assoc]

theorem accepts_object :
    ((object fields unknown).outcome (.object members)).accepted? ≠ none ↔
      (∀ field ∈ fields, field.presence = .required →
        members.get? field.name ≠ none) ∧
      (∀ field ∈ fields, ∀ value, members.get? field.name = some value →
        (field.schema.outcome value).accepted? ≠ none) ∧
      ∀ member ∈ members, Field.declares fields member.1 = false →
        unknown ≠ .deny ∧ ∀ schema, unknown = .validate schema →
          (schema.outcome member.2).accepted? ≠ none := by
  rw [accepted?_outcome, verdict_object, Ne, Option.map_eq_none_iff, ← Ne,
    allGiven_ne_none]
  constructor
  · intro given
    refine ⟨?_, ?_, ?_⟩
    · intro field declared
      have own := given _ (mem_memberVerdicts.mpr (.inl ⟨field, declared, rfl⟩))
      exact (fieldVerdict_ne_none.mp own).1
    · intro field declared
      have own := given _ (mem_memberVerdicts.mpr (.inl ⟨field, declared, rfl⟩))
      exact (fieldVerdict_ne_none.mp own).2
    · intro member listed other
      have own := given _
        (mem_memberVerdicts.mpr (.inr ⟨member, listed, other, rfl⟩))
      exact unknownVerdict_ne_none.mp own
  · rintro ⟨present, accepted, others⟩ verdict listed
    rcases mem_memberVerdicts.mp listed with
      ⟨field, declared, rfl⟩ | ⟨member, found, other, rfl⟩
    · exact fieldVerdict_ne_none.mpr ⟨present field declared,
        accepted field declared⟩
    · exact unknownVerdict_ne_none.mpr (others member found other)

theorem find?_eq_none_iff {key : String} :
    fields.find? (·.name == key) = none ↔
      Field.declares fields key = false := by
  simp [Field.declares]

theorem outputAt_of_given (distinct : (fields.map (·.name)).Nodup)
    (ascending : members.Ascending) {added : List (String × Json)}
    (given : some added ∈ memberVerdicts .await fields unknown members)
    {entry : String × Json} (member : entry ∈ added) :
    outputAt fields unknown members entry.1 = some entry.2 := by
  rcases mem_memberVerdicts.mp given with
    ⟨field, declared, verdict⟩ | ⟨extra, listed, other, verdict⟩
  · have found := find?_key distinct declared
    unfold fieldVerdict at verdict
    cases held : members.get? field.name with
    | some value =>
        simp only [held, Option.map_eq_some_iff] at verdict
        obtain ⟨output, accepted, rfl⟩ := verdict
        obtain rfl := List.mem_singleton.mp member
        simp [outputAt, found, held, accepted?_outcome, accepted]
    | none =>
        simp only [held] at verdict
        cases presence : field.presence with
        | required => simp [presence] at verdict
        | optional =>
            simp only [presence, Option.some.injEq] at verdict
            subst verdict
            cases member
        | default value =>
            simp only [presence, Option.some.injEq] at verdict
            subst verdict
            obtain rfl := List.mem_singleton.mp member
            simp [outputAt, found, held, presence]
  · have missing := find?_eq_none_iff.mpr other
    have held := ascending.get?_of_mem listed
    cases unknown with
    | allow =>
        cases verdict
        obtain rfl := List.mem_singleton.mp member
        simp [outputAt, missing, held]
    | deny => cases verdict
    | validate schema =>
        obtain ⟨output, accepted, rfl⟩ := Option.map_eq_some_iff.mp verdict
        obtain rfl := List.mem_singleton.mp member
        simp [outputAt, missing, held, accepted?_outcome, accepted]

theorem given_of_outputAt {key : String} {value : Json}
    (output : outputAt fields unknown members key = some value) :
    some [(key, value)] ∈ memberVerdicts .await fields unknown members := by
  rw [mem_memberVerdicts]
  unfold outputAt at output
  cases found : fields.find? (·.name == key) with
  | some field =>
      left
      have declared := List.mem_of_find?_eq_some found
      have named : field.name = key := by simpa using List.find?_some found
      refine ⟨field, declared, ?_⟩
      unfold fieldVerdict
      rw [named]
      cases held : members.get? key with
      | some carried =>
          simp only [found, held, accepted?_outcome] at output
          simp [output]
      | none =>
          simp only [found, held] at output
          cases presence : field.presence with
          | default value => simpa [presence] using output
          | _ => simp [presence] at output
  | none =>
      right
      cases held : members.get? key with
      | none => simp [found, held] at output
      | some carried =>
          simp only [found, held] at output
          refine ⟨(key, carried), Members.mem_of_get? held,
            find?_eq_none_iff.mp found, ?_⟩
          cases unknown with
          | allow =>
              cases output
              rfl
          | deny => cases output
          | validate schema =>
              simp only [accepted?_outcome] at output
              simp [unknownVerdict, output]

theorem output_object (distinct : (fields.map (·.name)).Nodup)
    (ascending : members.Ascending) {output : Json}
    (accepted : ((object fields unknown).outcome (.object members)).accepted? =
      some output) :
    ∃ made : Members, output = .object made ∧ made.Ascending ∧
      ∀ key, made.get? key = outputAt fields unknown members key := by
  rw [accepted?_outcome, verdict_object] at accepted
  obtain ⟨outputs, all, rfl⟩ := Option.map_eq_some_iff.mp accepted
  have given := allGiven_eq_some.mp all
  refine ⟨_, rfl, Members.ascending_ofList _, ?_⟩
  intro key
  apply Members.get?_ofList_eq
  · intro entry member
    obtain ⟨added, listed, inside⟩ := List.mem_flatten.mp member
    apply outputAt_of_given distinct ascending _ inside
    rw [given]
    exact List.mem_map_of_mem listed
  · intro key value output
    have part := given_of_outputAt output
    rw [given] at part
    obtain ⟨added, listed, same⟩ := List.mem_map.mp part
    cases same
    exact List.mem_flatten.mpr ⟨_, listed, List.mem_singleton_self _⟩

end Outputs

section Items

variable {schemaAt : Nat → Option (Schema Id)} {values : List Json}

theorem itemVerdicts_eq_map
    (total : ∀ entry ∈ values.zipIdx,
      ∃ schema, schemaAt entry.2 = some schema) :
    itemVerdicts .await schemaAt values = values.zipIdx.map fun entry =>
      (schemaAt entry.2).bind fun schema =>
        (schema.outcome entry.1).accepted? := by
  rw [itemVerdicts, ← List.filterMap_eq_map]
  apply List.filterMap_congr
  intro entry member
  obtain ⟨schema, chosen⟩ := total entry member
  simp [chosen, accepted?_outcome]

theorem assemblesItems {outcome : Outcome}
    (total : ∀ entry ∈ values.zipIdx, ∃ schema, schemaAt entry.2 = some schema)
    (accepted : outcome.accepted? =
      (allGiven (itemVerdicts .await schemaAt values)).map Json.array)
    (issues : outcome.issues = values.zipIdx.flatMap fun entry =>
      (schemaAt entry.2).elim [] fun schema =>
        schema.issuesAt (.index entry.2) entry.1) :
    AssemblesItems schemaAt values outcome := by
  rw [itemVerdicts_eq_map total] at accepted
  refine ⟨?_, ?_, issues⟩
  · rw [accepted, Ne, Option.map_eq_none_iff, ← Ne, allGiven_ne_none]
    constructor
    · intro given position value stands
      have member : (value, position) ∈ values.zipIdx :=
        List.mem_zipIdx_iff_getElem?.mpr stands
      obtain ⟨schema, chosen⟩ := total _ member
      have own := given _ (List.mem_map_of_mem member)
      rw [chosen] at own
      exact ⟨schema, chosen, own⟩
    · intro each verdict listed
      obtain ⟨entry, member, rfl⟩ := List.mem_map.mp listed
      obtain ⟨schema, chosen, own⟩ :=
        each entry.2 entry.1 (List.mem_zipIdx_iff_getElem?.mp member)
      rw [chosen]
      exact own
  · intro output given
    rw [accepted] at given
    obtain ⟨made, all, rfl⟩ := Option.map_eq_some_iff.mp given
    have outputs := allGiven_eq_some.mp all
    refine ⟨made, rfl, ?_, ?_⟩
    · have lengths := congrArg List.length outputs
      simpa using lengths.symm
    · intro position value stands
      have member : (value, position) ∈ values.zipIdx :=
        List.mem_zipIdx_iff_getElem?.mpr stands
      obtain ⟨schema, chosen⟩ := total _ member
      have here := congrArg (·[position]?) outputs
      simp only [List.getElem?_map, List.getElem?_zipIdx,
        stands, Option.map_some, Nat.zero_add, chosen, Option.bind_some] at here
      obtain ⟨output, listed, same⟩ := Option.map_eq_some_iff.mp here.symm
      exact ⟨schema, chosen, by rw [listed, same]⟩

end Items

section Nodes

variable {schema : Schema Id} {value : Json}

theorem Immediate.outcome_of_rejection (immediate : schema.Immediate)
    {code message : String}
    (rejects : (schema.check .refuse).on value = Check.rejection code message) :
    schema.outcome value = .refusal code message := by
  apply Outcome.eq_refusal
  apply immediate.issues_of_reports
  rw [rejects]
  exact .rejection code message

theorem outcome_object {fields : List (Field (Schema Id))}
    {unknown : OtherKeys (Schema Id)}
    (immediate : (object fields unknown).Immediate)
    (distinct : (fields.map (·.name)).Nodup) {members : Members}
    (ascending : members.Ascending) :
    AssemblesMembers fields unknown members
      ((object fields unknown).outcome (.object members)) := by
  refine ⟨accepts_object, fun _ => output_object distinct ascending, ?_⟩
  apply immediate.issues_of_reports
  cases immediate with
  | object immediateFields immediateUnknown =>
      exact reports_object immediateFields immediateUnknown members

theorem outcome_array {item : Schema Id} (immediate : (array item).Immediate)
    (values : List Json) :
    AssemblesItems (fun _ => some item) values
      ((array item).outcome (.array values)) := by
  apply assemblesItems
  · intro entry _
    exact ⟨item, rfl⟩
  · rw [accepted?_outcome, verdict_array, itemVerdicts_const]
  · apply immediate.issues_of_reports
    rw [check, Check.array_on]
    cases immediate with
    | array immediateItem =>
        have each : ∀ (position : Nat) schema, some item = some schema →
            schema.Immediate := by
          intro _ schema same
          cases same
          exact immediateItem
        exact (reports_items each values).mapped _

theorem outcome_tuple {items : List (Schema Id)} {rest : Option (Schema Id)}
    (immediate : (tuple items rest).Immediate) {values : List Json}
    (fits : tupleLengthFits items.length rest.isSome values.length = true) :
    AssemblesItems (fun position => items[position]?.or rest) values
      ((tuple items rest).outcome (.array values)) := by
  apply assemblesItems
  · intro entry member
    exact exists_schemaAt fits member
  · rw [accepted?_outcome, verdict_tuple, if_pos fits]
  · apply immediate.issues_of_reports
    rw [check_tuple, Check.tuple_on]
    simp only [List.length_map, Option.isSome_map, List.getElem?_map,
      ← Option.map_or]
    rw [if_pos fits]
    cases immediate with
    | tuple immediateItems immediateRest =>
        refine (reports_items ?_ values).mapped _
        intro position schema chosen
        rcases Option.or_eq_some_iff.mp chosen with listed | ⟨_, after⟩
        · exact immediateItems schema (List.mem_of_getElem? listed)
        · exact immediateRest schema after

theorem outcome_tuple_of_length {items : List (Schema Id)}
    {rest : Option (Schema Id)} (immediate : (tuple items rest).Immediate)
    {values : List Json}
    (unfit : tupleLengthFits items.length rest.isSome values.length = false) :
    (tuple items rest).outcome (.array values) = .refusal "tuple_length"
      ("expected " ++ (if rest.isSome then "at least " else "") ++
        toString items.length ++ " items, got " ++ toString values.length) := by
  apply immediate.outcome_of_rejection
  rw [check_tuple, Check.tuple_on]
  simp only [List.length_map, Option.isSome_map, unfit,
    Bool.false_eq_true, if_false]

/-- Validation by a container in which nothing is awaited.  A value of another
kind or length is refused as a whole.  Otherwise the value is accepted when the
conditions of the container hold and each part is accepted on its own, the
output is made of the outputs of the parts, and the issues are those of the
parts: first the declared fields, each name at its first place and with its last
definition, then the other members by ascending key, or the items in order. -/
theorem validate_assembles {schema : Schema Id} (immediate : schema.Immediate)
    {value : Json} (wellFormed : value.isWellFormed = true) :
    schema.validate value = (.ready (schema.outcome value) : Answer Id) ∧
    (∀ declared unknown, schema = .object (Field.declareAll declared) unknown →
      (Field.declareAll declared =
        (declared.map (·.name)).eraseDups.filterMap fun name =>
          declared.reverse.find? (·.name == name)) ∧
      ((∀ members, value ≠ .object members) → schema.outcome value =
        .refusal "invalid_type" ("expected object, got " ++ value.kind)) ∧
      ∀ members, value = .object members →
        AssemblesMembers (Field.declareAll declared) unknown members
          (schema.outcome value)) ∧
    (∀ item, schema = .array item →
      ((∀ values, value ≠ .array values) → schema.outcome value =
        .refusal "invalid_type" ("expected array, got " ++ value.kind)) ∧
      ∀ values, value = .array values →
        AssemblesItems (fun _ => some item) values (schema.outcome value)) ∧
    ∀ items rest, schema = .tuple items rest →
      ((∀ values, value ≠ .array values) → schema.outcome value =
        .refusal "invalid_type" ("expected tuple, got " ++ value.kind)) ∧
      ∀ values, value = .array values →
        (tupleLengthFits items.length rest.isSome values.length = false →
          schema.outcome value = .refusal "tuple_length"
            ("expected " ++ (if rest.isSome then "at least " else "") ++
              toString items.length ++ " items, got " ++
                toString values.length)) ∧
        (tupleLengthFits items.length rest.isSome values.length = true →
          AssemblesItems (fun position => items[position]?.or rest) values
            (schema.outcome value)) := by
  refine ⟨immediate.validate_eq value, ?_, ?_, ?_⟩
  · rintro declared unknown rfl
    refine ⟨Field.declareAll_eq declared, ?_, ?_⟩
    · intro other
      apply immediate.outcome_of_rejection
      rw [check_object, Check.object_on_of_ne _ _ other]
    · rintro members rfl
      have ascending := ((Json.isWellFormed_object members).mp wellFormed).1
      exact outcome_object immediate (Field.nodup_declareAll declared) ascending
  · rintro item rfl
    constructor
    · intro other
      apply immediate.outcome_of_rejection
      rw [check, Check.array_on_of_ne _ other]
    · rintro values rfl
      exact outcome_array immediate values
  · rintro items rest rfl
    constructor
    · intro other
      apply immediate.outcome_of_rejection
      rw [check_tuple, Check.tuple_on_of_ne _ _ other]
    · rintro values rfl
      constructor
      · exact outcome_tuple_of_length immediate
      · exact outcome_tuple immediate

/-- An object with a name declared twice and a member too many, a pair, and a
list too short for a pair. -/
theorem validate_assembles_nested :
    let declared : List (Field (Schema Id)) :=
      [⟨"list", .required, .primitive .string⟩,
        ⟨"more", .default .null, .primitive .any⟩,
        ⟨"list", .required, .array (.primitive .integer)⟩]
    let schema : Schema Id := .object (Field.declareAll declared) .deny
    let pair : Schema Id := .tuple [.primitive .string, .primitive .any] none
    let members : Members :=
      [("list", .array [.int 1, .null]), ("other", .null)]
    AssemblesMembers (Field.declareAll declared) .deny members
        (schema.outcome (.object members)) ∧
      (schema.outcome (.object members)).issues =
        [⟨[.key "list", .index 1], "expected integer, got null",
          "invalid_type"⟩,
          ⟨[.key "other"], "unknown field 'other'", "unknown_field"⟩] ∧
      AssemblesItems (fun _ => some (.primitive .integer)) [.int 1, .null]
        ((Schema.array (.primitive .integer)).outcome
          (.array [.int 1, .null])) ∧
      AssemblesItems
        (fun position => [.primitive .string,
          .primitive .any][position]?.or none)
        [.string "a", .null] (pair.outcome (.array [.string "a", .null])) ∧
      pair.outcome (.array [.string "a"]) =
        .refusal "tuple_length" "expected 2 items, got 1" := by
  intro declared schema pair members
  have list : (Schema.array (.primitive .integer)).Immediate :=
    .array (.primitive .integer)
  have object : schema.Immediate := by
    apply Immediate.object
    · intro field member
      have fields : Field.declareAll declared =
          [⟨"list", .required, .array (.primitive .integer)⟩,
            ⟨"more", .default .null, .primitive .any⟩] := by rfl
      rw [fields] at member
      rcases List.mem_cons.mp member with rfl | later
      · exact list
      · obtain rfl := List.mem_singleton.mp later
        exact .primitive .any
    · nofun
  have both : pair.Immediate := by
    apply Immediate.tuple
    · intro item member
      rcases List.mem_cons.mp member with rfl | later
      · exact .primitive .string
      · obtain rfl := List.mem_singleton.mp later
        exact .primitive .any
    · nofun
  refine ⟨?_, by rfl, ?_, ?_, ?_⟩
  · have wellFormed : (Json.object members).isWellFormed = true := by decide
    obtain ⟨_, assembles, _⟩ := validate_assembles object wellFormed
    exact (assembles declared .deny rfl).2.2 members rfl
  · have wellFormed : (Json.array [.int 1, .null]).isWellFormed = true := by
      decide
    obtain ⟨_, _, assembles, _⟩ := validate_assembles list wellFormed
    exact (assembles _ rfl).2 _ rfl
  · have wellFormed :
        (Json.array [.string "a", .null]).isWellFormed = true := by
      decide
    obtain ⟨_, _, _, assembles⟩ := validate_assembles both wellFormed
    exact ((assembles _ _ rfl).2 _ rfl).2 rfl
  · have wellFormed : (Json.array [.string "a"]).isWellFormed = true := by
      decide
    obtain ⟨_, _, _, assembles⟩ := validate_assembles both wellFormed
    exact ((assembles _ _ rfl).2 _ rfl).1 rfl

end Nodes

end Schema

end JsonMatch
