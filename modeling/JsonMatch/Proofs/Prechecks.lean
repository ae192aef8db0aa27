import JsonMatch.Proofs.Acceptance
import JsonMatch.Proofs.PrecheckParts
import JsonMatch.Proofs.ScalarKeys

/-!
# Prechecks of schemas

The precheck of a schema as a condition on values, one equation for each kind of
node.  It is necessary for acceptance, whether checks are awaited or not.
-/

namespace JsonMatch

namespace Schema

section Conditions

variable {m : Type → Type}

/-- Whether a value meets the precheck of a schema. -/
def passes (schema : Schema m) : Condition :=
  schema.precheck.check.passes

theorem passes_literal (expected value : Json) :
    (literal expected : Schema m).passes value = (value == expected) := rfl

theorem passes_primitive (kind : Primitive) (value : Json) :
    (primitive kind : Schema m).passes value = kind.accepts value := by
  cases kind <;> rfl

/-- Whether a declared field lets an object pass. -/
def FieldPasses (members : Members) (field : Field (Schema m)) : Prop :=
  match members.get? field.name with
  | some value => field.schema.passes value = true
  | none => field.presence ≠ .required

/-- Whether a member that is not declared lets an object pass. -/
def UnknownPasses (unknown : OtherKeys (Schema m)) (value : Json) : Prop :=
  match unknown with
  | .allow => True
  | .deny => False
  | .validate schema => schema.passes value = true

theorem passes_object (fields : List (Field (Schema m)))
    (unknown : OtherKeys (Schema m))
    (members : Members) :
    (object fields unknown).passes (.object members) = true ↔
      (∀ field ∈ fields, FieldPasses members field) ∧
        ∀ member ∈ members, Field.declares fields member.1 = false →
          UnknownPasses unknown member.2 := by
  simp only [passes, precheck, Derivation.object, Precheck.passes_object,
    precheckFields_eq_map, precheckUnknown_eq_map, Condition.object,
    Bool.and_eq_true]
  refine and_congr ?_ ?_
  · simp only [List.map_map, List.all_map, List.all_eq_true]
    refine forall₂_congr fun field _ => ?_
    simp only [Function.comp_apply, Field.map, FieldPasses]
    cases members.get? field.name with
    | some value => rfl
    | none => cases field.presence <;> simp
  · cases unknown with
    | allow => simp [OtherKeys.map, UnknownPasses]
    | deny =>
        simp [OtherKeys.map, UnknownPasses, Field.declares, List.any_map,
          Function.comp_def, Field.map]
    | validate schema =>
        simp only [OtherKeys.map, List.all_eq_true, Bool.or_eq_true]
        refine forall₂_congr fun member _ => ?_
        simp only [UnknownPasses, Field.declares, List.any_map,
          Function.comp_def, Field.map]
        rw [← Bool.not_eq_true, ← or_iff_not_imp_left]
        rfl

theorem passes_array (item : Schema m) (values : List Json) :
    (array item).passes (.array values) = true ↔
      ∀ value ∈ values, item.passes value = true := by
  rw [passes, precheck]
  exact List.all_eq_true

theorem passes_tuple (items : List (Schema m)) (rest : Option (Schema m))
    (values : List Json) :
    (tuple items rest).passes (.array values) = true ↔
      tupleLengthFits items.length rest.isSome values.length = true ∧
        ∀ entry ∈ values.zipIdx,
          ∀ schema, items[entry.2]?.or rest = some schema →
          schema.passes entry.1 = true := by
  simp only [passes, precheck, Derivation.tuple, Precheck.passes_tuple,
    Condition.tuple, precheckAll_eq_map, precheckRest_eq_map, Bool.and_eq_true,
    List.length_map, Option.isSome_map, List.map_map, List.getElem?_map,
    Option.map_map, ← Option.map_or, List.all_eq_true]
  refine and_congr Iff.rfl (forall₂_congr fun entry _ => ?_)
  cases items[entry.2]?.or rest <;> simp

theorem passes_union (options : List (Schema m)) (value : Json) :
    (union options).passes value = true ↔
      ∃ option ∈ options, option.passes value = true := by
  simp only [passes, precheck, Derivation.union, Precheck.passes_anyOf,
    precheckAll_eq_map, List.map_map, List.mem_map, exists_exists_and_eq_and,
    Function.comp_apply]

theorem isScalar_of_pinned {field : Field (Schema m)} {value : Json}
    (pinned : field.pinned? = some value) : value.isScalar = true := by
  unfold Field.pinned? at pinned
  split at pinned
  · split at pinned
    · rename_i scalar
      cases pinned
      exact scalar
    · cases pinned
  · cases pinned

theorem isScalar_of_tag {schema : Schema m} {key : String} {value : Json}
    (tag : schema.tag? key = some value) : value.isScalar = true := by
  obtain ⟨object, _, pinnedAt⟩ := Option.bind_eq_some_iff.mp tag
  obtain ⟨field, _, pinned⟩ := Option.bind_eq_some_iff.mp pinnedAt
  exact isScalar_of_pinned pinned

theorem passes_variant (key : String) (options : List (Schema m))
    (members : Members) :
    (variant key options).passes (.object members) = true ↔
      ∃ option ∈ options,
        Check.isCandidate (members.get? key) (option.tag? key) = true ∧
        option.passes (.object members) = true := by
  simp only [passes, precheck, Derivation.variant, Precheck.passes_variant,
    precheckAll_eq_map, Condition.variant, List.zip_map', List.map_map,
    List.any_map, List.any_eq_true, Function.comp_apply]
  refine exists_congr fun option => and_congr_right fun _ => ?_
  cases tag : option.tag? key with
  | none => simp [Check.isCandidate]
  | some value =>
      obtain ⟨scalar, found⟩ : ∃ scalar, value.scalarKey? = some scalar :=
        Option.isSome_iff_exists.mp
          (value.isSome_scalarKey?.trans (isScalar_of_tag tag))
      simp [Check.isCandidate, found]

theorem passes_refined (inner : Schema m) (rule : Rule m)
    (message : Option String) :
    (refined inner rule message).passes = inner.passes := rfl

theorem passes_transform (inner : Schema m) (map : Json → m Json) :
    (transform inner map).passes = inner.passes := rfl

theorem passes_asyncRefined (inner : Schema m) (test : Json → m Bool)
    (message : String) :
    (asyncRefined inner test message).passes = inner.passes := rfl

end Conditions

section Soundness

variable (waiting : Waiting)

private theorem fieldPasses_of_given {members : Members}
    {field : Field (Schema Id)}
    (sound : ∀ value, field.schema.verdict waiting value ≠ none →
      field.schema.passes value = true)
    (given : fieldVerdict waiting members field ≠ none) :
    FieldPasses members field := by
  simp only [fieldVerdict, FieldPasses] at given ⊢
  cases found : members.get? field.name with
  | some value =>
      rw [found] at given
      exact sound value fun rejects => given (by simp [rejects])
  | none =>
      rw [found] at given
      intro required
      simp [required] at given

private theorem unknownPasses_of_given {unknown : OtherKeys (Schema Id)}
    {member : String × Json}
    (sound : ∀ schema, unknown = .validate schema → ∀ value,
      schema.verdict waiting value ≠ none → schema.passes value = true)
    (given : unknownVerdict waiting unknown member ≠ none) :
    UnknownPasses unknown member.2 := by
  cases unknown with
  | allow => trivial
  | deny => exact given rfl
  | validate schema =>
      exact sound schema rfl member.2 fun rejects =>
        given (by simp [unknownVerdict, rejects])

private theorem given_of_map_allGiven {α β : Type} {given : List (Option α)}
    {function : List α → β} (all : (allGiven given).map function ≠ none) :
    ∀ output ∈ given, output ≠ none := by
  intro output member rejects
  cases outputs : allGiven given with
  | none => exact all (by rw [outputs]; rfl)
  | some _ => exact given_of_allGiven outputs member rejects

/-- Whether what a schema accepts meets its precheck. -/
def Sound (schema : Schema Id) : Prop :=
  ∀ value, schema.verdict waiting value ≠ none → schema.passes value = true

variable {waiting}

private theorem sound_object {fields : List (Field (Schema Id))}
    {unknown : OtherKeys (Schema Id)}
    (fieldSound : ∀ field ∈ fields, field.schema.Sound waiting)
    (unknownSound : ∀ schema, unknown = .validate schema →
      schema.Sound waiting) :
    (object fields unknown).Sound waiting := by
  intro value accepts
  cases value with
  | object members =>
      rw [verdict_object] at accepts
      have given := given_of_map_allGiven accepts
      simp only [memberVerdicts, List.mem_append, List.mem_map,
        List.mem_filter] at given
      apply (passes_object _ _ _).mpr
      constructor
      · intro field member
        exact fieldPasses_of_given waiting (fieldSound field member)
          (given _ (.inl ⟨field, member, rfl⟩))
      · intro found member free
        exact unknownPasses_of_given waiting unknownSound
          (given _ (.inr ⟨found, ⟨member, by simp [free]⟩, rfl⟩))
  | _ => exact absurd (verdict_object_of_ne waiting _ _ (by simp)) accepts

private theorem sound_tuple {items : List (Schema Id)}
    {rest : Option (Schema Id)}
    (itemsSound : ∀ item ∈ items, item.Sound waiting)
    (restSound : ∀ schema, rest = some schema → schema.Sound waiting) :
    (tuple items rest).Sound waiting := by
  intro value accepts
  cases value with
  | array values =>
      rw [verdict_tuple] at accepts
      split at accepts
      · rename_i fits
        have given := given_of_map_allGiven accepts
        refine (passes_tuple _ _ _).mpr ⟨fits, ?_⟩
        intro entry member schema chosen
        have accepted : schema.verdict waiting entry.1 ≠ none :=
          given _ (List.mem_filterMap.mpr
            ⟨entry, member, Option.map_eq_some_iff.mpr ⟨schema, chosen, rfl⟩⟩)
        rcases Option.or_eq_some_iff.mp chosen with listed | ⟨_, after⟩
        · exact itemsSound schema (List.mem_of_getElem? listed) _ accepted
        · exact restSound schema after _ accepted
      · exact absurd rfl accepts
  | _ => exact absurd (verdict_tuple_of_ne waiting _ _ (by simp)) accepts

private theorem sound_array {item : Schema Id}
    (itemSound : item.Sound waiting) :
    (array item).Sound waiting := by
  intro value accepts
  cases value with
  | array values =>
      rw [verdict_array] at accepts
      have given := given_of_map_allGiven accepts
      apply (passes_array _ _).mpr
      intro part member
      exact itemSound part (given _ (List.mem_map_of_mem member))
  | _ => exact absurd (verdict_array_of_ne waiting _ (by simp)) accepts

private theorem sound_union {options : List (Schema Id)}
    (optionsSound : ∀ option ∈ options, option.Sound waiting) :
    (union options).Sound waiting := by
  intro value accepts
  rw [verdict_union] at accepts
  obtain ⟨output, found⟩ := Option.ne_none_iff_exists'.mp accepts
  obtain ⟨option, member, given⟩ := List.exists_of_findSome?_eq_some found
  exact (passes_union _ _).mpr
    ⟨option, member, optionsSound option member _ (by simp [given])⟩

private theorem sound_variant {key : String} {options : List (Schema Id)}
    (optionsSound : ∀ option ∈ options, option.Sound waiting) :
    (variant key options).Sound waiting := by
  intro value accepts
  cases value with
  | object members =>
      rw [verdict_variant] at accepts
      obtain ⟨output, found⟩ := Option.ne_none_iff_exists'.mp accepts
      obtain ⟨option, meant, given⟩ := List.exists_of_findSome?_eq_some found
      obtain ⟨member, candidate⟩ := List.mem_filter.mp meant
      exact (passes_variant _ _ _).mpr
        ⟨option, member, candidate,
         optionsSound option member _ (by simp [given])⟩
  | _ => exact absurd (verdict_variant_of_ne waiting _ _ (by simp)) accepts

private theorem sound_asyncRefined {inner : Schema Id} {test : Json → Id Bool}
    {message : String} (innerSound : inner.Sound waiting) :
    (asyncRefined inner test message).Sound waiting := by
  intro value accepts
  rw [passes_asyncRefined]
  cases waiting with
  | refuse =>
      rw [verdict_asyncRefined_refuse] at accepts
      exact innerSound value accepts
  | await =>
      rw [verdict_asyncRefined_await] at accepts
      exact innerSound value fun rejects => accepts (by simp [rejects])

variable (waiting)

/-- A value that a schema accepts meets its precheck. -/
theorem passes_of_verdict (schema : Schema Id) {value : Json}
    (accepts : schema.verdict waiting value ≠ none) :
    schema.passes value = true := by
  suffices sound : schema.Sound waiting from sound value accepts
  clear accepts value
  induction schema with
  | literal expected =>
      intro value accepts
      rw [verdict_literal] at accepts
      rw [passes_literal]
      by_contra differs
      exact accepts (if_neg differs)
  | primitive kind =>
      intro value accepts
      rw [verdict_primitive] at accepts
      rw [passes_primitive]
      by_contra differs
      exact accepts (if_neg differs)
  | object fields unknown fieldSound unknownSound =>
      exact sound_object fieldSound unknownSound
  | tuple items rest itemsSound restSound =>
    exact sound_tuple itemsSound restSound
  | array item itemSound => exact sound_array itemSound
  | union options optionsSound => exact sound_union optionsSound
  | variant key options optionsSound => exact sound_variant optionsSound
  | refined inner rule message innerSound =>
      intro value accepts
      rw [verdict_refined] at accepts
      exact innerSound value fun rejects => accepts (by simp [rejects])
  | transform inner map innerSound =>
      intro value accepts
      rw [verdict_transform] at accepts
      exact innerSound value fun rejects => accepts (by simp [rejects])
  | asyncRefined inner test message innerSound =>
    exact sound_asyncRefined innerSound
  | custom validate => exact fun _ _ => rfl

end Soundness

end Schema

end JsonMatch
