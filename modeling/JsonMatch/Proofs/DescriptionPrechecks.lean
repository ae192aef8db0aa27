import JsonMatch.Proofs.Descriptions
import JsonMatch.Proofs.PrecheckParts
import JsonMatch.Value.Depth

/-!
# Prechecks of descriptions

The precheck of a description is weaker than the description: every value that
the description allows passes.  A keyword that is read makes a part of the
precheck, and the part passes what the keyword allows.
-/

namespace JsonMatch

/-- Induction over a value, its items or members being its parts. -/
@[elab_as_elim]
theorem Json.induction_on_parts {motive : Json → Prop}
    (scalar : ∀ value, value.isScalar = true → motive value)
    (array : ∀ items, (∀ item ∈ items, motive item) → motive (.array items))
    (object : ∀ members : List (String × Json),
      (∀ member ∈ members, motive member.2) →
      motive (.object members))
    (value : Json) : motive value := by
  refine @Json.rec motive (fun items => ∀ item ∈ items, motive item)
    (fun members => ∀ member ∈ members, motive member.2)
    (fun member => motive member.2)
    (scalar _ rfl) (fun _ => scalar _ rfl) (fun _ => scalar _ rfl)
    (fun _ => scalar _ rfl)
    (fun _ => scalar _ rfl) array object ?_ ?_ ?_ ?_ ?_ value
  · simp
  · intro head tail first others item member
    rcases List.mem_cons.mp member with same | later
    · exact same ▸ first
    · exact others item later
  · simp
  · intro head tail first others member listed
    rcases List.mem_cons.mp listed with same | later
    · exact same ▸ first
    · exact others member later
  · intro key value holds
    exact holds

namespace Description

theorem passes_conjunction (parts : List Precheck) (value : Json) :
    (conjunction parts).passes value = true ↔
      ∀ part ∈ parts, part.passes value = true := by
  unfold conjunction
  split
  · simp [Precheck.passes_any]
  · simp
  · exact Precheck.passes_allOf parts value

/-- Whether the precheck of a description passes all that the description
allows. -/
def Weakens (description : Json) : Prop :=
  ∀ value, description.allows value = true →
    description.described.passes value = true

variable {keywords : Members} {value : Json}

theorem passes_enumPart (allowed : allowsEnum keywords value = true) :
    ∀ part ∈ enumPart keywords, part.passes value = true := by
  intro part member
  unfold enumPart at member
  split at member
  · rename_i values found
    obtain rfl := List.mem_singleton.mp member
    rw [allowsEnum, found] at allowed
    obtain ⟨listed, inList, equal⟩ := List.any_eq_true.mp allowed
    refine (Precheck.passes_anyOf _ _).mpr
      ⟨.equal listed, List.mem_map_of_mem inList, ?_⟩
    exact Json.sameByNumber_of_equals value listed equal
  · cases member

private theorem passes_kind {name : String} {check : Precheck}
    (known : kind? name = some check)
    (typed : hasType name value = true) : check.passes value = true := by
  unfold hasType at typed
  split at typed
  · rename_i integer
    subst integer
    cases known
    have number : value.kind = "number" := kind_of_isWhole typed
    cases value <;> first | rfl | simp [Json.kind] at number
  · rename_i other
    split at typed
    · obtain rfl := beq_iff_eq.mp typed
      cases value with
      | array items =>
          cases known
          exact List.all_eq_true.mpr fun _ _ => rfl
      | _ =>
          cases known
          rfl
    · rename_i unlisted
      unfold kind? at known
      split at known <;> simp_all

theorem exists_typeName (allowed : allowsType keywords value = true)
    (listed : typeNames keywords ≠ []) :
    ∃ name ∈ typeNames keywords, hasType name value = true := by
  unfold allowsType at allowed
  unfold typeNames at listed ⊢
  cases found : keywords.get? "type" with
  | none =>
      rw [found] at listed
      exact absurd rfl listed
  | some types =>
      rw [found] at allowed listed
      cases types with
      | string name => exact ⟨name, List.mem_singleton_self name, allowed⟩
      | array names =>
          obtain ⟨entry, member, typed⟩ := List.any_eq_true.mp allowed
          obtain ⟨name, named, has⟩ := (Option.any_eq_true _ _).mp typed
          exact ⟨name, List.mem_filterMap.mpr ⟨entry, member, named⟩, has⟩
      | _ => exact absurd rfl listed

theorem passes_typePart (allowed : allowsType keywords value = true) :
    ∀ part ∈ typePart keywords, part.passes value = true := by
  intro part member
  simp only [typePart] at member
  split at member
  · rename_i known
    obtain rfl := List.mem_singleton.mp member
    rw [Bool.and_eq_true, beq_iff_eq, List.filterMap_length_eq_length] at known
    have listed : typeNames keywords ≠ [] := by
      intro none_listed
      simp [none_listed] at known
    obtain ⟨name, inNames, typed⟩ := exists_typeName allowed listed
    obtain ⟨check, kind⟩ := Option.isSome_iff_exists.mp (known.2 name inNames)
    exact (Precheck.passes_anyOf _ _).mpr
      ⟨check, List.mem_filterMap.mpr ⟨name, inNames, kind⟩,
       passes_kind kind typed⟩
  · cases member

private theorem hasType_of_only {name : String}
    (allowed : allowsType keywords value = true)
    (only : typeNames keywords = [name]) : hasType name value = true := by
  obtain ⟨found, member, typed⟩ := exists_typeName allowed (by simp [only])
  rw [only] at member
  exact List.mem_singleton.mp member ▸ typed

theorem mem_addRequired {required : List String}
    {fields : List (ExpectedField Precheck)}
    {field : ExpectedField Precheck}
    (member : field ∈ addRequired fields required) :
    field ∈ fields ∨ ∃ name ∈ required, field = ⟨name, true, .any⟩ := by
  induction required generalizing fields with
  | nil => exact .inl member
  | cons name names induction =>
      rw [addRequired, List.foldl_cons] at member
      rcases induction member with earlier | ⟨other, later, same⟩
      · split at earlier
        · exact .inl earlier
        · rcases List.mem_append.mp earlier with here | last
          · exact .inl here
          · exact .inr ⟨name, List.mem_cons_self, List.mem_singleton.mp last⟩
      · exact .inr ⟨other, List.mem_cons_of_mem _ later, same⟩

theorem isSome_of_required {members : Members} {name : String}
    (allowed : allowsRequired keywords (.object members) = true)
    (required : name ∈ strings (keywords.get? "required")) :
    (members.get? name).isSome = true := by
  unfold allowsRequired at allowed
  cases found : keywords.get? "required" with
  | none =>
      rw [found] at required
      cases required
  | some names =>
      rw [found] at required allowed
      cases names with
      | array names =>
          obtain ⟨entry, member, named⟩ := List.mem_filterMap.mp required
          have present := List.all_eq_true.mp allowed entry member
          rw [named] at present
          exact present
      | _ => cases required

theorem passes_objectPart {properties : List (String × Precheck)}
    (typed : allowsType keywords value = true)
    (required : allowsRequired keywords value = true)
    (passes : ∀ property ∈ properties, ∀ part,
      value.member? property.1 = some part →
      property.2.passes part = true) :
    ∀ part ∈ objectPart keywords properties, part.passes value = true := by
  intro part member
  simp only [objectPart] at member
  split at member
  · rename_i described
    obtain rfl := List.mem_singleton.mp member
    have only : typeNames keywords = ["object"] := by
      simpa using (Bool.and_eq_true_iff.mp described).1
    have isObject := hasType_of_only typed only
    cases value with
    | object members =>
        simp only [Precheck.passes_object, OtherKeys.map, Condition.object,
          Bool.and_true, List.all_map, List.all_eq_true, Function.comp_apply]
        intro field listed
        rcases mem_addRequired listed with declared | ⟨name, inNames, rfl⟩
        · obtain ⟨property, inProperties, rfl⟩ := List.mem_map.mp declared
          cases found : Members.get? members property.1 with
          | some held => exact passes property inProperties held found
          | none =>
              cases demanded : (strings (keywords.get? "required")).contains
                property.1 with
              | false => rfl
              | true =>
                  have present := isSome_of_required required
                    (List.contains_iff_mem.mp demanded)
                  rw [found] at present
                  cases present
        · obtain ⟨held, found⟩ := Option.isSome_iff_exists.mp
            (isSome_of_required required inNames)
          simp [found, Precheck.passes_any]
    | _ => simp [hasType, Json.kind] at isObject
  · cases member

theorem passes_arrayPart {item : Option Precheck}
    (typed : allowsType keywords value = true)
    (passes : ∀ check, item = some check → ∀ items, value = .array items →
      ∀ part ∈ items, check.passes part = true) :
    ∀ part ∈ arrayPart keywords item, part.passes value = true := by
  intro part member
  unfold arrayPart at member
  split at member
  · rename_i check
    split at member
    · rename_i only
      obtain rfl := List.mem_singleton.mp member
      have isArray := hasType_of_only typed (by simpa using only)
      cases value with
      | array items => exact List.all_eq_true.mpr (passes check rfl items rfl)
      | _ => simp [hasType, Json.kind] at isArray
    · cases member
  · cases member

theorem passes_optionsPart {options : List Precheck}
    (passes : options ≠ [] → ∃ option ∈ options, option.passes value = true) :
    ∀ part ∈ optionsPart options, part.passes value = true := by
  intro part member
  unfold optionsPart at member
  split at member
  · cases member
  · rename_i some_option
    obtain rfl := List.mem_singleton.mp member
    exact (Precheck.passes_anyOf _ _).mpr
      (passes fun none_listed => some_option (by simp [none_listed]))

theorem passes_of_const {constant : Json}
    (described : keywords.get? "const" = some constant)
    (const : allowsConst keywords value = true) :
    (Json.object keywords).described.passes value = true := by
  rw [allowsConst, described] at const
  rw [Json.described, described]
  exact Json.sameByNumber_of_equals value constant const

theorem passes_of_no_const (missing : keywords.get? "const" = none)
    (value : Json) :
    (Json.object keywords).described.passes value = true ↔
      ∀ part ∈ enumPart keywords ++ typePart keywords ++
        objectPart keywords (Json.describedProperties keywords) ++
        arrayPart keywords (Json.describedItems? keywords) ++
        optionsPart (Json.describedOptions "anyOf" keywords) ++
        optionsPart (Json.describedOptions "oneOf" keywords),
        part.passes value = true := by
  rw [Json.described, missing]
  exact passes_conjunction _ _

/-- Whether a value meets the keywords that are read, by what is stated of the
descriptions under them. -/
structure Meets (stated : Json → Json → Prop) (keywords : Members)
    (value : Json) : Prop where
  const : allowsConst keywords value = true
  enum : allowsEnum keywords value = true
  typed : allowsType keywords value = true
  required : allowsRequired keywords value = true
  properties :
    ∀ properties, keywords.get? "properties" = some (.object properties) →
    ∀ property ∈ properties, ∀ part, value.member? property.1 = some part →
      stated property.2 part
  items : ∀ item, keywords.get? "items" = some item →
    ∀ values, value = .array values → ∀ part ∈ values, stated item part
  options : ∀ name ∈ ["anyOf", "oneOf"], ∀ options,
    keywords.get? name = some (.array options) →
      ∃ option ∈ options, stated option value

namespace Meets

/-- What is stated may be weakened for the descriptions under the keywords: the
value of a keyword, and the parts of this value. -/
theorem imp {stated others : Json → Json → Prop}
    (meets : Meets stated keywords value)
    (weaker : ∀ name found, keywords.get? name = some found →
      ∀ part ∈ found :: found.parts,
        ∀ value, stated part value → others part value) :
    Meets others keywords value where
  const := meets.const
  enum := meets.enum
  typed := meets.typed
  required := meets.required
  properties properties found property member part held := by
    apply weaker _ _ found
    · exact List.mem_cons_of_mem _ (List.mem_map_of_mem member)
    · exact meets.properties properties found property member part held
  items item found values isArray part member := by
    apply weaker _ _ found item List.mem_cons_self
    exact meets.items item found values isArray part member
  options name listed options found := by
    obtain ⟨option, member, shown⟩ := meets.options name listed options found
    refine ⟨option, member, ?_⟩
    exact weaker _ _ found option (List.mem_cons_of_mem _ member) value shown

variable (meets :
    Meets (fun description value => description.described.passes value = true)
  keywords value)

include meets

private theorem passes_property {property : String × Precheck}
    (member : property ∈ Json.describedProperties keywords)
    {part : Json} (held : value.member? property.1 = some part) :
    property.2.passes part = true := by
  rw [Json.describedProperties_eq] at member
  cases found : keywords.get? "properties" with
  | none =>
      rw [found] at member
      cases member
  | some properties =>
      rw [found] at member
      cases properties with
      | object members =>
          simp only [Option.map_some, Option.getD_some, Json.describedMembersOf,
            Json.describedMembers_eq_map] at member
          obtain ⟨listed, inMembers, rfl⟩ := List.mem_map.mp member
          exact meets.properties members found listed inMembers part held
      | _ => cases member

private theorem passes_item {check : Precheck} {values : List Json}
    (described : Json.describedItems? keywords = some check)
    (isArray : value = .array values) :
    ∀ part ∈ values, check.passes part = true := by
  rw [Json.describedItems?_eq] at described
  cases found : keywords.get? "items" with
  | none =>
      rw [found] at described
      cases described
  | some item =>
      rw [found] at described
      simp only [Option.map_some, Option.getD_some] at described
      split at described
      · cases described
        exact meets.items item found values isArray
      · cases described

private theorem passes_option {name : String}
    (listed : name ∈ ["anyOf", "oneOf"])
    (some_option : Json.describedOptions name keywords ≠ []) :
    ∃ option ∈ Json.describedOptions name keywords,
      option.passes value = true := by
  rw [Json.describedOptions_eq] at some_option ⊢
  cases found : keywords.get? name with
  | none =>
      rw [found] at some_option
      exact absurd rfl some_option
  | some options =>
      rw [found] at some_option
      cases options with
      | array options =>
          obtain ⟨option, inOptions, passes⟩ :=
            meets.options name listed options found
          simp only [Option.map_some, Option.getD_some, Json.describedItemsOf,
            Json.describedAll_eq_map]
          exact ⟨option.described, List.mem_map_of_mem inOptions, passes⟩
      | _ => exact absurd rfl some_option

theorem passes : (Json.object keywords).described.passes value = true := by
  cases constant : keywords.get? "const" with
  | some constant' => exact passes_of_const constant meets.const
  | none =>
      apply (passes_of_no_const constant value).mpr
      intro part member
      simp only [List.mem_append] at member
      rcases member with
        ((((inEnum | inType) | inObject) | inArray) | inAny) | inOne
      · exact passes_enumPart meets.enum part inEnum
      · exact passes_typePart meets.typed part inType
      · exact passes_objectPart meets.typed meets.required
          (fun property listed part held => meets.passes_property listed held)
          part inObject
      · exact passes_arrayPart meets.typed
          (fun check described values isArray =>
            meets.passes_item described isArray)
          part inArray
      · exact passes_optionsPart (meets.passes_option (by simp)) part inAny
      · exact passes_optionsPart (meets.passes_option (by simp)) part inOne

end Meets

/-- If what is stated of a description and a value makes the value meet the
keywords, it makes the value pass the precheck. -/
theorem passes_of_stated {stated : Json → Json → Prop}
    (meets : ∀ keywords value, stated (.object keywords) value →
      Meets stated keywords value)
    (description : Json) :
    ∀ value, stated description value →
      description.described.passes value = true := by
  suffices both : ∀ part ∈ description :: description.parts, ∀ value,
      stated part value → part.described.passes value = true from
    both description List.mem_cons_self
  -- The keywords reach two levels down: `properties` holds an object of
  -- descriptions.
  induction description using Json.induction_on_parts with
  | scalar value isScalar =>
      intro part member
      cases value with
      | array items => cases isScalar
      | object members => cases isScalar
      | _ =>
          obtain rfl := List.mem_singleton.mp member
          exact fun _ _ => rfl
  | array items holds =>
      intro part member
      rcases List.mem_cons.mp member with rfl | later
      · exact fun _ _ => rfl
      · exact holds part later part List.mem_cons_self
  | object keywords holds =>
      intro part member
      rcases List.mem_cons.mp member with rfl | later
      · intro value shown
        apply Meets.passes
        apply (meets keywords value shown).imp
        intro name found held
        exact holds (name, found) (Members.mem_of_get? held)
      · obtain ⟨entry, listed, rfl⟩ := List.mem_map.mp later
        exact holds entry listed entry.2 List.mem_cons_self

theorem exists_option {name : String} (listed : name ∈ ["anyOf", "oneOf"])
    (conditions : String → Option (List Condition))
    (anyOf : allowsAny (conditions "anyOf") value = true)
    (oneOf : allowsOne (conditions "oneOf") value = true)
    {reads : Json → Condition} {options : List Json}
    (read : conditions name = some (options.map reads)) :
    ∃ option ∈ options, reads option value = true := by
  simp only [List.mem_cons, List.not_mem_nil, or_false] at listed
  rcases listed with rfl | rfl
  · rw [read, allowsAny, Option.all_some, List.any_map,
      List.any_eq_true] at anyOf
    exact anyOf
  · rw [read, allowsOne, Option.all_some, List.countP_map, beq_iff_eq] at oneOf
    apply List.countP_pos_iff.mp
    exact Nat.lt_of_lt_of_eq Nat.one_pos oneOf.symm

theorem meets_of_allows (allowed : (Json.object keywords).allows value = true) :
    Meets (fun description value => description.allows value = true)
      keywords value := by
  obtain ⟨const, enum, typed, required, properties, items, anyOf, oneOf⟩ :=
    (Json.allows_object keywords value).mp allowed
  refine ⟨const, enum, typed, required, ?_, ?_, ?_⟩
  · intro members found property member part held
    rw [found] at properties
    simp only [Option.map_some, Option.getD_some, Json.allowedMembersOf,
      Json.allowedMembers_eq_map] at properties
    have allows := List.all_eq_true.mp properties _ (List.mem_map_of_mem member)
    rwa [held] at allows
  · rintro item found values rfl part member
    rw [found] at items
    exact List.all_eq_true.mp items part member
  · intro name listed options found
    apply exists_option listed
      (fun name => ((keywords.get? name).map Json.allowedItemsOf?).getD none)
        anyOf oneOf
    simp only [found, Option.map_some, Option.getD_some, Json.allowedItemsOf?,
      Json.allowedAll_eq_map]

/-- What a description allows passes its precheck. -/
theorem weakens (description : Json) : Weakens description :=
  @passes_of_stated (fun description value => description.allows value = true)
    (fun _ _ => meets_of_allows) description

end Description

end JsonMatch
