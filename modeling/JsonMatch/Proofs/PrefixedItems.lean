import JsonMatch.Proofs.DescribedAttempts

/-!
# Descriptions of arrays by position

In the reading of JSON Schema 2020-12, the keyword `prefixItems` describes the
first items of an array one by one, and `items` only those after them.  A
precheck ignores the first keyword and applies the second to all items.  It is
weaker than the description as long as the two do not stand together; where they
do, it also asks of the first items what is described for the others.
-/

namespace JsonMatch

namespace Description

/-- The descriptions of the first items. -/
def prefixItems (keywords : Members) : List Json :=
  ((keywords.get? "prefixItems").bind Json.items?).getD []

/-- The keyword `prefixItems`, about the first items of an array. -/
def allowsPrefix (conditions : List Condition) (value : Json) : Bool :=
  value.items?.all fun items =>
    (items.zip conditions).all fun (item, condition) => condition item

/-- The keyword `items`, about the items of an array after a number of
others. -/
def allowsAfter (count : Nat) (item : Option Condition) (value : Json) : Bool :=
  item.all fun condition =>
    value.items?.all fun items => (items.drop count).all condition

/-- What a description says of a value, what its members say, and what its items
say. -/
structure Reading where
  itself : Condition
  members : List (String × Condition) := []
  items : Option (List Condition) := none

/-- What an object of keywords says, by the readings of their values. -/
def Reading.ofKeywords (keywords : Members) (found : List (String × Reading)) :
    Reading where
  itself value :=
    let first := ((found.lookup "prefixItems").bind (·.items)).getD []
    allowsConst keywords value && allowsEnum keywords value &&
      allowsType keywords value &&
      allowsRequired keywords value &&
      allowsProperties (((found.lookup "properties").map (·.members)).getD [])
        value &&
      allowsPrefix first value &&
      allowsAfter first.length ((found.lookup "items").map (·.itself)) value &&
      allowsAny ((found.lookup "anyOf").bind (·.items)) value &&
      allowsOne ((found.lookup "oneOf").bind (·.items)) value
  members := found.map fun member => (member.1, member.2.itself)

end Description

namespace Json

open Description

mutual

/-- The reading of a description by position; what is no object says nothing. -/
def reading : Json → Reading
  | .object keywords => Reading.ofKeywords keywords (readingMembers keywords)
  | .array items =>
      { itself := fun _ => true
        items := some ((readingAll items).map (·.itself)) }
  | _ => { itself := fun _ => true }

def readingAll : List Json → List Reading
  | [] => []
  | value :: values => value.reading :: readingAll values

def readingMembers : List (String × Json) → List (String × Reading)
  | [] => []
  | (name, value) :: members => (name, value.reading) :: readingMembers members

end

/-- Whether a description permits a value in this reading. -/
def permits (description : Json) : Condition :=
  description.reading.itself

theorem readingAll_eq_map (values : List Json) :
    readingAll values = values.map reading := by
  induction values with
  | nil => rfl
  | cons value values induction => rw [readingAll, List.map_cons, induction]

theorem readingMembers_eq_map (members : List (String × Json)) :
    readingMembers members =
      members.map fun member => (member.1, member.2.reading) := by
  induction members with
  | nil => rfl
  | cons member members induction =>
      rw [List.map_cons, ← induction]
      rfl

theorem lookup_readingMembers (keywords : Members) (name : String) :
    (readingMembers keywords).lookup name =
      (keywords.get? name).map reading := by
  induction keywords with
  | nil => rfl
  | cons keyword keywords induction =>
      obtain ⟨other, value⟩ := keyword
      rw [readingMembers, List.lookup_cons, Members.get?_cons, induction]
      by_cases same : name = other
      · simp [same]
      · simp [same, beq_eq_false_iff_ne.mpr same]

theorem items_reading (description : Json) :
    description.reading.items = description.items?.map (List.map permits) := by
  cases description with
  | array items =>
      rw [reading, readingAll_eq_map, List.map_map]
      rfl
  | _ => rfl

theorem members_reading (members : Members) :
    (object members).reading.members =
      members.map fun member => (member.1, member.2.permits) := by
  rw [reading, Reading.ofKeywords, readingMembers_eq_map, List.map_map]
  rfl

/-- The conditions of the descriptions in the list under a keyword. -/
def permitted? (keywords : Members) (name : String) : Option (List Condition) :=
  ((keywords.get? name).bind items?).map (List.map permits)

theorem permits_object (keywords : Members) (value : Json) :
    (object keywords).permits value = true ↔
      allowsConst keywords value = true ∧ allowsEnum keywords value = true ∧
        allowsType keywords value = true ∧
        allowsRequired keywords value = true ∧
        allowsProperties
          (((keywords.get? "properties").map
            fun found => found.reading.members).getD [])
          value = true ∧
        allowsPrefix ((prefixItems keywords).map permits) value = true ∧
        allowsAfter (prefixItems keywords).length
          ((keywords.get? "items").map permits) value = true ∧
        allowsAny (permitted? keywords "anyOf") value = true ∧
        allowsOne (permitted? keywords "oneOf") value = true := by
  have options (name : String) :
      ((keywords.get? name).map reading).bind (·.items) =
        permitted? keywords name := by
    rw [permitted?, Option.bind_map, Option.map_bind]
    exact Option.bind_congr fun found _ => items_reading found
  have first : (permitted? keywords "prefixItems").getD [] =
      (prefixItems keywords).map permits := by
    rw [permitted?, prefixItems]
    cases (keywords.get? "prefixItems").bind items? <;> rfl
  rw [permits, reading, Reading.ofKeywords]
  simp only [lookup_readingMembers, options, first, List.length_map,
    Option.map_map, Bool.and_eq_true, and_assoc]
  rfl

mutual

/-- Whether `items` stands nowhere in a description beside descriptions of the
first items. -/
def isUnprefixed : Json → Bool
  | .array items => itemsUnprefixed items
  | .object keywords =>
      ((prefixItems keywords).isEmpty ||
        (Members.get? keywords "items").isNone) && membersUnprefixed keywords
  | _ => true

def itemsUnprefixed : List Json → Bool
  | [] => true
  | item :: items => item.isUnprefixed && itemsUnprefixed items

def membersUnprefixed : List (String × Json) → Bool
  | [] => true
  | (_, value) :: members => value.isUnprefixed && membersUnprefixed members

end

theorem isUnprefixed_array (items : List Json) :
    (array items).isUnprefixed = true ↔
      ∀ item ∈ items, item.isUnprefixed = true := by
  rw [isUnprefixed]
  induction items with
  | nil => simp [itemsUnprefixed]
  | cons item items induction => simp [itemsUnprefixed, induction]

theorem isUnprefixed_object (keywords : Members) :
    (object keywords).isUnprefixed = true ↔
      (prefixItems keywords = [] ∨ keywords.get? "items" = none) ∧
        ∀ member ∈ keywords, member.2.isUnprefixed = true := by
  have values : membersUnprefixed keywords = true ↔
      ∀ member ∈ keywords, member.2.isUnprefixed = true := by
    induction keywords with
    | nil => simp [membersUnprefixed]
    | cons keyword keywords induction =>
        obtain ⟨name, value⟩ := keyword
        simp [membersUnprefixed, induction]
  rw [isUnprefixed, Bool.and_eq_true, Bool.or_eq_true, values, List.isEmpty_iff,
    Option.isNone_iff_eq_none]

theorem isUnprefixed_of_mem {description : Json}
    (unprefixed : description.isUnprefixed = true) :
    ∀ part ∈ description :: description.parts, part.isUnprefixed = true := by
  intro part member
  rcases List.mem_cons.mp member with rfl | deeper
  · exact unprefixed
  · cases description with
    | array items => exact (isUnprefixed_array items).mp unprefixed part deeper
    | object keywords =>
        obtain ⟨keyword, listed, rfl⟩ := List.mem_map.mp deeper
        exact ((isUnprefixed_object keywords).mp unprefixed).2 keyword listed
    | _ => cases deeper

end Json

namespace Description

variable {keywords : Members} {value : Json}

/-- What is permitted meets the keywords, if the description of the items holds
of the first ones too. -/
theorem meets_of_permits {stated : Json → Json → Prop}
    (permitted : (Json.object keywords).permits value = true)
    (weaker : ∀ name found, keywords.get? name = some found →
      name ≠ "prefixItems" →
      ∀ part ∈ found :: found.parts,
        ∀ value, part.permits value = true → stated part value)
    (first : ∀ item, keywords.get? "items" = some item →
      ∀ values, value = .array values →
        ∀ part ∈ values.take (prefixItems keywords).length, stated item part) :
    Meets stated keywords value := by
  obtain ⟨const, enum, typed, required, properties, _, items, anyOf, oneOf⟩ :=
    (Json.permits_object keywords value).mp permitted
  refine ⟨const, enum, typed, required, ?_, ?_, ?_⟩
  · intro members found property member part held
    apply weaker _ _ found (by decide)
    · exact List.mem_cons_of_mem _ (List.mem_map_of_mem member)
    · rw [found, Option.map_some, Option.getD_some, Json.members_reading]
        at properties
      have permits :=
        List.all_eq_true.mp properties _ (List.mem_map_of_mem member)
      rwa [held] at permits
  · rintro item found values rfl part member
    rw [← List.take_append_drop (prefixItems keywords).length values] at member
    rcases List.mem_append.mp member with early | late
    · exact first item found values rfl part early
    · apply weaker _ _ found (by decide) _ List.mem_cons_self
      rw [found] at items
      exact List.all_eq_true.mp items part late
  · intro name listed options found
    have read :
        Json.permitted? keywords name = some (options.map Json.permits) := by
      rw [Json.permitted?, found]
      rfl
    obtain ⟨option, member, permits⟩ :=
      exists_option listed (Json.permitted? keywords) anyOf oneOf read
    refine ⟨option, member, ?_⟩
    apply weaker _ _ found _ _ (List.mem_cons_of_mem _ member) _ permits
    rintro rfl
    exact absurd listed (by decide)

/-- Where `items` stands nowhere beside `prefixItems`, all that is permitted
passes. -/
theorem passes_of_permits {description : Json}
    (unprefixed : description.isUnprefixed = true)
    (permitted : description.permits value = true) :
    description.described.passes value = true := by
  apply @passes_of_stated fun description value =>
    description.isUnprefixed = true ∧ description.permits value = true
  · rintro keywords value ⟨unprefixed, permitted⟩
    obtain ⟨apart, parts⟩ := (Json.isUnprefixed_object keywords).mp unprefixed
    apply meets_of_permits permitted
    · intro name found held _ part member value permits
      have below := parts (name, found) (Members.mem_of_get? held)
      exact ⟨Json.isUnprefixed_of_mem below part member, permits⟩
    · intro item held values _ part early
      rcases apart with none_first | none_other
      · rw [none_first] at early
        cases early
      · rw [none_other] at held
        cases held
  · exact ⟨unprefixed, permitted⟩

/-- Where the two keywords stand together, a permitted array passes just when a
constant is described, or the precheck of the other items passes the first ones
as well. -/
theorem passes_prefixed_iff {item : Json} {values : List Json}
    (typed : typeNames keywords = ["array"])
    (described : keywords.get? "items" = some item)
    (unprefixed : ∀ member ∈ keywords, member.1 ≠ "prefixItems" →
      member.2.isUnprefixed = true)
    (permitted : (Json.object keywords).permits (.array values) = true) :
    (Json.object keywords).described.passes (.array values) = true ↔
      (keywords.get? "const").isSome = true ∨
        ∀ value ∈ values.take (prefixItems keywords).length,
          item.described.passes value = true := by
  constructor
  · intro passes
    cases constant : keywords.get? "const" with
    | some _ => exact .inl rfl
    | none =>
        right
        intro value early
        cases item with
        | object inner =>
            have parts := (passes_of_no_const constant _).mp passes
            have part : arrayPart keywords (Json.describedItems? keywords) =
                [.array (Json.object inner).described] := by
              rw [Json.describedItems?_eq, described]
              simp [arrayPart, typed, Json.members?]
            have all : (Precheck.array (Json.object inner).described).passes
                (.array values) = true := by
              apply parts
              simp [part]
            exact List.all_eq_true.mp all value (List.mem_of_mem_take early)
        | _ => rfl
  · rintro (constant | first)
    · obtain ⟨_, constant⟩ := Option.isSome_iff_exists.mp constant
      exact passes_of_const constant ((Json.permits_object _ _).mp permitted).1
    · apply Meets.passes
      apply meets_of_permits permitted
      · intro name found held other part member value permits
        have below := unprefixed (name, found) (Members.mem_of_get? held) other
        exact passes_of_permits
          (Json.isUnprefixed_of_mem below part member) permits
      · intro other held others same part early
        rw [described] at held
        obtain rfl := Option.some.inj held
        obtain rfl := Json.array.inj same
        exact first part early

/-- Two strings at the front of numbers and strings. -/
theorem passes_prefixed_pair :
    let string : Json := .object [("type", .string "string")]
    let item : Json :=
      .object [("type", .array [.string "integer", .string "string"])]
    let keywords : Members :=
      [("items", item), ("prefixItems", .array [string, string]),
       ("type", .string "array")]
    let values : List Json := [.string "a", .string "b", .int 1]
    (Json.object keywords).permits (.array values) = true ∧
      (Json.object keywords).described.passes (.array values) = true := by
  intro string item keywords values
  have permitted : (Json.object keywords).permits (.array values) = true := by
    decide +kernel
  have unprefixed : ∀ member ∈ keywords, member.1 ≠ "prefixItems" →
      member.2.isUnprefixed = true := by
    decide +kernel
  have first : ∀ value ∈ values.take 2, item.described.passes value = true := by
    decide +kernel
  exact ⟨permitted,
    (passes_prefixed_iff rfl rfl unprefixed permitted).mpr (.inr first)⟩

/-- A validator that accepts just what it describes, a string followed by
numbers, accepts such an array, but its compiled form does not match it: the
string is no number. -/
theorem not_passes_prefixed :
    let description : Json := .object
      [("items", .object [("type", .string "number")]),
        ("prefixItems", .array [.object [("type", .string "string")]]),
        ("type", .string "array")]
    let input : Json := .array [.string "a", .int 1]
    let validator : Validator Id :=
      { identity := 1
        slotted := false
        validate := fun value =>
          pure (.ready (if description.permits value then .success value
            else .failure (.ofMessage "not described")))
        schema? := none
        description? := some description }
    let compiled : CompiledValidator Id :=
      ⟨validator,
       ⟨1, "described", Compiler.strategyOf Adapter.described validator⟩⟩
    description.permits input = true ∧
      (validator.settle input : Option Json) = some input ∧
      description.described.passes input = false ∧
      ∀ waiting, (compiled.attemptWith waiting input : Attempt) = .noMatch := by
  intro description input validator compiled
  have permitted : description.permits input = true := by decide +kernel
  have fails : description.described.passes input = false := by decide +kernel
  have prechecked : compiled.Prechecked description := ⟨rfl, rfl⟩
  refine ⟨permitted, ?_, fails, ?_⟩
  · have answer : (validator.settle input : Option Json) = Outcome.accepted?
        (if description.permits input then .success input
          else .failure (.ofMessage "not described")) := rfl
    rw [answer, if_pos permitted]
    rfl
  · intro waiting
    cases waiting with
    | refuse =>
        change (compiled.attempt input : Attempt) = _
        rw [prechecked.attempt_eq, fails]
        rfl
    | await =>
        have settled : (compiled.settle input : Option Json) = none := by
          rw [prechecked.settle_eq, fails]
          rfl
        change Attempt.ofVerdict (compiled.settle input : Option Json) = _
        rw [settled]
        rfl

end Description

end JsonMatch
