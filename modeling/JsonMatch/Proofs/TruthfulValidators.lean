import JsonMatch.Proofs.DescriptionPrechecks
import JsonMatch.Proofs.Pruning

/-!
# Truthful validators

A validator that describes itself is truthful when its description allows all
that it accepts.  Then neither the precheck of the description nor its
discriminator turns an accepted value away, and the attempt by the built-in
adapters, waiting, is validation.
-/

namespace JsonMatch

namespace Description

theorem same_of_equals {x y : Json} (scalar : y.isScalar = true)
    (other : y.kind ≠ "number")
    (equal : x.equals y = true) : (x == y) = true := by
  change x.same y = true
  cases x with
  | null => cases y <;> simp_all [Json.equals, Json.same]
  | bool x => cases y <;> simp_all [Json.equals, Json.same]
  | string x => cases y <;> simp_all [Json.equals, Json.same]
  | int x => cases y <;> first | exact absurd rfl other | cases equal
  | float x => cases y <;> first | exact absurd rfl other | cases equal
  | array xs => cases y <;> first | cases equal | cases scalar
  | object xs => cases y <;> first | cases equal | cases scalar

theorem equals_of_const {description value constant : Json}
    (const : description.member? "const" = some constant)
    (allowed : description.allows value = true) :
    value.equals constant = true := by
  cases description with
  | object keywords =>
      change Members.get? keywords "const" = some constant at const
      have equal := ((Json.allows_object keywords value).mp allowed).1
      rwa [allowsConst, const] at equal
  | _ => cases const

private theorem exists_pinned {keywords : Members} {key : String}
    {expected : Json}
    (pinned : (key, expected) ∈ Adapter.pinnedProperties (.object keywords)) :
    ∃ properties, keywords.get? "properties" = some (.object properties) ∧
      ∃ property ∈ properties, property.1 = key ∧
        property.2.member? "const" = some expected ∧ expected.kind ≠ "number" ∧
        key ∈ strings (keywords.get? "required") := by
  obtain ⟨property, listed, given⟩ := List.mem_filterMap.mp pinned
  obtain ⟨constant, const, kept⟩ := Option.bind_eq_some_iff.mp given
  split at kept
  · cases kept
  · rename_i keeps
    cases kept
    have named : expected.kind ≠ "number" ∧
        property.1 ∈ strings (keywords.get? "required") := by
      simpa [Json.member?, Json.members?] using keeps
    change property ∈
      (((keywords.get? "properties").bind Json.members?).getD []) at listed
    cases found : keywords.get? "properties" with
    | none =>
        rw [found] at listed
        cases listed
    | some properties =>
        rw [found] at listed
        cases properties with
        | object properties =>
            exact ⟨properties, rfl, property, listed, rfl, const, named⟩
        | _ => cases listed

theorem carries_of_allows {description value : Json}
    (typed : (description.member? "type").bind Json.string? = some "object")
    (allowed : description.allows value = true) {key : String} {expected : Json}
    (pinned : (key, expected) ∈ Adapter.pinnedProperties description)
    (scalar : expected.isScalar = true) :
    ∃ carried, value.member? key = some carried ∧
      (carried == expected) = true := by
  cases description with
  | object keywords =>
      obtain ⟨properties, found, property, listed, rfl,
          const, other, inRequired⟩ :=
        exists_pinned pinned
      obtain ⟨_, _, types, required, declared, _⟩ :=
        (Json.allows_object keywords value).mp allowed
      obtain ⟨name, isType, isString⟩ := Option.bind_eq_some_iff.mp typed
      cases name with
      | string name =>
          cases isString
          change Members.get? keywords "type" = _ at isType
          rw [allowsType, isType] at types
          cases value with
          | object members =>
              obtain ⟨carried, held⟩ :=
                Option.isSome_iff_exists.mp
                  (isSome_of_required required inRequired)
              rw [found] at declared
              simp only [Option.map_some, Option.getD_some,
                Json.allowedMembersOf, Json.allowedMembers_eq_map] at declared
              have allows := List.all_eq_true.mp declared _
                (List.mem_map_of_mem listed)
              change (Members.get? members property.1).all property.2.allows =
                true at allows
              rw [held, Option.all_some] at allows
              exact ⟨carried, held, same_of_equals scalar other
                (equals_of_const const allows)⟩
          | _ => simp [hasType, Json.kind] at types
      | _ => cases isString
  | _ => cases typed

end Description

namespace Validator

variable {m : Type → Type} [Monad m] [LawfulMonad m] {validator : Validator m}

theorem Silent.attemptBuiltIn_eq (silent : validator.Silent) (input : Json) :
    validator.attemptBuiltIn .refuse input = validator.attempt input ∧
      validator.attemptBuiltIn .await input =
        Attempt.ofVerdict <$> validator.settle input := by
  apply attemptBuiltIn_of_generic
  rw [strategy, Compiler.planFor, silent.serving?_eq]

/-- Whether a validator shows a description and no schema. -/
def Describes (validator : Validator m) (description : Json) : Prop :=
  validator.schema? = none ∧ validator.description? = some description

omit [LawfulMonad m] in
theorem Describes.serving?_eq {description : Json}
    (describes : validator.Describes description) :
    Compiler.shared.serving? validator = some Adapter.described := by
  simp [Compiler.shared, Compiler.serving?, Adapter.builtIn, Adapter.native,
    Adapter.described, describes.1, describes.2]

theorem Describes.attemptBuiltIn_eq {description : Json}
    (describes : validator.Describes description) (input : Json) :
    validator.attemptBuiltIn .refuse input =
        (if description.described.passes input then validator.attempt input
          else pure .noMatch) ∧
      validator.attemptBuiltIn .await input =
        Attempt.ofVerdict <$> (if description.described.passes input then
          validator.settle input else pure none) := by
  let check : Shortcut m :=
    { attempt := fun validator input =>
        if description.described.passes input then validator.attempt input
        else return .noMatch
      settle := fun validator input =>
        if description.described.passes input then validator.settle input
        else return none }
  have offered : Adapter.described.accelerate? validator = some check := by
    simp only [Adapter.described, describes.2, Option.map_some]
    rfl
  have chosen : validator.strategy = .accelerated check := by
    rw [strategy, Compiler.planFor, describes.serving?_eq]
    change Compiler.strategyOf Adapter.described validator = _
    rw [Compiler.strategyOf, offered]
    rfl
  exact attemptBuiltIn_of_accelerated chosen input

omit [LawfulMonad m] in
theorem mem_of_described_discriminator? {description : Json}
    {priority : List String} {discriminator : Discriminator}
    (shown : validator.description? = some description)
    (found : Adapter.described.discriminator? validator priority =
      some discriminator) :
    (description.member? "type").bind Json.string? = some "object" ∧
      (discriminator.key, discriminator.value) ∈
        Adapter.pinnedProperties description ∧
      discriminator.value.isScalar = true := by
  obtain ⟨same, held, rest⟩ := Option.bind_eq_some_iff.mp found
  obtain rfl := Option.some.inj (shown.symm.trans held)
  split at rest
  · rename_i typed
    exact ⟨by simpa using typed, Discriminator.mem_of_pick? rest⟩
  · cases rest

omit [LawfulMonad m] in
theorem Describes.discriminator? {description : Json} {priority : List String}
    {discriminator : Discriminator}
    (describes : validator.Describes description)
    (found : Compiler.shared.discriminator? validator priority =
      some discriminator) :
    (description.member? "type").bind Json.string? = some "object" ∧
      (discriminator.key, discriminator.value) ∈
        Adapter.pinnedProperties description ∧
      discriminator.value.isScalar = true := by
  rw [Compiler.discriminator?, describes.serving?_eq, Option.bind_some] at found
  exact mem_of_described_discriminator? describes.2 found

end Validator

namespace Validator

variable {validator : Validator Id}

/-- Whether a validator describes all that it accepts. -/
def Truthful (validator : Validator Id) : Prop :=
  ∃ description, validator.Describes description ∧
    ∀ value, value.isWellFormed = true →
      (validator.settle value : Option Json) ≠ none →
        description.allows value = true

/-- A validator of a schema, one that shows nothing, or one that describes
itself truthfully. -/
def Honest (validator : Validator Id) : Prop :=
  validator.Native ∨ validator.Silent ∨ validator.Truthful

theorem attempt_of_ready {input : Json} {outcome : Outcome}
    (ready : validator.validate input = (.ready outcome : Answer Id)) :
    validator.attempt input =
      (pure (.ofVerdict outcome.accepted?) : Id Attempt) := by
  have answered : validator.validate input =
      (pure (.ready outcome) : Id (Answer Id)) :=
    ready
  rw [attempt, answered, pure_bind]

theorem attempt_of_pending {input : Json} {await : Id Outcome}
    (pending : validator.validate input = (.pending await : Answer Id)) :
    validator.attempt input = (pure .asyncRequired : Id Attempt) := by
  have answered : validator.validate input =
      (pure (.pending await) : Id (Answer Id)) :=
    pending
  rw [attempt, answered, pure_bind]

theorem attempt_of_settle {input output : Json}
    (accepts : (validator.settle input : Option Json) = some output) :
    (validator.attempt input : Attempt) = .matched output ∨
      (validator.attempt input : Attempt) = .asyncRequired := by
  change (Answer.settle (validator.validate input) : Outcome).accepted? =
    some output at accepts
  cases answered : (validator.validate input : Answer Id) with
  | ready outcome =>
      left
      rw [answered] at accepts
      rw [attempt_of_ready answered]
      change Attempt.ofVerdict outcome.accepted? = _
      exact congrArg Attempt.ofVerdict accepts
  | pending await =>
      right
      exact attempt_of_pending answered

theorem settle_ofSchema (identity : Identity) (schema : Schema Id)
    (input : Json) :
    ((ofSchema identity schema).settle input : Option Json) =
      schema.verdict .await input :=
  schema.settle_validate_accepted? input

/-- Waiting, an honest validator is attempted as it is validated. -/
theorem Honest.attemptBuiltIn_await (honest : validator.Honest) {input : Json}
    (wellFormed : input.isWellFormed = true) :
    (validator.attemptBuiltIn .await input : Attempt) =
      .ofVerdict (validator.settle input : Option Json) := by
  rcases honest with
    ⟨identity, schema, rfl⟩ | silent | ⟨description, describes, truthful⟩
  · rw [settle_ofSchema]
    exact attemptBuiltIn_ofSchema_await identity schema wellFormed
  · exact (silent.attemptBuiltIn_eq input).2
  · rw [(describes.attemptBuiltIn_eq input).2]
    change Attempt.ofVerdict
      (if description.described.passes input = true then _ else none) = _
    split
    · rfl
    · rename_i fails
      congr 1
      by_contra accepts
      exact fails (Description.weakens description input
        (truthful input wellFormed (Ne.symm accepts)))

/-- An honest validator accepts no input that its discriminator excludes. -/
theorem Honest.settle_of_excludes (honest : validator.Honest)
    {priority : List String}
    {discriminator : Discriminator}
    (found : Compiler.shared.discriminator? validator priority =
      some discriminator)
    {input : Json} (wellFormed : input.isWellFormed = true)
    (excludes : discriminator.Excludes input) :
    (validator.settle input : Option Json) = none := by
  rcases honest with
    ⟨identity, schema, rfl⟩ | silent | ⟨description, describes, truthful⟩
  · rw [settle_ofSchema]
    by_contra accepts
    have passes := schema.passes_of_verdict .await accepts
    rw [Schema.not_passes_of_excludes found excludes] at passes
    cases passes
  · rw [silent.discriminator?_eq] at found
    cases found
  · by_contra accepts
    obtain ⟨typed, pinned, scalar⟩ := describes.discriminator? found
    obtain ⟨carried, held, same⟩ := Description.carries_of_allows typed
      (truthful input wellFormed accepts) pinned scalar
    obtain ⟨key, shown, other⟩ := excludes
    rw [held, Option.bind_some, Json.scalarKey?_eq_of_same same] at other
    exact other shown

end Validator

end JsonMatch
