import JsonMatch.Proofs.Attempts
import JsonMatch.Proofs.Scanning

/-!
# Pruned clauses

A discriminator of a schema is a field that every accepted object carries.  An
input that lacks it does not pass the precheck, so that an attempt rejects it
before any callback is called.  This is why a run that leaves out clauses by a
dispatch table is the run of all clauses, in whatever the callbacks can observe.
-/

namespace JsonMatch

theorem Discriminator.mem_of_pick? {fields : List (String × Json)}
    {priority : List String}
    {discriminator : Discriminator}
    (picked : pick? fields priority = some discriminator) :
    (discriminator.key, discriminator.value) ∈ fields ∧
      discriminator.value.isScalar = true := by
  obtain ⟨field, chosen, rfl⟩ := Option.map_eq_some_iff.mp picked
  suffices listed : field ∈ fields.filter fun field => field.2.isScalar from
    List.mem_filter.mp listed
  rcases Option.or_eq_some_iff.mp chosen with preferred | ⟨_, first⟩
  · obtain ⟨name, _, found⟩ := List.exists_of_findSome?_eq_some preferred
    exact List.mem_of_find?_eq_some found
  · exact List.mem_of_head? first

namespace Schema

variable {m : Type → Type} {schema : Schema m}

theorem passes_of_object? {fields : List (Field (Schema m))}
    {unknown : OtherKeys (Schema m)}
    (object : schema.object? = some (fields, unknown)) :
    schema.passes = (Schema.object fields unknown).passes := by
  induction schema with
  | object declared others =>
      cases object
      rfl
  | refined inner rule message same =>
      rw [passes_refined]
      exact same object
  | transform inner map same =>
      rw [passes_transform]
      exact same object
  | asyncRefined inner test message same =>
      rw [passes_asyncRefined]
      exact same object
  | _ => cases object

theorem carries_of_passes {fields : List (Field (Schema m))}
    {unknown : OtherKeys (Schema m)} {field : Field (Schema m)}
    (member : field ∈ fields)
    {expected : Json} (pinned : field.pinned? = some expected) {value : Json}
    (passes : (object fields unknown).passes value = true) :
    ∃ carried, value.member? field.name = some carried ∧
      (carried == expected) = true := by
  cases value with
  | object members =>
      have fieldPasses := ((passes_object _ _ _).mp passes).1 field member
      obtain ⟨name, presence, schema⟩ := field
      simp only [Field.pinned?] at pinned
      split at pinned
      · split at pinned
        · cases pinned
          change ∃ carried, Members.get? members name = some carried ∧ _
          rw [FieldPasses] at fieldPasses
          cases carried : Members.get? members name with
          | none =>
              rw [carried] at fieldPasses
              exact absurd rfl fieldPasses
          | some part =>
              rw [carried] at fieldPasses
              exact ⟨part, rfl, fieldPasses⟩
        · cases pinned
      · cases pinned
  | _ => cases passes

/-- The discriminator of a schema. -/
def discriminator? (schema : Schema m) (priority : List String) :
    Option Discriminator := do
  let object ← schema.object?
  Discriminator.pick? (pinnedFields object.1) priority

theorem exists_pinned_of_discriminator? {priority : List String}
    {discriminator : Discriminator}
    (found : schema.discriminator? priority = some discriminator) :
    ∃ fields unknown, ∃ field : Field (Schema m),
      schema.object? = some (fields, unknown) ∧ field ∈ fields ∧
        field.name = discriminator.key ∧
        field.pinned? = some discriminator.value := by
  obtain ⟨⟨fields, unknown⟩, object, picked⟩ := Option.bind_eq_some_iff.mp found
  obtain ⟨pinned, _⟩ := Discriminator.mem_of_pick? picked
  obtain ⟨field, member, same⟩ := List.mem_filterMap.mp pinned
  obtain ⟨expected, pinnedTo, pair⟩ := Option.map_eq_some_iff.mp same
  obtain ⟨named, valued⟩ := Prod.mk.inj pair
  exact ⟨fields, unknown, field, object, member, named,
    by rw [pinnedTo, valued]⟩

/-- What passes a schema carries the value of its discriminator. -/
theorem passes_carries {priority : List String} {discriminator : Discriminator}
    (found : schema.discriminator? priority = some discriminator) {value : Json}
    (passes : schema.passes value = true) :
    ∃ carried, value.member? discriminator.key = some carried ∧
      (carried == discriminator.value) = true := by
  obtain ⟨fields, unknown, field, object, member, named, pinned⟩ :=
    exists_pinned_of_discriminator? found
  rw [passes_of_object? object] at passes
  rw [← named]
  exact carries_of_passes member pinned passes

theorem not_passes_of_excludes {priority : List String}
    {discriminator : Discriminator}
    (found : schema.discriminator? priority = some discriminator) {value : Json}
    (excludes : discriminator.Excludes value) :
    schema.passes value = false := by
  apply Bool.eq_false_iff.mpr
  intro passes
  obtain ⟨carried, held, same⟩ := passes_carries found passes
  obtain ⟨key, shown, other⟩ := excludes
  rw [held, Option.bind_some, Json.scalarKey?_eq_of_same same] at other
  exact other shown

end Schema

namespace Validator

variable {m : Type → Type}

/-- Whether a validator is that of a schema. -/
def Native (validator : Validator m) [Monad m] : Prop :=
  ∃ identity schema, validator = ofSchema identity schema

/-- Whether a validator shows nothing of what it accepts. -/
def Silent (validator : Validator m) : Prop :=
  validator.schema? = none ∧ validator.description? = none

variable [Monad m]

theorem Silent.serving?_eq {validator : Validator m}
    (silent : validator.Silent) :
    Compiler.shared.serving? validator = none := by
  simp [Compiler.shared, Compiler.serving?, Adapter.builtIn, Adapter.native,
    Adapter.described, silent.1, silent.2]

theorem Silent.discriminator?_eq {validator : Validator m}
    (silent : validator.Silent)
    (priority : List String) :
    Compiler.shared.discriminator? validator priority = none := by
  rw [Compiler.discriminator?, silent.serving?_eq]
  rfl

theorem attemptBuiltIn_of_fails [LawfulMonad m] {identity : Identity}
    {schema : Schema m} {input : Json} (fails : schema.passes input = false)
    (waiting : Waiting) :
    (ofSchema identity schema).attemptBuiltIn waiting input =
      pure .noMatch := by
  rcases attemptBuiltIn_ofSchema identity schema with
    ⟨literal, rfl, compared⟩ | attempt
  · rw [Schema.passes_literal] at fails
    rw [compared, fails]
    rfl
  · have attempted : schema.attempt schema.precheck input = pure .noMatch := by
      rw [Schema.attempt, show schema.precheck.check.passes input = false
        from fails]
      rfl
    cases waiting with
    | refuse => rw [(attempt input).1, attempted]
    | await =>
        rw [(attempt input).2, Schema.settleAttempt,
          attempted, pure_bind, map_pure]
        rfl

end Validator

namespace Clause

variable {m : Type → Type} [Monad m] [LawfulMonad m] {ρ : Type}

/-- A run with the table of its clauses and a run without one are the same,
whatever the monad of the callbacks records: results, faults, and the calls in
their order. -/
theorem execute_build?_eq (compiler : Compiler m) (builtIn : compiler.BuiltIn)
    (registry : Registry m) (clauses : List (Clause m ρ))
    (inUse : ∀ clause ∈ clauses, ∀ validator ∈ clause.validators,
      registry.Has validator)
    (plain : ∀ clause ∈ clauses, ∀ validator ∈ clause.validators,
      validator.Native ∨ validator.Silent)
    (config : Config) (store : Store m) (faithful : store.Faithful registry)
    (waiting : Waiting) (input : Json) :
    Prod.fst <$> StateT.run (m := m) (execute waiting clauses
        (DispatchTable.build? clauses compiler config) compiler input) store =
      Prod.fst <$> StateT.run (m := m)
        (execute waiting clauses none compiler input) store := by
  have excluded : ∀ clause ∈ clauses,
      ∀ validator ∈ clause.validators, ∀ discriminator,
      Compiler.shared.discriminator? validator config.priority =
        some discriminator →
      discriminator.Excludes input →
      validator.attemptBuiltIn waiting input = pure .noMatch := by
    intro clause member validator listed discriminator found excludes
    rcases plain clause member validator listed with
      ⟨identity, schema, rfl⟩ | silent
    · exact Validator.attemptBuiltIn_of_fails
        (Schema.not_passes_of_excludes found excludes) waiting
    · rw [silent.discriminator?_eq] at found
      cases found
  have pruned := follows_execute builtIn inUse (fun _ same => same) excluded
  have no_table : ∀ built, (none : Option DispatchTable) = some built →
      DispatchTable.build? clauses compiler config = some built := nofun
  have all := follows_execute builtIn inUse no_table excluded
  rw [pruned.output_eq faithful, all.output_eq faithful]

/-- Two clauses told apart by `type`, of which the second one notes its
calls. -/
theorem execute_build?_eq_noted :
    let noted : Json → StateM (List String) Bool := fun value => do
      modify (value.text :: ·)
      return true
    let tagged (tag : String) : Schema (StateM (List String)) :=
      .object [⟨"type", .required, .literal (.string tag)⟩] .allow
    let first := Validator.ofSchema 1 (tagged "a")
    let second :=
      Validator.ofSchema 2 (.refined (tagged "b") (.custom noted) none)
    let handler : Handler (StateM (List String)) Json :=
      ⟨false, fun output _ => pure output⟩
    let clauses : List (Clause (StateM (List String)) Json) :=
      [.schemas [first] none handler,
        .schemas [second] (some ⟨false, fun _ => noted⟩) handler]
    let input := Json.object [("type", .string "b")]
    (DispatchTable.build? clauses Compiler.shared {}).isSome = true ∧
      Prod.fst <$> StateT.run (m := StateM (List String))
        (execute .refuse clauses
          (DispatchTable.build? clauses Compiler.shared {})
            Compiler.shared input)
          ({} : Store (StateM (List String))) =
        Prod.fst <$> StateT.run (m := StateM (List String))
          (execute .refuse clauses none
          Compiler.shared input) ({} : Store (StateM (List String))) := by
  intro noted tagged first second handler clauses input
  let registry : Registry (StateM (List String)) := fun identity =>
    if identity = 1 then some first
    else if identity = 2 then some second else none
  refine ⟨by rfl,
    execute_build?_eq Compiler.shared rfl registry clauses ?_ ?_ {} {}
    (Store.faithful_empty registry) .refuse input⟩
  · intro clause member validator listed
    simp only [clauses, List.mem_cons, List.not_mem_nil, or_false] at member
    rcases member with rfl | rfl
    · obtain rfl := List.mem_singleton.mp listed
      rfl
    · obtain rfl := List.mem_singleton.mp listed
      rfl
  · intro clause member validator listed
    simp only [clauses, List.mem_cons, List.not_mem_nil, or_false] at member
    rcases member with rfl | rfl
    · exact .inl ⟨1, tagged "a", List.mem_singleton.mp listed⟩
    · exact .inl ⟨2, _, List.mem_singleton.mp listed⟩

end Clause

end JsonMatch
