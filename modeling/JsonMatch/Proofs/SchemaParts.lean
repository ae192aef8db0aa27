import JsonMatch.Precheck.OfSchema
import JsonMatch.Schema.Walk

/-!
# The parts of a schema

Induction over a schema with its parts as members of the lists that hold them,
and the walks and prechecks of these lists as maps over them.
-/

namespace JsonMatch

variable {m : Type → Type} {σ τ : Type}

/-- Induction over a schema, every part being a member of its node. -/
@[elab_as_elim, induction_eliminator]
theorem Schema.induction_on_parts {motive : Schema m → Prop}
    (literal : ∀ value, motive (.literal value))
    (primitive : ∀ kind, motive (.primitive kind))
    (object : ∀ fields unknown, (∀ field ∈ fields, motive field.schema) →
      (∀ schema, unknown = .validate schema → motive schema) →
      motive (.object fields unknown))
    (tuple : ∀ items rest, (∀ item ∈ items, motive item) →
      (∀ schema, rest = some schema → motive schema) →
        motive (.tuple items rest))
    (array : ∀ item, motive item → motive (.array item))
    (union : ∀ options, (∀ option ∈ options, motive option) →
      motive (.union options))
    (variant : ∀ key options, (∀ option ∈ options, motive option) →
      motive (.variant key options))
    (refined : ∀ inner rule message, motive inner →
      motive (.refined inner rule message))
    (transform : ∀ inner map, motive inner → motive (.transform inner map))
    (asyncRefined : ∀ inner test message, motive inner →
      motive (.asyncRefined inner test message))
    (custom : ∀ validate, motive (.custom validate))
    (schema : Schema m) : motive schema := by
  refine @Schema.rec m motive
    (fun fields => ∀ field ∈ fields, motive field.schema)
    (fun unknown => ∀ schema, unknown = .validate schema → motive schema)
    (fun schemas => ∀ schema ∈ schemas, motive schema)
    (fun rest => ∀ schema, rest = some schema → motive schema)
    (fun field => motive field.schema)
    literal primitive object tuple array union variant refined
      transform asyncRefined
    custom ?_ ?_ ?_ ?_ ?_ ?_ ?_ ?_ ?_ ?_ schema
  · simp
  · intro head tail first others field member
    rcases List.mem_cons.mp member with same | later
    · exact same ▸ first
    · exact others field later
  · simp
  · simp
  · intro schema holds other same
    cases same
    exact holds
  · simp
  · intro head tail first others schema member
    rcases List.mem_cons.mp member with same | later
    · exact same ▸ first
    · exact others schema later
  · simp
  · intro schema holds other same
    cases same
    exact holds
  · intro name presence schema holds
    exact holds

/-- The field with something else done to its schema. -/
def Field.map (function : σ → τ) (field : Field σ) : Field τ :=
  ⟨field.name, field.presence, function field.schema⟩

/-- The treatment of other keys with something else done to its schema. -/
def OtherKeys.map (function : σ → τ) : OtherKeys σ → OtherKeys τ
  | .allow => .allow
  | .deny => .deny
  | .validate schema => .validate (function schema)

theorem Field.declares_map (function : σ → τ)
    (fields : List (Field σ)) (key : String) :
    Field.declares (fields.map (Field.map function)) key =
      Field.declares fields key := by
  simp [Field.declares, Field.map, List.any_map, Function.comp_def]

namespace Schema

section Walks

variable [Monad m] (waiting : Waiting)

theorem checkFields_eq_map (fields : List (Field (Schema m))) :
    checkFields waiting fields = fields.map (Field.map (check waiting)) := by
  induction fields with
  | nil => rfl
  | cons field fields induction =>
      rw [List.map_cons, ← induction]
      rfl

theorem checkUnknown_eq_map (unknown : OtherKeys (Schema m)) :
    checkUnknown waiting unknown = unknown.map (check waiting) := by
  cases unknown <;> rfl

theorem checkAll_eq_map (schemas : List (Schema m)) :
    checkAll waiting schemas = schemas.map (check waiting) := by
  induction schemas with
  | nil => rfl
  | cons schema schemas induction => rw [checkAll, List.map_cons, induction]

theorem checkRest_eq_map (rest : Option (Schema m)) :
    checkRest waiting rest = rest.map (check waiting) := by
  cases rest <;> rfl

theorem check_object (fields : List (Field (Schema m)))
    (unknown : OtherKeys (Schema m)) :
    (object fields unknown).check waiting =
      Check.object (fields.map (Field.map (check waiting)))
        (unknown.map (check waiting)) := by
  rw [check, checkFields_eq_map, checkUnknown_eq_map]

theorem check_tuple (items : List (Schema m)) (rest : Option (Schema m)) :
    (tuple items rest).check waiting =
      Check.tuple (items.map (check waiting)) (rest.map (check waiting)) := by
  rw [check, checkAll_eq_map, checkRest_eq_map]

theorem check_union (options : List (Schema m)) :
    (union options).check waiting =
      Check.union (options.map (check waiting)) := by
  rw [check, checkAll_eq_map]

theorem check_variant (key : String) (options : List (Schema m)) :
    (variant key options).check waiting =
      Check.variant key (options.map fun option =>
        (option.tag? key, option.check waiting)) := by
  rw [check, checkAll_eq_map, List.zip_map']

/-- Induction over the walks of a schema, each being the check of a node on the
walks of its parts. -/
theorem check_induction {motive : Check m → Prop}
    (literal : ∀ value, motive (Check.literal value))
    (primitive : ∀ kind, motive (Check.primitive kind))
    (object : ∀ fields unknown, (∀ field ∈ fields, motive field.schema) →
      (∀ check, unknown = .validate check → motive check) →
      motive (Check.object fields unknown))
    (tuple : ∀ items rest, (∀ item ∈ items, motive item) →
      (∀ check, rest = some check → motive check) →
        motive (Check.tuple items rest))
    (array : ∀ item, motive item → motive (Check.array item))
    (union : ∀ options, (∀ option ∈ options, motive option) →
      motive (Check.union options))
    (variant : ∀ key options, (∀ option ∈ options, motive option.2) →
      motive (Check.variant key options))
    (refined : ∀ inner rule message, motive inner →
      motive (Check.refined inner rule message))
    (transform : ∀ inner map, motive inner → motive (Check.transform inner map))
    (asyncRefined : ∀ inner test message, motive inner →
      motive (Check.asyncRefined waiting inner test message))
    (custom : ∀ validate, motive (Check.custom waiting validate))
    (schema : Schema m) : motive (schema.check waiting) := by
  induction schema with
  | literal value => exact literal value
  | primitive kind => exact primitive kind
  | object fields unknown declared others =>
      rw [check_object]
      apply object
      · intro field member
        obtain ⟨held, listed, rfl⟩ := List.mem_map.mp member
        exact declared held listed
      · intro check same
        cases unknown with
        | validate schema =>
            cases same
            exact others schema rfl
        | _ => cases same
  | tuple items rest listed after =>
      rw [check_tuple]
      apply tuple
      · intro check member
        obtain ⟨item, found, rfl⟩ := List.mem_map.mp member
        exact listed item found
      · intro check same
        obtain ⟨schema, found, rfl⟩ := Option.map_eq_some_iff.mp same
        exact after schema found
  | array item holds => exact array _ holds
  | union options holds =>
      rw [check_union]
      apply union
      intro check member
      obtain ⟨option, listed, rfl⟩ := List.mem_map.mp member
      exact holds option listed
  | variant key options holds =>
      rw [check_variant]
      apply variant
      intro tagged member
      obtain ⟨option, listed, rfl⟩ := List.mem_map.mp member
      exact holds option listed
  | refined inner rule message holds => exact refined _ rule message holds
  | transform inner map holds => exact transform _ map holds
  | asyncRefined inner test message holds =>
    exact asyncRefined _ test message holds
  | custom validate => exact custom validate

end Walks

section Prechecks

theorem precheckFields_eq_map (fields : List (Field (Schema m))) :
    precheckFields fields = fields.map (Field.map precheck) := by
  induction fields with
  | nil => rfl
  | cons field fields induction =>
      rw [List.map_cons, ← induction]
      rfl

theorem precheckUnknown_eq_map (unknown : OtherKeys (Schema m)) :
    precheckUnknown unknown = unknown.map precheck := by
  cases unknown <;> rfl

theorem precheckAll_eq_map (schemas : List (Schema m)) :
    precheckAll schemas = schemas.map precheck := by
  induction schemas with
  | nil => rfl
  | cons schema schemas induction => rw [precheckAll, List.map_cons, induction]

theorem precheckRest_eq_map (rest : Option (Schema m)) :
    precheckRest rest = rest.map precheck := by
  cases rest <;> rfl

end Prechecks

end Schema

end JsonMatch
