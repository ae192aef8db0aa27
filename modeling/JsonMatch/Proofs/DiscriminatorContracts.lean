import JsonMatch.Proofs.TruthfulValidators

/-!
# What a discriminator promises

A discriminator is read off what a validator shows, without running it.  Every
value that the validator accepts carries it: a schema rejects all other values,
whatever its callbacks do, and compiled it does so without calling them; and a
validator that describes itself truthfully never accepts one of them.
-/

namespace JsonMatch

/-- Whether a value is an object with the value of a discriminator at its
key. -/
def Discriminator.IsCarriedBy (discriminator : Discriminator)
    (value : Json) : Prop :=
  ∃ members carried, value = .object members ∧
    Members.get? members discriminator.key = some carried ∧
    (carried == discriminator.value) = true

theorem Discriminator.isCarriedBy_of_member? {discriminator : Discriminator}
    {value carried : Json}
    (held : value.member? discriminator.key = some carried)
    (same : (carried == discriminator.value) = true) :
    discriminator.IsCarriedBy value := by
  cases value with
  | object members => exact ⟨members, carried, rfl, held, same⟩
  | _ => cases held

section Rejections

variable {m : Type → Type} [Monad m] {α β : Type}

/-- Whether a walk gives no output, whatever its callbacks do. -/
def Walk.Rejects (walk : Walk m (Option α)) : Prop :=
  ∃ work : Walk m PUnit, walk = do work; return none

/-- Whether settled validation of an input can end with issues only, whatever
the callbacks do. -/
def Validator.Refuses (validator : Validator m) (input : Json) : Prop :=
  ∃ refusal : m Issues,
    (do (← validator.validate input).settle) = Outcome.failure <$> refusal

namespace Walk

variable [LawfulMonad m]

theorem rejects_none : (return none : Walk m (Option α)).Rejects :=
  ⟨return ⟨⟩, by rw [pure_bind]⟩

theorem Rejects.after {first : Walk m β} {next : β → Walk m (Option α)}
    (rejects : ∀ result, (next result).Rejects) : (first >>= next).Rejects := by
  choose work same using rejects
  refine ⟨first >>= work, ?_⟩
  rw [bind_assoc]
  exact bind_congr same

theorem Rejects.bind {walk : Walk m (Option α)}
    {next : Option α → Walk m (Option β)}
    (rejects : walk.Rejects) (nothing : (next none).Rejects) :
    (walk >>= next).Rejects := by
  obtain ⟨work, rfl⟩ := rejects
  rw [bind_assoc]
  apply Rejects.after
  intro _
  rw [pure_bind]
  exact nothing

theorem rejects_reject (mode : Mode) (code message : String) :
    (reject mode code message : Walk m (Option α)).Rejects := by
  cases mode with
  | collect => exact .after fun _ => rejects_none
  | failFast => exact rejects_none

theorem Rejects.within {walk : Walk m (Option α)} (rejects : walk.Rejects)
    (step : PathStep) : (Walk.within step walk).Rejects := by
  apply Rejects.after
  intro _
  apply rejects.bind
  exact .after fun _ => rejects_none

theorem rejects_allOf (mode : Mode) {parts : List (Walk m (Option α))}
    {part : Walk m (Option α)} (member : part ∈ parts)
    (rejects : part.Rejects) :
    (allOf mode parts).Rejects := by
  have skipped (others : List (Walk m (Option α))) :
      (do if mode = .collect then let _ ← allOf mode others
          return none : Walk m (Option (List α))).Rejects := by
    cases mode with
    | collect => exact .after fun _ => rejects_none
    | failFast => exact rejects_none
  induction parts with
  | nil => cases member
  | cons first others induction =>
      rcases List.mem_cons.mp member with rfl | later
      · exact rejects.bind (skipped others)
      · apply Rejects.after
        intro result
        cases result with
        | none => exact skipped others
        | some output => exact (induction later).bind rejects_none

theorem Rejects.exists_run {walk : Walk m (Option α)} (rejects : walk.Rejects)
    (state : WalkState) :
    ∃ last : m WalkState, walk.run state =
      (fun found => (none, found)) <$> last := by
  obtain ⟨work, rfl⟩ := rejects
  refine ⟨Prod.snd <$> work.run state, ?_⟩
  rw [StateT.run_bind, Functor.map_map, map_eq_pure_bind]
  rfl

end Walk

theorem WalkState.exists_conclude_none (state : WalkState) :
    ∃ issues, state.conclude none = .failure issues := by
  unfold conclude
  split
  · exact ⟨_, rfl⟩
  · exact ⟨_, rfl⟩

namespace Schema

variable [LawfulMonad m]

theorem rejects_of_object? {schema : Schema m}
    {fields : List (Field (Schema m))} {unknown : OtherKeys (Schema m)}
    (object : schema.object? = some (fields, unknown)) {waiting : Waiting}
    {mode : Mode} {value : Json}
    (rejects :
      ((Schema.object fields unknown).check waiting mode value).Rejects) :
    (schema.check waiting mode value).Rejects := by
  induction schema with
  | object declared others =>
      cases object
      exact rejects
  | refined inner rule message rejected =>
      exact (rejected object).bind Walk.rejects_none
  | transform inner map rejected =>
      exact (rejected object).bind Walk.rejects_none
  | asyncRefined inner test message rejected =>
      exact (rejected object).bind Walk.rejects_none
  | _ => cases object

private theorem rejects_declaredField {field : Field (Schema m)}
    {expected : Json}
    (pinned : field.pinned? = some expected) {members : Members}
    (lacks : ∀ carried, members.get? field.name = some carried →
      (carried == expected) = false) (waiting : Waiting) (mode : Mode) :
    (Check.declaredField mode members (field.map (check waiting))).Rejects := by
  obtain ⟨name, presence, schema⟩ := field
  simp only [Field.pinned?] at pinned
  split at pinned
  · split at pinned
    · cases pinned
      simp only [Check.declaredField, Field.map]
      cases found : Members.get? members name with
      | none => exact (Walk.rejects_reject mode _ _).within _
      | some carried =>
          have differs := lacks carried found
          have rejects :
              (Check.literal expected mode carried :
                Walk m (Option Json)).Rejects := by
            rw [Check.literal, differs]
            exact Walk.rejects_reject mode _ _
          exact (rejects.within _).bind Walk.rejects_none
    · cases pinned
  · cases pinned

theorem rejects_object_of_pinned {fields : List (Field (Schema m))}
    {unknown : OtherKeys (Schema m)} {field : Field (Schema m)}
    (member : field ∈ fields) {expected : Json}
    (pinned : field.pinned? = some expected) {value : Json}
    (lacks : ¬ Discriminator.IsCarriedBy ⟨field.name, expected⟩ value)
    (waiting : Waiting) (mode : Mode) :
    ((object fields unknown).check waiting mode value).Rejects := by
  rw [check_object]
  cases value with
  | object members =>
      have lacksPart :
          ∀ carried, Members.get? members field.name = some carried →
          (carried == expected) = false := by
        intro carried held
        apply Bool.eq_false_iff.mpr
        intro same
        exact lacks ⟨members, carried, rfl, held, same⟩
      have part := rejects_declaredField pinned lacksPart waiting mode
      change (Walk.allOf mode _ >>= fun outputs =>
        return outputs.map fun outputs => Json.object _ : Walk m _).Rejects
      refine (Walk.rejects_allOf mode ?_ part).bind Walk.rejects_none
      apply List.mem_append_left
      exact List.mem_map_of_mem (List.mem_map_of_mem member)
  | _ => exact Walk.rejects_reject mode _ _

/-- A schema rejects what does not carry its discriminator. -/
theorem rejects_of_discriminator? {schema : Schema m} {priority : List String}
    {discriminator : Discriminator}
    (found : schema.discriminator? priority = some discriminator) {value : Json}
    (lacks : ¬ discriminator.IsCarriedBy value) (waiting : Waiting)
    (mode : Mode) :
    (schema.check waiting mode value).Rejects := by
  obtain ⟨fields, unknown, field, object, member, named, pinned⟩ :=
    exists_pinned_of_discriminator? found
  apply rejects_of_object? object
  apply rejects_object_of_pinned member pinned
  rw [named]
  exact lacks

theorem refuses_of_rejects {schema : Schema m} {value : Json}
    (rejects : ∀ waiting, (schema.check waiting .collect value).Rejects)
    (identity : Identity) :
    (Validator.ofSchema identity schema).Refuses value := by
  choose last run using fun waiting => (rejects waiting).exists_run {}
  choose issues concluded using WalkState.exists_conclude_none
  have settled : schema.settled value = Outcome.failure <$>
      issues <$> last .await := by
    rw [Schema.settled, walk, run, bind_map_left, Functor.map_map,
      map_eq_pure_bind]
    exact bind_congr fun state => congrArg pure (concluded state)
  refine ⟨do
    let state ← last .refuse
    if state.settles then return issues state else issues <$> last .await, ?_⟩
  change (schema.validate value >>= fun answer => answer.settle) = _
  rw [validate, walk, run, bind_map_left, bind_assoc, map_bind]
  apply bind_congr
  intro state
  cases settles : state.settles with
  | true => simp [settles, concluded, Answer.settle]
  | false => simp [settles, settled, Answer.settle]

end Schema

end Rejections

namespace Adapter

variable {m : Type → Type} [Monad m] [LawfulMonad m]

theorem attemptWith_of_fails {compiled : CompiledValidator m}
    {identity : Identity} {schema : Schema m}
    (shown : compiled.validator = Validator.ofSchema identity schema)
    (planned : compiled.plan.strategy =
      Compiler.strategyOf native (Validator.ofSchema identity schema))
    {input : Json} (fails : schema.passes input = false) (waiting : Waiting) :
    compiled.attemptWith waiting input = pure .noMatch := by
  have chosen : compiled.plan.strategy = compiled.validator.strategy := by
    rw [planned, shown]
    rfl
  rw [CompiledValidator.attemptWith_eq chosen, shown]
  exact Validator.attemptBuiltIn_of_fails fails waiting

/-- The discriminator of a schema is carried by every value that the schema does
not refuse, and an input without it is rejected by a compiled schema before any
callback is called.  The discriminator of a validator that accepts no more than
it describes is carried by every value that the validator does not refuse. -/
theorem discriminator?_is_carried (priority : List String)
    (discriminator : Discriminator) :
    (∀ identity (schema : Schema m),
        native.discriminator? (Validator.ofSchema identity schema) priority =
          some discriminator →
        ∀ input, ¬ discriminator.IsCarriedBy input →
          (Validator.ofSchema identity schema).Refuses input ∧
          ∀ (compiler : Compiler m) (store : Store m),
            compiler.serving? (Validator.ofSchema identity schema) =
              some native →
            (∀ plan, store.slot identity = some plan → plan.strategy =
              Compiler.strategyOf native (Validator.ofSchema identity schema)) →
            ∀ waiting, CompiledValidator.attemptWith
              ⟨Validator.ofSchema identity schema,
                (store.planOf compiler (Validator.ofSchema identity schema)).1⟩
              waiting input = pure .noMatch) ∧
      ∀ validator : Validator m,
        described.discriminator? validator priority = some discriminator →
        (∀ description, validator.description? = some description →
          ∀ value, value.isWellFormed = true → ¬ validator.Refuses value →
            description.allows value = true) →
        ∀ value, value.isWellFormed = true → ¬ validator.Refuses value →
          discriminator.IsCarriedBy value := by
  constructor
  · intro identity schema found input lacks
    refine ⟨schema.refuses_of_rejects (fun waiting =>
      schema.rejects_of_discriminator? found lacks waiting .collect) identity,
        ?_⟩
    intro compiler store served kept waiting
    have fails : schema.passes input = false := by
      apply Bool.eq_false_iff.mpr
      intro passes
      obtain ⟨carried, held, same⟩ := Schema.passes_carries found passes
      exact lacks (Discriminator.isCarriedBy_of_member? held same)
    refine attemptWith_of_fails rfl ?_ fails waiting
    cases slot : store.slot identity with
    | none =>
        rw [Store.planOf_of_emptySlot rfl slot]
        change (compiler.planFor _).2 = _
        rw [Compiler.planFor, served]
    | some plan =>
        rw [Store.planOf_of_slot rfl slot]
        exact kept plan slot
  · intro validator found truthful value wellFormed accepted
    obtain ⟨description, shown, _⟩ := Option.bind_eq_some_iff.mp found
    obtain ⟨typed, pinned, scalar⟩ :=
      Validator.mem_of_described_discriminator? shown found
    obtain ⟨carried, held, same⟩ := Description.carries_of_allows typed
      (truthful description shown value wellFormed accepted) pinned scalar
    exact Discriminator.isCarriedBy_of_member? held same

/-- A wrapped schema whose callbacks note their calls, and a validator that
accepts just what it describes; both are told apart by `type`. -/
theorem discriminator?_is_carried_noted :
    let noted : Json → StateM (List String) Bool := fun value => do
      modify (value.text :: ·)
      return true
    let schema : Schema (StateM (List String)) :=
      .asyncRefined (.transform (.refined
        (.object [⟨"name", .required, .primitive .string⟩,
          ⟨"type", .required, .literal (.string "a")⟩] .allow)
        (.custom noted) none) fun value => do
          return .bool (← noted value)) noted "taken"
    let native := Validator.ofSchema 1 schema
    let input := Json.object [("name", .string "n"), ("type", .string "b")]
    let description : Json := .object
      [("properties", .object [("type", .object [("const", .string "a")])]),
        ("required", .array [.string "type"]), ("type", .string "object")]
    let describing : Validator (StateM (List String)) :=
      { identity := 2
        slotted := false
        validate := fun value =>
          pure (.ready (if description.allows value then .success .null
            else .failure (.ofMessage "not described")))
        schema? := none
        description? := some description }
    native.Refuses input ∧
      (∀ waiting, CompiledValidator.attemptWith
        ⟨native,
         (({} : Store (StateM (List String))).planOf Compiler.shared native).1⟩
        waiting input = pure .noMatch) ∧
      ¬ describing.Refuses (.object [("type", .string "a")]) ∧
      Discriminator.IsCarriedBy ⟨"type", .string "a"⟩
        (.object [("type", .string "a")]) := by
  intro noted schema native input description describing
  obtain ⟨ofSchema, ofDescription⟩ := discriminator?_is_carried
    (m := StateM (List String)) [] ⟨"type", .string "a"⟩
  have lacks : ¬ Discriminator.IsCarriedBy ⟨"type", .string "a"⟩ input := by
    rintro ⟨members, carried, object, held, same⟩
    obtain rfl := Json.object.inj object
    cases held
    exact absurd same (by decide)
  obtain ⟨refuses, attempts⟩ := ofSchema 1 schema rfl input lacks
  have accepts : ¬ describing.Refuses (.object [("type", .string "a")]) := by
    rintro ⟨refusal, same⟩
    cases congrArg (fun run => (run []).1) same
  refine ⟨refuses, attempts Compiler.shared {} rfl nofun, accepts, ?_⟩
  refine ofDescription describing rfl ?_ _ rfl accepts
  intro shown same value _ accepted
  obtain rfl := Option.some.inj same
  by_contra forbidden
  refine accepted ⟨pure (.ofMessage "not described"), ?_⟩
  change (pure (if description.allows value = true then _ else _) :
    StateM (List String) Outcome) = _
  rw [if_neg forbidden, map_pure]

end Adapter

end JsonMatch
