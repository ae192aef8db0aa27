import JsonMatch.Proofs.Containers
import Mathlib.Data.List.Nodup

/-!
# Filling in defaults

A schema without transforms, options and validators of another kind outputs the
value itself, with defaults filled in for absent fields.  When each default is
accepted as it is by its own field, there is nothing left to fill in: the output
is accepted as it is.
-/

namespace JsonMatch

namespace Schema

/-- Whether a schema is made of nodes that output what they are given with
defaults filled in, each default being accepted as it is.  The fields of an
object have different names, as `Field.declareAll` leaves them. -/
inductive FillsIn : Schema Id → Prop where
  | literal (value : Json) : FillsIn (.literal value)
  | primitive (kind : Primitive) : FillsIn (.primitive kind)
  | object {fields : List (Field (Schema Id))} {unknown : OtherKeys (Schema Id)}
      (distinct : (fields.map (·.name)).Nodup)
      (declared : ∀ field ∈ fields, FillsIn field.schema)
      (defaults : ∀ field ∈ fields, ∀ value, field.presence = .default value →
        field.schema.outcome value = .success value)
      (others : ∀ schema, unknown = .validate schema → FillsIn schema) :
      FillsIn (.object fields unknown)
  | tuple {items : List (Schema Id)} {rest : Option (Schema Id)}
      (listed : ∀ item ∈ items, FillsIn item)
      (after : ∀ schema, rest = some schema → FillsIn schema) :
      FillsIn (.tuple items rest)
  | array {item : Schema Id} (inner : FillsIn item) : FillsIn (.array item)
  | refined {inner : Schema Id} {rule : Rule Id} {message : Option String}
      (below : FillsIn inner) : FillsIn (.refined inner rule message)
  | asyncRefined {inner : Schema Id} {test : Json → Bool} {message : String}
      (below : FillsIn inner) : FillsIn (.asyncRefined inner test message)

/-- Whether what a schema outputs is accepted by it as it is. -/
def KeepsOutputs (schema : Schema Id) : Prop :=
  ∀ value output, schema.verdict .await value = some output →
    schema.verdict .await output = some output

theorem keepsOutputs_of_same {schema : Schema Id}
    (same : ∀ value output, schema.verdict .await value = some output →
      output = value) :
    schema.KeepsOutputs := by
  intro value output accepts
  have unchanged := same value output accepts
  rwa [← unchanged] at accepts

theorem KeepsOutputs.filter {schema inner : Schema Id} {test : Json → Bool}
    (verdict : ∀ value, schema.verdict .await value =
      (inner.verdict .await value).filter test)
    (keeps : inner.KeepsOutputs) : schema.KeepsOutputs := by
  intro value output accepts
  rw [verdict] at accepts ⊢
  obtain ⟨given, passes⟩ := Option.filter_eq_some_iff.mp accepts
  exact Option.filter_eq_some_iff.mpr ⟨keeps value output given, passes⟩

section Items

variable {schemaAt : Nat → Option (Schema Id)} {values outputs : List Json}

theorem itemVerdicts_keep
    (keep : ∀ position schema, schemaAt position = some schema →
      schema.KeepsOutputs)
    (total : ∀ entry ∈ values.zipIdx, ∃ schema, schemaAt entry.2 = some schema)
    (given : allGiven (itemVerdicts .await schemaAt values) = some outputs) :
    outputs.length = values.length ∧
      allGiven (itemVerdicts .await schemaAt outputs) = some outputs := by
  rw [itemVerdicts_eq_map total] at given
  have verdicts := allGiven_eq_some.mp given
  have length : outputs.length = values.length := by
    simpa using (congrArg List.length verdicts).symm
  have kept : ∀ entry ∈ outputs.zipIdx,
      ∃ schema, schemaAt entry.2 = some schema ∧
      schema.verdict .await entry.1 = some entry.1 := by
    rintro ⟨output, position⟩ listed
    have placed := List.mem_zipIdx_iff_getElem?.mp listed
    obtain ⟨value, held⟩ : ∃ value, values[position]? = some value := by
      have bound := List.snd_lt_of_mem_zipIdx listed
      exact ⟨values[position], List.getElem?_eq_getElem (by omega)⟩
    obtain ⟨schema, chosen⟩ :=
      total (value, position) (List.mem_zipIdx_iff_getElem?.mpr held)
    have here := congrArg (·[position]?) verdicts
    simp only [List.getElem?_map, List.getElem?_zipIdx,
      held, placed, Option.map_some,
      Nat.zero_add, chosen, Option.bind_some, accepted?_outcome,
        Option.some.injEq] at here
    exact ⟨schema, chosen, keep position schema chosen value output here⟩
  refine ⟨length, ?_⟩
  rw [allGiven_eq_some, itemVerdicts_eq_map fun entry listed =>
    (kept entry listed).imp fun _ => And.left]
  calc outputs.zipIdx.map _
    _ = outputs.zipIdx.map fun entry => some entry.1 := by
      apply List.map_congr_left
      intro entry listed
      obtain ⟨schema, chosen, accepts⟩ := kept entry listed
      rw [chosen, Option.bind_some, accepted?_outcome, accepts]
    _ = outputs.map some := by
      conv => rhs; rw [← List.zipIdx_map_fst 0 outputs, List.map_map]
      rfl

end Items

theorem keepsOutputs_array {item : Schema Id} (keeps : item.KeepsOutputs) :
    (array item).KeepsOutputs := by
  intro value output accepts
  cases value with
  | array values =>
      rw [verdict_array, ← itemVerdicts_const] at accepts
      obtain ⟨outputs, given, rfl⟩ := Option.map_eq_some_iff.mp accepts
      have keep : ∀ (position : Nat) schema, some item = some schema →
          schema.KeepsOutputs := by
        intro _ schema same
        cases same
        exact keeps
      obtain ⟨_, again⟩ := itemVerdicts_keep keep (fun _ _ => ⟨item, rfl⟩) given
      rw [verdict_array, ← itemVerdicts_const, again]
      rfl
  | _ =>
      rw [verdict_array_of_ne .await item (by simp)] at accepts
      cases accepts

theorem keepsOutputs_tuple {items : List (Schema Id)}
    {rest : Option (Schema Id)} (listed : ∀ item ∈ items, item.KeepsOutputs)
    (after : ∀ schema, rest = some schema → schema.KeepsOutputs) :
    (tuple items rest).KeepsOutputs := by
  intro value output accepts
  cases value with
  | array values =>
      rw [verdict_tuple] at accepts
      split at accepts
      · rename_i fits
        obtain ⟨outputs, given, rfl⟩ := Option.map_eq_some_iff.mp accepts
        have keep : ∀ (position : Nat) schema,
            items[position]?.or rest = some schema →
            schema.KeepsOutputs := by
          intro position schema chosen
          rcases Option.or_eq_some_iff.mp chosen with here | ⟨_, later⟩
          · exact listed schema (List.mem_of_getElem? here)
          · exact after schema later
        obtain ⟨length, again⟩ :=
          itemVerdicts_keep keep (fun _ => exists_schemaAt fits) given
        rw [verdict_tuple, length, if_pos fits, again]
        rfl
      · cases accepts
  | _ =>
      rw [verdict_tuple_of_ne .await items rest (by simp)] at accepts
      cases accepts

section Members

variable {fields : List (Field (Schema Id))} {unknown : OtherKeys (Schema Id)}

/-- Whether a member of an output is accepted as it is at its key. -/
def KeepsMember (fields : List (Field (Schema Id)))
    (unknown : OtherKeys (Schema Id)) (entry : String × Json) : Prop :=
  (∀ field ∈ fields, field.name = entry.1 →
    field.schema.verdict .await entry.2 = some entry.2) ∧
  (Field.declares fields entry.1 = false →
    unknownVerdict .await unknown entry = some [entry])

private theorem of_mem_fieldVerdict {members : Members}
    {field : Field (Schema Id)}
    {added : List (String × Json)} {entry : String × Json}
    (given : fieldVerdict .await members field = some added)
    (member : entry ∈ added) :
    entry.1 = field.name ∧
    ((∃ value, field.schema.verdict .await value = some entry.2) ∨
      field.presence = .default entry.2) := by
  unfold fieldVerdict at given
  split at given
  · obtain ⟨output, accepts, rfl⟩ := Option.map_eq_some_iff.mp given
    obtain rfl := List.mem_singleton.mp member
    exact ⟨rfl, .inl ⟨_, accepts⟩⟩
  · split at given
    · cases given
    · cases given
      cases member
    · rename_i default presence
      cases given
      obtain rfl := List.mem_singleton.mp member
      exact ⟨rfl, .inr presence⟩

private theorem optional_of_nothing {members : Members}
    {field : Field (Schema Id)}
    (given : fieldVerdict .await members field = some []) :
    field.presence = .optional := by
  unfold fieldVerdict at given
  split at given
  · obtain ⟨output, _, same⟩ := Option.map_eq_some_iff.mp given
    cases same
  · split at given
    · cases given
    · assumption
    · cases given

theorem keepsMember_of_given (distinct : (fields.map (·.name)).Nodup)
    (declared : ∀ field ∈ fields, field.schema.KeepsOutputs)
    (defaults : ∀ field ∈ fields, ∀ value, field.presence = .default value →
      field.schema.verdict .await value = some value)
    (others : ∀ schema, unknown = .validate schema → schema.KeepsOutputs)
    {members : Members} {added : List (String × Json)}
    (given : some added ∈ memberVerdicts .await fields unknown members)
    {entry : String × Json} (member : entry ∈ added) :
    KeepsMember fields unknown entry := by
  rcases mem_memberVerdicts.mp given with
    ⟨field, listed, verdict⟩ | ⟨extra, _, other, verdict⟩
  · obtain ⟨named, origin⟩ := of_mem_fieldVerdict verdict member
    refine ⟨?_, ?_⟩
    · intro same sameListed sameNamed
      obtain rfl : same = field :=
        List.inj_on_of_nodup_map distinct sameListed listed
          (sameNamed.trans named)
      rcases origin with ⟨value, accepts⟩ | presence
      · exact declared same listed value entry.2 accepts
      · exact defaults same listed entry.2 presence
    · intro undeclared
      have declares : Field.declares fields entry.1 = true :=
        List.any_eq_true.mpr ⟨field, listed, beq_iff_eq.mpr named.symm⟩
      rw [declares] at undeclared
      cases undeclared
  · obtain ⟨named, keeps⟩ : entry.1 = extra.1 ∧
        unknownVerdict .await unknown entry = some [entry] := by
      cases unknown with
      | allow =>
          cases verdict
          obtain rfl := List.mem_singleton.mp member
          exact ⟨rfl, rfl⟩
      | deny => cases verdict
      | validate schema =>
          obtain ⟨output, accepts, rfl⟩ := Option.map_eq_some_iff.mp verdict
          obtain rfl := List.mem_singleton.mp member
          refine ⟨rfl, ?_⟩
          rw [unknownVerdict, others schema rfl extra.2 output accepts]
          rfl
    refine ⟨fun field listed same => ?_, fun _ => keeps⟩
    have declares : Field.declares fields extra.1 = true :=
      List.any_eq_true.mpr ⟨field, listed, beq_iff_eq.mpr (same.trans named)⟩
    rw [declares] at other
    cases other

section Kept

variable {made : Members} (ascending : made.Ascending)
  (keeps : ∀ entry ∈ made, KeepsMember fields unknown entry)
include keeps

private theorem fieldVerdict_of_keeps {field : Field (Schema Id)}
    (listed : field ∈ fields) {value : Json}
    (held : made.get? field.name = some value) :
    fieldVerdict .await made field = some [(field.name, value)] := by
  have accepts := (keeps _ (Members.mem_of_get? held)).1 field listed rfl
  simp only [fieldVerdict, held, accepts, Option.map_some]

include ascending in
private theorem mem_memberVerdicts_of_keeps {entry : String × Json}
    (member : entry ∈ made) :
    some [entry] ∈ memberVerdicts .await fields unknown made := by
  rw [mem_memberVerdicts]
  cases declares : Field.declares fields entry.1 with
  | true =>
      obtain ⟨field, listed, named⟩ := List.any_eq_true.mp declares
      have named : field.name = entry.1 := beq_iff_eq.mp named
      have held := ascending.get?_of_mem member
      rw [← named] at held
      refine .inl ⟨field, listed, ?_⟩
      rw [fieldVerdict_of_keeps keeps listed held, named]
  | false =>
    exact .inr ⟨entry, member, declares, (keeps entry member).2 declares⟩

private theorem exists_added_of_keeps
    (absent : ∀ field ∈ fields, made.get? field.name = none →
      field.presence = .optional)
    {verdict : Option (List (String × Json))}
    (given : verdict ∈ memberVerdicts .await fields unknown made) :
    ∃ added, verdict = some added ∧ ∀ entry ∈ added, entry ∈ made := by
  rcases mem_memberVerdicts.mp given with
    ⟨field, declared, rfl⟩ | ⟨extra, member, undeclared, rfl⟩
  · cases held : made.get? field.name with
    | some value =>
        refine ⟨_, fieldVerdict_of_keeps keeps declared held, ?_⟩
        simpa using Members.mem_of_get? held
    | none =>
        refine ⟨[], ?_, by simp⟩
        simp only [fieldVerdict, held, absent field declared held]
  · refine ⟨_, (keeps extra member).2 undeclared, ?_⟩
    simpa using member

include ascending in
/-- An object whose members are each accepted as they are is accepted as it
is. -/
theorem verdict_object_of_keeps
    (absent : ∀ field ∈ fields, made.get? field.name = none →
      field.presence = .optional) :
    (object fields unknown).verdict .await (.object made) =
      some (.object made) := by
  have everywhere : ∀ verdict ∈ memberVerdicts .await fields unknown made,
      verdict ≠ none := by
    intro verdict given
    obtain ⟨added, rfl, _⟩ := exists_added_of_keeps keeps absent given
    exact Option.some_ne_none added
  obtain ⟨outputs, all⟩ :=
    Option.ne_none_iff_exists'.mp (allGiven_ne_none.mpr everywhere)
  rw [verdict_object, all, Option.map_some]
  congr 2
  apply Members.ofList_eq ascending
  · intro entry member
    obtain ⟨added, listed, inside⟩ := List.mem_flatten.mp member
    obtain ⟨_, same, contained⟩ :=
      exists_added_of_keeps keeps absent
        ((some_mem_iff_of_allGiven all).mpr listed)
    cases same
    exact contained entry inside
  · intro entry member
    have added := mem_memberVerdicts_of_keeps ascending keeps member
    exact List.mem_flatten.mpr
      ⟨_, (some_mem_iff_of_allGiven all).mp added,
       List.mem_singleton_self entry⟩

end Kept

theorem keepsOutputs_object (distinct : (fields.map (·.name)).Nodup)
    (declared : ∀ field ∈ fields, field.schema.KeepsOutputs)
    (defaults : ∀ field ∈ fields, ∀ value, field.presence = .default value →
      field.schema.verdict .await value = some value)
    (others : ∀ schema, unknown = .validate schema → schema.KeepsOutputs) :
    (object fields unknown).KeepsOutputs := by
  intro value output accepts
  cases value with
  | object members =>
      rw [verdict_object] at accepts
      obtain ⟨outputs, all, rfl⟩ := Option.map_eq_some_iff.mp accepts
      apply verdict_object_of_keeps (Members.ascending_ofList _)
      · intro entry member
        obtain ⟨added, listed, inside⟩ :=
          List.mem_flatten.mp (Members.mem_of_mem_ofList member)
        exact keepsMember_of_given distinct declared defaults others
          ((some_mem_iff_of_allGiven all).mpr listed) inside
      · intro field member nothing
        -- what the field added would be found at its name
        have own := given_of_allGiven all
          (mem_memberVerdicts.mpr (.inl ⟨field, member, rfl⟩))
        obtain ⟨added, given⟩ := Option.ne_none_iff_exists'.mp own
        have addedListed := (some_mem_iff_of_allGiven all).mp
          (mem_memberVerdicts.mpr (.inl ⟨field, member, given⟩))
        cases added with
        | nil => exact optional_of_nothing given
        | cons entry added =>
            have named := (of_mem_fieldVerdict given List.mem_cons_self).1
            obtain ⟨value, found⟩ := Members.exists_get?_ofList
              (List.mem_flatten.mpr ⟨_, addedListed, List.mem_cons_self⟩)
            rw [named, nothing] at found
            cases found
  | _ =>
      rw [verdict_object_of_ne .await fields unknown (by simp)] at accepts
      cases accepts

end Members

/-- What such a schema outputs is accepted by it as it is. -/
theorem FillsIn.keepsOutputs {schema : Schema Id} (fills : schema.FillsIn) :
    schema.KeepsOutputs := by
  induction fills with
  | literal value =>
      apply keepsOutputs_of_same
      intro value output accepts
      rw [verdict_literal] at accepts
      split at accepts <;> cases accepts
      rfl
  | primitive kind =>
      apply keepsOutputs_of_same
      intro value output accepts
      rw [verdict_primitive] at accepts
      split at accepts <;> cases accepts
      rfl
  | object distinct _ defaults _ keepDeclared keepOthers =>
      refine keepsOutputs_object distinct keepDeclared ?_ keepOthers
      intro field listed value presence
      rw [← accepted?_outcome]
      exact Outcome.accepted?_eq_some.mpr (defaults field listed value presence)
  | tuple _ _ keepListed keepAfter =>
    exact keepsOutputs_tuple keepListed keepAfter
  | array _ keeps => exact keepsOutputs_array keeps
  | refined _ keeps => exact .filter (verdict_refined .await _ _ _) keeps
  | asyncRefined _ keeps =>
    exact .filter (verdict_asyncRefined_await _ _ _) keeps

/-- Filling in defaults twice is filling them in once: the output of a settled
validation is accepted, and output again, by the schema that it came from. -/
theorem outcome_idempotent {schema : Schema Id} (fills : schema.FillsIn)
    {value output : Json} (accepts : schema.outcome value = .success output) :
    schema.outcome output = .success output := by
  rw [← Outcome.accepted?_eq_some, accepted?_outcome] at accepts ⊢
  exact fills.keepsOutputs value output accepts

/-- Defaults inside a default, below an item and below two checks of the filled
output, with other members denied or held to a schema. -/
theorem outcome_idempotent_nested :
    let inner : Schema Id :=
      .object [⟨"depth", .default (.int 1), .primitive .integer⟩]
      (.validate (.primitive .number))
    let outer : Schema Id := .object
      [⟨"kind", .required, .literal (.string "a")⟩,
        ⟨"options", .default (.object [("depth", .int 1)]), inner⟩,
        ⟨"names", .optional, .array (.primitive .string)⟩,
        ⟨"pair", .required, .tuple [.primitive .integer] (some inner)⟩] .deny
    let checked : Schema Id := .asyncRefined
      (.refined outer (.custom
        fun value => (value.member? "options").isSome) none)
      (fun value => (value.member? "names").isNone) "named"
    let value : Json := .object
      [("kind", .string "a"),
       ("pair", .array [.int 2, .object [("width", .int 3)]])]
    let output : Json := .object
      [("kind", .string "a"), ("options", .object [("depth", .int 1)]),
        ("pair",
          .array [.int 2, .object [("depth", .int 1), ("width", .int 3)]])]
    checked.outcome value = .success output ∧
      checked.outcome output = .success output := by
  intro inner outer checked value output
  have innerFills : inner.FillsIn := by
    apply FillsIn.object
    · decide
    · intro field listed
      obtain rfl := List.mem_singleton.mp listed
      exact .primitive .integer
    · intro field listed default presence
      obtain rfl := List.mem_singleton.mp listed
      cases presence
      rfl
    · intro schema same
      cases same
      exact .primitive .number
  have outerFills : outer.FillsIn := by
    apply FillsIn.object
    · decide
    · intro field listed
      simp only [List.mem_cons, List.not_mem_nil, or_false] at listed
      rcases listed with rfl | rfl | rfl | rfl
      · exact .literal _
      · exact innerFills
      · exact .array (.primitive .string)
      · refine .tuple (fun item listed => ?_) (fun schema same => ?_)
        · obtain rfl := List.mem_singleton.mp listed
          exact .primitive .integer
        · cases same
          exact innerFills
    · intro field listed default presence
      simp only [List.mem_cons, List.not_mem_nil, or_false] at listed
      rcases listed with rfl | rfl | rfl | rfl <;> cases presence
      rfl
    · nofun
  have fills : checked.FillsIn := .asyncRefined (.refined outerFills)
  have accepts : checked.outcome value = .success output := by
    subst checked outer inner value output
    rfl
  exact ⟨accepts, outcome_idempotent fills accepts⟩

end Schema

end JsonMatch
