import JsonMatch.Proofs.TableContents

/-!
# When a table is built

The key of a table is settled by all clauses whose validators have
discriminators, also by those that are not registered because one of the values
is no scalar.  Such a clause alone makes a table, with nothing in it, and can
keep others from having one.  Where all values are scalars, a table is built
just when some clause is registered in it.
-/

namespace JsonMatch

namespace DispatchTable

open TableDraft

section Clauses

variable {m : Type → Type} {ρ : Type}
variable (compiler : Compiler m) (priority : List String)

/-- Whether a clause has validators, and each of them has a discriminator. -/
def IsMarked (clause : Clause m ρ) : Prop :=
  clause.validators ≠ [] ∧ ∀ validator ∈ clause.validators, ∃ discriminator,
    compiler.discriminator? validator priority = some discriminator

/-- Whether a clause has validators, and each of them has a discriminator with a
scalar. -/
def IsKeyed (clause : Clause m ρ) : Prop :=
  clause.validators ≠ [] ∧ ∀ validator ∈ clause.validators, ∃ discriminator,
    compiler.discriminator? validator priority = some discriminator ∧
      discriminator.value.isScalar = true

/-- Whether the discriminators of a clause name this key. -/
def Names (key : String) (clause : Clause m ρ) : Prop :=
  ∀ validator ∈ clause.validators, ∀ discriminator,
    compiler.discriminator? validator priority = some discriminator →
      discriminator.key = key

/-- The discriminators that the key of a table is settled by. -/
def settling (clauses : List (Clause m ρ)) : List Discriminator :=
  clauses.flatMap fun clause =>
    (compiler.discriminators? priority clause).getD []

variable {compiler priority} {clause : Clause m ρ} {clauses : List (Clause m ρ)}

theorem IsKeyed.isMarked (keyed : IsKeyed compiler priority clause) :
    IsMarked compiler priority clause := by
  obtain ⟨some_validator, each⟩ := keyed
  refine ⟨some_validator, fun validator member => ?_⟩
  obtain ⟨discriminator, given, _⟩ := each validator member
  exact ⟨discriminator, given⟩

/-- A clause is keyed when it is registered under some scalar. -/
theorem isKeyed_iff :
    IsKeyed compiler priority clause ↔
      ∃ key, hasTag compiler priority key clause = true := by
  constructor
  · rintro ⟨some_validator, each⟩
    obtain ⟨validator, member⟩ := List.exists_mem_of_ne_nil _ some_validator
    obtain ⟨discriminator, given, scalar⟩ := each validator member
    rw [← Json.isSome_scalarKey?] at scalar
    obtain ⟨key, shown⟩ := Option.isSome_iff_exists.mp scalar
    exact ⟨key, hasTag_iff.mpr ⟨each, validator, member,
      discriminator, given, shown⟩⟩
  · rintro ⟨key, tagged⟩
    obtain ⟨each, validator, member, _⟩ := hasTag_iff.mp tagged
    exact ⟨List.ne_nil_of_mem member, each⟩

theorem exists_discriminators (marked : IsMarked compiler priority clause) :
    ∃ found, compiler.discriminators? priority clause = some found := by
  obtain ⟨some_validator, each⟩ := marked
  obtain ⟨found, collected⟩ := exists_mapM each
  refine ⟨found, ?_⟩
  rw [Compiler.discriminators?, if_neg (by simpa using some_validator)]
  exact collected

theorem mem_discriminators {found : List Discriminator}
    (given : compiler.discriminators? priority clause = some found)
    {discriminator : Discriminator} :
    discriminator ∈ found ↔ ∃ validator ∈ clause.validators,
      compiler.discriminator? validator priority = some discriminator := by
  unfold Compiler.discriminators? at given
  split at given
  · cases given
  · exact mem_of_mapM given

theorem isMarked_of_discriminators {found : List Discriminator}
    (given : compiler.discriminators? priority clause = some found) :
    IsMarked compiler priority clause := by
  unfold Compiler.discriminators? at given
  split at given
  · cases given
  · rename_i some_validator
    refine ⟨by simpa using some_validator, fun validator member => ?_⟩
    obtain ⟨discriminator, _, has⟩ := exists_of_mapM given member
    exact ⟨discriminator, has⟩

theorem mem_settling {discriminator : Discriminator} :
    discriminator ∈ settling compiler priority clauses ↔
      ∃ clause ∈ clauses, IsMarked compiler priority clause ∧
        ∃ validator ∈ clause.validators,
          compiler.discriminator? validator priority = some discriminator := by
  simp only [settling, List.mem_flatMap]
  apply exists_congr
  intro clause
  apply and_congr_right
  intro _
  constructor
  · intro listed
    cases given : compiler.discriminators? priority clause with
    | none => simp [given] at listed
    | some found =>
        rw [given] at listed
        exact ⟨isMarked_of_discriminators given,
          (mem_discriminators given).mp listed⟩
  · rintro ⟨marked, has⟩
    obtain ⟨found, given⟩ := exists_discriminators marked
    rw [given]
    exact (mem_discriminators given).mpr has

theorem settling_ne_nil :
    settling compiler priority clauses ≠ [] ↔
      ∃ clause ∈ clauses, IsMarked compiler priority clause := by
  constructor
  · intro some_discriminator
    obtain ⟨discriminator, listed⟩ :=
      List.exists_mem_of_ne_nil _ some_discriminator
    obtain ⟨clause, member, marked, _⟩ := mem_settling.mp listed
    exact ⟨clause, member, marked⟩
  · rintro ⟨clause, member, marked⟩
    obtain ⟨validator, owned⟩ := List.exists_mem_of_ne_nil _ marked.1
    obtain ⟨discriminator, given⟩ := marked.2 validator owned
    apply List.ne_nil_of_mem
    exact mem_settling.mpr ⟨clause, member, marked, validator, owned, given⟩

theorem settling_names {key : String} :
    (∀ discriminator ∈ settling compiler priority clauses,
      discriminator.key = key) ↔
      ∀ clause ∈ clauses, IsMarked compiler priority clause →
        Names compiler priority key clause := by
  constructor
  · intro named clause member marked validator owned discriminator given
    apply named
    exact mem_settling.mpr ⟨clause, member, marked, validator, owned, given⟩
  · intro named discriminator listed
    obtain ⟨clause, member, marked, validator, owned, given⟩ :=
      mem_settling.mp listed
    exact named clause member marked validator owned discriminator given

end Clauses

theorem agreeOn_known (known : String) (found : List Discriminator)
    (agreed : Option String) :
    agreeOn (some known) found = some agreed ↔
      agreed = some known ∧
      ∀ discriminator ∈ found, discriminator.key = known := by
  induction found with
  | nil => simp [agreeOn, eq_comm]
  | cons first others induction =>
      rw [agreeOn, List.foldlM_cons]
      by_cases same : known = first.key
      · simp only [List.forall_mem_cons, same.symm, true_and]
        exact induction
      · simp [if_neg same, Ne.symm same]

theorem agreeOn_unknown (key : String) (found : List Discriminator) :
    agreeOn none found = some (some key) ↔
      found ≠ [] ∧ ∀ discriminator ∈ found, discriminator.key = key := by
  cases found with
  | nil => simp [agreeOn]
  | cons first others =>
      have step : agreeOn none (first :: others) =
          agreeOn (some first.key) others := rfl
      rw [step, agreeOn_known]
      simp only [Option.some.injEq, List.forall_mem_cons]
      constructor
      · rintro ⟨rfl, named⟩
        exact ⟨List.cons_ne_nil _ _, rfl, named⟩
      · rintro ⟨_, rfl, named⟩
        exact ⟨rfl, named⟩

section Tables

variable {m : Type → Type} {ρ : Type} {compiler : Compiler m}
    {priority : List String}
variable {clauses : List (Clause m ρ)}

/-- Taking up a clause, the discriminators agree with the key, if the clause has
them; where it goes then does not matter to the key. -/
theorem key_takeUp (draft : TableDraft) (entry : Clause m ρ × Nat) :
    (takeUp compiler priority draft entry).map (·.key) =
      agreeOn draft.key
        ((compiler.discriminators? priority entry.1).getD []) := by
  unfold takeUp
  cases given : compiler.discriminators? priority entry.1 with
  | none => rfl
  | some found =>
      simp only [register, Option.getD_some]
      cases agreeOn draft.key found with
      | none => rfl
      | some key =>
          rw [Option.bind_eq_bind, Option.bind_some]
          split <;> rfl

theorem key_takeUps (draft : TableDraft) (entries : List (Clause m ρ × Nat)) :
    (entries.foldlM (takeUp compiler priority) draft).map (·.key) =
      agreeOn draft.key
        (settling compiler priority (entries.map Prod.fst)) := by
  induction entries generalizing draft with
  | nil => rfl
  | cons entry entries induction =>
      have step : (takeUp compiler priority draft entry).map (·.key) = _ :=
        key_takeUp draft entry
      rw [agreeOn] at step
      rw [List.foldlM_cons, List.map_cons, settling, List.flatMap_cons, agreeOn,
        List.foldlM_append, ← step]
      cases takeUp compiler priority draft entry with
      | none => rfl
      | some next => exact induction next

theorem key_draft (clauses : List (Clause m ρ)) :
    (draft clauses compiler priority).map (·.key) =
      agreeOn none (settling compiler priority clauses) := by
  rw [draft_eq_foldlM, key_takeUps, List.zipIdx_map_fst]

theorem isSome_bind_finish (drafted : Option TableDraft) :
    (drafted.bind finish).isSome = true ↔
      ∃ key, drafted.map (·.key) = some (some key) := by
  cases drafted with
  | none => simp
  | some last => simp [finish, Option.isSome_iff_exists]

variable {config : Config} {table : DispatchTable}

/-- A table is built when discriminators are met, and all that are met name one
key. -/
theorem isSome_build? (compiler : Compiler m) (enabled : config.dispatch = true)
    (several : 2 ≤ clauses.length) :
    (build? clauses compiler config).isSome = true ↔
      (∃ clause ∈ clauses, IsMarked compiler config.priority clause) ∧
        ∃ key, ∀ clause ∈ clauses, IsMarked compiler config.priority clause →
          Names compiler config.priority key clause := by
  have allowed : (!config.dispatch || decide (clauses.length < 2)) = false := by
    rw [enabled, decide_eq_false (Nat.not_lt.mpr several)]
    rfl
  rw [build?, allowed, if_neg Bool.false_ne_true, isSome_bind_finish]
  simp only [key_draft, agreeOn_unknown, settling_ne_nil,
    settling_names, exists_and_left]

theorem expected_ne_nil (built : build? clauses compiler config = some table) :
    table.expected ≠ [] ↔
      ∃ clause ∈ clauses, IsKeyed compiler config.priority clause := by
  have contents := contents_of_build? built
  rw [expected, ne_eq, List.map_eq_nil_iff]
  constructor
  · intro some_entry
    obtain ⟨entry, listed⟩ := List.exists_mem_of_ne_nil _ some_entry
    obtain ⟨position, stands⟩ :=
      List.exists_mem_of_ne_nil _ (contents.nonempty listed)
    obtain ⟨clause, owned, tagged⟩ := (contents.mem_clauses listed).mp stands
    exact ⟨clause, List.mem_of_getElem? owned,
      isKeyed_iff.mpr ⟨entry.key, tagged⟩⟩
  · rintro ⟨clause, member, keyed⟩
    obtain ⟨key, tagged⟩ := isKeyed_iff.mp keyed
    obtain ⟨entry, listed, _⟩ := contents.exists_entry member tagged
    exact List.ne_nil_of_mem listed

/-- When a table is built for at least two clauses, and when it expects
anything.  If no discriminator has a value other than a scalar, a table is built
just when some clause is keyed and the keyed clauses agree on the key. -/
theorem build?_exists (compiler : Compiler m) (enabled : config.dispatch = true)
    (several : 2 ≤ clauses.length) :
    ((build? clauses compiler config).isSome = true ↔
      (∃ clause ∈ clauses, IsMarked compiler config.priority clause) ∧
        ∃ key, ∀ clause ∈ clauses, IsMarked compiler config.priority clause →
          Names compiler config.priority key clause) ∧
    (∀ table, build? clauses compiler config = some table →
      (table.expected ≠ [] ↔
        ∃ clause ∈ clauses, IsKeyed compiler config.priority clause)) ∧
    ((∀ clause ∈ clauses, IsMarked compiler config.priority clause →
        IsKeyed compiler config.priority clause) →
      ((build? clauses compiler config).isSome = true ↔
        (∃ clause ∈ clauses, IsKeyed compiler config.priority clause) ∧
          ∃ key, ∀ clause ∈ clauses, IsKeyed compiler config.priority clause →
            Names compiler config.priority key clause)) := by
  refine ⟨isSome_build? compiler enabled several,
    fun table => expected_ne_nil, ?_⟩
  intro scalars
  have same : ∀ clause ∈ clauses, IsMarked compiler config.priority clause ↔
      IsKeyed compiler config.priority clause :=
    fun clause member => ⟨scalars clause member, IsKeyed.isMarked⟩
  rw [isSome_build? compiler enabled several]
  apply and_congr
  · apply exists_congr
    intro clause
    exact and_congr_right (same clause)
  · apply exists_congr
    intro key
    exact forall₂_congr fun clause member => imp_congr_left (same clause member)

end Tables

/-- Of two clauses, one is told apart by a tag and the other is a predicate. -/
theorem build?_exists_tagged :
    let schema : Schema Id :=
      .object [⟨"type", .required, .literal (.string "a")⟩] .allow
    let handler : Handler Id Json := ⟨false, fun output _ => output⟩
    let clauses : List (Clause Id Json) :=
      [.schemas [.ofSchema 1 schema] none handler,
       .when ⟨false, fun _ => true⟩ handler]
    (build? clauses Compiler.shared {}).isSome = true ∧
      ∀ table, build? clauses Compiler.shared {} = some table →
        table.expected ≠ [] := by
  intro schema handler clauses
  have given : (Compiler.shared (m := Id)).discriminator? (.ofSchema 1 schema)
      ({} : Config).priority = some ⟨"type", .string "a"⟩ := rfl
  have keyed : IsKeyed Compiler.shared ({} : Config).priority
      (.schemas [.ofSchema 1 schema] none handler : Clause Id Json) := by
    refine ⟨List.cons_ne_nil _ _, fun validator member => ?_⟩
    obtain rfl := List.mem_singleton.mp member
    exact ⟨_, given, rfl⟩
  have member : .schemas [.ofSchema 1 schema] none handler ∈ clauses :=
    List.mem_cons_self
  have enabled : ({} : Config).dispatch = true := rfl
  have several : 2 ≤ clauses.length := Nat.le_refl 2
  obtain ⟨exists_iff, expects, _⟩ :=
    build?_exists Compiler.shared enabled several
  constructor
  · apply exists_iff.mpr
    refine ⟨⟨_, member, keyed.isMarked⟩, "type", ?_⟩
    intro clause listed marked validator owned discriminator found
    rcases List.mem_cons.mp listed with rfl | later
    · obtain rfl := List.mem_singleton.mp owned
      rw [given] at found
      obtain rfl := Option.some.inj found
      rfl
    · obtain rfl := List.mem_singleton.mp later
      cases owned
  · intro table built
    exact (expects table built).mpr ⟨_, member, keyed⟩

/-- Validators whose discriminator has a list for its value: two clauses with
them are given an empty table, for which every object is a miss, and one of them
keeps two clauses that are told apart by another key from having a table. -/
theorem not_build?_iff_isKeyed :
    let lists : Adapter Id :=
      { name := "lists"
        detects := fun _ => true
        discriminator? := fun validator _ =>
          some ⟨if validator.identity = 3 then "kind" else "type",
            .array [.int 1]⟩ }
    let compiler : Compiler Id := ⟨1, [.native, lists]⟩
    let handler : Handler Id Json := ⟨false, fun output _ => output⟩
    let listed (identity : Identity) : Clause Id Json :=
      .schemas [.ofFunction identity fun input => .ready (.success input)]
        none handler
    let tagged (identity : Identity) (tag : String) : Clause Id Json :=
      .schemas [.ofSchema identity
        (.object [⟨"type", .required, .literal (.string tag)⟩] .allow)]
          none handler
    let agreed (clauses : List (Clause Id Json)) : Prop :=
      (∃ clause ∈ clauses, IsKeyed compiler [] clause) ∧
        ∃ key, ∀ clause ∈ clauses, IsKeyed compiler [] clause →
          Names compiler [] key clause
    let empty := [listed 1, listed 2]
    let mixed := [tagged 1 "a", tagged 2 "b", listed 3]
    (build? empty compiler {} = some ⟨"type", [], [0, 1]⟩ ∧
        ¬ ((build? empty compiler {}).isSome = true ↔ agreed empty)) ∧
      (build? mixed compiler {} = none ∧
        ¬ ((build? mixed compiler {}).isSome = true ↔ agreed mixed)) := by
  intro lists compiler handler listed tagged agreed empty mixed
  have unkeyed (identity : Identity) :
      ¬ IsKeyed compiler [] (listed identity) := by
    rintro ⟨_, each⟩
    obtain ⟨discriminator, given, scalar⟩ := each _ List.mem_cons_self
    obtain rfl := Option.some.inj given
    cases scalar
  have named (identity : Identity) (tag : String) :
      compiler.discriminator? (.ofSchema identity
        (.object [⟨"type", .required, .literal (.string tag)⟩] .allow)) [] =
          some ⟨"type", .string tag⟩ := rfl
  have keyed (identity : Identity) (tag : String) :
      IsKeyed compiler [] (tagged identity tag) ∧
        Names compiler [] "type" (tagged identity tag) := by
    constructor
    · refine ⟨List.cons_ne_nil _ _, fun validator member => ?_⟩
      obtain rfl := List.mem_singleton.mp member
      exact ⟨_, named identity tag, rfl⟩
    · intro validator member discriminator given
      obtain rfl := List.mem_singleton.mp member
      rw [named] at given
      obtain rfl := Option.some.inj given
      rfl
  have not_agreed : ¬ agreed empty := by
    rintro ⟨⟨clause, member, some_keyed⟩, _⟩
    simp only [empty, List.mem_cons, List.not_mem_nil, or_false] at member
    rcases member with rfl | rfl
    · exact unkeyed 1 some_keyed
    · exact unkeyed 2 some_keyed
  have all_agree : agreed mixed := by
    refine ⟨⟨tagged 1 "a", List.mem_cons_self, (keyed 1 "a").1⟩, "type", ?_⟩
    intro clause member some_keyed
    simp only [mixed, List.mem_cons, List.not_mem_nil, or_false] at member
    rcases member with rfl | rfl | rfl
    · exact (keyed 1 "a").2
    · exact (keyed 2 "b").2
    · exact absurd some_keyed (unkeyed 3)
  have built : build? empty compiler {} = some ⟨"type", [], [0, 1]⟩ := rfl
  have none_built : build? mixed compiler {} = none := rfl
  refine ⟨⟨built, fun same => not_agreed (same.mp ?_)⟩,
    none_built, fun same => ?_⟩
  · rw [built]
    rfl
  · have some_built := same.mpr all_agree
    rw [none_built] at some_built
    cases some_built

end DispatchTable

end JsonMatch
