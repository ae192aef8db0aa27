import JsonMatch.Proofs.DispatchTables
import JsonMatch.Proofs.ScalarKeys
import Mathlib.Data.List.Sort

/-!
# The contents of dispatch tables

A table lists every clause once: in the fallback, or under the values that its
discriminators demand.  The lists ascend, the values stand in the order in which
they were met, and looking an input up says the same as the route that it takes.
-/

namespace JsonMatch

namespace TableDraft

open DispatchTable

variable {m : Type → Type} {ρ : Type}

/-- The values of the discriminators of a clause, if it is told apart by
them. -/
def tagged? (compiler : Compiler m) (priority : List String)
    (clause : Clause m ρ) : Option (List (ScalarKey × Json)) :=
  (compiler.discriminators? priority clause).bind fun found => found.mapM pair?

/-- The values that the clauses are told apart by, in the order of the clauses
and of their validators. -/
def declared (compiler : Compiler m) (priority : List String)
    (clauses : List (Clause m ρ)) : List (ScalarKey × Json) :=
  clauses.flatMap fun clause => (tagged? compiler priority clause).getD []

/-- Whether the entries of a draft are under the values met so far, each under
the first one of its key, in the order in which the keys were first met. -/
structure Enters (entries : List DispatchEntry)
    (met : List (ScalarKey × Json)) : Prop where
  keys : entries.map (·.key) = (met.map Prod.fst).eraseDups
  first : ∀ entry ∈ entries, met.lookup entry.key = some entry.value

theorem mem_enter {clause : Nat} {tag : ScalarKey × Json}
    {entries : List DispatchEntry} {entry : DispatchEntry}
    (member : entry ∈ enter clause tag entries) :
    (∃ old ∈ entries, old.key = entry.key ∧ old.value = entry.value) ∨
      (tag.1 ∉ entries.map (·.key) ∧ entry.key = tag.1 ∧
        entry.value = tag.2) := by
  induction entries with
  | nil =>
      obtain rfl := List.mem_singleton.mp member
      exact .inr ⟨by simp, rfl, rfl⟩
  | cons first others induction =>
      unfold enter at member
      split at member
      · left
        split at member
        · exact ⟨entry, member, rfl, rfl⟩
        · rcases List.mem_cons.mp member with rfl | later
          · exact ⟨first, List.mem_cons_self, rfl, rfl⟩
          · exact ⟨entry, List.mem_cons_of_mem _ later, rfl, rfl⟩
      · rename_i different
        rcases List.mem_cons.mp member with rfl | later
        · exact .inl ⟨entry, List.mem_cons_self, rfl, rfl⟩
        · rcases induction later with ⟨old, known, same⟩ | ⟨new, same⟩
          · exact .inl ⟨old, List.mem_cons_of_mem _ known, same⟩
          · refine .inr ⟨?_, same⟩
            simp only [List.map_cons, List.mem_cons, not_or]
            exact ⟨Ne.symm different, new⟩

theorem Enters.enter {entries : List DispatchEntry}
    {met : List (ScalarKey × Json)} (enters : Enters entries met) (clause : Nat)
    (tag : ScalarKey × Json) :
    Enters (TableDraft.enter clause tag entries) (met ++ [tag]) := by
  constructor
  · rw [keys_enter, enters.keys, List.map_append, List.map_singleton,
      eraseDups_concat]
    simp only [List.mem_eraseDups]
  · intro entry member
    rw [List.lookup_append]
    rcases mem_enter member with ⟨old, known, key, value⟩ | ⟨new, key, value⟩
    · rw [← key, ← value, enters.first old known]
      rfl
    · have unmet : met.lookup tag.1 = none := by
        rw [enters.keys, List.mem_eraseDups] at new
        apply List.lookup_eq_none_iff.mpr
        intro pair listed
        have different : tag.1 ≠ pair.1 :=
          fun same => new (same ▸ List.mem_map_of_mem listed)
        simpa using different
      rw [key, value, unmet, Option.none_or, List.lookup_cons_self]

theorem Enters.enterAll {entries : List DispatchEntry}
    {met : List (ScalarKey × Json)} (enters : Enters entries met) (clause : Nat)
    (tags : List (ScalarKey × Json)) :
    Enters
      (tags.foldl (fun entries tag => TableDraft.enter clause tag entries)
        entries)
      (met ++ tags) := by
  induction tags generalizing entries met with
  | nil => simpa using enters
  | cons tag tags induction =>
      have further := induction (enters.enter clause tag)
      simpa using further

section Draft

variable {m : Type → Type} {ρ : Type} {compiler : Compiler m}
    {priority : List String}
variable {draft : TableDraft} {clauses : List (Clause m ρ)}
    {clause : Clause m ρ}

theorem tags?_eq_map (clause : Clause m ρ) :
    tags? compiler priority clause =
      (tagged? compiler priority clause).map (List.map Prod.fst) := by
  rw [tags?, tagged?, Option.map_bind]
  exact Option.bind_congr fun found _ => (mapM_pair? found).symm

theorem mem_declared {key : ScalarKey} :
    key ∈ (declared compiler priority clauses).map Prod.fst ↔
      ∃ clause ∈ clauses, hasTag compiler priority key clause = true := by
  simp only [declared, List.map_flatMap, List.mem_flatMap]
  apply exists_congr
  intro clause
  apply and_congr_right
  intro _
  rw [hasTag, tags?_eq_map]
  cases tagged? compiler priority clause <;> simp

theorem enters_draft
    (drafted : DispatchTable.draft clauses compiler priority = some draft) :
    Enters draft.entries (declared compiler priority clauses) := by
  apply DispatchTable.draft_induction _ _ _ drafted
  · exact ⟨rfl, nofun⟩
  · intro draft clauses clause enters none_found
    have nothing : tagged? compiler priority clause = none := by
      rw [tagged?, none_found]
      rfl
    simpa [declared, nothing, TableDraft.fallBack] using enters
  · intro draft clauses clause found next enters discriminators registered
    obtain ⟨key, _, ⟨pairs, paired, rfl⟩ | ⟨unpaired, rfl⟩⟩ :=
      register_eq_some registered
    · have values : tagged? compiler priority clause = some pairs := by
        rw [tagged?, discriminators]
        exact paired
      simpa [declared, values] using enters.enterAll clauses.length pairs
    · have nothing : tagged? compiler priority clause = none := by
        rw [tagged?, discriminators]
        exact unpaired
      simpa [declared, nothing, TableDraft.fallBack] using enters

/-- A clause with a scalar among its tags has discriminators with scalars
throughout, and one of them with this scalar. -/
theorem hasTag_iff {key : ScalarKey} :
    hasTag compiler priority key clause = true ↔
      (∀ validator ∈ clause.validators, ∃ discriminator,
        compiler.discriminator? validator priority = some discriminator ∧
          discriminator.value.isScalar = true) ∧
      ∃ validator ∈ clause.validators, ∃ discriminator,
        compiler.discriminator? validator priority = some discriminator ∧
          discriminator.value.scalarKey? = some key := by
  constructor
  · intro tagged
    obtain ⟨tags, told, listed⟩ := (Option.any_eq_true _ _).mp tagged
    obtain ⟨found, discriminators, scalars⟩ := Option.bind_eq_some_iff.mp told
    unfold Compiler.discriminators? at discriminators
    split at discriminators
    · cases discriminators
    · constructor
      · intro validator member
        obtain ⟨discriminator, taken, given⟩ :=
          exists_of_mapM discriminators member
        obtain ⟨scalar, _, shown⟩ := exists_of_mapM scalars taken
        refine ⟨discriminator, given, ?_⟩
        rw [← Json.isSome_scalarKey?, shown]
        rfl
      · obtain ⟨discriminator, taken, shown⟩ :=
          (mem_of_mapM scalars).mp (List.contains_iff_mem.mp listed)
        obtain ⟨validator, member, given⟩ :=
          (mem_of_mapM discriminators).mp taken
        exact ⟨validator, member, discriminator, given, shown⟩
  · rintro ⟨all, validator, member, discriminator, given, shown⟩
    obtain ⟨found, discriminators⟩ : ∃ found, clause.validators.mapM
        (fun validator => compiler.discriminator? validator priority) =
          some found := by
      apply exists_mapM
      intro other listed
      obtain ⟨held, hasIt, _⟩ := all other listed
      exact ⟨held, hasIt⟩
    obtain ⟨tags, scalars⟩ : ∃ tags, found.mapM
        (fun discriminator => discriminator.value.scalarKey?) = some tags := by
      apply exists_mapM
      intro other listed
      obtain ⟨owner, owned, gives⟩ := (mem_of_mapM discriminators).mp listed
      obtain ⟨held, hasIt, scalar⟩ := all owner owned
      obtain rfl := Option.some.inj (gives.symm.trans hasIt)
      apply Option.isSome_iff_exists.mp
      rwa [Json.isSome_scalarKey?]
    have some_validator : clause.validators.isEmpty = false := by
      cases validators : clause.validators with
      | nil => simp [validators] at member
      | cons _ _ => rfl
    have told : tags? compiler priority clause = some tags := by
      simp [tags?, Compiler.discriminators?, some_validator,
        discriminators, scalars]
    have taken := (mem_of_mapM discriminators).mpr ⟨validator, member, given⟩
    have listed := (mem_of_mapM scalars).mpr ⟨discriminator, taken, shown⟩
    simp [hasTag, told, listed]

theorem scalarKey?_of_mem_declared {tag : ScalarKey × Json}
    (member : tag ∈ declared compiler priority clauses) :
    tag.2.scalarKey? = some tag.1 := by
  obtain ⟨clause, _, listed⟩ := List.mem_flatMap.mp member
  cases values : tagged? compiler priority clause with
  | none => simp [values] at listed
  | some tags =>
      rw [values] at listed
      obtain ⟨found, _, paired⟩ := Option.bind_eq_some_iff.mp values
      obtain ⟨discriminator, _, pair⟩ := (mem_of_mapM paired).mp listed
      obtain ⟨scalar, shown, rfl⟩ := Option.map_eq_some_iff.mp pair
      exact shown

theorem Describes.clauses_eq
    (describes : draft.Describes compiler priority clauses)
    {entry : DispatchEntry} (member : entry ∈ draft.entries) :
    entry.clauses = positions (hasTag compiler priority entry.key) clauses := by
  rw [← describes.entries, clausesUnder, find?_key describes.distinct member]
  rfl

end Draft

end TableDraft

namespace DispatchTable

open TableDraft

/-- Whether a list holds the positions of two others, each of them once,
ascending. -/
structure AscendingUnion (union first second : List Nat) : Prop where
  ascending : union.Pairwise (· < ·)
  mem : ∀ position, position ∈ union ↔ position ∈ first ∨ position ∈ second

namespace AscendingUnion

variable {union first second : List Nat}

theorem mem_first (merged : AscendingUnion union first second)
    (apart : ∀ position ∈ first, position ∉ second) (position : Nat) :
    position ∈ first ↔ position ∈ union ∧ position ∉ second := by
  rw [merged.mem]
  constructor
  · intro listed
    exact ⟨.inl listed, apart position listed⟩
  · rintro ⟨listed | listed, outside⟩
    · exact listed
    · exact absurd listed outside

theorem eq_nil (merged : AscendingUnion second first second)
    (apart : ∀ position ∈ first, position ∉ second) : first = [] := by
  apply List.eq_nil_iff_forall_not_mem.mpr
  intro position listed
  apply apart position listed
  exact (merged.mem position).mpr (.inl listed)

theorem first_eq {other : List Nat} (merged : AscendingUnion union first second)
    (again : AscendingUnion union other second)
    (ascending : first.Pairwise (· < ·))
    (otherAscending : other.Pairwise (· < ·))
    (apart : ∀ position ∈ first, position ∉ second)
    (otherApart : ∀ position ∈ other, position ∉ second) : first = other := by
  apply ascending.eq_of_mem_iff otherAscending
  intro position
  rw [merged.mem_first apart, again.mem_first otherApart]

end AscendingUnion

variable {m : Type → Type} {ρ : Type} {compiler : Compiler m} {config : Config}
variable {clauses : List (Clause m ρ)} {table : DispatchTable}

section Lookups

variable {value : Json} {entry : DispatchEntry}

theorem mem_of_entry?_eq_some (found : table.entry? value = some entry) :
    entry ∈ table.entries ∧ value.scalarKey? = some entry.key := by
  obtain ⟨key, shown, listed⟩ := Option.bind_eq_some_iff.mp found
  have same : entry.key = key := by simpa using List.find?_some listed
  rw [same]
  exact ⟨List.mem_of_find?_eq_some listed, shown⟩

/-- The entry of a value is the one that is under the key of the value. -/
theorem entry?_eq_some_iff (distinct : (table.entries.map (·.key)).Nodup) :
    table.entry? value = some entry ↔
      entry ∈ table.entries ∧ value.scalarKey? = some entry.key := by
  constructor
  · exact mem_of_entry?_eq_some
  · rintro ⟨member, shown⟩
    unfold entry?
    rw [shown]
    exact find?_key distinct member

theorem clausesFor?_eq_some_iff (distinct : (table.entries.map (·.key)).Nodup)
    {cases : List Nat} :
    table.clausesFor? value = some cases ↔ ∃ entry ∈ table.entries,
      value.scalarKey? = some entry.key ∧ entry.clauses = cases := by
  simp only [clausesFor?, Option.map_eq_some_iff, entry?_eq_some_iff distinct,
    and_assoc]

end Lookups

/-- What the parts of a table are, said by the discriminators of the clauses. -/
structure Contents (table : DispatchTable) (compiler : Compiler m)
    (priority : List String) (clauses : List (Clause m ρ)) : Prop where
  fallback : table.fallback =
    positions (fun clause => (tags? compiler priority clause).isNone) clauses
  keys : table.entries.map (·.key) =
    ((declared compiler priority clauses).map Prod.fst).eraseDups
  first : ∀ entry ∈ table.entries,
    (declared compiler priority clauses).lookup entry.key = some entry.value
  clauses : ∀ entry ∈ table.entries,
    entry.clauses = positions (hasTag compiler priority entry.key) clauses
  candidates : ∀ entry ∈ table.entries,
    AscendingUnion entry.candidates entry.clauses table.fallback

theorem ascendingUnion_keeps (priority : List String) (key : ScalarKey)
    (clauses : List (Clause m ρ)) :
    AscendingUnion (positions (keeps compiler priority (some key)) clauses)
      (positions (hasTag compiler priority key) clauses)
      (positions (fun clause => (tags? compiler priority clause).isNone)
        clauses) := by
  constructor
  · exact pairwise_positions _ _
  · intro position
    simp only [mem_positions, keeps, Option.any_some,
      Bool.or_eq_true, and_or_left, exists_or]

theorem contents_of_build?
    (built : build? clauses compiler config = some table) :
    table.Contents compiler config.priority clauses := by
  obtain ⟨last, drafted, finished⟩ := exists_draft_finish built
  obtain ⟨key, _, rfl⟩ := Option.map_eq_some_iff.mp finished
  have describes := describes_draft drafted
  have enters := enters_draft drafted
  constructor
  · exact describes.fallback
  · rw [List.map_map]
    exact enters.keys
  · intro entry member
    obtain ⟨old, listed, rfl⟩ := List.mem_map.mp member
    exact enters.first old listed
  · intro entry member
    obtain ⟨old, listed, rfl⟩ := List.mem_map.mp member
    have registered := describes.clauses_eq listed
    exact registered
  · intro entry member
    obtain ⟨old, listed, rfl⟩ := List.mem_map.mp member
    have registered := describes.clauses_eq listed
    dsimp only
    rw [registered, ← describes.entries, merge_keeps describes,
      describes.entries, describes.fallback]
    exact ascendingUnion_keeps config.priority old.key clauses

section Indexes

variable {priority : List String}

/-- How a table lists the clauses of a list.  Every position is in the fallback
or under some value, and not in both.  Under a value stand the clauses all of
whose validators have a discriminator with a scalar, and one of them this one,
and the table finds them by the value; the values are those of the
discriminators, each where it is met first. -/
structure Indexes (table : DispatchTable) (compiler : Compiler m)
    (priority : List String) (clauses : List (Clause m ρ)) : Prop where
  covers : ∀ position, position < clauses.length ↔
    position ∈ table.fallback ∨
      ∃ entry ∈ table.entries, position ∈ entry.clauses
  apart : ∀ position ∈ table.fallback, ∀ entry ∈ table.entries,
    position ∉ entry.clauses
  fallback : table.fallback.Pairwise (· < ·)
  nonempty : ∀ entry ∈ table.entries, entry.clauses ≠ []
  ascending : ∀ entry ∈ table.entries, entry.clauses.Pairwise (· < ·)
  candidates : ∀ entry ∈ table.entries,
    AscendingUnion entry.candidates entry.clauses table.fallback
  registered : ∀ position clause, clauses[position]? = some clause → ∀ key,
    (∃ entry ∈ table.entries, entry.key = key ∧ position ∈ entry.clauses) ↔
      (∀ validator ∈ clause.validators, ∃ discriminator,
        compiler.discriminator? validator priority = some discriminator ∧
          discriminator.value.isScalar = true) ∧
      ∃ validator ∈ clause.validators, ∃ discriminator,
        compiler.discriminator? validator priority = some discriminator ∧
          discriminator.value.scalarKey? = some key
  found : ∀ value cases, table.clausesFor? value = some cases ↔
    ∃ entry ∈ table.entries, value.scalarKey? = some entry.key ∧
      entry.clauses = cases
  distinct : (table.entries.map (·.key)).Nodup
  keyed : ∀ entry ∈ table.entries, entry.value.scalarKey? = some entry.key
  different : table.expected.Pairwise fun value other =>
    (value == other) = false
  ordered : table.expected =
    ((declared compiler priority clauses).map Prod.fst).eraseDups.filterMap
      fun key => (declared compiler priority clauses).lookup key

theorem exists_hasTag {clause : Clause m ρ} {tags : List ScalarKey}
    (told : tags? compiler priority clause = some tags) :
    ∃ key, hasTag compiler priority key clause = true := by
  obtain ⟨found, discriminators, scalars⟩ := Option.bind_eq_some_iff.mp told
  unfold Compiler.discriminators? at discriminators
  split at discriminators
  · cases discriminators
  · rename_i some_validator
    cases validators : clause.validators with
    | nil => simp [validators] at some_validator
    | cons validator others =>
        rw [validators] at discriminators
        obtain ⟨discriminator, taken, _⟩ :=
          exists_of_mapM discriminators List.mem_cons_self
        obtain ⟨key, listed, _⟩ := exists_of_mapM scalars taken
        exact ⟨key, by simp [hasTag, told, listed]⟩

namespace Contents

variable (contents : table.Contents compiler priority clauses)

include contents

theorem exists_entry {clause : Clause m ρ} (member : clause ∈ clauses)
    {key : ScalarKey} (tagged : hasTag compiler priority key clause = true) :
    ∃ entry ∈ table.entries, entry.key = key := by
  have met : key ∈ (declared compiler priority clauses).map Prod.fst :=
    mem_declared.mpr ⟨clause, member, tagged⟩
  rw [← List.mem_eraseDups, ← contents.keys] at met
  exact List.mem_map.mp met

theorem mem_clauses {entry : DispatchEntry} (member : entry ∈ table.entries)
    {position : Nat} :
    position ∈ entry.clauses ↔ ∃ clause, clauses[position]? = some clause ∧
      hasTag compiler priority entry.key clause = true := by
  rw [contents.clauses entry member, mem_positions]

theorem mem_fallback {position : Nat} :
    position ∈ table.fallback ↔ ∃ clause, clauses[position]? = some clause ∧
      tags? compiler priority clause = none := by
  rw [contents.fallback, mem_positions]
  simp only [Option.isNone_iff_eq_none]

theorem keyed {entry : DispatchEntry} (member : entry ∈ table.entries) :
    entry.value.scalarKey? = some entry.key := by
  obtain ⟨before, after, split, _⟩ :=
    List.lookup_eq_some_iff.mp (contents.first entry member)
  have listed : (entry.key, entry.value) ∈
      declared compiler priority clauses := by
    simp [split]
  exact scalarKey?_of_mem_declared listed

theorem covers (position : Nat) :
    position < clauses.length ↔
      position ∈ table.fallback ∨
        ∃ entry ∈ table.entries, position ∈ entry.clauses := by
  constructor
  · intro inside
    have stands : clauses[position]? = some clauses[position] :=
      List.getElem?_eq_getElem inside
    cases told : tags? compiler priority clauses[position] with
    | none => exact .inl (contents.mem_fallback.mpr ⟨_, stands, told⟩)
    | some tags =>
        right
        obtain ⟨key, tagged⟩ := exists_hasTag told
        obtain ⟨entry, member, rfl⟩ :=
          contents.exists_entry (List.getElem_mem inside) tagged
        exact ⟨entry, member,
          (contents.mem_clauses member).mpr ⟨_, stands, tagged⟩⟩
  · rintro (listed | ⟨entry, member, listed⟩)
    · rw [contents.fallback] at listed
      exact lt_of_mem_positions listed
    · rw [contents.clauses entry member] at listed
      exact lt_of_mem_positions listed

theorem apart {position : Nat} (listed : position ∈ table.fallback)
    {entry : DispatchEntry} (member : entry ∈ table.entries) :
    position ∉ entry.clauses := by
  intro also
  obtain ⟨clause, stands, untagged⟩ := contents.mem_fallback.mp listed
  obtain ⟨other, again, tagged⟩ := (contents.mem_clauses member).mp also
  obtain rfl := Option.some.inj (stands.symm.trans again)
  simp [hasTag, untagged] at tagged

theorem nonempty {entry : DispatchEntry} (member : entry ∈ table.entries) :
    entry.clauses ≠ [] := by
  have met : entry.key ∈ table.entries.map (·.key) := List.mem_map_of_mem member
  rw [contents.keys, List.mem_eraseDups] at met
  obtain ⟨clause, inClauses, tagged⟩ := mem_declared.mp met
  obtain ⟨position, stands⟩ := List.mem_iff_getElem?.mp inClauses
  apply List.ne_nil_of_mem
  exact (contents.mem_clauses member).mpr ⟨clause, stands, tagged⟩

theorem registered {position : Nat} {clause : Clause m ρ}
    (stands : clauses[position]? = some clause) (key : ScalarKey) :
    (∃ entry ∈ table.entries, entry.key = key ∧ position ∈ entry.clauses) ↔
      hasTag compiler priority key clause = true := by
  constructor
  · rintro ⟨entry, member, rfl, listed⟩
    obtain ⟨other, again, tagged⟩ := (contents.mem_clauses member).mp listed
    obtain rfl := Option.some.inj (stands.symm.trans again)
    exact tagged
  · intro tagged
    obtain ⟨entry, member, rfl⟩ :=
      contents.exists_entry (List.mem_of_getElem? stands) tagged
    exact ⟨entry, member, rfl,
      (contents.mem_clauses member).mpr ⟨_, stands, tagged⟩⟩

theorem distinct : (table.entries.map (·.key)).Nodup := by
  rw [contents.keys]
  exact nodup_eraseDups _

theorem different :
    table.expected.Pairwise fun value other => (value == other) = false := by
  apply List.pairwise_map.mpr
  apply (List.pairwise_map.mp contents.distinct).imp_of_mem
  intro entry other member otherMember unequal
  apply Bool.eq_false_iff.mpr
  intro same
  apply unequal
  have keys := Json.scalarKey?_eq_of_same same
  rw [contents.keyed member, contents.keyed otherMember] at keys
  exact Option.some.inj keys

theorem ordered :
    table.expected =
      ((declared compiler priority clauses).map Prod.fst).eraseDups.filterMap
        fun key => (declared compiler priority clauses).lookup key := by
  rw [← contents.keys, List.filterMap_map, expected, ← List.filterMap_eq_map]
  apply List.filterMap_congr
  intro entry member
  exact (contents.first entry member).symm

theorem indexes : table.Indexes compiler priority clauses where
  covers := contents.covers
  apart _ listed _ member := contents.apart listed member
  fallback := by
    rw [contents.fallback]
    exact pairwise_positions _ _
  nonempty _ member := contents.nonempty member
  ascending entry member := by
    rw [contents.clauses entry member]
    exact pairwise_positions _ _
  candidates := contents.candidates
  registered position clause stands key :=
    (contents.registered stands key).trans hasTag_iff
  found _ _ := clausesFor?_eq_some_iff contents.distinct
  distinct := contents.distinct
  keyed _ member := contents.keyed member
  different := contents.different
  ordered := contents.ordered

end Contents

end Indexes

/-- How looking an input up goes with the route that it takes.  A list of
clauses that could stand under a value (it is not empty, ascends and keeps apart
from the fallback) is found just when the input takes the route of this list and
the fallback.  What is found is what is registered under the value that the
input carries at the key. -/
structure Agrees (table : DispatchTable) (input : Json) : Prop where
  unkeyed : table.lookup input = .notKeyed ↔ table.route input = .linear
  linear : table.route input = .linear ↔ ∀ members, input ≠ .object members
  missed : (∃ value, table.lookup input = .miss value) ↔
    (∃ members, input = .object members) ∧
      table.route input = .candidates table.fallback
  hit : ∀ cases, (∃ value, table.lookup input = .hit value cases) ↔
    (cases ≠ [] ∧ cases.Pairwise (· < ·) ∧
        ∀ position ∈ cases, position ∉ table.fallback) ∧
      ∃ union, table.route input = .candidates union ∧
        AscendingUnion union cases table.fallback
  missing : ∀ value, table.lookup input = .miss value ↔
    (∃ members, input = .object members) ∧ input.member? table.key = value ∧
      value.bind table.clausesFor? = none
  value : ∀ value cases, table.lookup input = .hit value cases ↔
    input.member? table.key = some value ∧ table.clausesFor? value = some cases
  entry : ∀ value, input.member? table.key = some value →
    ∀ entry ∈ table.entries, value.scalarKey? = some entry.key →
      table.route input = .candidates entry.candidates

section Lookups

variable {input : Json}

theorem clausesFor?_eq_none_iff {value : Json} :
    table.clausesFor? value = none ↔ table.entry? value = none :=
  Option.map_eq_none_iff

theorem bind_clausesFor?_eq_none_iff {value : Option Json} :
    value.bind table.clausesFor? = none ↔ value.bind table.entry? = none := by
  simp only [Option.bind_eq_none_iff, clausesFor?_eq_none_iff]

theorem lookup_eq_hit_iff {value : Json} {cases : List Nat} :
    table.lookup input = .hit value cases ↔
      input.member? table.key = some value ∧
      table.clausesFor? value = some cases := by
  have reads := table.reads input
  generalize table.lookup input = found at reads ⊢
  generalize table.route input = taken at reads
  cases reads with
  | notKeyed scalar bare => simp [bare]
  | miss keyed carried held unmet =>
      rw [held, ← bind_clausesFor?_eq_none_iff] at *
      constructor
      · exact nofun
      · rintro ⟨rfl, registered⟩
        cases registered.symm.trans unmet
  | hit keyed carried entry held found =>
      have registered : table.clausesFor? carried = some entry.clauses := by
        rw [clausesFor?, found, Option.map_some]
      constructor
      · rintro ⟨⟩
        exact ⟨held, registered⟩
      · rintro ⟨again, listed⟩
        obtain rfl := Option.some.inj (held.symm.trans again)
        rw [Option.some.inj (registered.symm.trans listed)]

theorem lookup_eq_miss_iff {value : Option Json} :
    table.lookup input = .miss value ↔
      (∃ members, input = .object members) ∧ input.member? table.key = value ∧
        value.bind table.clausesFor? = none := by
  rw [bind_clausesFor?_eq_none_iff]
  have reads := table.reads input
  generalize table.lookup input = found at reads ⊢
  generalize table.route input = taken at reads
  cases reads with
  | notKeyed scalar bare =>
      constructor
      · exact nofun
      · rintro ⟨⟨members, same⟩, _⟩
        exact absurd same (scalar members)
  | miss keyed carried held unmet =>
      constructor
      · rintro ⟨⟩
        exact ⟨keyed, held, unmet⟩
      · rintro ⟨_, rfl, _⟩
        rw [held]
  | hit keyed carried entry held found =>
      constructor
      · exact nofun
      · rintro ⟨_, rfl, unmet⟩
        rw [held, Option.bind_some, found] at unmet
        cases unmet

theorem route_of_entry? {value : Json} {entry : DispatchEntry}
    (carried : input.member? table.key = some value)
    (registered : table.entry? value = some entry) :
    table.route input = .candidates entry.candidates := by
  have reads := table.reads input
  generalize table.route input = taken at reads ⊢
  generalize table.lookup input = looked at reads
  cases reads with
  | notKeyed scalar bare => cases bare.symm.trans carried
  | miss keyed other held unmet =>
      obtain rfl := held.symm.trans carried
      cases unmet.symm.trans registered
  | hit keyed other found held known =>
      obtain rfl := Option.some.inj (held.symm.trans carried)
      obtain rfl := Option.some.inj (known.symm.trans registered)
      rfl

end Lookups

theorem Contents.agrees {priority : List String}
    (contents : table.Contents compiler priority clauses) (input : Json) :
    table.Agrees input := by
  have reads := table.reads input
  constructor
  case missing => exact fun _ => lookup_eq_miss_iff
  case value => exact fun _ _ => lookup_eq_hit_iff
  case entry =>
    intro value carried entry member shown
    apply route_of_entry? carried
    exact (entry?_eq_some_iff contents.distinct).mpr ⟨member, shown⟩
  case unkeyed =>
    generalize table.lookup input = looked, table.route input = taken at reads ⊢
    cases reads <;> simp
  case linear =>
    generalize table.lookup input = looked, table.route input = taken at reads ⊢
    cases reads with
    | notKeyed scalar _ => exact iff_of_true rfl scalar
    | miss keyed => simpa using keyed
    | hit keyed => simpa using keyed
  case missed =>
    generalize table.lookup input = looked, table.route input = taken at reads ⊢
    cases reads with
    | notKeyed scalar _ => simp [scalar]
    | miss keyed => simp [keyed]
    | hit keyed value entry _ found =>
        have member := (mem_of_entry?_eq_some found).1
        have merged := contents.candidates entry member
        have apart : ∀ position ∈ entry.clauses, position ∉ table.fallback :=
          fun _ listed also => contents.apart also member listed
        constructor
        · simp
        · rintro ⟨_, same⟩
          rw [Route.candidates.inj same] at merged
          exact absurd (merged.eq_nil apart) (contents.nonempty member)
  case hit =>
    intro cases
    generalize table.lookup input = looked, table.route input = taken at reads ⊢
    cases reads with
    | notKeyed => simp
    | miss =>
        constructor
        · simp
        · rintro ⟨⟨some_case, _, apart⟩, union, same, merged⟩
          cases same
          exact absurd (merged.eq_nil apart) some_case
    | hit _ value entry _ found =>
        have member := (mem_of_entry?_eq_some found).1
        have merged := contents.candidates entry member
        have ascending : entry.clauses.Pairwise (· < ·) :=
          contents.indexes.ascending entry member
        have apart : ∀ position ∈ entry.clauses, position ∉ table.fallback :=
          fun _ listed also => contents.apart also member listed
        constructor
        · rintro ⟨_, same⟩
          cases same
          exact ⟨⟨contents.nonempty member, ascending, apart⟩, _, rfl, merged⟩
        · rintro ⟨⟨_, otherAscending, otherApart⟩, union, same, again⟩
          cases same
          have listed :=
            merged.first_eq again ascending otherAscending apart otherApart
          exact ⟨value, listed ▸ rfl⟩

/-- A table lists the clauses that it was built from, and agrees with itself
about every input. -/
theorem build?_indexes (built : build? clauses compiler config = some table) :
    table.Indexes compiler config.priority clauses ∧
    ∀ input, table.Agrees input := by
  have contents := contents_of_build? built
  exact ⟨contents.indexes, contents.agrees⟩

/-- The first clause is registered under two values, one of them met twice, and
the second one, a predicate, is the fallback. -/
theorem build?_indexes_mixed :
    let tagged (identity : Identity) (tag : String) : Validator Id :=
      .ofSchema identity
        (.object [⟨"type", .required, .literal (.string tag)⟩] .allow)
    let handler : Handler Id Json := ⟨false, fun output _ => output⟩
    let clauses : List (Clause Id Json) :=
      [.schemas [tagged 1 "b", tagged 2 "a", tagged 3 "b"] none handler,
        .when ⟨false, fun _ => true⟩ handler,
        .schemas [tagged 4 "a"] none handler]
    let table : DispatchTable :=
      ⟨"type", [⟨.string "b", .string "b", [0], [0, 1]⟩,
        ⟨.string "a", .string "a", [0, 2], [0, 1, 2]⟩], [1]⟩
    build? clauses Compiler.shared {} = some table ∧
      table.Indexes (Compiler.shared (m := Id)) ({} : Config).priority clauses ∧
      (∀ input, table.Agrees input) ∧
      table.clausesFor? (.string "a") = some [0, 2] ∧
      table.lookup (.object [("type", .string "a")]) =
        .hit (.string "a") [0, 2] := by
  intro tagged handler clauses table
  have built : build? clauses Compiler.shared {} = some table := by
    let merged (clauses : List Nat) : List Nat :=
      clauses.merge [1] fun x y => decide (x ≤ y)
    calc build? clauses Compiler.shared {}
      _ = some ⟨"type", [⟨.string "b", .string "b", [0], merged [0]⟩,
            ⟨.string "a", .string "a", [0, 2], merged [0, 2]⟩], [1]⟩ := by rfl
      _ = some table := by simp [merged, table]
  obtain ⟨indexes, agrees⟩ := build?_indexes built
  have registered : table.clausesFor? (.string "a") = some [0, 2] :=
    (indexes.found _ _).mpr ⟨_, .tail _ (.head _), rfl, rfl⟩
  exact ⟨built, indexes, agrees, registered,
    ((agrees _).value _ _).mpr ⟨rfl, registered⟩⟩

end DispatchTable

end JsonMatch
