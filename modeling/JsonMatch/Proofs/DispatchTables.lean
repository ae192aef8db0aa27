import JsonMatch.Dispatch.Building
import JsonMatch.Proofs.Lists

/-!
# What dispatch tables list

Under every value a table lists the clauses that some discriminator pins to it,
and in the fallback those that are not told apart.  So the clauses visited for
an object are the ones of the fallback and the ones pinned to what it carries at
the key; all others have only validators that exclude the object.
-/

namespace JsonMatch

section Positions

variable {α : Type}

/-- The positions of the items with a property. -/
def positions (property : α → Bool) (items : List α) : List Nat :=
  (items.zipIdx.filter fun entry => property entry.1).map Prod.snd

theorem positions_append (property : α → Bool) (items : List α) (last : α) :
    positions property (items ++ [last]) =
      positions property items ++ if property last then [items.length]
        else [] := by
  rw [positions, positions, List.zipIdx_append, List.filter_append,
    List.map_append]
  congr 1
  simp only [List.zipIdx_cons, List.zipIdx_nil, Nat.zero_add, List.filter_cons,
    List.filter_nil]
  split <;> rfl

theorem mem_positions {property : α → Bool} {items : List α} {position : Nat} :
    position ∈ positions property items ↔
      ∃ item, items[position]? = some item ∧ property item = true := by
  simp only [positions, List.mem_map, List.mem_filter,
    List.mem_zipIdx_iff_getElem?]
  constructor
  · rintro ⟨⟨item, _⟩, ⟨found, holds⟩, rfl⟩
    exact ⟨item, found, holds⟩
  · rintro ⟨item, found, holds⟩
    exact ⟨(item, position), ⟨found, holds⟩, rfl⟩

theorem lt_of_mem_positions {property : α → Bool} {items : List α}
    {position : Nat} (member : position ∈ positions property items) :
    position < items.length := by
  obtain ⟨item, found, _⟩ := mem_positions.mp member
  exact (List.getElem?_eq_some_iff.mp found).1

theorem positions_true (items : List α) :
    positions (fun _ => true) items = List.range items.length := by
  rw [positions, List.filter_eq_self.mpr fun _ _ => rfl, List.zipIdx_map_snd,
    List.range_eq_range']

theorem pairwise_positions (property : α → Bool) (items : List α) :
    (positions property items).Pairwise (· < ·) := by
  have all : (items.zipIdx.map Prod.snd).Pairwise (· < ·) := by
    rw [List.zipIdx_map_snd]
    exact List.pairwise_lt_range' 1
  exact all.sublist (List.filter_sublist.map Prod.snd)

theorem merge_positions {first second : α → Bool} (items : List α)
    (apart : ∀ item, first item = true → second item = false) :
    (positions first items).merge (positions second items)
    (fun x y => decide (x ≤ y)) =
      positions (fun item => first item || second item) items := by
  have nodup (property : α → Bool) : (positions property items).Nodup :=
    (pairwise_positions property items).imp Nat.ne_of_lt
  have ascending (property : α → Bool) :
      (positions property items).Pairwise fun x y => decide (x ≤ y) = true :=
    (pairwise_positions property items).imp fun less =>
      decide_eq_true (Nat.le_of_lt less)
  have disjoint : (positions first items ++ positions second items).Nodup := by
    refine List.nodup_append.mpr ⟨nodup first, nodup second, ?_⟩
    intro position left other right same
    subst same
    obtain ⟨item, found, holds⟩ := mem_positions.mp left
    obtain ⟨_, again, also⟩ := mem_positions.mp right
    obtain rfl := Option.some.inj (found.symm.trans again)
    rw [apart item holds] at also
    cases also
  refine List.Perm.eq_of_pairwise (fun _ _ _ _ less more => Nat.le_antisymm
    (of_decide_eq_true less) (of_decide_eq_true more)) ?_ (ascending _) ?_
  · exact List.pairwise_merge
      (fun _ _ _ => by simp; omega) (fun _ _ => by simp; omega)
      _ _ (ascending first) (ascending second)
  · refine (List.merge_perm_append _).trans ?_
    refine (List.perm_ext_iff_of_nodup disjoint (nodup _)).mpr
      fun position => ?_
    rw [List.mem_append, mem_positions, mem_positions, mem_positions]
    simp only [Bool.or_eq_true, and_or_left, exists_or]

end Positions

/-- Whether an input lacks the value that a discriminator demands at its key. -/
def Discriminator.Excludes (discriminator : Discriminator)
    (input : Json) : Prop :=
  ∃ key, discriminator.value.scalarKey? = some key ∧
    (input.member? discriminator.key).bind Json.scalarKey? ≠ some key

/-- The clauses that a list of entries has under a value. -/
def clausesUnder (entries : List DispatchEntry) (key : ScalarKey) : List Nat :=
  ((entries.find? fun entry => entry.key == key).map (·.clauses)).getD []

namespace TableDraft

/-- A list of clauses with one more at its end, unless it is there already. -/
def withLast (clause : Nat) (clauses : List Nat) : List Nat :=
  if clauses.getLast? = some clause then clauses else clauses ++ [clause]

theorem withLast_withLast (clause : Nat) (clauses : List Nat) :
    withLast clause (withLast clause clauses) = withLast clause clauses := by
  by_cases last : clauses.getLast? = some clause
  · have same : withLast clause clauses = clauses := if_pos last
    rw [same]
    exact same
  · have longer : withLast clause clauses = clauses ++ [clause] := if_neg last
    have added : (clauses ++ [clause]).getLast? = some clause := by simp
    rw [longer]
    exact if_pos added

theorem clausesUnder_enter (clause : Nat) (tag : ScalarKey × Json)
    (entries : List DispatchEntry) (key : ScalarKey) :
    clausesUnder (enter clause tag entries) key =
      if key = tag.1 then withLast clause (clausesUnder entries key)
      else clausesUnder entries key := by
  induction entries with
  | nil =>
      by_cases same : key = tag.1
      · simp [enter, clausesUnder, withLast, same]
      · simp [enter, clausesUnder, same, Ne.symm same]
  | cons entry entries induction =>
      unfold enter
      by_cases here : entry.key = tag.1
      · rw [if_pos here]
        by_cases same : key = tag.1
        · have found : entry.key = key := here.trans same.symm
          rw [if_pos same, withLast]
          split <;> rename_i last <;> simp [clausesUnder, found, last]
        · have passed : entry.key ≠ key :=
            fun found => same (found.symm.trans here)
          rw [if_neg same]
          split <;> simp [clausesUnder, passed]
      · rw [if_neg here]
        by_cases found : entry.key = key
        · have other : key ≠ tag.1 := fun same => here (found.trans same)
          rw [if_neg other]
          simp [clausesUnder, found]
        · simpa [clausesUnder, found] using induction

theorem keys_enter (clause : Nat) (tag : ScalarKey × Json)
    (entries : List DispatchEntry) :
    (enter clause tag entries).map (·.key) =
      if tag.1 ∈ entries.map (·.key) then entries.map (·.key)
      else entries.map (·.key) ++ [tag.1] := by
  induction entries with
  | nil => simp [enter]
  | cons entry entries induction =>
      unfold enter
      by_cases here : entry.key = tag.1
      · have known : tag.1 ∈ (entry :: entries).map (·.key) := by
          rw [List.map_cons, here]
          exact List.mem_cons_self
        rw [if_pos here, if_pos known]
        split <;> rfl
      · rw [if_neg here, List.map_cons, List.map_cons, induction]
        by_cases later : tag.1 ∈ entries.map (·.key)
        · rw [if_pos later, if_pos (List.mem_cons_of_mem _ later)]
        · have nowhere : tag.1 ∉ entry.key :: entries.map (·.key) := by
            simp only [List.mem_cons, not_or]
            exact ⟨Ne.symm here, later⟩
          rw [if_neg later, if_neg nowhere, List.cons_append]

theorem clausesUnder_enterAll (clause : Nat) (tags : List (ScalarKey × Json))
    (entries : List DispatchEntry) (key : ScalarKey) :
    clausesUnder (tags.foldl
      (fun entries tag => enter clause tag entries) entries) key =
      if key ∈ tags.map Prod.fst then withLast clause (clausesUnder entries key)
      else clausesUnder entries key := by
  induction tags generalizing entries with
  | nil => rfl
  | cons tag tags induction =>
      rw [List.foldl_cons, induction, clausesUnder_enter, List.map_cons]
      by_cases here : key = tag.1
      · by_cases later : key ∈ tags.map Prod.fst
        · rw [if_pos later, if_pos here, if_pos (List.mem_cons_of_mem _ later),
            withLast_withLast]
        · rw [if_neg later, if_pos here, if_pos (here ▸ List.mem_cons_self)]
      · by_cases later : key ∈ tags.map Prod.fst
        · rw [if_pos later, if_neg here, if_pos (List.mem_cons_of_mem _ later)]
        · have nowhere : key ∉ tag.1 :: tags.map Prod.fst := by
            simp only [List.mem_cons, not_or]
            exact ⟨here, later⟩
          rw [if_neg later, if_neg here, if_neg nowhere]

theorem nodup_enterAll (clause : Nat) (tags : List (ScalarKey × Json))
    {entries : List DispatchEntry} (distinct : (entries.map (·.key)).Nodup) :
    ((tags.foldl (fun entries tag => enter clause tag entries) entries).map
      (·.key)).Nodup := by
  induction tags generalizing entries with
  | nil => exact distinct
  | cons tag tags induction =>
      apply induction
      rw [keys_enter]
      split
      · exact distinct
      · rename_i new
        refine List.nodup_append.mpr ⟨distinct, by simp, ?_⟩
        intro key known other last same
        obtain rfl := List.mem_singleton.mp last
        exact new (same ▸ known)

variable {m : Type → Type} {ρ : Type}
variable (compiler : Compiler m) (priority : List String)

/-- The values by which a clause is told apart, if it can be. -/
def tags? (clause : Clause m ρ) : Option (List ScalarKey) :=
  (compiler.discriminators? priority clause).bind fun found =>
    found.mapM fun discriminator => discriminator.value.scalarKey?

/-- Whether a clause is told apart by a value, among others. -/
def hasTag (key : ScalarKey) (clause : Clause m ρ) : Bool :=
  (tags? compiler priority clause).any (·.contains key)

/-- What a draft says about the clauses taken up so far. -/
structure Describes (draft : TableDraft) (clauses : List (Clause m ρ)) :
    Prop where
  agree : ∀ clause ∈ clauses, ∀ found,
    compiler.discriminators? priority clause = some found →
    ∀ discriminator ∈ found, draft.key = some discriminator.key
  fallback : draft.fallback =
    positions (fun clause => (tags? compiler priority clause).isNone) clauses
  entries : ∀ key, clausesUnder draft.entries key =
    positions (hasTag compiler priority key) clauses
  distinct : (draft.entries.map (·.key)).Nodup

theorem agreeOn_eq_some {key agreed : Option String}
    {found : List Discriminator} (agrees : agreeOn key found = some agreed) :
    (∀ discriminator ∈ found, agreed = some discriminator.key) ∧
      ∀ known, key = some known → agreed = some known := by
  induction found generalizing key with
  | nil =>
      cases agrees
      exact ⟨nofun, fun _ same => same⟩
  | cons first others induction =>
      rw [agreeOn, List.foldlM_cons] at agrees
      obtain ⟨next, step, rest⟩ := Option.bind_eq_some_iff.mp agrees
      obtain ⟨othersAgree, kept⟩ := induction rest
      have nextKey : next = some first.key ∧ ∀ known, key = some known →
          next = some known := by
        cases key with
        | none =>
            cases step
            exact ⟨rfl, nofun⟩
        | some known =>
            dsimp only at step
            split at step
            · rename_i same
              cases step
              exact ⟨congrArg some same, fun _ other => other⟩
            · cases step
      refine ⟨fun discriminator member => ?_,
        fun known same => kept known (nextKey.2 known same)⟩
      rcases List.mem_cons.mp member with rfl | later
      · exact kept _ nextKey.1
      · exact othersAgree discriminator later

/-- A discriminator's scalar, with the value that it was made of. -/
def pair? (discriminator : Discriminator) : Option (ScalarKey × Json) :=
  discriminator.value.scalarKey?.map fun tag => (tag, discriminator.value)

theorem mapM_pair? (found : List Discriminator) :
    (found.mapM pair?).map (List.map Prod.fst) =
      found.mapM fun discriminator => discriminator.value.scalarKey? := by
  induction found with
  | nil => rfl
  | cons first others induction =>
      rw [List.mapM_cons, List.mapM_cons, ← induction, pair?]
      cases first.value.scalarKey? with
      | none => rfl
      | some tag => cases others.mapM pair? <;> rfl

variable {compiler priority} {draft : TableDraft} {clauses : List (Clause m ρ)}
variable {clause : Clause m ρ}

theorem Describes.lt_of_mem
    (describes : draft.Describes compiler priority clauses) {key : ScalarKey}
    {position : Nat} (member : position ∈ clausesUnder draft.entries key) :
    position < clauses.length :=
  lt_of_mem_positions (describes.entries key ▸ member)

theorem Describes.fallBack
    (describes : draft.Describes compiler priority clauses)
    {key : Option String}
    (kept : ∀ known, draft.key = some known → key = some known)
    (agree : ∀ found, compiler.discriminators? priority clause = some found →
      ∀ discriminator ∈ found, key = some discriminator.key)
    (untagged : tags? compiler priority clause = none) :
    Describes compiler priority ({ draft with key }.fallBack clauses.length)
      (clauses ++ [clause]) where
  agree other member found discriminators discriminator listed := by
    rcases List.mem_append.mp member with earlier | last
    · exact kept _
        (describes.agree other earlier found discriminators
          discriminator listed)
    · obtain rfl := List.mem_singleton.mp last
      exact agree found discriminators discriminator listed
  fallback := by
    rw [positions_append, ← describes.fallback, untagged]
    rfl
  entries key := by
    rw [positions_append, ← describes.entries, hasTag, untagged]
    exact (List.append_nil _).symm
  distinct := describes.distinct

theorem Describes.enterAll
    (describes : draft.Describes compiler priority clauses)
    {key : Option String}
    (kept : ∀ known, draft.key = some known → key = some known)
    (agree : ∀ found, compiler.discriminators? priority clause = some found →
      ∀ discriminator ∈ found, key = some discriminator.key)
    {pairs : List (ScalarKey × Json)}
    (tagged : tags? compiler priority clause = some (pairs.map Prod.fst)) :
    Describes compiler priority
      { draft with
        key
        entries :=
          pairs.foldl (fun entries tag => enter clauses.length tag entries)
          draft.entries }
      (clauses ++ [clause]) where
  agree other member found discriminators discriminator listed := by
    rcases List.mem_append.mp member with earlier | last
    · exact kept _
        (describes.agree other earlier found discriminators
          discriminator listed)
    · obtain rfl := List.mem_singleton.mp last
      exact agree found discriminators discriminator listed
  fallback := by
    rw [positions_append, ← describes.fallback, tagged]
    exact (List.append_nil _).symm
  entries under := by
    rw [positions_append, ← describes.entries, hasTag, tagged,
      clausesUnder_enterAll]
    have fresh :
        (clausesUnder draft.entries under).getLast? ≠ some clauses.length := by
      intro last
      exact Nat.lt_irrefl _ (describes.lt_of_mem (List.mem_of_getLast? last))
    by_cases here : under ∈ pairs.map Prod.fst
    · have contained : (pairs.map Prod.fst).contains under = true := by
        simpa using here
      rw [if_pos here, withLast, if_neg fresh, Option.any_some,
        if_pos contained]
    · have missing : ¬ (pairs.map Prod.fst).contains under = true := by
        simpa using here
      rw [if_neg here, Option.any_some, if_neg missing, List.append_nil]
  distinct := nodup_enterAll _ pairs describes.distinct

theorem register_eq_some {position : Nat} {found : List Discriminator}
    {next : TableDraft}
    (registered : draft.register position found = some next) :
    ∃ key, agreeOn draft.key found = some key ∧
      ((∃ pairs, found.mapM pair? = some pairs ∧
          next = { draft with
            key
            entries :=
              pairs.foldl (fun entries tag => enter position tag entries)
              draft.entries }) ∨
        (found.mapM pair? = none ∧
          next = { draft with key }.fallBack position)) := by
  obtain ⟨key, agrees, rest⟩ := Option.bind_eq_some_iff.mp registered
  refine ⟨key, agrees, ?_⟩
  have paired :
      (found.mapM fun discriminator =>
        discriminator.value.scalarKey?.map fun tag =>
          (tag, discriminator.value)) = found.mapM pair? := rfl
  simp only [paired] at rest
  cases pairs : found.mapM pair? with
  | some pairs' =>
      rw [pairs] at rest
      cases rest
      exact .inl ⟨pairs', rfl, rfl⟩
  | none =>
      rw [pairs] at rest
      cases rest
      exact .inr ⟨rfl, rfl⟩

theorem Describes.register
    (describes : draft.Describes compiler priority clauses)
    {found : List Discriminator}
    (discriminators : compiler.discriminators? priority clause = some found)
    {next : TableDraft}
    (registered : draft.register clauses.length found = some next) :
    next.Describes compiler priority (clauses ++ [clause]) := by
  obtain ⟨key, agrees, taken⟩ := register_eq_some registered
  obtain ⟨named, kept⟩ := agreeOn_eq_some agrees
  have agree :
      ∀ others, compiler.discriminators? priority clause = some others →
      ∀ discriminator ∈ others, key = some discriminator.key := by
    intro others same
    obtain rfl := Option.some.inj (discriminators.symm.trans same)
    exact named
  have tags : tags? compiler priority clause =
      (found.mapM pair?).map (List.map Prod.fst) := by
    rw [tags?, discriminators, Option.bind_some, mapM_pair?]
  rcases taken with ⟨pairs, paired, rfl⟩ | ⟨unpaired, rfl⟩
  · rw [paired] at tags
    exact describes.enterAll kept agree tags
  · rw [unpaired] at tags
    exact describes.fallBack kept agree tags

end TableDraft

namespace DispatchTable

open TableDraft

variable {m : Type → Type} {ρ : Type}
variable {compiler : Compiler m} {priority : List String}

/-- A draft with one more clause taken up. -/
def takeUp (compiler : Compiler m) (priority : List String) (draft : TableDraft)
    (entry : Clause m ρ × Nat) : Option TableDraft :=
  match compiler.discriminators? priority entry.1 with
  | none => some (draft.fallBack entry.2)
  | some found => draft.register entry.2 found

theorem draft_eq_foldlM (clauses : List (Clause m ρ)) :
    draft clauses compiler priority =
      clauses.zipIdx.foldlM (takeUp compiler priority) {} := rfl

/-- Induction over the clauses taken up in a draft: each one falls back or is
registered. -/
theorem draft_induction {motive : TableDraft → List (Clause m ρ) → Prop}
    (start : motive {} [])
    (fallBack : ∀ draft clauses clause, motive draft clauses →
      compiler.discriminators? priority clause = none →
      motive (draft.fallBack clauses.length) (clauses ++ [clause]))
    (register : ∀ draft clauses clause found next, motive draft clauses →
      compiler.discriminators? priority clause = some found →
      draft.register clauses.length found = some next →
      motive next (clauses ++ [clause]))
    {clauses : List (Clause m ρ)} {last : TableDraft}
    (drafted : draft clauses compiler priority = some last) :
    motive last clauses := by
  suffices general : ∀ (later earlier : List (Clause m ρ)) (draft : TableDraft),
      motive draft earlier →
      (later.zipIdx earlier.length).foldlM (takeUp compiler priority) draft =
        some last →
      motive last (earlier ++ later) by
    rw [draft_eq_foldlM] at drafted
    exact general clauses [] {} start drafted
  intro later
  induction later with
  | nil =>
      intro earlier draft holds run
      cases run
      rwa [List.append_nil]
  | cons clause later induction =>
      intro earlier draft holds run
      rw [List.zipIdx_cons, List.foldlM_cons] at run
      obtain ⟨next, taken, rest⟩ := Option.bind_eq_some_iff.mp run
      have further : motive next (earlier ++ [clause]) := by
        cases discriminators : compiler.discriminators? priority clause with
        | none =>
            simp only [takeUp, discriminators, Option.some.injEq] at taken
            rw [← taken]
            exact fallBack draft earlier clause holds discriminators
        | some found =>
            simp only [takeUp, discriminators] at taken
            exact register draft earlier clause found
              next holds discriminators taken
      have position : earlier.length + 1 = (earlier ++ [clause]).length := by
        simp
      rw [position] at rest
      simpa using induction (earlier ++ [clause]) next further rest

theorem describes_draft {clauses : List (Clause m ρ)} {last : TableDraft}
    (drafted : draft clauses compiler priority = some last) :
    last.Describes compiler priority clauses := by
  apply draft_induction _ _ _ drafted
  · exact ⟨nofun, rfl, fun _ => rfl, List.Pairwise.nil⟩
  · intro draft clauses clause describes discriminators
    refine describes.fallBack (fun _ same => same) ?_
      (by rw [tags?, discriminators]; rfl)
    intro found same
    rw [discriminators] at same
    cases same
  · intro draft clauses clause found next describes discriminators registered
    exact describes.register discriminators registered

variable {config : Config} {clauses : List (Clause m ρ)} {table : DispatchTable}

theorem exists_draft_finish
    (built : build? clauses compiler config = some table) :
    ∃ last : TableDraft, draft clauses compiler config.priority = some last ∧
      last.finish = some table := by
  unfold build? at built
  split at built
  · cases built
  · exact Option.bind_eq_some_iff.mp built

theorem exists_draft (built : build? clauses compiler config = some table) :
    ∃ last : TableDraft, last.Describes compiler config.priority clauses ∧
      last.key = some table.key ∧ last.fallback = table.fallback ∧
      table.entries = last.entries.map fun entry =>
        { entry with
          candidates := entry.clauses.merge last.fallback
            (fun x y => decide (x ≤ y)) } := by
  obtain ⟨last, drafted, finished⟩ := exists_draft_finish built
  obtain ⟨key, named, rfl⟩ := Option.map_eq_some_iff.mp finished
  exact ⟨last, describes_draft drafted, named, rfl, rfl⟩

/-- Whether a clause can hit for an object with this scalar at the key of the
table. -/
def keeps (compiler : Compiler m) (priority : List String)
    (found : Option ScalarKey)
    (clause : Clause m ρ) : Bool :=
  found.any (hasTag compiler priority · clause) ||
    (tags? compiler priority clause).isNone

theorem merge_keeps {last : TableDraft}
    (describes : last.Describes compiler priority clauses) (key : ScalarKey) :
    (clausesUnder last.entries key).merge last.fallback
      (fun x y => decide (x ≤ y)) =
      positions (keeps compiler priority (some key)) clauses := by
  rw [describes.entries, describes.fallback]
  apply merge_positions
  intro clause tagged
  cases tags : tags? compiler priority clause with
  | none => simp [hasTag, tags] at tagged
  | some _ => rfl

/-- For an object, the clauses of the fallback are visited and those that the
scalar at the key of the table belongs to. -/
theorem casesToVisit_object
    (built : build? clauses compiler config = some table) (members : Members) :
    casesToVisit clauses.length (some table) (.object members) =
      positions (keeps compiler config.priority
        ((members.get? table.key).bind Json.scalarKey?)) clauses := by
  obtain ⟨last, describes, _, fallback, entries⟩ := exists_draft built
  have looked : (Members.get? members table.key).bind table.entry? =
      ((members.get? table.key).bind Json.scalarKey?).bind fun key =>
        table.entries.find? fun entry => entry.key == key := by
    rw [Option.bind_assoc]
    rfl
  rw [casesToVisit, route, looked]
  cases (members.get? table.key).bind Json.scalarKey? with
  | none =>
      change table.fallback = _
      rw [← fallback, describes.fallback]
      rfl
  | some key =>
      rw [Option.bind_some, ← merge_keeps describes key,
        entries, List.find?_map, clausesUnder, ← fallback]
      simp only [Function.comp_def]
      cases last.entries.find? fun entry => entry.key == key with
      | none => exact (List.nil_merge _).symm
      | some entry => rfl

theorem casesToVisit_of_notKeyed {input : Json}
    (unkeyed : table.lookup input = .notKeyed) (count : Nat) :
    casesToVisit count (some table) input = List.range count := by
  cases input with
  | object members =>
      simp only [lookup] at unkeyed
      split at unkeyed
      · cases unkeyed
      · split at unkeyed
        · cases unkeyed
        · cases unkeyed
  | _ => rfl

/-- The clauses registered under the value of an input ascend and are
visited. -/
theorem visited_of_hit (built : build? clauses compiler config = some table)
    {input value : Json} {cases : List Nat}
    (hit : table.lookup input = .hit value cases) :
    cases.Pairwise (· < ·) ∧
      ∀ case ∈ cases,
        case ∈ casesToVisit clauses.length (some table) input := by
  cases input with
  | object members =>
      simp only [lookup] at hit
      split at hit
      · cases hit
      · rename_i carried held
        split at hit
        · rename_i entry found
          cases hit
          obtain ⟨key, shown, listed⟩ := Option.bind_eq_some_iff.mp found
          obtain ⟨last, describes, _, _, entries⟩ := exists_draft built
          have registered : entry.clauses =
              positions (hasTag compiler config.priority key) clauses := by
            rw [entries, List.find?_map] at listed
            obtain ⟨drafted, met, rfl⟩ := Option.map_eq_some_iff.mp listed
            simp only [Function.comp_def] at met
            rw [← describes.entries key, clausesUnder, met]
            rfl
          rw [casesToVisit_object built, held, Option.bind_some,
            shown, registered]
          refine ⟨pairwise_positions _ _, fun case member => ?_⟩
          obtain ⟨clause, stands, tagged⟩ := mem_positions.mp member
          exact mem_positions.mpr ⟨clause, stands, by simp [keeps, tagged]⟩
        · cases hit
  | _ => cases hit

private theorem excludes_of_dropped {last : TableDraft} {key : String}
    {clause : Clause m ρ}
    (describes : last.Describes compiler priority clauses)
    (named : last.key = some key)
    (member : clause ∈ clauses) (input : Json)
    (dropped : keeps compiler priority
      ((input.member? key).bind Json.scalarKey?) clause =
      false) :
    clause.validators ≠ [] ∧ ∀ validator ∈ clause.validators, ∃ discriminator,
      compiler.discriminator? validator priority = some discriminator ∧
        discriminator.Excludes input := by
  obtain ⟨missing, tagged⟩ := Bool.or_eq_false_iff.mp dropped
  obtain ⟨tags, told⟩ : ∃ tags, tags? compiler priority clause = some tags := by
    cases told : tags? compiler priority clause with
    | none => simp [told] at tagged
    | some tags => exact ⟨tags, rfl⟩
  obtain ⟨found, discriminators, scalars⟩ := Option.bind_eq_some_iff.mp told
  have agrees := describes.agree clause member found discriminators
  unfold Compiler.discriminators? at discriminators
  split at discriminators
  · cases discriminators
  · rename_i some_validator
    refine ⟨fun none_validator => some_validator (by rw [none_validator]; rfl),
      ?_⟩
    intro validator listed
    obtain ⟨discriminator, taken, given⟩ := exists_of_mapM discriminators listed
    obtain ⟨scalar, tag, shown⟩ := exists_of_mapM scalars taken
    refine ⟨discriminator, given, scalar, shown, fun carried => ?_⟩
    obtain rfl :=
      Option.some.inj (named.symm.trans (agrees discriminator taken))
    have contained : tags.contains scalar = true := by simpa using tag
    rw [carried, Option.any_some, hasTag, told, Option.any_some,
      contained] at missing
    cases missing

/-- The clauses visited are those that a condition keeps.  A clause that it
drops has validators, and each of them has a discriminator that excludes the
input. -/
theorem exists_kept (table : Option DispatchTable)
    (own : ∀ built, table = some built →
      build? clauses compiler config = some built)
    (input : Json) :
    ∃ keep : Clause m ρ → Bool,
      casesToVisit clauses.length table input = positions keep clauses ∧
      ∀ clause ∈ clauses, keep clause = false → clause.validators ≠ [] ∧
        ∀ validator ∈ clause.validators, ∃ discriminator,
          compiler.discriminator? validator config.priority =
            some discriminator ∧
            discriminator.Excludes input := by
  have all : casesToVisit clauses.length none input =
      positions (fun _ => true) clauses := (positions_true clauses).symm
  cases table with
  | none => exact ⟨fun _ => true, all, nofun⟩
  | some table =>
      cases input with
      | object members =>
          have built := own table rfl
          obtain ⟨last, describes, named, _⟩ := exists_draft built
          exact ⟨_, casesToVisit_object built members,
            fun clause member dropped =>
              excludes_of_dropped describes named member
                (.object members) dropped⟩
      | _ => exact ⟨fun _ => true, all, nofun⟩

end DispatchTable

end JsonMatch
