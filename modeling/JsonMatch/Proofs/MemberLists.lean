import JsonMatch.Value.Json

/-!
# Lists of members

A list of members with ascending keys is determined by what is found in it, so
an object that is put together member by member is known from its entries.
-/

namespace JsonMatch

namespace Members

theorem mem_of_get? {members : Members} {key : String} {value : Json}
    (found : members.get? key = some value) : (key, value) ∈ members := by
  induction members with
  | nil => cases found
  | cons member members induction =>
      obtain ⟨first, held⟩ := member
      rw [get?_cons] at found
      split at found
      · rename_i same
        cases found
        exact same ▸ List.mem_cons_self
      · exact List.mem_cons_of_mem _ (induction found)

theorem get?_eq_none {members : Members} {key : String}
    (absent : key ∉ members.keys) :
    members.get? key = none := by
  cases found : members.get? key with
  | none => rfl
  | some value => exact absurd (List.mem_map_of_mem (mem_of_get? found)) absent

namespace Ascending

theorem tail {member : String × Json} {members : Members}
    (ascending : Ascending (member :: members)) : members.Ascending :=
  (List.pairwise_cons.mp ascending).2

theorem get?_of_lt {key least : String} {value : Json} {members : Members}
    (ascending : Ascending ((least, value) :: members)) (before : key < least) :
    get? ((least, value) :: members) key = none := by
  refine get?_eq_none fun found => ?_
  rcases List.mem_cons.mp found with same | later
  · exact String.lt_irrefl key (same ▸ before)
  · have after := (List.pairwise_cons.mp ascending).1 key later
    exact String.lt_irrefl key (String.lt_trans before after)

theorem get?_of_mem {members : Members} (ascending : members.Ascending)
    {member : String × Json} (found : member ∈ members) :
    members.get? member.1 = some member.2 := by
  induction members with
  | nil => cases found
  | cons first members induction =>
      obtain ⟨least, rest⟩ := List.pairwise_cons.mp ascending
      rw [get?_cons]
      rcases List.mem_cons.mp found with rfl | later
      · exact if_pos rfl
      · have after := least member.1 (List.mem_map_of_mem later)
        have different : member.1 ≠ first.1 := fun same =>
          String.lt_irrefl member.1 (same ▸ after)
        rw [if_neg different, induction rest later]

private theorem least_eq {key other : String} {value held : Json}
    {left right : Members}
    (rightAscending : Ascending ((other, held) :: right))
    (same : ∀ name,
      get? ((key, value) :: left) name = get? ((other, held) :: right) name) :
    ¬ key < other := by
  intro before
  have found := same key
  rw [rightAscending.get?_of_lt before, get?_cons, if_pos rfl] at found
  cases found

/-- Two ascending lists in which the same is found are one. -/
theorem ext {left right : Members} (leftAscending : left.Ascending)
    (rightAscending : right.Ascending)
    (same : ∀ key, left.get? key = right.get? key) :
    left = right := by
  induction left generalizing right with
  | nil =>
      cases right with
      | nil => rfl
      | cons member right =>
          have found := same member.1
          rw [get?_cons, if_pos rfl] at found
          cases found
  | cons member left induction =>
      obtain ⟨key, value⟩ := member
      cases right with
      | nil =>
          have found := same key
          rw [get?_cons, if_pos rfl] at found
          cases found
      | cons member right =>
          obtain ⟨other, held⟩ := member
          have notBefore := least_eq rightAscending same
          have notAfter := least_eq leftAscending fun name => (same name).symm
          obtain rfl : key = other :=
            String.le_antisymm (String.not_lt.mp notAfter)
              (String.not_lt.mp notBefore)
          have atKey := same key
          rw [get?_cons, get?_cons, if_pos rfl, if_pos rfl] at atKey
          cases atKey
          congr 1
          refine induction leftAscending.tail rightAscending.tail fun name => ?_
          by_cases first : name = key
          · subst first
            have leftAbsent : name ∉ Members.keys left := fun later =>
              String.lt_irrefl name
                ((List.pairwise_cons.mp leftAscending).1 name later)
            have rightAbsent : name ∉ Members.keys right := fun later =>
              String.lt_irrefl name
                ((List.pairwise_cons.mp rightAscending).1 name later)
            rw [get?_eq_none leftAbsent, get?_eq_none rightAbsent]
          · have further := same name
            rwa [get?_cons, get?_cons, if_neg first, if_neg first] at further

end Ascending

theorem search_eq {α : Type} {search : List (String × Json) → α} {key : String}
    {found : Json → α} {missing : α} (nil : search [] = missing)
    (cons : ∀ name value members, search ((name, value) :: members) =
      if name = key then found value else search members) (members : Members) :
    search members = ((members.get? key).map found).getD missing := by
  induction members with
  | nil => exact nil
  | cons member members induction =>
      obtain ⟨name, value⟩ := member
      rw [cons, get?_cons, induction]
      by_cases here : name = key
      · rw [if_pos here, if_pos here.symm]
        rfl
      · rw [if_neg here, if_neg (Ne.symm here)]

/-- In members added one after another, the last one at a key is found. -/
theorem get?_ofList (entries : List (String × Json)) (key : String) :
    (ofList entries).get? key = entries.reverse.lookup key := by
  suffices general : ∀ object : Members,
      (entries.foldl (fun object member => object.insert member.1 member.2)
        object).get? key =
        (entries.reverse.lookup key).or (object.get? key) by
    rw [ofList, general]
    exact Option.or_none
  induction entries with
  | nil => exact fun object => rfl
  | cons entry entries induction =>
      intro object
      rw [List.foldl_cons, induction, get?_insert, List.reverse_cons,
        List.lookup_append, Option.or_assoc]
      congr 1
      have last : List.lookup key [entry] =
          if key = entry.1 then some entry.2 else none :=
        get?_cons entry.1 key entry.2 []
      rw [last]
      split <;> rfl

theorem mem_of_mem_ofList {entries : List (String × Json)}
    {entry : String × Json} (member : entry ∈ ofList entries) :
    entry ∈ entries := by
  have found := (ascending_ofList entries).get?_of_mem member
  rw [get?_ofList] at found
  exact List.mem_reverse.mp (mem_of_get? found)

theorem exists_get?_ofList {entries : List (String × Json)}
    {entry : String × Json} (member : entry ∈ entries) :
    ∃ value, (ofList entries).get? entry.1 = some value := by
  rw [get?_ofList]
  apply Option.ne_none_iff_exists'.mp
  intro missing
  have other :=
    List.lookup_eq_none_iff.mp missing _ (List.mem_reverse.mpr member)
  simp at other

theorem get?_ofList_eq {entries : List (String × Json)}
    {expected : String → Option Json}
    (agree : ∀ entry ∈ entries, expected entry.1 = some entry.2)
    (cover : ∀ key value, expected key = some value → (key, value) ∈ entries)
    (key : String) : (ofList entries).get? key = expected key := by
  rw [get?_ofList]
  cases found : entries.reverse.lookup key with
  | some value =>
      have entry : (key, value) ∈ entries :=
        List.mem_reverse.mp (mem_of_get? found)
      exact (agree _ entry).symm
  | none =>
      cases held : expected key with
      | none => rfl
      | some value =>
          have entry := List.mem_reverse.mpr (cover key value held)
          have other := List.lookup_eq_none_iff.mp found _ entry
          simp at other

theorem ofList_eq {members : Members} (ascending : members.Ascending)
    {entries : List (String × Json)}
    (agree : ∀ entry ∈ entries, entry ∈ members)
    (cover : ∀ member ∈ members, member ∈ entries) :
    ofList entries = members := by
  apply (ascending_ofList entries).ext ascending
  apply get?_ofList_eq
  · intro entry member
    exact ascending.get?_of_mem (agree entry member)
  · intro key value held
    exact cover _ (mem_of_get? held)

end Members

namespace Json

theorem isWellFormed_array (items : List Json) :
    (array items).isWellFormed = true ↔
      ∀ item ∈ items, item.isWellFormed = true := by
  rw [isWellFormed]
  induction items with
  | nil => simp [itemsWellFormed]
  | cons item items induction => simp [itemsWellFormed, induction]

theorem isWellFormed_object (members : Members) :
    (object members).isWellFormed = true ↔
      members.Ascending ∧ ∀ member ∈ members, member.2.isWellFormed = true := by
  have values : membersWellFormed members = true ↔
      ∀ member ∈ members, member.2.isWellFormed = true := by
    induction members with
    | nil => simp [membersWellFormed]
    | cons member members induction =>
        obtain ⟨key, value⟩ := member
        simp [membersWellFormed, induction]
  rw [isWellFormed, Bool.and_eq_true, decide_eq_true_iff, values]

end Json

end JsonMatch
