import Mathlib.Data.List.Basic
import Mathlib.Data.List.Induction

/-!
# Lists without repetitions, and lists of results

A list without its repetitions keeps the first occurrence of everything, and
when only neighbours are compared this needs a list in ascending order.  A list
in the order of its keys is the concatenation of its groups.  A function that
may fail has results for a list when it has one for every item, and its first
result is found also where items without one are left out.
-/

namespace JsonMatch

section Repetitions

variable {α κ : Type} [DecidableEq κ]

theorem eraseDups_concat (items : List κ) (last : κ) :
    (items ++ [last]).eraseDups =
      if last ∈ items then items.eraseDups else items.eraseDups ++ [last] := by
  rw [List.eraseDups_append]
  by_cases known : last ∈ items
  · simp [List.removeAll, known]
  · simp [List.removeAll, known, List.eraseDups_cons]

theorem nodup_eraseDups (items : List κ) : items.eraseDups.Nodup := by
  induction items using List.reverseRecOn with
  | nil => exact List.nodup_nil
  | append_singleton items last induction =>
      rw [eraseDups_concat]
      split
      · exact induction
      · rename_i new
        apply List.nodup_append.mpr
        refine ⟨induction, List.pairwise_singleton _ last, ?_⟩
        intro item known other final same
        obtain rfl := List.mem_singleton.mp final
        exact new (List.mem_eraseDups.mp (same ▸ known))

/-- Where no key occurs twice, an item is found by its key. -/
theorem find?_key {key : α → κ} {items : List α}
    (distinct : (items.map key).Nodup) {item : α} (member : item ∈ items) :
    items.find? (fun other => key other == key item) = some item := by
  induction items with
  | nil => cases member
  | cons first others induction =>
      rw [List.map_cons, List.nodup_cons] at distinct
      rcases List.mem_cons.mp member with rfl | later
      · simp
      · have different : key first ≠ key item :=
          fun same => distinct.1 (same ▸ List.mem_map_of_mem later)
        simp [different, induction distinct.2 later]

end Repetitions

section Groups

private theorem eraseReps_loop (first : Nat) (items kept : List Nat) :
    List.eraseRepsBy.loop (· == ·) first items kept =
      kept.reverse ++ List.eraseReps (first :: items) := by
  have unfolded (first : Nat) (items : List Nat) :
      List.eraseReps (first :: items) =
      List.eraseRepsBy.loop (· == ·) first items [] := rfl
  induction items generalizing first kept with
  | nil => simp [unfolded, List.eraseRepsBy.loop]
  | cons next items induction =>
      rw [unfolded, List.eraseRepsBy.loop, List.eraseRepsBy.loop]
      split
      · rw [induction, ← unfolded]
      · rw [induction, induction, List.reverse_cons, List.append_assoc]
        rfl

theorem eraseReps_cons_cons (first next : Nat) (items : List Nat) :
    (first :: next :: items).eraseReps =
      if first = next then (next :: items).eraseReps
      else first :: (next :: items).eraseReps := by
  have unfolded : (first :: next :: items).eraseReps =
      List.eraseRepsBy.loop (· == ·) first (next :: items) [] := rfl
  rw [unfolded, List.eraseRepsBy.loop]
  by_cases same : first = next
  · subst same
    simp [eraseReps_loop]
  · rw [beq_eq_false_iff_ne.mpr same, if_neg same]
    exact eraseReps_loop next items [first]

theorem mem_eraseReps {items : List Nat} {item : Nat} :
    item ∈ items.eraseReps ↔ item ∈ items := by
  induction items with
  | nil => rfl
  | cons first items induction =>
      cases items with
      | nil => rfl
      | cons next items =>
          rw [eraseReps_cons_cons, List.mem_cons]
          split
          · rename_i same
            rw [induction, same, List.mem_cons, or_self_left]
          · rw [List.mem_cons, induction]

theorem pairwise_eraseReps {items : List Nat}
    (ascending : items.Pairwise (· ≤ ·)) :
    items.eraseReps.Pairwise (· < ·) := by
  induction items with
  | nil => exact .nil
  | cons first items induction =>
      obtain ⟨least, rest⟩ := List.pairwise_cons.mp ascending
      have restAscends := induction rest
      cases items with
      | nil => exact List.pairwise_singleton _ first
      | cons next items =>
          rw [eraseReps_cons_cons]
          split
          · exact restAscends
          · rename_i differs
            refine List.pairwise_cons.mpr ⟨?_, restAscends⟩
            intro later member
            have below := least next List.mem_cons_self
            rcases List.mem_cons.mp (mem_eraseReps.mp member) with rfl | listed
            · omega
            · have := (List.pairwise_cons.mp rest).1 later listed
              omega

variable {α : Type} {key : α → Nat}

private theorem filter_append_filter {items : List α} {first : Nat}
    (ordered : items.Pairwise fun item other => key item ≤ key other)
    (least : ∀ item ∈ items, first ≤ key item) :
    items.filter (fun item => key item == first) ++
        items.filter (fun item => key item != first) = items := by
  induction items with
  | nil => rfl
  | cons item items induction =>
      obtain ⟨before, rest⟩ := List.pairwise_cons.mp ordered
      have leastOfRest : ∀ other ∈ items, first ≤ key other := by
        intro other member
        exact least other (List.mem_cons_of_mem _ member)
      by_cases same : key item = first
      · simp [same, induction rest leastOfRest]
      · have here := least item List.mem_cons_self
        have none_first :
            items.filter (fun other => key other == first) = [] := by
          apply List.filter_eq_nil_iff.mpr
          intro other member
          have := before other member
          simp only [beq_iff_eq]
          omega
        have all_later : items.filter (fun other => key other != first) =
            items := by
          apply List.filter_eq_self.mpr
          intro other member
          have := before other member
          simp only [bne_iff_ne]
          omega
        simp [same, none_first, all_later]

/-- A list in the order of its keys is the concatenation of its groups, key by
key. -/
theorem flatMap_filter_key {keys : List Nat} {items : List α}
    (ascending : keys.Pairwise (· < ·))
    (ordered : items.Pairwise fun item other => key item ≤ key other)
    (known : ∀ item ∈ items, key item ∈ keys) :
    keys.flatMap (fun first => items.filter fun item => key item == first) =
      items := by
  induction keys generalizing items with
  | nil =>
      cases items with
      | nil => rfl
      | cons item items => exact nomatch known item List.mem_cons_self
  | cons first keys induction =>
      obtain ⟨before, rest⟩ := List.pairwise_cons.mp ascending
      have least : ∀ item ∈ items, first ≤ key item := by
        intro item member
        rcases List.mem_cons.mp (known item member) with same | later
        · omega
        · have := before _ later
          omega
      have others : ∀ other ∈ keys,
          (items.filter fun item => key item == other) =
            (items.filter fun item => key item != first).filter
              fun item => key item == other := by
        intro other member
        rw [List.filter_filter]
        apply List.filter_congr
        intro item _
        have := before other member
        by_cases same : key item = other
        · simp [same]
          omega
        · simp [same]
      have remaining : keys.flatMap (fun other =>
          items.filter fun item => key item == other) =
            items.filter fun item => key item != first := by
        rw [List.flatMap_congr others]
        apply induction rest (ordered.filter _)
        intro item member
        obtain ⟨listed, differs⟩ := List.mem_filter.mp member
        rcases List.mem_cons.mp (known item listed) with same | later
        · simp [same] at differs
        · exact later
      rw [List.flatMap_cons, remaining]
      exact filter_append_filter ordered least

end Groups

section Results

variable {α β : Type} {function : α → Option β} {items : List α}
    {results : List β}

theorem mem_of_mapM (mapped : items.mapM function = some results) {result : β} :
    result ∈ results ↔ ∃ item ∈ items, function item = some result := by
  induction items generalizing results with
  | nil =>
      cases mapped
      simp
  | cons first others induction =>
      rw [List.mapM_cons] at mapped
      obtain ⟨head, given, rest⟩ := Option.bind_eq_some_iff.mp mapped
      obtain ⟨tail, later, same⟩ := Option.bind_eq_some_iff.mp rest
      cases same
      simp [induction later, given, eq_comm]

theorem exists_mapM
    (given : ∀ item ∈ items, ∃ result, function item = some result) :
    ∃ results, items.mapM function = some results := by
  induction items with
  | nil => exact ⟨[], rfl⟩
  | cons first others induction =>
      obtain ⟨head, found⟩ := given first List.mem_cons_self
      obtain ⟨tail, later⟩ := induction fun item member =>
        given item (List.mem_cons_of_mem _ member)
      refine ⟨head :: tail, ?_⟩
      simp [found, later]

theorem exists_of_mapM (mapped : items.mapM function = some results) {item : α}
    (member : item ∈ items) :
    ∃ result ∈ results, function item = some result := by
  induction items generalizing results with
  | nil => cases member
  | cons first others induction =>
      rw [List.mapM_cons] at mapped
      obtain ⟨head, given, rest⟩ := Option.bind_eq_some_iff.mp mapped
      obtain ⟨tail, later, same⟩ := Option.bind_eq_some_iff.mp rest
      cases same
      rcases List.mem_cons.mp member with rfl | further
      · exact ⟨head, List.mem_cons_self, given⟩
      · obtain ⟨result, listed, found⟩ := induction later further
        exact ⟨result, List.mem_cons_of_mem _ listed, found⟩

theorem findSome?_filter {keep : α → Bool}
    (dropped : ∀ item ∈ items, keep item = false → function item = none) :
    (items.filter keep).findSome? function = items.findSome? function := by
  induction items with
  | nil => rfl
  | cons first others induction =>
      have rest := induction fun item member => dropped item
        (List.mem_cons_of_mem _ member)
      rw [List.findSome?_cons, List.filter_cons]
      cases kept : keep first with
      | true => rw [if_pos rfl, List.findSome?_cons, rest]
      | false =>
          rw [if_neg Bool.false_ne_true, dropped first List.mem_cons_self kept]
          exact rest

end Results

end JsonMatch
