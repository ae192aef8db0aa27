import JsonMatch.Proofs.Workspaces

/-!
# Lists that branch

Lists and matchers of a workspace are continued in any order and any number of
times, and lists are asked for their clauses in between, by themselves or by a
matcher that runs.  Each of them has the clauses that were added on its own
branch, in their order.  The branches are followed on plain lists, without
identities, memory or sharing.
-/

namespace JsonMatch

variable {m : Type → Type} {ρ ε σ : Type}

/-- The clauses that were added on the branches of lists and of matchers. -/
structure Branches (m : Type → Type) (ρ : Type) where
  lists : List (List (Clause m ρ)) := []
  matchers : List (List (Clause m ρ)) := []

namespace Branches

/-- Continues one of the branches by clauses that are all well formed. -/
def extend (branches : List (List (Clause m ρ))) (index : Nat)
    (added : List (Clause m ρ)) : List (List (Clause m ρ)) :=
  match branches[index]? with
  | none => branches
  | some branch =>
      if added.all Clause.isWellFormed then branches ++ [branch ++ added]
      else branches

theorem extend_of_none {branches : List (List (Clause m ρ))} {index : Nat}
    (none : branches[index]? = none) (added : List (Clause m ρ)) :
    extend branches index added = branches := by
  rw [extend, none]

theorem extend_of_wellFormed {branches : List (List (Clause m ρ))} {index : Nat}
    {branch : List (Clause m ρ)} (found : branches[index]? = some branch)
    {added : List (Clause m ρ)}
    (wellFormed : added.all Clause.isWellFormed = true) :
    extend branches index added = branches ++ [branch ++ added] := by
  rw [extend, found]
  exact if_pos wellFormed

theorem extend_of_malformed (branches : List (List (Clause m ρ))) (index : Nat)
    {clause : Clause m ρ} (malformed : clause.isWellFormed = false) :
    extend branches index [clause] = branches := by
  have refused : ¬[clause].all Clause.isWellFormed = true := by simp [malformed]
  rw [extend]
  split
  · rfl
  · exact if_neg refused

def perform (branches : Branches m ρ) : Operation m ρ → Branches m ρ
  | .start => { branches with lists := branches.lists ++ [[]] }
  | .create _ _ => { branches with matchers := branches.matchers ++ [[]] }
  | .take index =>
      { branches with
        lists := branches.lists ++ branches.matchers[index]?.toList }
  | .push index clause =>
      { branches with lists := extend branches.lists index [clause] }
  | .revise index revision =>
      { branches with
        matchers := extend branches.matchers index revision.added }
  | .copy index =>
      { branches with
        matchers := branches.matchers ++ branches.matchers[index]?.toList }
  | _ => branches

/-- The branches after some operations. -/
def after (operations : List (Operation m ρ)) : Branches m ρ :=
  operations.foldl perform {}

end Branches

namespace Workspace

/-- The branches that the lists and the matchers of a workspace stand for. -/
def branches (workspace : Workspace m ρ σ) : Branches m ρ where
  lists := workspace.lists.map ClauseList.toList
  matchers := workspace.matchers.map fun matcher => matcher.clauses.toList

section Branches

variable {workspace : Workspace m ρ σ} {index : Nat}

theorem branches_addList (workspace : Workspace m ρ σ) (list : ClauseList m ρ) :
    (workspace.addList list).branches =
      { workspace.branches with
        lists := workspace.branches.lists ++ [list.toList] } := by
  simp [branches, addList]

theorem branches_addMatcher (workspace : Workspace m ρ σ)
    (matcher : Matcher m ρ) :
    (workspace.addMatcher matcher).branches =
      { workspace.branches with
        matchers := workspace.branches.matchers ++
          [matcher.clauses.toList] } := by
  simp [branches, addMatcher]

theorem branches_lists_at {found : Option (ClauseList m ρ)}
    (lookup : workspace.lists[index]? = found) :
    workspace.branches.lists[index]? = found.map ClauseList.toList := by
  rw [branches, List.getElem?_map, lookup]

theorem branches_matchers_at {found : Option (Matcher m ρ)}
    (lookup : workspace.matchers[index]? = found) :
    workspace.branches.matchers[index]? =
      found.map fun matcher => matcher.clauses.toList := by
  rw [branches, List.getElem?_map, lookup]

variable [Runs m ε σ]

private theorem branches_push {list : ClauseList m ρ}
    (found : workspace.lists[index]? = some list) (clause : Clause m ρ) :
    (workspace.takeUp (return list.push (← freshIdentity m) clause)
      addList).2.branches = { workspace.branches with
        lists := Branches.extend workspace.branches.lists index [clause] } := by
  rw [takeUp, runIn_push]
  cases wellFormed : clause.isWellFormed with
  | true =>
      have all : [clause].all Clause.isWellFormed = true := by simp [wellFormed]
      rw [list.push_of_wellFormed _ wellFormed,
        Branches.extend_of_wellFormed (branches_lists_at found) all,
        ← list.toList_append workspace.store.next]
      exact branches_addList _ _
  | false =>
      rw [list.push_of_malformed _ wellFormed,
        Branches.extend_of_malformed _ _ wellFormed]
      rfl

private theorem branches_revise {matcher : Matcher m ρ}
    (found : workspace.matchers[index]? = some matcher)
    (revision : Revision m ρ) :
    (workspace.takeUp (revision.apply matcher) addMatcher).2.branches =
      { workspace.branches with
        matchers :=
          Branches.extend workspace.branches.matchers
            index revision.added } := by
  have branch : workspace.branches.matchers[index]? =
      some matcher.clauses.toList :=
    branches_matchers_at found
  have comes := revision.derive_comesTo matcher workspace.store
  rw [takeUp, runIn_apply]
  generalize revision.derive matcher workspace.store = derived at comes ⊢
  cases comes with
  | kept derived cell compiler added clauses =>
      rw [added, Branches.extend_of_wellFormed branch rfl,
        List.append_nil, ← clauses]
      exact branches_addMatcher _ _
  | grown derived clause cell compiler added wellFormed clauses =>
      have all : [clause].all Clause.isWellFormed = true := by simp [wellFormed]
      rw [added, Branches.extend_of_wellFormed branch all,
        ← ClauseList.toList_append _ workspace.store.next, ← clauses]
      exact branches_addMatcher _ _
  | refused clause added malformed =>
      rw [added, Branches.extend_of_malformed _ _ malformed]
      rfl

variable [Monad m] [Rescue m]

/-- Every operation is followed on the branches. -/
theorem branches_perform (workspace : Workspace m ρ σ)
    (operation : Operation m ρ) :
    (workspace.perform operation).2.branches =
      workspace.branches.perform operation := by
  cases operation with
  | start => exact branches_addList workspace .nil
  | create config compiler => exact branches_addMatcher (workspace.advance _) _
  | take index =>
      rw [perform, withItem, Branches.perform]
      cases found : workspace.matchers[index]? with
      | none =>
          rw [branches_matchers_at found]
          change workspace.branches =
            { workspace.branches with lists := workspace.branches.lists ++ [] }
          rw [List.append_nil]
      | some matcher =>
          rw [branches_matchers_at found]
          exact branches_addList workspace matcher.clauses
  | push index clause =>
      rw [perform, withItem, Branches.perform]
      cases found : workspace.lists[index]? with
      | none => rw [Branches.extend_of_none (branches_lists_at found)]
      | some list => exact branches_push found clause
  | revise index revision =>
      rw [perform, withItem, Branches.perform]
      cases found : workspace.matchers[index]? with
      | none => rw [Branches.extend_of_none (branches_matchers_at found)]
      | some matcher => exact branches_revise found revision
  | copy index =>
      rw [perform, withItem, Branches.perform]
      cases found : workspace.matchers[index]? with
      | none =>
          rw [branches_matchers_at found]
          change workspace.branches =
            { workspace.branches with
              matchers := workspace.branches.matchers ++ [] }
          rw [List.append_nil]
      | some matcher =>
          rw [branches_matchers_at found]
          exact branches_addMatcher workspace matcher
  | materialize index =>
      rw [perform, withItem]
      cases workspace.lists[index]? <;> rfl
  | compile compiler validator => rfl
  | execute index waiting input =>
      rw [perform, withItem]
      cases workspace.matchers[index]? <;> rfl
  | diagnose index waiting schedule input =>
      rw [perform, withItem]
      cases workspace.matchers[index]? <;> rfl
  | retire validator => rfl

theorem branches_after (world : σ) (operations : List (Operation m ρ)) :
    (after world operations).branches = Branches.after operations :=
  (List.foldl_hom branches fun workspace operation =>
    (branches_perform workspace operation).symm).symm

end Branches

/-- The clauses that a list gives when it is asked for them. -/
def clausesOf (workspace : Workspace m ρ σ) (list : ClauseList m ρ) :
    List (Clause m ρ) :=
  (workspace.sequences.ask list).1.map Prod.snd

/-- Whether an operation is refused for a clause without validators at a
position, and takes identities but nothing else. -/
def Refuses [Monad m] [Rescue m] [Runs m ε σ] (workspace : Workspace m ρ σ)
    (operation : Operation m ρ) (case : Nat) : Prop :=
  ∃ next, workspace.perform operation =
    (some (.malformed case ClauseList.missingSchema), workspace.advance next)

variable [Monad m] {workspace : Workspace m ρ σ}

theorem Orderly.clausesOf_eq (orderly : workspace.Orderly)
    {list : ClauseList m ρ} (member : list ∈ workspace.held) :
    workspace.clausesOf list = list.toList := by
  rw [clausesOf, orderly.ask_eq member]
  rfl

theorem Orderly.lists_eq (orderly : workspace.Orderly) :
    workspace.lists.map workspace.clausesOf = workspace.branches.lists := by
  apply List.map_congr_left
  intro list member
  exact orderly.clausesOf_eq (mem_held_of_list member)

theorem Orderly.matchers_eq (orderly : workspace.Orderly) :
    workspace.matchers.map
      (fun matcher => workspace.clausesOf matcher.clauses) =
      workspace.branches.matchers := by
  apply List.map_congr_left
  intro matcher member
  exact orderly.clausesOf_eq (mem_held_of_matcher member)

variable [Rescue m] [Runs m ε σ]

theorem refuses_push {index : Nat} {list : ClauseList m ρ}
    (found : workspace.lists[index]? = some list) {clause : Clause m ρ}
    (malformed : clause.isWellFormed = false) :
    workspace.Refuses (.push index clause) list.length := by
  refine ⟨workspace.store.next + 1, ?_⟩
  rw [perform, withItem, found]
  dsimp only
  rw [takeUp, runIn_push, list.push_of_malformed _ malformed]
  rfl

theorem refuses_clauseOfAny {index : Nat} {matcher : Matcher m ρ}
    (found : workspace.matchers[index]? = some matcher)
    (guard : Option (Guard m)) (handler : Handler m ρ) :
    workspace.Refuses (.revise index (.clauseOfAny [] guard handler))
      matcher.clauses.length := by
  refine ⟨workspace.store.next + 1, ?_⟩
  rw [perform, withItem, found]
  rfl

/-- Every list and every matcher has the clauses that were added on its own
branch, in their order, whichever lists were asked for their clauses in between;
the length that is kept for a list is the number of its clauses; and every
clause has a validator if it has to have one.  A clause without validators is
refused at the position that it would have had, and nothing else is changed. -/
theorem after_keeps_branches (world : σ) (operations : List (Operation m ρ)) :
    let workspace := after world operations
    let branches := Branches.after operations
    workspace.lists.map workspace.clausesOf = branches.lists ∧
      workspace.matchers.map
        (fun matcher => workspace.clausesOf matcher.clauses) =
        branches.matchers ∧
      (∀ list ∈ workspace.held,
        (Engine.runIn list.sequence workspace.toMachine).1 = .ok list.entries ∧
          list.length = (workspace.clausesOf list).length ∧
          ∀ validators guard handler,
            .schemas validators guard handler ∈ workspace.clausesOf list →
            validators ≠ []) ∧
      (∀ index list guard handler, workspace.lists[index]? = some list →
        workspace.Refuses (.push index (.schemas [] guard handler))
          list.length) ∧
      ∀ index matcher guard handler, workspace.matchers[index]? = some matcher →
        workspace.Refuses (.revise index (.clauseOfAny [] guard handler))
          matcher.clauses.length := by
  intro workspace branches
  have orderly : workspace.Orderly := .after world operations
  have followed : workspace.branches = branches :=
    branches_after world operations
  rw [← followed]
  refine ⟨orderly.lists_eq, orderly.matchers_eq, ?_, ?_, ?_⟩
  · intro list member
    have made := orderly.wellFormed list member
    rw [orderly.clausesOf_eq member]
    refine ⟨?_, made.length_toList.symm, ?_⟩
    · exact congrArg Except.ok (orderly.ask_eq member)
    · rintro validators guard handler listed rfl
      cases made.of_mem _ listed
  · intro index list guard handler found
    exact refuses_push found rfl
  · intro index matcher guard handler found
    exact refuses_clauseOfAny found guard handler

/-- Two lists that continue a third one, which is asked for its clauses before
and after, and a matcher that runs before its list is taken up and continued. -/
theorem after_keeps_branches_shared :
    let handler : Handler Id Nat := ⟨false, fun _ _ => 0⟩
    let predicate (suspends : Bool) : Clause Id Nat :=
      .when ⟨suspends, fun _ => true⟩ handler
    let schemas (validators : List (Validator Id)) : Clause Id Nat :=
      .schemas validators none handler
    let string : Validator Id := .ofSchema 1 (.primitive .string)
    let operations : List (Operation Id Nat) :=
      [.start, .push 0 (predicate true), .materialize 1,
        .push 1 (schemas [string]),
        .push 1 (predicate false), .push 1 (schemas []),
        .materialize 2, .materialize 1,
        .create {} .shared, .revise 0 (.clause string handler),
        .execute 1 .refuse .null, .take 1, .push 4 (predicate true)]
    let workspace := after () operations
    workspace.lists.map workspace.clausesOf =
        [[], [predicate true], [predicate true, schemas [string]],
          [predicate true, predicate false], [schemas [string]],
          [schemas [string], predicate true]] ∧
      workspace.Refuses (.push 3 (schemas [])) 2 ∧
      workspace.Refuses (.revise 1 (.clauseOfAny [] none handler)) 1 := by
  intro handler predicate schemas string operations
  obtain ⟨lists, matchers, each, push, clauseOfAny⟩ :=
    after_keeps_branches () operations
  have branches : Branches.after operations =
      ⟨[[], [predicate true], [predicate true, schemas [string]],
        [predicate true, predicate false], [schemas [string]],
        [schemas [string], predicate true]], [[], [schemas [string]]]⟩ := rfl
  rw [branches] at lists matchers
  generalize after () operations =
    workspace at lists matchers each push clauseOfAny ⊢
  have branch : (workspace.lists.map workspace.clausesOf)[3]? =
      some [predicate true, predicate false] := by
    rw [lists]
    rfl
  have branchOfMatcher : (workspace.matchers.map fun matcher =>
      workspace.clausesOf matcher.clauses)[1]? = some [schemas [string]] := by
    rw [matchers]
    rfl
  rw [List.getElem?_map] at branch branchOfMatcher
  obtain ⟨list, found, clauses⟩ := Option.map_eq_some_iff.mp branch
  obtain ⟨matcher, foundMatcher, clausesOfMatcher⟩ :=
    Option.map_eq_some_iff.mp branchOfMatcher
  have length : list.length = 2 := by
    rw [(each list (mem_held_of_list (List.mem_of_getElem? found))).2.1,
      clauses]
    rfl
  have lengthOfMatcher : matcher.clauses.length = 1 := by
    rw [(each _ (mem_held_of_matcher (List.mem_of_getElem? foundMatcher))).2.1,
      clausesOfMatcher]
    rfl
  have refused := push 3 list none handler found
  have refusedOfAny := clauseOfAny 1 matcher none handler foundMatcher
  rw [length] at refused
  rw [lengthOfMatcher] at refusedOfAny
  exact ⟨lists, refused, refusedOfAny⟩

end Workspace

end JsonMatch
