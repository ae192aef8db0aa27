import JsonMatch.Proofs.Engines

/-!
# Workspaces

A workspace starts and continues lists, makes, derives and copies matchers, asks
lists for their clauses, compiles validators, and runs and diagnoses matchers,
in any order, with callbacks that may raise and share a world.  In every
workspace what is kept for a list are its own clauses, and what is kept for a
matcher is its own dispatch table.
-/

namespace JsonMatch

/-- What is done in a workspace; lists and matchers are named by their
positions. -/
inductive Operation (m : Type → Type) (ρ : Type) where
  /-- Starts a list without clauses. -/
  | start
  /-- Makes a matcher without clauses. -/
  | create (config : Config) (compiler : Compiler m)
  /-- Takes up the list of a matcher. -/
  | take (matcher : Nat)
  | push (list : Nat) (clause : Clause m ρ)
  | revise (matcher : Nat) (revision : Revision m ρ)
  | copy (matcher : Nat)
  /-- Asks a list for its clauses in order. -/
  | materialize (list : Nat)
  | compile (compiler : Compiler m) (validator : Validator m)
  | execute (matcher : Nat) (waiting : Waiting) (input : Json)
  | diagnose (matcher : Nat) (waiting : Waiting) (schedule : Schedule)
      (input : Json)
  /-- The validator of this identity goes away. -/
  | retire (validator : Identity)

section InUse

variable {m : Type → Type} {ρ : Type}

def Clause.InUse (clause : Clause m ρ) (catalogue : Catalogue m) : Prop :=
  ∀ validator ∈ clause.validators, catalogue.HasValidator validator

def Matcher.InUse (matcher : Matcher m ρ) (catalogue : Catalogue m) : Prop :=
  catalogue.HasCompiler matcher.compiler ∧
    ∀ clause ∈ matcher.clauses.toList, clause.InUse catalogue

/-- Whether an operation brings in compilers and validators that are in use
only. -/
def Operation.InUse (catalogue : Catalogue m) : Operation m ρ → Prop
  | .create _ compiler => catalogue.HasCompiler compiler
  | .revise _ (.setCompiler compiler) => catalogue.HasCompiler compiler
  | .revise _ revision => ∀ clause ∈ revision.added, clause.InUse catalogue
  | .compile compiler validator =>
      catalogue.HasCompiler compiler ∧ catalogue.HasValidator validator
  | _ => True

theorem Operation.InUse.ofClause {catalogue : Catalogue m}
    {validator : Validator m} (has : catalogue.HasValidator validator)
    {index : Nat} {handler : Handler m ρ} :
    (Operation.revise index (.clause validator handler)).InUse catalogue := by
  have inUse : Clause.InUse (.schemas [validator] none handler) catalogue :=
    List.forall_mem_singleton.mpr has
  exact List.forall_mem_singleton.mpr inUse

theorem Matcher.InUse.ofRevision {catalogue : Catalogue m}
    {matcher derived : Matcher m ρ}
    (inUse : matcher.InUse catalogue) {index : Nat} {revision : Revision m ρ}
    (brings : (Operation.revise index revision).InUse catalogue)
    (compiler : derived.compiler = revision.compilerOf matcher)
    (clauses : derived.clauses.toList = matcher.clauses.toList ++
      revision.added) :
    derived.InUse catalogue := by
  have addedInUse : ∀ clause ∈ revision.added, clause.InUse catalogue := by
    cases revision with
    | setCompiler compiler => exact nofun
    | _ => exact brings
  constructor
  · rw [compiler]
    cases revision with
    | setCompiler compiler => exact brings
    | _ => exact inUse.1
  · rw [clauses]
    exact List.forall_mem_append.mpr ⟨inUse.2, addedInUse⟩

/-- The validators that go away. -/
def Operation.gone : Operation m ρ → List Identity
  | .retire validator => [validator]
  | _ => []

end InUse

/-- The lists and the matchers made so far, with the machine that they share. -/
structure Workspace (m : Type → Type) (ρ σ : Type) extends Machine m ρ σ where
  lists : List (ClauseList m ρ) := []
  matchers : List (Matcher m ρ) := []

namespace Workspace

variable {m : Type → Type} {ρ ε σ : Type}

def addList (workspace : Workspace m ρ σ) (list : ClauseList m ρ) :
    Workspace m ρ σ :=
  { workspace with lists := workspace.lists ++ [list] }

def addMatcher (workspace : Workspace m ρ σ) (matcher : Matcher m ρ) :
    Workspace m ρ σ :=
  { workspace with matchers := workspace.matchers ++ [matcher] }

/-- The workspace with this machine. -/
def onMachine (workspace : Workspace m ρ σ) (machine : Machine m ρ σ) :
    Workspace m ρ σ :=
  { workspace with toMachine := machine }

/-- Does something with the item at a position; without one, nothing happens. -/
def withItem {α : Type} (workspace : Workspace m ρ σ) (items : List α)
    (index : Nat) (use : α → Option (Fault m) × Workspace m ρ σ) :
    Option (Fault m) × Workspace m ρ σ :=
  match items[index]? with
  | none => (none, workspace)
  | some item => use item

section Perform

variable [Runs m ε σ]

/-- Runs a computation for what it leaves. -/
def use {α : Type} (workspace : Workspace m ρ σ)
    (computation : Engine m ρ ε σ α) : Option (Fault m) × Workspace m ρ σ :=
  (none, workspace.onMachine (computation.runIn workspace.toMachine).2)

/-- Takes up what a computation makes, or gives the fault in its place. -/
def takeUp {α : Type} (workspace : Workspace m ρ σ)
    (computation : Engine m ρ ε σ (Except (Fault m) α))
    (add : Workspace m ρ σ → α → Workspace m ρ σ) :
    Option (Fault m) × Workspace m ρ σ :=
  match computation.runIn workspace.toMachine with
  | (.ok (.ok item), left) => (none, add (workspace.onMachine left) item)
  | (.ok (.error fault), left) => (some fault, workspace.onMachine left)
  | (.error _, left) => (none, workspace.onMachine left)

variable [Monad m] [Rescue m]

/-- One operation, with the fault if it is refused. -/
def perform (workspace : Workspace m ρ σ) :
    Operation m ρ → Option (Fault m) × Workspace m ρ σ
  | .start => (none, workspace.addList .nil)
  | .create config compiler =>
      workspace.takeUp (return .ok (← Matcher.empty config compiler)) addMatcher
  | .take index => workspace.withItem workspace.matchers index fun matcher =>
      (none, workspace.addList matcher.clauses)
  | .push index clause => workspace.withItem workspace.lists index fun list =>
      workspace.takeUp (return list.push (← freshIdentity m) clause) addList
  | .revise index revision =>
      workspace.withItem workspace.matchers index fun matcher =>
        workspace.takeUp (revision.apply matcher) addMatcher
  | .copy index => workspace.withItem workspace.matchers index fun matcher =>
      (none, workspace.addMatcher matcher)
  | .materialize index => workspace.withItem workspace.lists index fun list =>
      workspace.use list.sequence
  | .compile compiler validator => workspace.use (compiler.compile validator)
  | .execute index waiting input =>
      workspace.withItem workspace.matchers index fun matcher =>
        workspace.use (matcher.execute waiting input)
  | .diagnose index waiting schedule input =>
      workspace.withItem workspace.matchers index fun matcher =>
        workspace.use (matcher.diagnose waiting schedule input)
  | .retire validator =>
      (none, { workspace with store := workspace.store.retire validator })

/-- The workspace after some operations, from a world on; what is refused is
passed over. -/
def after (world : σ) (operations : List (Operation m ρ)) : Workspace m ρ σ :=
  operations.foldl (fun workspace operation => (workspace.perform operation).2)
    { world }

/-- The requests for plans that an operation makes. -/
def requests (workspace : Workspace m ρ σ) : Operation m ρ → List (Request m)
  | .compile compiler validator => [⟨compiler, validator⟩]
  | .execute index waiting input =>
      match workspace.matchers[index]? with
      | none => []
      | some matcher =>
          (matcher.triedValidators workspace.toMachine waiting input).map
            (Request.mk matcher.compiler)
  | _ => []

/-- The requests that operations make one after another. -/
def requestsFrom (workspace : Workspace m ρ σ) :
    List (Operation m ρ) → List (Request m)
  | [] => []
  | operation :: operations =>
      workspace.requests operation ++
        (workspace.perform operation).2.requestsFrom operations

end Perform

/-- The lists, and those of the matchers. -/
def held (workspace : Workspace m ρ σ) : List (ClauseList m ρ) :=
  workspace.lists ++ workspace.matchers.map (·.clauses)

section Held

variable {workspace : Workspace m ρ σ} {list : ClauseList m ρ}
    {matcher : Matcher m ρ}

theorem mem_held_of_list (member : list ∈ workspace.lists) :
    list ∈ workspace.held :=
  List.mem_append_left _ member

theorem mem_held_of_matcher (member : matcher ∈ workspace.matchers) :
    matcher.clauses ∈ workspace.held :=
  List.mem_append_right _ (List.mem_map_of_mem member)

theorem mem_held_addList {other : ClauseList m ρ}
    (member : other ∈ (workspace.addList list).held) :
    other ∈ workspace.held ∨ other = list := by
  rcases List.mem_append.mp member with listed | ofMatcher
  · rcases List.mem_append.mp listed with old | last
    · exact .inl (mem_held_of_list old)
    · exact .inr (List.mem_singleton.mp last)
  · exact .inl (List.mem_append_right _ ofMatcher)

theorem mem_held_addMatcher {other : ClauseList m ρ}
    (member : other ∈ (workspace.addMatcher matcher).held) :
    other ∈ workspace.held ∨ other = matcher.clauses := by
  rcases List.mem_append.mp member with listed | ofMatcher
  · exact .inl (mem_held_of_list listed)
  · obtain ⟨holder, holderMember, rfl⟩ := List.mem_map.mp ofMatcher
    rcases List.mem_append.mp holderMember with old | last
    · exact .inl (mem_held_of_matcher old)
    · obtain rfl := List.mem_singleton.mp last
      exact .inr rfl

end Held

/-- The workspace in which the identities before `next` are given away. -/
def advance (workspace : Workspace m ρ σ) (next : Identity) : Workspace m ρ σ :=
  { workspace with store := { workspace.store with next } }

/-- Where a list comes from that is taken up; `later` is the least identity that
is not given away then. -/
inductive Origin (workspace : Workspace m ρ σ) (later : Identity) :
    ClauseList m ρ → Prop where
  | empty : Origin workspace later .nil
  | known {list : ClauseList m ρ} (member : list ∈ workspace.held) :
      Origin workspace later list
  | continued {list : ClauseList m ρ} (member : list ∈ workspace.held)
      (clause : Clause m ρ) (wellFormed : clause.isWellFormed = true)
      (grows : workspace.store.next < later) :
      Origin workspace later (list.append workspace.store.next clause)

variable [Monad m]

/-- What an operation can do: the requests that it makes, the validators that go
away, and the workspace that it leaves. -/
inductive Change (workspace : Workspace m ρ σ) (operation : Operation m ρ) :
    List (Request m) → List Identity → Workspace m ρ σ → Prop
  | nothing (next : Identity) (grows : workspace.store.next ≤ next) :
      Change workspace operation [] [] (workspace.advance next)
  | listed (next : Identity) (grows : workspace.store.next ≤ next)
      (list : ClauseList m ρ) (origin : workspace.Origin next list) :
      Change workspace operation [] [] ((workspace.advance next).addList list)
  | made (next : Identity) (matcher : Matcher m ρ)
      (origin : workspace.Origin next matcher.clauses)
      (fresh : workspace.store.next ≤ matcher.cell)
        (given : matcher.cell < next)
      (inUse : ∀ catalogue, operation.InUse catalogue →
        (∀ other ∈ workspace.matchers, other.InUse catalogue) →
        matcher.InUse catalogue) :
      Change workspace operation [] []
        ((workspace.advance next).addMatcher matcher)
  | copied (matcher : Matcher m ρ) (member : matcher ∈ workspace.matchers) :
      Change workspace operation [] [] (workspace.addMatcher matcher)
  | materialized (list : ClauseList m ρ) (member : list ∈ workspace.held) :
      Change workspace operation [] []
        { workspace with sequences := (workspace.sequences.ask list).2 }
  | compiled (compiler : Compiler m) (validator : Validator m)
      (compiles : operation = .compile compiler validator) :
      Change workspace operation [⟨compiler, validator⟩] []
        { workspace with
          store := workspace.store.answerAll [⟨compiler, validator⟩] }
  | used (matcher : Matcher m ρ) (member : matcher ∈ workspace.matchers)
      (world : σ) (tried : List (Validator m))
      (known : ∀ validator ∈ tried, ∃ clause ∈ matcher.clauses.toList,
        validator ∈ clause.validators) :
      Change workspace operation (tried.map (Request.mk matcher.compiler)) []
        { workspace with
          store := (matcher.askTable workspace.store).2.answerAll
            (tried.map (Request.mk matcher.compiler))
          sequences := (workspace.sequences.ask matcher.clauses).2
          world }
  | retired (validator : Identity) :
      Change workspace operation [] [validator]
        { workspace with store := workspace.store.retire validator }

namespace Change

variable {workspace changed : Workspace m ρ σ} {operation : Operation m ρ}
variable {requests : List (Request m)} {gone : List Identity}

/-- Plans are changed by answering requests only. -/
theorem exists_store
    (change : workspace.Change operation requests gone changed) :
    ∃ store : Store m, changed.store = store.answerAll requests ∧
      store.slot = workspace.store.slot ∧ store.plans = workspace.store.plans ∧
      store.built = workspace.store.built ∧
      ∀ validator, store.retired validator = true ↔
        workspace.store.retired validator = true ∨ validator ∈ gone := by
  have stays (validator : Identity) : workspace.store.retired validator = true ↔
      workspace.store.retired validator = true ∨ validator ∈ [] := by simp
  cases change with
  | nothing => exact ⟨_, rfl, rfl, rfl, rfl, stays⟩
  | listed => exact ⟨_, rfl, rfl, rfl, rfl, stays⟩
  | made => exact ⟨_, rfl, rfl, rfl, rfl, stays⟩
  | copied => exact ⟨_, rfl, rfl, rfl, rfl, stays⟩
  | materialized => exact ⟨_, rfl, rfl, rfl, rfl, stays⟩
  | compiled => exact ⟨workspace.store, rfl, rfl, rfl, rfl, stays⟩
  | used matcher =>
    exact ⟨(matcher.askTable workspace.store).2, rfl, rfl, rfl, rfl, stays⟩
  | retired validator =>
      refine ⟨_, rfl, rfl, rfl, rfl, ?_⟩
      intro other
      change assign workspace.store.retired validator true other = true ↔ _
      by_cases same : other = validator
      · simp [same]
      · simp [assign_of_ne _ _ same, same]

/-- When an operation brings in what is in use only, all requests are for what
is in use, and so are all matchers. -/
theorem inUse (change : workspace.Change operation requests gone changed)
    {catalogue : Catalogue m} (brings : operation.InUse catalogue)
    (inUse : ∀ matcher ∈ workspace.matchers, matcher.InUse catalogue) :
    (∀ request ∈ requests, catalogue.HasCompiler request.compiler ∧
        catalogue.HasValidator request.validator) ∧
      ∀ matcher ∈ changed.matchers, matcher.InUse catalogue := by
  have withLast {last : Matcher m ρ} (isInUse : last.InUse catalogue) :
      ∀ matcher ∈ workspace.matchers ++ [last], matcher.InUse catalogue :=
    List.forall_mem_append.mpr ⟨inUse, List.forall_mem_singleton.mpr isInUse⟩
  cases change with
  | nothing => exact ⟨nofun, inUse⟩
  | listed => exact ⟨nofun, inUse⟩
  | made next matcher origin fresh given isInUse =>
      exact ⟨nofun, withLast (isInUse catalogue brings inUse)⟩
  | copied matcher member => exact ⟨nofun, withLast (inUse matcher member)⟩
  | materialized => exact ⟨nofun, inUse⟩
  | compiled compiler validator compiles =>
      subst compiles
      exact ⟨List.forall_mem_singleton.mpr brings, inUse⟩
  | used matcher member world tried known =>
      refine ⟨?_, inUse⟩
      intro request listed
      obtain ⟨validator, isTried, rfl⟩ := List.mem_map.mp listed
      obtain ⟨clause, inMatcher, inClause⟩ := known validator isTried
      obtain ⟨compilerHas, clausesInUse⟩ := inUse matcher member
      exact ⟨compilerHas, clausesInUse clause inMatcher validator inClause⟩
  | retired => exact ⟨nofun, inUse⟩

end Change

/-- Whether lists and matchers find what is their own, and the lists are made of
well-formed clauses. -/
structure Orderly (workspace : Workspace m ρ σ) : Prop where
  sequences : workspace.sequences.KeepsOwn workspace.store.next workspace.held
  tables : workspace.store.KeepsTables workspace.matchers
  wellFormed : ∀ list ∈ workspace.held, list.WellFormed

namespace Orderly

variable {workspace : Workspace m ρ σ} {list : ClauseList m ρ}
    {matcher : Matcher m ρ}

omit [Monad m] in
private theorem sequences_of_origin {next : Identity}
    (sequences : workspace.sequences.KeepsOwn workspace.store.next
      workspace.held)
    (grows : workspace.store.next ≤ next) (origin : workspace.Origin next list)
    {others : List (ClauseList m ρ)}
    (known : ∀ other ∈ others, other ∈ workspace.held ∨ other = list) :
    workspace.sequences.KeepsOwn next others := by
  cases origin with
  | empty =>
      apply OwnCells.mono sequences grows
      intro other member
      exact (known other member).imp_right (congrArg ClauseList.last?)
  | known listed =>
      apply OwnCells.mono sequences grows
      intro other member
      rcases known other member with old | rfl
      · exact .inl old
      · exact .inl listed
  | continued listed clause wellFormed further =>
      exact OwnCells.add sequences rfl (Nat.le_refl _) further known

omit [Monad m] in
private theorem wellFormed_of_origin {next : Identity}
    (wellFormed : ∀ list ∈ workspace.held, list.WellFormed)
    (origin : workspace.Origin next list) {others : List (ClauseList m ρ)}
    (known : ∀ other ∈ others, other ∈ workspace.held ∨ other = list) :
    ∀ other ∈ others, other.WellFormed := by
  have ofList : list.WellFormed := by
    cases origin with
    | empty => exact .nil
    | known listed => exact wellFormed _ listed
    | continued listed clause isWellFormed =>
        exact (wellFormed _ listed).append _ isWellFormed
  intro other member
  rcases known other member with old | rfl
  · exact wellFormed other old
  · exact ofList

theorem start (world : σ) : ({ world } : Workspace m ρ σ).Orderly where
  sequences := .start _
  tables := .start _
  wellFormed := nofun

theorem onStore (orderly : workspace.Orderly) (store : Store m)
    (grows : workspace.store.next ≤ store.next)
    (same : store.table = workspace.store.table) (world : σ) :
    Orderly { workspace with store, world } where
  sequences := OwnCells.mono orderly.sequences grows fun _ => .inl
  tables := by
    have tables := OwnCells.mono orderly.tables grows fun _ => .inl
    rw [← same] at tables
    exact tables
  wellFormed := orderly.wellFormed

theorem ask_eq (orderly : workspace.Orderly) (member : list ∈ workspace.held) :
    (workspace.sequences.ask list).1 = list.entries :=
  Sequences.KeepsOwn.ask_eq orderly.sequences member

/-- A matcher that looks for its clauses and its table finds its own. -/
theorem lookIn_eq (orderly : workspace.Orderly)
    (member : matcher ∈ workspace.matchers) :
    matcher.lookIn workspace.toMachine =
      ((matcher.clauses.toList, matcher.ownTable),
        { workspace.toMachine with
          store := (matcher.askTable workspace.store).2
          sequences := (workspace.sequences.ask matcher.clauses).2 }) := by
  have clauses : (workspace.sequences.ask matcher.clauses).1.map Prod.snd =
      matcher.clauses.toList := by
    rw [orderly.ask_eq (mem_held_of_matcher member)]
    rfl
  have found : (matcher.askTable workspace.store).1 = matcher.ownTable :=
    OwnCells.ask_eq orderly.tables member rfl
  let table := workspace.store.tableOf matcher.cell fun _ =>
    DispatchTable.build?
      ((workspace.sequences.ask matcher.clauses).1.map Prod.snd)
      matcher.compiler matcher.config
  have looks : matcher.lookIn workspace.toMachine =
      (((workspace.sequences.ask matcher.clauses).1.map Prod.snd, table.1),
        ⟨table.2, (workspace.sequences.ask matcher.clauses).2,
          workspace.world⟩) := rfl
  have asks : table = matcher.askTable workspace.store := by
    unfold table
    rw [clauses]
    rfl
  rw [looks, asks, clauses, found]

theorem look (orderly : workspace.Orderly)
    (member : matcher ∈ workspace.matchers) :
    Orderly
      { workspace with
        store := (matcher.askTable workspace.store).2
        sequences := (workspace.sequences.ask matcher.clauses).2 } where
  sequences := orderly.sequences.ask (mem_held_of_matcher member)
  tables := OwnCells.ask orderly.tables member rfl
  wellFormed := orderly.wellFormed

/-- Every change leaves lists and matchers with what is their own. -/
theorem change (orderly : workspace.Orderly) {operation : Operation m ρ}
    {requests : List (Request m)} {gone : List Identity}
    {changed : Workspace m ρ σ}
    (change : workspace.Change operation requests gone changed) :
    changed.Orderly := by
  cases change with
  | nothing next grows =>
      exact orderly.onStore { workspace.store with next }
        grows rfl workspace.world
  | listed next grows list origin =>
      constructor
      case sequences =>
        exact sequences_of_origin orderly.sequences grows origin fun _ =>
          mem_held_addList
      case tables => exact OwnCells.mono orderly.tables grows fun _ => .inl
      case wellFormed =>
        exact wellFormed_of_origin orderly.wellFormed origin fun _ =>
          mem_held_addList
  | made next matcher origin fresh given inUse =>
      have grows := Nat.le_of_lt (Nat.lt_of_le_of_lt fresh given)
      constructor
      case sequences =>
        exact sequences_of_origin orderly.sequences grows origin fun _ =>
          mem_held_addMatcher
      case tables =>
        apply OwnCells.add orderly.tables rfl fresh given
        intro other member
        exact (List.mem_append.mp member).imp_right List.mem_singleton.mp
      case wellFormed =>
        exact wellFormed_of_origin orderly.wellFormed origin fun _ =>
          mem_held_addMatcher
  | copied matcher member =>
      have origin : workspace.Origin workspace.store.next matcher.clauses :=
        .known (mem_held_of_matcher member)
      constructor
      case sequences =>
        exact sequences_of_origin orderly.sequences (Nat.le_refl _) origin
          fun _ => mem_held_addMatcher
      case tables =>
        apply OwnCells.mono orderly.tables (Nat.le_refl _)
        intro other listed
        left
        rcases List.mem_append.mp listed with old | last
        · exact old
        · obtain rfl := List.mem_singleton.mp last
          exact member
      case wellFormed =>
        exact wellFormed_of_origin orderly.wellFormed origin fun _ =>
          mem_held_addMatcher
  | materialized list member =>
      exact ⟨orderly.sequences.ask member, orderly.tables, orderly.wellFormed⟩
  | compiled compiler validator =>
      obtain ⟨grows, same⟩ :=
        workspace.store.answerAll_tables [⟨compiler, validator⟩]
      exact orderly.onStore _ grows same workspace.world
  | used matcher member world tried =>
      obtain ⟨grows, same⟩ :=
        (matcher.askTable workspace.store).2.answerAll_tables
          (tried.map (Request.mk matcher.compiler))
      exact (orderly.look member).onStore _ grows same world
  | retired validator =>
      exact orderly.onStore (workspace.store.retire validator)
        (Nat.le_refl _) rfl workspace.world

end Orderly

section Run

variable [Runs m ε σ] {workspace : Workspace m ρ σ}

omit [Monad m] in
theorem runIn_apply (revision : Revision m ρ) (matcher : Matcher m ρ)
    (machine : Machine m ρ σ) :
    Engine.runIn (revision.apply matcher) machine =
      (.ok (revision.derive matcher machine.store).1,
        { machine with
          store := (revision.derive matcher machine.store).2 }) := by
  cases revision with
  | clauseOfAny validators guard handler => cases validators <;> rfl
  | _ => rfl

omit [Monad m] in
theorem runIn_push (list : ClauseList m ρ) (clause : Clause m ρ)
    (machine : Machine m ρ σ) :
    Engine.runIn (do return list.push (← freshIdentity m) clause) machine =
      (.ok (list.push machine.store.next clause),
        { machine with store := machine.store.fresh.2 }) := rfl

private theorem change_revise {index : Nat} {matcher : Matcher m ρ}
    (member : matcher ∈ workspace.matchers) (revision : Revision m ρ) :
    workspace.Change (.revise index revision) [] []
      (workspace.takeUp (revision.apply matcher) addMatcher).2 := by
  have comes := revision.derive_comesTo matcher workspace.store
  have listed := mem_held_of_matcher member
  rw [takeUp, runIn_apply]
  generalize revision.derive matcher workspace.store = derived at comes ⊢
  cases comes with
  | kept derived cell compiler added clauses =>
      refine .made (workspace.store.next + 1) derived ?_
        (Nat.le_of_eq cell.symm) ?_ ?_
      · rw [clauses]
        exact .known listed
      · rw [cell]
        exact Nat.lt_succ_self _
      · intro catalogue brings inUse
        apply (inUse matcher member).ofRevision brings compiler
        rw [clauses, added, List.append_nil]
  | grown derived clause cell compiler added wellFormed clauses =>
      refine .made (workspace.store.next + 2) derived ?_ ?_ ?_ ?_
      · rw [clauses]
        exact .continued listed clause wellFormed
          (Nat.lt_add_of_pos_right Nat.two_pos)
      · rw [cell]
        exact Nat.le_succ _
      · rw [cell]
        exact Nat.lt_succ_self _
      · intro catalogue brings inUse
        apply (inUse matcher member).ofRevision brings compiler
        rw [clauses, added, ClauseList.toList_append]
  | refused clause added malformed => exact .nothing _ (Nat.le_succ _)

private theorem change_push {operation : Operation m ρ} {list : ClauseList m ρ}
    (member : list ∈ workspace.held) (clause : Clause m ρ) :
    workspace.Change operation [] []
      (workspace.takeUp (return list.push (← freshIdentity m) clause)
        addList).2 := by
  rw [takeUp, runIn_push]
  cases wellFormed : clause.isWellFormed with
  | true =>
      rw [list.push_of_wellFormed _ wellFormed]
      apply Change.listed _ (Nat.le_succ _)
      exact .continued member clause wellFormed (Nat.lt_succ_self _)
  | false =>
      rw [list.push_of_malformed _ wellFormed]
      exact .nothing _ (Nat.le_succ _)

private theorem change_withItem {α : Type} {items : List α} {index : Nat}
    {use : α → Option (Fault m) × Workspace m ρ σ} {operation : Operation m ρ}
    (changes : ∀ item ∈ items, workspace.Change operation [] [] (use item).2) :
    workspace.Change operation [] []
      (workspace.withItem items index use).2 := by
  rw [withItem]
  cases found : items[index]? with
  | none => exact .nothing workspace.store.next (Nat.le_refl _)
  | some item => exact changes item (List.mem_of_getElem? found)

private theorem change_execute (orderly : workspace.Orderly)
    {operation : Operation m ρ} {matcher : Matcher m ρ}
    (member : matcher ∈ workspace.matchers) (waiting : Waiting) (input : Json) :
    workspace.Change operation
      ((matcher.triedValidators workspace.toMachine waiting input).map
        (Request.mk matcher.compiler)) []
      (workspace.onMachine
        (Engine.runIn (matcher.execute waiting input)
          workspace.toMachine).2) := by
  obtain ⟨world, left⟩ := matcher.left_execute workspace.toMachine waiting input
  have known :
      ∀ validator ∈ matcher.triedValidators workspace.toMachine waiting input,
      _ := fun _ => matcher.mem_of_triedValidators workspace.toMachine
  rw [left]
  rw [orderly.lookIn_eq member] at known ⊢
  exact .used matcher member world _ known

theorem Orderly.execute (orderly : workspace.Orderly) {matcher : Matcher m ρ}
    (member : matcher ∈ workspace.matchers) (waiting : Waiting) (input : Json) :
    (workspace.onMachine
      (Engine.runIn (matcher.execute waiting input)
        workspace.toMachine).2).Orderly := by
  have change : workspace.Change .start _ [] _ :=
    change_execute orderly member waiting input
  exact orderly.change change

variable [Rescue m]

/-- Every operation makes one of the changes. -/
theorem change_perform (orderly : workspace.Orderly)
    (operation : Operation m ρ) :
    workspace.Change operation (workspace.requests operation) operation.gone
      (workspace.perform operation).2 := by
  cases operation with
  | start => exact .listed _ (Nat.le_refl _) .nil .empty
  | create config compiler =>
      apply Change.made (workspace.store.next + 1)
        ⟨.nil, config, compiler, workspace.store.next⟩ .empty (Nat.le_refl _)
        (Nat.lt_succ_self _)
      intro catalogue brings _
      exact ⟨brings, nofun⟩
  | take index =>
      apply change_withItem
      intro matcher member
      exact .listed _ (Nat.le_refl _) _ (.known (mem_held_of_matcher member))
  | push index clause =>
      apply change_withItem
      intro list member
      exact change_push (mem_held_of_list member) clause
  | revise index revision =>
      apply change_withItem
      intro matcher member
      exact change_revise member revision
  | copy index => exact change_withItem fun matcher => .copied matcher
  | materialize index =>
      apply change_withItem
      intro list member
      exact .materialized list (mem_held_of_list member)
  | compile compiler validator => exact .compiled compiler validator rfl
  | execute index waiting input =>
      -- The requests depend on the matcher that is found.
      rw [perform, withItem, requests]
      cases found : workspace.matchers[index]? with
      | none => exact .nothing workspace.store.next (Nat.le_refl _)
      | some matcher =>
          exact change_execute orderly (List.mem_of_getElem? found)
            waiting input
  | diagnose index waiting schedule input =>
      apply change_withItem
      intro matcher member
      obtain ⟨world, left⟩ :=
        matcher.left_diagnose workspace.toMachine waiting schedule input
      simp only [use, left]
      rw [orderly.lookIn_eq member]
      exact .used matcher member world [] nofun
  | retire validator => exact .retired validator

/-- What holds at the beginning and is kept by each of the operations holds
after them. -/
theorem holds_after {holds : Workspace m ρ σ → Prop} {world : σ}
    {operations : List (Operation m ρ)} (start : holds { world })
    (step : ∀ workspace, holds workspace → ∀ operation ∈ operations,
      holds (workspace.perform operation).2) :
    holds (after world operations) :=
  List.foldlRecOn operations _ start step

/-- Lists and matchers find what is their own in every workspace. -/
theorem Orderly.after (world : σ) (operations : List (Operation m ρ)) :
    (after world operations).Orderly :=
  holds_after (start world) fun _ orderly operation _ =>
    orderly.change (change_perform orderly operation)

end Run

end Workspace

end JsonMatch
