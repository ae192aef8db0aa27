import JsonMatch.Match.Matcher
import JsonMatch.Proofs.OnceCells

/-!
# Derived matchers

Lists of clauses are made from the empty one by adding clauses that are well
formed.  A derived matcher has the clauses of the matcher that it is derived
from, or these and one more, and a cell of its own for its dispatch table.
-/

namespace JsonMatch

variable {m : Type → Type} {ρ : Type}

/-- Whether a list was made by adding well-formed clauses. -/
inductive ClauseList.WellFormed : ClauseList m ρ → Prop
  | nil : WellFormed .nil
  | append {list : ClauseList m ρ} (earlier : list.WellFormed)
      (identity : Identity)
      {clause : Clause m ρ} (wellFormed : clause.isWellFormed = true) :
      (list.append identity clause).WellFormed

namespace ClauseList.WellFormed

variable {list : ClauseList m ρ}

theorem length_toList (made : list.WellFormed) :
    list.toList.length = list.length := by
  induction made with
  | nil => rfl
  | append _ identity _ induction =>
      rw [toList_append, List.length_append, induction]
      rfl

theorem of_mem (made : list.WellFormed) :
    ∀ clause ∈ list.toList, clause.isWellFormed = true := by
  induction made with
  | nil => exact nofun
  | append _ identity wellFormed induction =>
      rw [toList_append]
      exact List.forall_mem_append.mpr
        ⟨induction, List.forall_mem_singleton.mpr wellFormed⟩

end ClauseList.WellFormed

/-- A way to derive a matcher from another one. -/
inductive Revision (m : Type → Type) (ρ : Type) where
  | setConfig (config : Config)
  | setCompiler (compiler : Compiler m)
  | clause (validator : Validator m) (handler : Handler m ρ)
  | clauseIf (validator : Validator m) (guard : Guard m) (handler : Handler m ρ)
  | clauseOfAny (validators : List (Validator m)) (guard : Option (Guard m))
      (handler : Handler m ρ)
  | clauseWhen (predicate : Predicate m) (handler : Handler m ρ)

namespace Revision

/-- The derived matcher, unless the revision is refused. -/
def apply {e : Type → Type} [Monad e] [MonadStateOf (Store m) e]
    (matcher : Matcher m ρ) : Revision m ρ → e (Except (Fault m) (Matcher m ρ))
  | .setConfig config => return .ok (← matcher.setConfig config)
  | .setCompiler compiler => return .ok (← matcher.setCompiler compiler)
  | .clause validator handler => return .ok (← matcher.clause validator handler)
  | .clauseIf validator guard handler =>
      return .ok (← matcher.clauseIf validator guard handler)
  | .clauseOfAny validators guard handler =>
      matcher.clauseOfAny validators guard handler
  | .clauseWhen predicate handler =>
      return .ok (← matcher.clauseWhen predicate handler)

def compilerOf (matcher : Matcher m ρ) : Revision m ρ → Compiler m
  | .setCompiler compiler => compiler
  | _ => matcher.compiler

/-- The clauses that the derived matcher has at the end. -/
def added : Revision m ρ → List (Clause m ρ)
  | .setConfig _ => []
  | .setCompiler _ => []
  | .clause validator handler => [.schemas [validator] none handler]
  | .clauseIf validator guard handler =>
    [.schemas [validator] (some guard) handler]
  | .clauseOfAny validators guard handler => [.schemas validators guard handler]
  | .clauseWhen predicate handler => [.when predicate handler]

/-- A revision with the store that it is made in. -/
def derive (matcher : Matcher m ρ) (store : Store m) (revision : Revision m ρ) :
    Except (Fault m) (Matcher m ρ) × Store m :=
  (StateT.run (revision.apply matcher : StateM (Store m) _) store).run

/-- What a revision of a matcher comes to.  The clauses are kept, or a
well-formed one is added under an identity of its own, or the revision is
refused because it brings a clause without validators. -/
inductive ComesTo (revision : Revision m ρ) (matcher : Matcher m ρ)
    (store : Store m) :
    Except (Fault m) (Matcher m ρ) × Store m → Prop
  | kept (derived : Matcher m ρ) (cell : derived.cell = store.next)
      (compiler : derived.compiler = revision.compilerOf matcher)
      (added : revision.added = []) (clauses : derived.clauses =
        matcher.clauses) :
      ComesTo revision matcher store
        (.ok derived, { store with next := store.next + 1 })
  | grown (derived : Matcher m ρ) (clause : Clause m ρ)
      (cell : derived.cell = store.next + 1)
      (compiler : derived.compiler = revision.compilerOf matcher)
      (added : revision.added = [clause])
        (wellFormed : clause.isWellFormed = true)
      (clauses : derived.clauses = matcher.clauses.append store.next clause) :
      ComesTo revision matcher store
        (.ok derived, { store with next := store.next + 2 })
  | refused (clause : Clause m ρ) (added : revision.added = [clause])
      (malformed : clause.isWellFormed = false) :
      ComesTo revision matcher store
        (.error (.malformed matcher.clauses.length ClauseList.missingSchema),
          { store with next := store.next + 1 })

theorem derive_comesTo (revision : Revision m ρ) (matcher : Matcher m ρ)
    (store : Store m) :
    revision.ComesTo matcher store (revision.derive matcher store) := by
  cases revision with
  | setConfig config => exact .kept _ rfl rfl rfl rfl
  | setCompiler compiler => exact .kept _ rfl rfl rfl rfl
  | clause validator handler => exact .grown _ _ rfl rfl rfl rfl rfl
  | clauseIf validator guard handler => exact .grown _ _ rfl rfl rfl rfl rfl
  | clauseWhen predicate handler => exact .grown _ _ rfl rfl rfl rfl rfl
  | clauseOfAny validators guard handler =>
      cases validators with
      | nil => exact .refused _ rfl rfl
      | cons validator validators => exact .grown _ _ rfl rfl rfl rfl rfl

end Revision

/-- The dispatch table of the clauses of a matcher, by its settings and its
compiler. -/
def Matcher.ownTable [Monad m] (matcher : Matcher m ρ) : Option DispatchTable :=
  DispatchTable.build? matcher.clauses.toList matcher.compiler matcher.config

/-- What a matcher finds out about its dispatch table, and the store that is
left. -/
def Matcher.askTable [Monad m] (matcher : Matcher m ρ) (store : Store m) :
    Option DispatchTable × Store m :=
  store.tableOf matcher.cell fun _ => matcher.ownTable

/-- Whether every matcher has a cell of its own, with its own dispatch table in
it or nothing, and the cells to come are empty. -/
abbrev Store.KeepsTables [Monad m] (store : Store m)
    (matchers : List (Matcher m ρ)) : Prop :=
  OwnCells (fun matcher => some matcher.cell) Matcher.ownTable
    matchers store.next store.table

/-- Whether lists with the same last clause are one list, what is kept for a
list are its own clauses, and nothing is kept for the identities to come. -/
abbrev Sequences.KeepsOwn (sequences : Sequences m ρ) (next : Identity)
    (lists : List (ClauseList m ρ)) : Prop :=
  OwnCells ClauseList.last? ClauseList.entries lists next sequences.kept

namespace Sequences.KeepsOwn

variable {sequences : Sequences m ρ} {next : Identity}
variable {lists : List (ClauseList m ρ)} {list : ClauseList m ρ}

theorem ask_eq (own : sequences.KeepsOwn next lists) (member : list ∈ lists) :
    (sequences.ask list).1 = list.entries := by
  unfold ask
  cases last : list.last? with
  | none =>
      cases list with
      | nil => rfl
      | snoc => cases last
  | some identity => exact OwnCells.ask_eq own member last

theorem ask (own : sequences.KeepsOwn next lists) (member : list ∈ lists) :
    (sequences.ask list).2.KeepsOwn next lists := by
  unfold Sequences.ask
  cases last : list.last? with
  | none => exact own
  | some identity => exact OwnCells.ask own member last

end Sequences.KeepsOwn

end JsonMatch
