import JsonMatch.Clause.Basic
import JsonMatch.Plan.Store
import JsonMatch.Report.Fault

/-!
# Clause lists

A clause list grows at its end and is never changed: a longer list contains the
shorter one it was made from, and several lists can continue the same one.
Every clause has an identity in the lists that share it, and with it stands the
length of the list that it is the last one of.

The clauses of a list are put in order when they are first asked for, and are
kept under the identity of the last one, where all copies of the list find them.
-/

namespace JsonMatch

/-- A list of clauses, the last one outermost, each with its identity and the
length of the list up to it. -/
inductive ClauseList (m : Type → Type) (ρ : Type) where
  | nil
  | snoc (earlier : ClauseList m ρ) (identity : Identity) (clause : Clause m ρ)
      (length : Nat)

namespace ClauseList

variable {m : Type → Type} {ρ : Type}

def length : ClauseList m ρ → Nat
  | .nil => 0
  | .snoc _ _ _ length => length

def isEmpty : ClauseList m ρ → Bool
  | .nil => true
  | .snoc _ _ _ _ => false

/-- Why a clause without validators is refused. -/
def missingSchema : String := "a schema clause needs at least one schema"

/-- The list continued by a clause that is known to be well formed. -/
def append (list : ClauseList m ρ) (identity : Identity) (clause : Clause m ρ) :
    ClauseList m ρ :=
  list.snoc identity clause (list.length + 1)

/-- The list continued by a clause, if that is well formed. -/
def push (list : ClauseList m ρ) (identity : Identity) (clause : Clause m ρ) :
    Except (Fault m) (ClauseList m ρ) :=
  if clause.isWellFormed then .ok (list.append identity clause)
  else .error (.malformed list.length missingSchema)

theorem push_of_wellFormed (list : ClauseList m ρ) (identity : Identity)
    {clause : Clause m ρ} (wellFormed : clause.isWellFormed = true) :
    list.push identity clause = .ok (list.append identity clause) :=
  if_pos wellFormed

theorem push_of_malformed (list : ClauseList m ρ) (identity : Identity)
    {clause : Clause m ρ} (malformed : clause.isWellFormed = false) :
    list.push identity clause = .error (.malformed list.length missingSchema) :=
  if_neg (Bool.eq_false_iff.mp malformed)

/-- The clauses with their identities, in order, in front of `later` ones. -/
def entriesBefore : ClauseList m ρ → List (Identity × Clause m ρ) →
    List (Identity × Clause m ρ)
  | .nil, later => later
  | .snoc earlier identity clause _, later =>
      earlier.entriesBefore ((identity, clause) :: later)

/-- The clauses with their identities, in order. -/
def entries (list : ClauseList m ρ) : List (Identity × Clause m ρ) :=
  list.entriesBefore []

def toList (list : ClauseList m ρ) : List (Clause m ρ) :=
  list.entries.map Prod.snd

theorem entriesBefore_eq (list : ClauseList m ρ)
    (later : List (Identity × Clause m ρ)) :
    list.entriesBefore later = list.entries ++ later := by
  induction list generalizing later with
  | nil => rfl
  | snoc earlier identity clause length induction =>
      simp only [entries, entriesBefore]
      rw [induction, induction [(identity, clause)], List.append_assoc]
      rfl

@[simp] theorem toList_snoc (list : ClauseList m ρ) (identity : Identity)
    (clause : Clause m ρ) (length : Nat) :
    (list.snoc identity clause length).toList = list.toList ++ [clause] := by
  have entries : (list.snoc identity clause length).entries =
      list.entries ++ [(identity, clause)] := list.entriesBefore_eq _
  simp [toList, entries]

@[simp] theorem toList_append (list : ClauseList m ρ) (identity : Identity)
    (clause : Clause m ρ) :
    (list.append identity clause).toList = list.toList ++ [clause] :=
  list.toList_snoc _ _ _

/-- The identity of the last clause. -/
def last? : ClauseList m ρ → Option Identity
  | .nil => none
  | .snoc _ identity _ _ => some identity

/-- Whether two lists are one. -/
def isSame (left right : ClauseList m ρ) : Bool :=
  left.last? == right.last?

end ClauseList

/-- The clauses of lists in order, as far as they were asked for, under the
identities of the last clauses. -/
structure Sequences (m : Type → Type) (ρ : Type) where
  kept : Identity → Option (List (Identity × Clause m ρ)) := fun _ => none

namespace Sequences

variable {m : Type → Type} {ρ : Type}

/-- The clauses of a list in order, put in order now if they were not asked for
yet. -/
def ask (sequences : Sequences m ρ) (list : ClauseList m ρ) :
    List (Identity × Clause m ρ) × Sequences m ρ :=
  match list.last? with
  | none => ([], sequences)
  | some identity =>
      let (sequence, kept) :=
        askOnce sequences.kept identity fun _ => list.entries
      (sequence, { kept })

/-- Whether the clauses of a list are in order already. -/
def isMaterialized (sequences : Sequences m ρ) (list : ClauseList m ρ) : Bool :=
  (list.last?.bind sequences.kept).isSome

end Sequences

namespace ClauseList

variable {m e : Type → Type} [Monad e] {ρ : Type}
    [MonadStateOf (Sequences m ρ) e]

/-- The clauses of a list in order with their identities. -/
def sequence (list : ClauseList m ρ) : e (List (Identity × Clause m ρ)) :=
  modifyGetThe (Sequences m ρ) (·.ask list)

def inOrder (list : ClauseList m ρ) : e (List (Clause m ρ)) :=
  return (← list.sequence).map Prod.snd

/-- A list as it is shown when it is printed. -/
def text (list : ClauseList m ρ) : e String := do
  let clauses ← list.inOrder
  return "[" ++ String.intercalate ", " (clauses.map Clause.text) ++ "]"

end ClauseList

end JsonMatch
