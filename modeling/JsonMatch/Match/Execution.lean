import JsonMatch.Clause.Basic
import JsonMatch.Plan.Compiled
import JsonMatch.Report.Fault

/-!
# Execution

The clauses to visit are tried in order, and the first that hits makes the
result.  Within a clause the validators are tried in order; an output that the
guard does not admit leads on to the next validator.  A run that does not wait
ends with a fault at the first part that it would have to wait for.
-/

namespace JsonMatch

/-- How a run of clauses ends. -/
inductive Execution (ρ : Type) where
  /-- The clause at this position hit. -/
  | matched (case : Nat) (output : ρ)
  | unmatched

/-- How the trial of one clause ends. -/
inductive Trial (ρ : Type) where
  | passed
  | hit (output : ρ)
  /-- Part of the clause would have to be awaited. -/
  | blocked (origin : AsyncOrigin)

variable {m e : Type → Type} [Monad m] [Monad e]
variable [MonadStateOf (Store m) e] [MonadLiftT m e] {ρ : Type}

/-- Makes the result of a clause that hit. -/
def Handler.finish (handler : Handler m ρ) (waiting : Waiting)
    (output input : Json) : e (Trial ρ) := do
  if waiting = .refuse ∧ handler.suspends then return .blocked .handler
  else return .hit (← handler.respond output input)

namespace Clause

/-- Tries validators in order, `position` being that of the first one. -/
def trySchemas (waiting : Waiting) (compiler : Compiler m)
    (guard : Option (Guard m)) (handler : Handler m ρ) (input : Json) :
    Nat → List (Validator m) → e (Trial ρ)
  | _, [] => return .passed
  | position, validator :: validators => do
      let compiled ← compiler.compile validator
      match ← compiled.attemptWith waiting input with
      | .noMatch =>
          trySchemas waiting compiler guard handler input
            (position + 1) validators
      | .asyncRequired => return .blocked (.validator position)
      | .matched output =>
          match guard with
          | none => handler.finish waiting output input
          | some guard =>
              if waiting = .refuse ∧ guard.suspends then return .blocked .guard
              else if ← guard.admits output input then
                handler.finish waiting output input
              else
                trySchemas waiting compiler (some guard) handler input
                  (position + 1) validators

/-- Tries a clause. -/
def trial (waiting : Waiting) (compiler : Compiler m) (input : Json) :
    Clause m ρ → e (Trial ρ)
  | .schemas validators guard handler =>
      trySchemas waiting compiler guard handler input 0 validators
  | .when predicate handler => do
      if waiting = .refuse ∧ predicate.suspends then return .blocked .predicate
      else if ← predicate.holds input then handler.finish waiting input input
      else return .passed

/-- Visits clauses by their positions; a position that the list does not have is
skipped. -/
def visit (waiting : Waiting) (clauses : List (Clause m ρ))
    (compiler : Compiler m) (input : Json) :
    List Nat → e (Except (Fault m) (Execution ρ))
  | [] => return .ok .unmatched
  | case :: cases => do
      match clauses[case]? with
      | none => visit waiting clauses compiler input cases
      | some clause =>
          match ← clause.trial waiting compiler input with
          | .passed => visit waiting clauses compiler input cases
          | .hit output => return .ok (.matched case output)
          | .blocked origin => return .error (.asyncRequired case origin)

/-- Runs a list of clauses.  The table, if there is one, should be that of the
list. -/
def execute (waiting : Waiting) (clauses : List (Clause m ρ))
    (table : Option DispatchTable) (compiler : Compiler m) (input : Json) :
    e (Except (Fault m) (Execution ρ)) :=
  visit waiting clauses compiler input (casesToVisit clauses.length table input)

end Clause

end JsonMatch
