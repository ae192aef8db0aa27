import JsonMatch.Plan.Validator

/-!
# Faults

A match ends with a result or with a fault.  Running out of clauses is a fault
with a full report: what was tried, and why it was rejected.
-/

namespace JsonMatch

/-- The part of a clause that would have to be awaited. -/
inductive AsyncOrigin where
  /-- The validator at this position in the clause. -/
  | validator (position : Nat)
  | guard
  | predicate
  | handler
  deriving DecidableEq, Repr

/-- The words for an origin. -/
def AsyncOrigin.text : AsyncOrigin → String
  | .validator position => "validator #" ++ toString position
  | .guard => "guard"
  | .predicate => "predicate"
  | .handler => "handler"

/-- An issue with the positions of its clause and of the validator in it. -/
structure Finding where
  case : Nat
  schema : Nat
  issue : Issue
  deriving DecidableEq, Repr

/-- What a dispatch table knew about an input. -/
structure KeyInfo where
  key : String
  /-- The value of the input at the key, if it has one. -/
  value : Option Json
  /-- The values that some clause is registered under. -/
  expected : List Json
  /-- Whether some clause is registered under the value. -/
  matched : Bool

/-- The report on an input that no clause accepted. -/
structure Report (m : Type → Type) where
  message : String
  input : Json
  findings : List Finding
  /-- The validators that were run again for the report. -/
  validators : List (Validator m)
  discriminator : Option KeyInfo

namespace Report

variable {m : Type → Type}

/-- The findings on one clause. -/
def findingsOf (report : Report m) (case : Nat) : List Finding :=
  report.findings.filter fun finding => finding.case == case

/-- The clauses with findings; neighbouring findings on one clause count
once. -/
def cases (report : Report m) : List Nat :=
  (report.findings.map (·.case)).eraseReps

end Report

/-- Why a match has no result. -/
inductive Fault (m : Type → Type) where
  /-- A match that does not wait came to a part that has to be awaited. -/
  | asyncRequired (case : Nat) (origin : AsyncOrigin)
  /-- A clause lacks a part that it needs. -/
  | malformed (case : Nat) (reason : String)
  | unmatched (report : Report m)

/-- The message of a fault. -/
def Fault.message {m : Type → Type} : Fault m → String
  | .asyncRequired case origin =>
      "case " ++ toString case ++ ": " ++ origin.text ++
        " is asynchronous; use the async match API instead"
  | .malformed case reason =>
    "malformed case " ++ toString case ++ ": " ++ reason
  | .unmatched report => report.message

end JsonMatch
