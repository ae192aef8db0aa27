import JsonMatch.Dispatch.Building
import JsonMatch.Report.Fault
import JsonMatch.Value.Depth

/-!
# Diagnosis

The report on an input that no clause accepted says what the dispatch table knew
and runs validators again for their issues.  No validator runs when the table
rules out all registered clauses; only the clauses registered under the value of
the input do when there are some; and all do when the table does not apply.

A validator that raises is left out of the report, and so is one that would have
to be awaited by a report that does not wait.  Such a report may run its
validators at the same time, and then the order in which they run is up to the
machine.
-/

namespace JsonMatch

variable {m : Type → Type} [Monad m] {ρ : Type}

/-- A validator to run again, and its place. -/
structure Target (m : Type → Type) where
  case : Nat
  schema : Nat
  validator : Validator m
  guarded : Bool

/-- What a report has to find out. -/
inductive Inquiry (m : Type → Type) where
  /-- The value of the input is not in the table. -/
  | unknown (info : KeyInfo)
  | rerun (targets : List (Target m)) (info : Option KeyInfo)

/-- An order of the positions for each number of validators that run at the same
time. -/
structure Schedule where
  order : Nat → List Nat
  perm : ∀ count, (order count).Perm (List.range count)

/-- The schedule that runs validators one after another. -/
def Schedule.inOrder : Schedule :=
  ⟨List.range, fun _ => .refl _⟩

namespace Target

/-- The validators of the clauses at some positions. -/
def ofCases (clauses : List (Clause m ρ)) (cases : List Nat) :
    List (Target m) :=
  cases.flatMap fun case =>
    match clauses[case]? with
    | none => []
    | some clause =>
        clause.validators.zipIdx.map fun (validator, schema) =>
          ⟨case, schema, validator, clause.isGuarded⟩

/-- Runs a validator again; `none` leaves it out of the report. -/
def rerun [Rescue m] (waiting : Waiting) (input : Json) (target : Target m) :
    m (Option Outcome) := do
  match ← Rescue.rescue (target.validator.validate input) with
  | none => return none
  | some (.ready outcome) => return some outcome
  | some (.pending await) =>
      match waiting with
      | .refuse => return none
      | .await => Rescue.rescue await

/-- Runs the validator at a position again. -/
def rerunAt [Rescue m] (waiting : Waiting) (input : Json)
    (targets : List (Target m)) (position : Nat) : m (Option Outcome) :=
  match targets[position]? with
  | some target => target.rerun waiting input
  | none => return none

/-- Runs validators again in the order of a schedule, and puts the outcomes in
the order of the validators. -/
def rerunScheduled [Rescue m] (waiting : Waiting) (schedule : Schedule)
    (input : Json) (targets : List (Target m)) : m (List (Option Outcome)) := do
  let order := schedule.order targets.length
  let outcomes ← order.mapM (rerunAt waiting input targets)
  return (List.range targets.length).map fun position =>
    ((order.zip outcomes).lookup position).join

/-- Runs validators again; those of a report that does not wait run at the same
time if the settings say so. -/
def rerunAll [Rescue m] (waiting : Waiting) (schedule : Schedule)
    (config : Config) (input : Json) (targets : List (Target m)) :
    m (List (Option Outcome)) :=
  if config.parallel = true ∧ waiting = .refuse then
    rerunScheduled waiting schedule input targets
  else targets.mapM (rerun waiting input)

/-- The issue for an output that the guard did not admit. -/
def guardRejected : Issue :=
  ⟨[], "value matched but the guard rejected it", "guard_rejected"⟩

/-- What the report says of a validator. -/
def findings (target : Target m) : Option Outcome → List Finding
  | some (.failure issues) =>
      issues.toList.map fun issue => ⟨target.case, target.schema, issue⟩
  | some (.success _) =>
      if target.guarded then [⟨target.case, target.schema, guardRejected⟩]
      else []
  | none => []

end Target

namespace Inquiry

/-- What a report on an input has to find out. -/
def ofInput (clauses : List (Clause m ρ)) (table : Option DispatchTable)
    (input : Json) : Inquiry m :=
  match table with
  | none => .rerun (Target.ofCases clauses (List.range clauses.length)) none
  | some table =>
      match table.lookup input with
      | .notKeyed =>
          .rerun (Target.ofCases clauses (List.range clauses.length)) none
      | .miss value => .unknown ⟨table.key, value, table.expected, false⟩
      | .hit value cases =>
          .rerun (Target.ofCases clauses cases)
            (some ⟨table.key, some value, table.expected, true⟩)

/-- The validators to run again. -/
def targets : Inquiry m → List (Target m)
  | .unknown _ => []
  | .rerun targets _ => targets

end Inquiry

/-- What the table knew, in words. -/
def KeyInfo.text (info : KeyInfo) : String :=
  let expected := String.intercalate ", " (info.expected.map Json.text)
  let subject := "discriminator '" ++ info.key ++ "'"
  match info.value with
  | none => subject ++ " is missing; expected one of " ++ expected
  | some value =>
      if info.matched then
        subject ++ " = " ++ value.text ++
          " selected a case, but validation failed"
      else
        subject ++ " has unknown value " ++ value.text ++
          "; expected one of " ++ expected

/-- A finding in words. -/
def Finding.text (finding : Finding) : String :=
  "case " ++ toString finding.case ++ " schema " ++
    toString finding.schema ++ ": " ++ finding.issue.text

namespace Report

/-- The report from its parts; its message shows them all. -/
def ofParts (input : Json) (previewLimit : Nat) (findings : List Finding)
    (validators : List (Validator m)) (info : Option KeyInfo) : Report m where
  message :=
    "no schema matches input " ++ input.preview previewLimit ++
      (match info with
        | some info => "\n" ++ info.text
        | none => "") ++
      String.join (findings.map fun finding => "\n  " ++ finding.text)
  input
  findings
  validators
  discriminator := info

/-- The report on an input from the outcomes of the validators that were run
again. -/
def ofOutcomes (inquiry : Inquiry m) (config : Config) (input : Json)
    (outcomes : List (Option Outcome)) : Report m :=
  match inquiry with
  | .unknown info => ofParts input config.previewLimit [] [] (some info)
  | .rerun targets info =>
      let findings := (targets.zip outcomes).flatMap fun (target, outcome) =>
        target.findings outcome
      ofParts input config.previewLimit findings
        (targets.map (·.validator)) info

/-- The report on an input that no clause accepted. -/
def diagnose [Rescue m] (waiting : Waiting) (schedule : Schedule)
    (clauses : List (Clause m ρ)) (table : Option DispatchTable)
    (config : Config) (input : Json) : m (Report m) := do
  let inquiry := Inquiry.ofInput clauses table input
  let outcomes ← Target.rerunAll waiting schedule config input inquiry.targets
  return ofOutcomes inquiry config input outcomes

end Report

end JsonMatch
