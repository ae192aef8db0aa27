import JsonMatch.Clause.List
import JsonMatch.Dispatch.Building
import JsonMatch.Match.Execution
import JsonMatch.Report.Diagnosis

/-!
# Matchers

A matcher is a list of clauses with settings and a compiler.  Deriving a matcher
leaves the one it is derived from as it was.  A matcher finds out about its
dispatch table once; copies of a matcher share what was found, and derived
matchers do not.
-/

namespace JsonMatch

/-- Clauses with the settings and the compiler they are matched with. -/
structure Matcher (m : Type → Type) (ρ : Type) where
  clauses : ClauseList m ρ
  config : Config
  compiler : Compiler m
  /-- Where what is found out about the dispatch table is kept. -/
  cell : Identity

/-- A computation that may ask for a report, which is made once. -/
abbrev WithReport (m e : Type → Type) := StateT (Option (Report m)) e

namespace Matcher

variable {m e : Type → Type} [Monad m] [Monad e]
variable [MonadStateOf (Store m) e] {ρ : Type}

/-- A matcher with a cell of its own. -/
def create (clauses : ClauseList m ρ) (config : Config)
    (compiler : Compiler m) : e (Matcher m ρ) := do
  return ⟨clauses, config, compiler, ← freshIdentity m⟩

def empty (config : Config) (compiler : Compiler m) : e (Matcher m ρ) :=
  create .nil config compiler

def setConfig (matcher : Matcher m ρ) (config : Config) : e (Matcher m ρ) :=
  create matcher.clauses config matcher.compiler

def setCompiler (matcher : Matcher m ρ) (compiler : Compiler m) :
    e (Matcher m ρ) :=
  create matcher.clauses matcher.config compiler

/-- The matcher continued by a clause that is known to be well formed. -/
def append (matcher : Matcher m ρ) (clause : Clause m ρ) : e (Matcher m ρ) := do
  let clauses := matcher.clauses.append (← freshIdentity m) clause
  create clauses matcher.config matcher.compiler

/-- Adds a clause for one validator. -/
def clause (matcher : Matcher m ρ) (validator : Validator m)
    (handler : Handler m ρ) : e (Matcher m ρ) :=
  matcher.append (.schemas [validator] none handler)

/-- Adds a clause for one validator with a guard. -/
def clauseIf (matcher : Matcher m ρ) (validator : Validator m) (guard : Guard m)
    (handler : Handler m ρ) : e (Matcher m ρ) :=
  matcher.append (.schemas [validator] (some guard) handler)

/-- Adds a clause for several validators; there has to be one. -/
def clauseOfAny (matcher : Matcher m ρ) (validators : List (Validator m))
    (guard : Option (Guard m)) (handler : Handler m ρ) :
    e (Except (Fault m) (Matcher m ρ)) := do
  match matcher.clauses.push (← freshIdentity m)
    (.schemas validators guard handler) with
  | .error fault => return .error fault
  | .ok clauses => return .ok (← create clauses matcher.config matcher.compiler)

/-- Adds a clause for a predicate. -/
def clauseWhen (matcher : Matcher m ρ) (predicate : Predicate m)
    (handler : Handler m ρ) : e (Matcher m ρ) :=
  matcher.append (.when predicate handler)

variable [MonadStateOf (Sequences m ρ) e]

/-- The clauses in order, and their dispatch table, which is built when it is
first asked for. -/
def look (matcher : Matcher m ρ) :
    e (List (Clause m ρ) × Option DispatchTable) := do
  let clauses ← matcher.clauses.inOrder
  let table ← modifyGetThe (Store m) fun store =>
    store.tableOf matcher.cell fun _ =>
      DispatchTable.build? clauses matcher.compiler matcher.config
  return (clauses, table)

def dispatchTable (matcher : Matcher m ρ) : e (Option DispatchTable) :=
  return (← matcher.look).2

variable [MonadLiftT m e]

def execute (matcher : Matcher m ρ) (waiting : Waiting) (input : Json) :
    e (Except (Fault m) (Execution ρ)) := do
  let (clauses, table) ← matcher.look
  Clause.execute waiting clauses table matcher.compiler input

variable [Rescue m]

def diagnose (matcher : Matcher m ρ) (waiting : Waiting) (schedule : Schedule)
    (input : Json) : e (Report m) := do
  let (clauses, table) ← matcher.look
  liftM (Report.diagnose waiting schedule clauses table matcher.config input)

/-- Runs the clauses, with a report in place of the result when none hits. -/
def runOrReport (matcher : Matcher m ρ) (waiting : Waiting)
    (schedule : Schedule) (input : Json) :
    e (Except (Fault m) (Except (Report m) ρ)) := do
  match ← matcher.execute waiting input with
  | .error fault => return .error fault
  | .ok (.matched _ output) => return .ok (.ok output)
  | .ok .unmatched =>
      return .ok (.error (← matcher.diagnose waiting schedule input))

/-- Runs the clauses; it is a fault when none hits. -/
def run (matcher : Matcher m ρ) (waiting : Waiting) (schedule : Schedule)
    (input : Json) : e (Except (Fault m) ρ) := do
  match ← matcher.runOrReport waiting schedule input with
  | .error fault => return .error fault
  | .ok (.ok output) => return .ok output
  | .ok (.error report) => return .error (.unmatched report)

/-- The report on an input, made when it is first asked for. -/
def report (matcher : Matcher m ρ) (schedule : Schedule) (input : Json) :
    WithReport m e (Report m) := do
  match ← get with
  | some made => return made
  | none =>
      let made ← (matcher.diagnose .refuse schedule input : e (Report m))
      set (some made)
      return made

/-- Runs the clauses without waiting; when none hits, the fallback makes the
result, and may ask for a report. -/
def runOrFallback (matcher : Matcher m ρ) (schedule : Schedule) (input : Json)
    (fallback : Json → WithReport m e (Report m) → WithReport m e ρ) :
    e (Except (Fault m) ρ) := do
  match ← matcher.execute .refuse input with
  | .error fault => return .error fault
  | .ok (.matched _ output) => return .ok output
  | .ok .unmatched =>
      return .ok (← (fallback input (matcher.report schedule input)).run' none)

end Matcher

end JsonMatch
