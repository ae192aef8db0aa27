import JsonMatch.Value.Text

/-!
# Dispatch tables

When the clauses of a list are told apart by the value of one key, a table finds
the clauses registered under the value that an input carries there.  Clauses
that cannot be told apart by the key are the fallback and are visited always.
Clauses are named by their positions in the list.
-/

namespace JsonMatch

/-- The clauses registered under one value. -/
structure DispatchEntry where
  key : ScalarKey
  value : Json
  /-- Clauses registered under the value, ascending. -/
  clauses : List Nat
  /-- These and the fallback clauses, ascending. -/
  candidates : List Nat

/-- A table that finds clauses by the value of a key. -/
structure DispatchTable where
  key : String
  /-- In the order in which the values were first met. -/
  entries : List DispatchEntry
  fallback : List Nat

/-- The clauses to visit for an input. -/
inductive Route where
  /-- All clauses: the input is no object. -/
  | linear
  /-- These clauses, ascending. -/
  | candidates (clauses : List Nat)

/-- What a table knows about an input. -/
inductive Lookup where
  /-- The input is no object. -/
  | notKeyed
  /-- The key is absent, or its value is not in the table. -/
  | miss (value : Option Json)
  /-- The clauses registered under the value, without the fallback. -/
  | hit (value : Json) (clauses : List Nat)

namespace DispatchTable

/-- The values that some clause is registered under, in order. -/
def expected (table : DispatchTable) : List Json :=
  table.entries.map (·.value)

/-- The entry of a value. -/
def entry? (table : DispatchTable) (value : Json) : Option DispatchEntry := do
  let key ← value.scalarKey?
  table.entries.find? fun entry => entry.key == key

def clausesFor? (table : DispatchTable) (value : Json) : Option (List Nat) :=
  (table.entry? value).map (·.clauses)

/-- What the table knows about an input. -/
def lookup (table : DispatchTable) : Json → Lookup
  | .object members =>
      match Members.get? members table.key with
      | none => .miss none
      | some value =>
          match table.entry? value with
          | some entry => .hit value entry.clauses
          | none => .miss (some value)
  | _ => .notKeyed

/-- The clauses to visit for an input. -/
def route (table : DispatchTable) : Json → Route
  | .object members =>
      match (Members.get? members table.key).bind table.entry? with
      | some entry => .candidates entry.candidates
      | none => .candidates table.fallback
  | _ => .linear

/-- What can come of an input: it is no object, it misses, or it hits an
entry. -/
inductive Reads (table : DispatchTable) (input : Json) :
    Lookup → Route → Prop where
  | notKeyed (scalar : ∀ members, input ≠ .object members)
      (bare : input.member? table.key = none) :
        Reads table input .notKeyed .linear
  | miss (keyed : ∃ members, input = .object members) (value : Option Json)
      (held : input.member? table.key = value)
      (unmet : value.bind table.entry? = none) :
      Reads table input (.miss value) (.candidates table.fallback)
  | hit (keyed : ∃ members, input = .object members) (value : Json)
      (entry : DispatchEntry) (held : input.member? table.key = some value)
      (found : table.entry? value = some entry) :
      Reads table input (.hit value entry.clauses)
        (.candidates entry.candidates)

theorem reads (table : DispatchTable) (input : Json) :
    table.Reads input (table.lookup input) (table.route input) := by
  cases input with
  | object members =>
      have keyed : ∃ others, Json.object members = .object others :=
        ⟨members, rfl⟩
      simp only [lookup, route]
      cases held : Members.get? members table.key with
      | none => exact .miss keyed none held rfl
      | some value =>
          simp only [Option.bind_some]
          cases found : table.entry? value with
          | none => exact .miss keyed (some value) held found
          | some entry => exact .hit keyed value entry held found
  | _ =>
      apply Reads.notKeyed
      · intro members same
        cases same
      · rfl

end DispatchTable

/-- The clauses to visit for an input, in order, out of `count` clauses. -/
def casesToVisit (count : Nat) (table : Option DispatchTable) (input : Json) :
    List Nat :=
  match table with
  | none => List.range count
  | some table =>
      match table.route input with
      | .candidates clauses => clauses
      | .linear => List.range count

end JsonMatch
