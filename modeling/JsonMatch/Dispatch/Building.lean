import JsonMatch.Clause.Basic
import JsonMatch.Plan.Store

/-!
# Building dispatch tables

A clause is registered when each of its validators has a discriminator; all
discriminators have to name one key.  A clause with a validator that has none,
and a clause without validators, go to the fallback.  The settings of a matcher
say whether tables are built, and which keys are preferred.
-/

namespace JsonMatch

/-- Settings of a matcher. -/
structure Config where
  /-- Whether dispatch tables are used. -/
  dispatch : Bool := true
  /-- Keys preferred as discriminators, the most preferred first. -/
  priority : List String :=
    ["type", "kind", "tag", "_tag", "__typename", "variant", "status", "op"]
  /-- The most characters of an input that a message shows. -/
  previewLimit : Nat := 200
  /-- Whether the validators of a report that does not wait run at the same
  time. -/
  parallel : Bool := false
  deriving DecidableEq, Repr

variable {m : Type → Type} [Monad m] {ρ : Type}

/-- A table under construction: the key is not known before a discriminator was
met, and candidates are not known before the fallback is complete. -/
structure TableDraft where
  key : Option String := none
  entries : List DispatchEntry := []
  fallback : List Nat := []

namespace TableDraft

/-- Sends a clause to the fallback. -/
def fallBack (draft : TableDraft) (clause : Nat) : TableDraft :=
  { draft with fallback := draft.fallback ++ [clause] }

/-- Registers a clause under a value; a clause is registered there once. -/
def enter (clause : Nat) (tag : ScalarKey × Json) :
    List DispatchEntry → List DispatchEntry
  | [] => [⟨tag.1, tag.2, [clause], []⟩]
  | entry :: entries =>
      if entry.key = tag.1 then
        if entry.clauses.getLast? = some clause then entry :: entries
        else { entry with clauses := entry.clauses ++ [clause] } :: entries
      else entry :: enter clause tag entries

/-- The key named by all discriminators, if they agree with each other and with
the key met before. -/
def agreeOn (key : Option String) (found : List Discriminator) :
    Option (Option String) :=
  found.foldlM
    (fun key discriminator =>
      match key with
      | none => some (some discriminator.key)
      | some known =>
          if known = discriminator.key then some (some known) else none)
    key

/-- Takes up a clause with the discriminators of its validators; `none` when the
keys disagree. -/
def register (draft : TableDraft) (clause : Nat) (found : List Discriminator) :
    Option TableDraft := do
  let key ← agreeOn draft.key found
  let draft := { draft with key := key }
  let tags := found.mapM fun discriminator =>
    discriminator.value.scalarKey?.map fun tag => (tag, discriminator.value)
  match tags with
  | some tags =>
      return { draft with
        entries := tags.foldl (fun entries tag => enter clause tag entries)
          draft.entries }
  | none => return draft.fallBack clause

/-- The finished table, if some key was met. -/
def finish (draft : TableDraft) : Option DispatchTable :=
  draft.key.map fun key =>
    { key
      entries := draft.entries.map fun entry =>
        { entry with
          candidates := entry.clauses.merge draft.fallback
            (fun x y => decide (x ≤ y)) }
      fallback := draft.fallback }

end TableDraft

namespace Compiler

/-- The discriminators of all validators of a clause, if it has validators and
each has one. -/
def discriminators? (compiler : Compiler m) (priority : List String)
    (clause : Clause m ρ) : Option (List Discriminator) :=
  if clause.validators.isEmpty then none
  else clause.validators.mapM fun validator =>
    compiler.discriminator? validator priority

end Compiler

namespace DispatchTable

/-- Takes up the clauses one after another. -/
def draft (clauses : List (Clause m ρ)) (compiler : Compiler m)
    (priority : List String) : Option TableDraft :=
  clauses.zipIdx.foldlM
    (fun (draft : TableDraft) (clause, position) =>
      match compiler.discriminators? priority clause with
      | none => some (draft.fallBack position)
      | some found => draft.register position found)
    {}

/-- The table of a list of clauses.  There is none when tables are not used,
for fewer than two clauses, when no discriminator is found, and when two of them
name different keys. -/
def build? (clauses : List (Clause m ρ)) (compiler : Compiler m)
    (config : Config) : Option DispatchTable :=
  if !config.dispatch || clauses.length < 2 then none
  else (draft clauses compiler config.priority).bind TableDraft.finish

end DispatchTable

end JsonMatch
