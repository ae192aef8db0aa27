import JsonMatch.Pattern.Escape

/-!
# Reading a class

A class lists characters, ranges, named classes and classes in brackets, and may
take lists apart by the operators `&&` (both), `--` (the first only) and `~~`
(exactly one), read from left to right.  Open classes are kept on a stack, the
innermost first.
-/

namespace JsonMatch

/-- A set as read, with the depth to which its brackets and operators nest. -/
structure NestedSet where
  members : CharSet
  depth : Nat

/-- A list of entries: their union, their number and their greatest depth. -/
structure ClassEntries where
  members : CharSet := .empty
  count : Nat := 0
  depth : Nat := 0

namespace ClassEntries

def add (entries : ClassEntries) (members : CharSet) (depth : Nat) :
    ClassEntries where
  members := entries.members.union members
  count := entries.count + 1
  depth := max entries.depth depth

/-- The list as one set.  Two entries or more nest once more. -/
def toSet (entries : ClassEntries) : NestedSet where
  members := entries.members
  depth := if entries.count < 2 then entries.depth else entries.depth + 1

end ClassEntries

/-- An operator between two lists of a class. -/
inductive ClassOperator where
  | both
  | firstOnly
  | exactlyOne

def ClassOperator.apply : ClassOperator → CharSet → CharSet → CharSet
  | .both => CharSet.inter
  | .firstOnly => CharSet.diff
  | .exactlyOne => CharSet.symmDiff

/-- A class that is being read: whether it is negated, what stands before its
last operator, and the entries after that. -/
structure OpenClass where
  negated : Bool
  operand : Option (ClassOperator × NestedSet) := none
  entries : ClassEntries := {}

namespace OpenClass

def add (level : OpenClass) (members : CharSet) (depth : Nat) : OpenClass :=
  { level with entries := level.entries.add members depth }

/-- All that has been read, taken as one set. -/
def toSet (level : OpenClass) (flags : Flags) : NestedSet :=
  let last := level.entries.toSet
  match level.operand with
  | none => last
  | some (operator, first) =>
      ⟨operator.apply (flags.withVariants first.members)
        (flags.withVariants last.members), max first.depth last.depth + 1⟩

def operate (level : OpenClass) (flags : Flags) (operator : ClassOperator) :
    OpenClass where
  negated := level.negated
  operand := some (operator, level.toSet flags)

/-- The class, closed. -/
def close? (level : OpenClass) (flags : Flags) : Option NestedSet := do
  let set := level.toSet flags
  return ⟨← flags.finish? level.negated (flags.withVariants set.members),
    set.depth + 1⟩

end OpenClass

namespace ClassReading

/-- Reads what may come before all entries of a class: a caret negates it, and
dashes, or else a closing bracket, stand for themselves. -/
def opening (flags : Flags) (input : List Char) : OpenClass × List Char :=
  let (negated, rest) := match flags.next input with
    | '^' :: rest => (true, flags.next rest)
    | rest => (false, rest)
  let (dashes, rest) := flags.takeAll (· == '-') rest
  let level :=
    dashes.foldl (fun level c => level.add (.single c) 0)
      ({ negated } : OpenClass)
  match dashes, rest with
  | [], ']' :: rest => (level.add (.single ']') 0, rest)
  | _, rest => (level, rest)

/-- Reads a named class of ASCII characters after its opening bracket. -/
def namedClass? (flags : Flags) :
    List Char → Option (Option CharSet × List Char)
  | ':' :: rest => do
      let (negated, rest) := match rest with
        | '^' :: rest => (true, rest)
        | rest => (false, rest)
      let ':' :: ']' :: after := rest.dropWhile (· != ':') | none
      let set ← CharSet.asciiNamed? (String.ofList (rest.takeWhile (· != ':')))
      return (flags.finish? negated (flags.withVariants set), after)
  | _ => none

/-- Reads a character or an escape. -/
def item? (flags : Flags) : List Char → Option (Escape × List Char)
  | [] => none
  | '\\' :: rest => Escape.read? flags rest
  | c :: rest => some (.char c, rest)

def char? (flags : Flags) : Escape → Option Char
  | .char c => if flags.unicode || c.toNat < 0x80 then some c else none
  | _ => none

/-- The members of an item that is no range. -/
def members? (flags : Flags) : Escape → Option CharSet
  | .char c => (char? flags (.char c)).map CharSet.single
  | .members set => some set
  | .place _ => none

/-- Reads an entry: an item, or two characters with a dash between them.  A dash
before the end of the class or before another dash makes no range. -/
def entry? (flags : Flags) (input : List Char) :
    Option (CharSet × List Char) := do
  let (first, rest) ← item? flags input
  let rest := flags.next rest
  match rest with
  | '-' :: after =>
      let after := flags.next after
      if after.head? = some ']' ∨ after.head? = some '-' then
        return (← members? flags first, rest)
      else
        let (last, rest) ← item? flags after
        let first ← char? flags first
        let last ← char? flags last
        if first ≤ last then return (.between first last, rest) else none
  | rest => return (← members? flags first, rest)

/-- Reads on in a class, with the classes around it, up to the end of the
outermost.  Every step takes a character; the limit bounds the steps. -/
def readOn? (flags : Flags) :
    Nat → OpenClass → List OpenClass → List Char →
    Option (NestedSet × List Char)
  | 0, _, _, _ => none
  | limit + 1, level, outer, input =>
      match flags.next input with
      | [] => none
      | '[' :: rest =>
          match namedClass? flags rest with
          | some (found, rest) => do
              readOn? flags limit (level.add (← found) 0) outer rest
          | none =>
              let (inner, rest) := opening flags rest
              readOn? flags limit inner (level :: outer) rest
      | ']' :: rest => do
          let set ← level.close? flags
          match outer with
          | [] => return (set, rest)
          | parent :: outer =>
              readOn? flags limit (parent.add set.members set.depth) outer rest
      | '&' :: '&' :: rest =>
        readOn? flags limit (level.operate flags .both) outer rest
      | '-' :: '-' :: rest =>
        readOn? flags limit (level.operate flags .firstOnly) outer rest
      | '~' :: '~' :: rest =>
        readOn? flags limit (level.operate flags .exactlyOne) outer rest
      | input => do
          let (members, rest) ← entry? flags input
          readOn? flags limit (level.add members 0) outer rest

/-- Reads a class after its opening bracket. -/
def read? (flags : Flags) (input : List Char) :
    Option (NestedSet × List Char) :=
  let (level, rest) := opening flags input
  readOn? flags (rest.length + 1) level [] rest

end ClassReading

end JsonMatch
