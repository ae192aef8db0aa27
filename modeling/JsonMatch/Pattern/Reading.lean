import JsonMatch.Pattern.ClassReading
import JsonMatch.Pattern.Footprint

/-!
# Reading a pattern

A pattern is a choice of sequences of pieces; a repetition mark applies to the
piece before it.  Open groups are kept on a stack, the innermost first.  A
repetition mark without a piece, an unclosed or unopened group, an unclosed
class, an empty range, an escape that stands for nothing, a nesting that is too
deep and a size beyond the limit make the pattern invalid.
-/

namespace JsonMatch

namespace PatternReading

/-! ## Pieces -/

/-- A part of a pattern as read: its expression, the depth to which it nests,
and whether it can be repeated, as all parts can but a change of flags. -/
structure Piece where
  regex : Regex
  depth : Nat := 0
  repeatable : Bool := true

/-- The depth of several parts as one: one more than that of the deepest when
there are two or more. -/
def depthOf (pieces : List Piece) : Nat :=
  let deepest := pieces.foldl (fun depth piece => max depth piece.depth) 0
  if pieces.length < 2 then deepest else deepest + 1

/-- Pieces one after the other, the last first. -/
def sequenceOf : List Piece → Piece
  | [piece] => piece
  | pieces =>
      { regex :=
          pieces.foldl (fun regex piece => piece.regex.append regex) (.run [])
        depth := depthOf pieces }

/-- What has been read inside a group, or outside all: the finished alternatives
and the pieces of the one being read, both last first. -/
structure Level where
  alternatives : List Piece := []
  pieces : List Piece := []

namespace Level

def push (level : Level) (piece : Piece) : Level :=
  { level with pieces := piece :: level.pieces }

def nextAlternative (level : Level) : Level :=
  { alternatives := sequenceOf level.pieces :: level.alternatives }

/-- All that has been read, as one piece. -/
def toPiece (level : Level) : Piece :=
  let last := sequenceOf level.pieces
  match (last :: level.alternatives).reverse with
  | first :: second :: others =>
      { regex := .choice first.regex ((second :: others).map Piece.regex)
        depth := depthOf (last :: level.alternatives) }
  | _ => last

def repeatLast? (level : Level) (least : Nat) (most : Option Nat) :
    Option Level :=
  match level.pieces with
  | piece :: pieces =>
      if piece.repeatable then
        some { level with pieces :=
          { regex := .repetition piece.regex least most,
            depth := piece.depth + 1 } :: pieces }
      else none
  | [] => none

end Level

/-- An open group: what was read before it, whether it has a number, and the
flags to return to. -/
structure OpenGroup where
  before : Level
  numbered : Bool
  flags : Flags

/-- How far a pattern has been read. -/
structure Progress where
  level : Level := {}
  outer : List OpenGroup := []
  flags : Flags := {}
  names : List String := []

namespace Progress

def push (progress : Progress) (piece : Piece) : Progress :=
  { progress with level := progress.level.push piece }

def pushRegex (progress : Progress) (regex : Regex) : Progress :=
  progress.push { regex }

def repeatLast? (progress : Progress) (least : Nat) (most : Option Nat) :
    Option Progress := do
  return { progress with level := ← progress.level.repeatLast? least most }

/-- Opens a group that is read with the given flags. -/
def openGroup (progress : Progress) (numbered : Bool) (flags : Flags) :
    Progress :=
  { progress with
    level := {}
    outer := ⟨progress.level, numbered, progress.flags⟩ :: progress.outer
    flags }

/-- Closes the innermost group. -/
def closeGroup? (progress : Progress) : Option Progress :=
  match progress.outer with
  | [] => none
  | group :: outer =>
      let inner := progress.level.toPiece
      let piece : Piece :=
        { regex := if group.numbered then .group inner.regex else inner.regex
          depth := inner.depth + 1 }
      some { progress with
        level := group.before.push piece
        outer
        flags := group.flags }

/-- The whole pattern, when no group is open. -/
def finish? (progress : Progress) : Option Piece :=
  if progress.outer.isEmpty then some progress.level.toPiece else none

end Progress

/-! ## Counts -/

def maxCount : Nat := 0xFFFFFFFF

/-- Reads a count.  Blanks may stand on both sides of its digits. -/
def count? (flags : Flags) (input : List Char) : Option (Nat × List Char) :=
  let isBlank (c : Char) : Bool := CharSet.blanks.contains c
  let (digits, rest) := flags.takeAll Char.isDigit (input.dropWhile isBlank)
  let value :=
    digits.foldl (fun value c => value * 10 + (c.toNat - '0'.toNat)) 0
  if digits.isEmpty ∨ maxCount < value then none
  else some (value, flags.next (rest.dropWhile isBlank))

/-- Reads the bounds of a repetition after the opening brace: a count, the least
count and a comma, or both counts. -/
def bounds? (flags : Flags) (input : List Char) :
    Option ((Nat × Option Nat) × List Char) := do
  let (least, rest) ← count? flags (flags.next input)
  match rest with
  | '\x7d' :: rest => return ((least, some least), flags.next rest)
  | ',' :: rest =>
      match flags.next rest with
      | '\x7d' :: rest => return ((least, none), flags.next rest)
      | rest =>
          let (most, rest) ← count? flags rest
          let '\x7d' :: rest := rest | none
          if least ≤ most then return ((least, some most), flags.next rest)
          else none
  | _ => none

/-- Passes over a question mark after a repetition mark: it only changes which
match is preferred. -/
def dropPreference : List Char → List Char
  | '?' :: rest => rest
  | rest => rest

/-! ## Groups -/

def beginsName (c : Char) : Bool :=
  c == '_' || (CharSet.wordChars.contains c && !CharSet.digits.contains c)

def continuesName (c : Char) : Bool :=
  CharSet.wordChars.contains c || c == '.' || c == '[' || c == ']'

/-- Reads the name of a group up to the angle bracket that ends it, and opens
the group.  No name may come twice. -/
def openNamed? (progress : Progress) (input : List Char) :
    Option (Progress × List Char) := do
  let name := input.takeWhile (· != '>')
  let '>' :: rest := input.dropWhile (· != '>') | none
  let first :: others := name | none
  let text := String.ofList name
  if beginsName first && others.all continuesName &&
      !progress.names.contains text then
    let progress := { progress with names := text :: progress.names }
    return (progress.openGroup true progress.flags, rest)
  else none

/-- Reads what follows an opening parenthesis.  It opens a group, with or
without a number, or changes the flags for the rest of the group around it. -/
def open? (progress : Progress) (input : List Char) :
    Option (Progress × List Char) :=
  match progress.flags.next input with
  | '?' :: '=' :: _ => none
  | '?' :: '!' :: _ => none
  | '?' :: '<' :: '=' :: _ => none
  | '?' :: '<' :: '!' :: _ => none
  | '?' :: 'P' :: '<' :: rest => openNamed? progress rest
  | '?' :: '<' :: rest => openNamed? progress rest
  | '?' :: rest => do
      let (listed, rest) ← progress.flags.list? [] rest
      if listed.opensGroup then
        return (progress.openGroup false listed.flags, rest)
      else if listed.named then
        let progress := { progress with flags := listed.flags }
        return (progress.push { regex := .run [], repeatable := false }, rest)
      else none
  | rest => some (progress.openGroup true progress.flags, rest)

/-! ## Steps -/

def regexOf (flags : Flags) : Escape → Regex
  | .char c => flags.literal c
  | .members set => .ofSet set
  | .place place => .anchor place

/-- Reads a sign with what belongs to it. -/
def step? (progress : Progress) (c : Char) (rest : List Char) :
    Option (Progress × List Char) := do
  let flags := progress.flags
  match c with
  | '(' => open? progress rest
  | ')' => return (← progress.closeGroup?, rest)
  | '|' =>
    return ({ progress with level := progress.level.nextAlternative }, rest)
  | '*' => return (← progress.repeatLast? 0 none, dropPreference rest)
  | '+' => return (← progress.repeatLast? 1 none, dropPreference rest)
  | '?' => return (← progress.repeatLast? 0 (some 1), dropPreference rest)
  | '\x7b' =>
      let ((least, most), rest) ← bounds? flags rest
      return (← progress.repeatLast? least most, dropPreference rest)
  | '[' =>
      let (set, rest) ← ClassReading.read? flags rest
      return (progress.push { regex := .ofSet set.members, depth := set.depth },
        rest)
  | '\\' =>
      let (escape, rest) ← Escape.read? flags rest
      return (progress.pushRegex (regexOf flags escape), rest)
  | '.' => return (progress.pushRegex (← flags.dot?), rest)
  | '^' => return (progress.pushRegex (.anchor flags.startMark), rest)
  | '$' => return (progress.pushRegex (.anchor flags.endMark), rest)
  | c => return (progress.pushRegex (flags.literal c), rest)

/-- Reads on to the end.  Every step takes a character; the limit bounds the
steps. -/
def readOn? : Nat → Progress → List Char → Option Piece
  | 0, _, _ => none
  | limit + 1, progress, input =>
      match progress.flags.next input with
      | [] => progress.finish?
      | c :: rest => do
          let (progress, rest) ← step? progress c rest
          readOn? limit progress rest

end PatternReading

/-- A valid pattern with its source. -/
structure Pattern where
  source : String
  regex : Regex

namespace Pattern

/-- The greatest depth to which groups, repetitions, choices, sequences and
classes may nest. -/
def maxDepth : Nat := 250

/-- Reads a pattern; `none` when it is invalid. -/
def read? (source : String) : Option Pattern := do
  let input := source.toList
  let whole ← PatternReading.readOn? (input.length + 1) {} input
  if whole.depth ≤ maxDepth && whole.regex.fits then some ⟨source, whole.regex⟩
  else none

/-- Whether some part of the text matches. -/
def matchesIn (pattern : Pattern) (text : String) : Bool :=
  pattern.regex.matchesIn text

end Pattern

end JsonMatch
