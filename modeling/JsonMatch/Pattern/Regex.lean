import JsonMatch.Pattern.CharClass

/-!
# Regular expressions

An expression denotes a relation between positions of a text.  `Regex.ends`
takes the positions where a match may begin to those where it may end; all sets
of positions are ascending lists.  A repetition without upper bound is closed
off after as many rounds as the text has positions, because every round that
still adds something adds a position.

Expressions are put together by `append`, `choice` and `repetition`, which keep
them small: runs of characters are joined, a choice of single characters becomes
a set, and what takes no character is not repeated.
-/

namespace JsonMatch

/-- How a place lies to the words of a text. -/
inductive WordPlace where
  | edge
  | noEdge
  | first
  | last
  | mayStart
  | mayEnd
  deriving DecidableEq

/-- A place in a text.  `crlf` says whether carriage returns end lines too. -/
inductive Place where
  | textStart
  | textEnd
  | lineStart (crlf : Bool)
  | lineEnd (crlf : Bool)
  | word (kind : WordPlace) (members : CharSet)
  deriving DecidableEq

/-- A regular expression. -/
inductive Regex where
  | run (chars : List Char)
  | oneOf (members : CharSet)
  | anchor (place : Place)
  | group (body : Regex)
  | seq (first second : Regex)
  | alt (first second : Regex)
  | repeated (body : Regex) (least : Nat) (most : Option Nat)

/-! ## Places -/

def WordPlace.holds (before after : Bool) : WordPlace → Bool
  | .edge => before != after
  | .noEdge => before == after
  | .first => !before && after
  | .last => before && !after
  | .mayStart => !before
  | .mayEnd => !after

def Place.holds (text : Array Char) (position : Nat) (place : Place) : Bool :=
  let before := if position = 0 then none else text[position - 1]?
  let after := text[position]?
  match place with
  | .textStart => before.isNone
  | .textEnd => after.isNone
  | .lineStart crlf =>
      before.isNone || before == some '\n' ||
        (crlf && before == some '\r' && after != some '\n')
  | .lineEnd crlf =>
      after.isNone || (crlf && after == some '\r') ||
        (after == some '\n' && !(crlf && before == some '\r'))
  | .word kind members =>
    kind.holds (before.any members.contains) (after.any members.contains)

/-! ## Sets of positions -/

/-- The union of two ascending lists, after what is `done` already, last
first. -/
def unionOnto (done : List Nat) : List Nat → List Nat → List Nat
  | [], right => done.reverseAux right
  | left, [] => done.reverseAux left
  | x :: left, y :: right =>
      if x < y then unionOnto (x :: done) left (y :: right)
      else if y < x then unionOnto (y :: done) (x :: left) right
      else unionOnto (x :: done) left right

def unionAscending (left right : List Nat) : List Nat :=
  unionOnto [] left right

/-- What the first of two ascending lists has and the second has not, after what
is `done` already, last first. -/
def diffOnto (done : List Nat) : List Nat → List Nat → List Nat
  | [], _ => done.reverse
  | left, [] => done.reverseAux left
  | x :: left, y :: right =>
      if x < y then diffOnto (x :: done) left (y :: right)
      else if y < x then diffOnto done (x :: left) right
      else diffOnto done left right

def diffAscending (left right : List Nat) : List Nat :=
  diffOnto [] left right

/-- Applies a step `count` times; once it changes nothing, it is not applied
again. -/
def iterateSet (step : List Nat → List Nat) : Nat → List Nat → List Nat
  | 0, positions => positions
  | count + 1, positions =>
      let next := step positions
      if next = positions then positions else iterateSet step count next

/-- The positions reached within `rounds` steps: `settled`, last first, then
`reached`.  A step never leads back, so positions before the first one of the
last step are settled. -/
def reachWithin (step : List Nat → List Nat) :
    Nat → List Nat → List Nat → List Nat → List Nat
  | 0, settled, reached, _ => settled.reverseAux reached
  | rounds + 1, settled, reached, frontier =>
      match diffAscending (step frontier) reached with
      | [] => settled.reverseAux reached
      | first :: next =>
          let (before, ahead) := reached.span (· < first)
          reachWithin step rounds (before.reverseAux settled)
            (unionAscending ahead (first :: next)) (first :: next)

namespace Regex

/-! ## Matching -/

/-- Whether a text goes on with the given characters. -/
def runsAt (text : Array Char) (position : Nat) : List Char → Bool
  | [] => true
  | c :: chars => text[position]? == some c && runsAt text (position + 1) chars

/-- Where a match of the expression may end, given where it may begin. -/
def ends (text : Array Char) : Regex → List Nat → List Nat
  | .run chars, begins =>
      (begins.filter fun position => runsAt text position chars).map
        (· + chars.length)
  | .oneOf members, begins =>
      (begins.filter fun position => text[position]?.any members.contains).map
        (· + 1)
  | .anchor place, begins =>
    begins.filter fun position => place.holds text position
  | .group body, begins => body.ends text begins
  | .seq first second, begins => second.ends text (first.ends text begins)
  | .alt first second, begins =>
      unionAscending (first.ends text begins) (second.ends text begins)
  | .repeated body least most, begins =>
      let required := iterateSet (body.ends text) least begins
      let rounds := match most with
        | some most => most - least
        | none => text.size + 1
      reachWithin (body.ends text) rounds [] required required

/-- Whether the expression matches some part of the text. -/
def matchesIn (regex : Regex) (text : String) : Bool :=
  let characters := text.toList.toArray
  !(regex.ends characters (List.range (characters.size + 1))).isEmpty

/-! ## Lengths -/

/-- The length of the shortest match; none for an expression with a part that
never matches. -/
def shortest? : Regex → Option Nat
  | .run chars => some chars.length
  | .oneOf members => if members = .empty then none else some 1
  | .anchor _ => some 0
  | .group body => body.shortest?
  | .seq first second => do return (← first.shortest?) + (← second.shortest?)
  | .alt first second => do return min (← first.shortest?) (← second.shortest?)
  | .repeated body least _ => do return (← body.shortest?) * least

/-- The length of the longest match; none for an expression with a part that
never matches and for one without a longest match. -/
def longest? : Regex → Option Nat
  | .run chars => some chars.length
  | .oneOf members => if members = .empty then none else some 1
  | .anchor _ => some 0
  | .group body => body.longest?
  | .seq first second => do return (← first.longest?) + (← second.longest?)
  | .alt first second => do return max (← first.longest?) (← second.longest?)
  | .repeated body _ most => do return (← body.longest?) * (← most)

def takesSome (regex : Regex) : Bool :=
  regex.shortest?.any (0 < ·)

def takesNone (regex : Regex) : Bool :=
  regex.longest? == some 0

/-! ## Construction -/

def ofSet (members : CharSet) : Regex :=
  match members.only? with
  | some c => .run [c]
  | none => .oneOf members

def append : Regex → Regex → Regex
  | .run [], second => second
  | first, .run [] => first
  | .run front, .run back => .run (front ++ back)
  | .run front, .seq (.run back) second => .seq (.run (front ++ back)) second
  | first, second => .seq first second

def singleChar? : Regex → Option Char
  | .run [c] => some c
  | _ => none

def setMembers? : Regex → Option CharSet
  | .oneOf members => some members
  | _ => none

def unionOf (sets : List CharSet) : CharSet :=
  sets.foldl CharSet.union .empty

/-- One of several expressions. -/
def choice (first : Regex) (others : List Regex) : Regex :=
  match (first :: others).mapM singleChar?,
      (first :: others).mapM setMembers? with
  | some chars, _ => ofSet (unionOf (chars.map CharSet.single))
  | none, some sets => ofSet (unionOf sets)
  | none, none => alternatives first others
where
  /-- One of several expressions, each kept as it is. -/
  alternatives (first : Regex) : List Regex → Regex
    | [] => first
    | second :: others => .alt first (alternatives second others)

/-- An expression several times.  One that takes no character need not be
repeated more than once. -/
def repetition (body : Regex) (least : Nat) (most : Option Nat) : Regex :=
  let (least, most) :=
    if body.takesNone then (min least 1, some (min (most.getD 1) 1))
    else (least, most)
  if most = some 0 then .run []
  else if least = 1 ∧ most = some 1 then body
  else .repeated body least most

end Regex

end JsonMatch
