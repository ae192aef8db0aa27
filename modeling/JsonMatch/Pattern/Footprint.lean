import JsonMatch.Pattern.Regex

/-!
# The size of a pattern's automata

A pattern is carried out by two automata over the bytes of a text in UTF-8, one
reading forwards and one reading backwards; the first also marks where groups
begin and end.  Copies of a repeated expression are written out, so a short
pattern can stand for a large automaton.  A pattern is refused when either
automaton would take more room than `sizeLimit`.
-/

namespace JsonMatch

/-- The way an automaton reads. -/
inductive Direction where
  | forwards
  | backwards
  deriving DecidableEq

namespace Footprint

def state : Nat := 32

def move : Nat := 8

/-- The room of one of the ways out of a branching. -/
def branch : Nat := 4

/-- The room of a branching with two ways out. -/
def fork : Nat := state + 2 * branch

/-- The greatest room an automaton may take: ten times 2 to the 20th bytes. -/
def sizeLimit : Nat := 0xA00000

def total (size : α → Nat) (parts : List α) : Nat :=
  parts.foldl (fun sum part => sum + size part) 0

/-! ## Sets of characters -/

/-- A range of bytes, ends included. -/
abbrev ByteRange := Nat × Nat

def bytesOf (code : Nat) : List Nat :=
  (String.utf8EncodeChar (Char.ofNat code)).map UInt8.toNat

/-- Where a range of code points is cut first: between lengths, then so that all
bytes but the first can be chosen independently. -/
def cut? (first last : Nat) : Option Nat :=
  match [0x7F, 0x7FF, 0xFFFF].find? fun greatest =>
    first ≤ greatest && greatest < last with
  | some greatest => some greatest
  | none =>
      if last < 0x80 then none
      else
        [0x40, 0x1000, 0x40000].findSome? fun block =>
          if first / block = last / block then none
          else if first % block ≠ 0 then
            some (first / block * block + block - 1)
          else if last % block ≠ block - 1 then some (last / block * block - 1)
          else none

/-- A range of code points as sequences of byte ranges, in ascending order.  No
range is cut more often than the limit allows. -/
def sequences : Nat → Nat → Nat → List (List ByteRange)
  | 0, _, _ => []
  | limit + 1, first, last =>
      match cut? first last with
      | some greatest =>
          sequences limit first greatest ++ sequences limit (greatest + 1) last
      | none => [(bytesOf first).zip (bytesOf last)]

/-- Groups neighbours that begin alike. -/
def groupByHead (parts : List (List ByteRange)) :
    List (List (List ByteRange)) :=
  parts.splitBy fun x y => x.head? == y.head?

/-- The number of sequences that begin one of the given sequences, the empty one
left out. -/
def beginnings : Nat → List (List ByteRange) → Nat
  | 0, _ => 0
  | limit + 1, parts =>
      total (fun group => 1 + beginnings limit (group.map List.tail))
        (groupByHead (parts.filter (!·.isEmpty)))

/-- A state with its moves; states are numbered in the order in which they were
made, and the end has number zero. -/
abbrev Node := List (ByteRange × Nat)

/-- Makes the state that reads one of the given sequences.  What has been made,
newest first, is used again. -/
def nodeOf : Nat → List (List ByteRange) → List Node → Nat × List Node
  | 0, _, made => (0, made)
  | limit + 1, parts, made =>
      if parts.all (·.isEmpty) then (0, made)
      else
        let (moves, made) := (groupByHead parts).foldl
          (fun (moves, made) group =>
            let (target, made) := nodeOf limit (group.map List.tail) made
            ((((group.head?.bind List.head?).getD (0, 0)), target) ::
              moves, made))
          (([] : Node), made)
        match made.findIdx? (· == moves) with
        | some index => (made.length - index, made)
        | none => (made.length + 1, moves :: made)

/-- The size of the part of an automaton that reads one character of a set. -/
def ofSet (direction : Direction) (set : CharSet) : Nat :=
  let members := set.characters
  if members.isAscii then 2 * state + members.ranges.length * move
  else
    let parts := members.ranges.flatMap fun (first, last) =>
      sequences 16 first last
    match direction with
    | .forwards =>
      state + total (fun node => state + node.length * move)
        (nodeOf 5 parts []).2
    | .backwards => 2 * state + beginnings 4 parts * state +
        parts.length * branch

/-! ## Choices between words -/

/-- The size of a tree of words without its end.  A word that ends inside the
tree keeps the words after it apart from those before it. -/
def ofWords : Nat → List (List UInt8) → Nat
  | 0, _ => 0
  | limit + 1, words =>
      let chunks := (words.splitBy fun x y => x.isEmpty == y.isEmpty).filter
        (!·.all List.isEmpty)
      let ended := (words.filter List.isEmpty).length
      let chunkSize (chunk : List (List UInt8)) : Nat :=
        let heads := (chunk.filterMap List.head?).eraseDups
        let moves := if heads.length = 1 then 0 else heads.length * move
        state + moves +
          total (fun head =>
            let tails := (chunk.filter (·.head? == some head)).map List.tail
            if tails.all List.isEmpty then 0 else ofWords limit tails) heads
      state + (chunks.length + ended) * branch + total chunkSize chunks

end Footprint

namespace Regex

open Footprint

/-- The words of a choice between words. -/
def words? : Regex → Option (List (List Char))
  | .run [] => none
  | .run chars => some [chars]
  | .alt first second => do return (← first.words?) ++ (← second.words?)
  | _ => none

/-- The size of a choice between words: they share what they begin with. -/
def wordsSize (direction : Direction) (words : List (List Char)) : Nat :=
  let bytes := words.map fun word =>
    let bytes := word.flatMap String.utf8EncodeChar
    if direction = .backwards then bytes.reverse else bytes
  let longest := bytes.foldl (fun longest word => max longest word.length) 0
  state + ofWords (longest + 1) bytes

/-- The size of a number of copies one after the other. -/
def copiesSize (copy count : Nat) : Nat :=
  if count = 0 then state else count * copy

/-- The size of a repetition of something of a given size. -/
def repetitionSize (copy : Nat) (takesSome : Bool) : Nat → Option Nat → Nat
  | 0, none => if takesSome then copy + fork else copy + 2 * fork + state
  | least + 1, none => copiesSize copy (least + 1) + fork
  | 0, some 1 => copy + fork + state
  | least, some most =>
      copiesSize copy least +
        if least = most then 0 else state + (most - least) * (copy + fork)

/-- The size of the part of an automaton that an expression stands for.  Choices
within a choice count as one, so an alternative of a choice is measured with its
way in, and nothing for its end. -/
def size (direction : Direction) (alternative : Bool) : Regex → Nat
  | .run chars => counted (state * max 1 (total Char.utf8Size chars))
  | .oneOf members => counted (Footprint.ofSet direction members)
  | .anchor _ => counted state
  | .group body =>
      let marks := if direction = .forwards then 2 * state else 0
      counted (body.size direction false + marks)
  | .seq first second =>
      counted (first.size direction false + second.size direction false)
  | .alt first second =>
      let branches := first.size direction true + second.size direction true
      if alternative then branches
      else
        match (Regex.alt first second).words? with
        | some words => wordsSize direction words
        | none => branches + 2 * state
  | .repeated body least most =>
      counted
        (repetitionSize (body.size direction false) body.takesSome least most)
where
  /-- The size of what is no choice. -/
  counted (room : Nat) : Nat := if alternative then room + branch else room

/-- Whether every match begins at such a place. -/
def opensAt (place : Place) : Regex → Bool
  | .anchor found => found = place
  | .group body => body.opensAt place
  | .seq first second => first.opensAt place ||
      (first.takesNone && second.opensAt place)
  | .alt first second => first.opensAt place && second.opensAt place
  | .repeated body least _ => 0 < least && body.opensAt place
  | _ => false

/-- Whether every match ends at such a place. -/
def closesAt (place : Place) : Regex → Bool
  | .anchor found => found = place
  | .group body => body.closesAt place
  | .seq first second => second.closesAt place ||
      (second.takesNone && first.closesAt place)
  | .alt first second => first.closesAt place && second.closesAt place
  | .repeated body least _ => 0 < least && body.closesAt place
  | _ => false

/-- The size of what comes before an expression: nothing to pass over when its
place is fixed, and any bytes otherwise. -/
def leadSize (fixed : Bool) : Nat :=
  if fixed then state else fork + 2 * state + move

def automatonSize (regex : Regex) : Direction → Nat
  | .forwards =>
      leadSize (regex.opensAt .textStart) +
        regex.size .forwards false + 3 * state
  | .backwards => leadSize (regex.closesAt .textEnd) +
      regex.size .backwards false + state

def fits (regex : Regex) : Bool :=
  regex.automatonSize .forwards ≤ sizeLimit &&
    regex.automatonSize .backwards ≤ sizeLimit

end Regex

end JsonMatch
