/-!
# Sets of characters

A set is a list of ranges of code points, ends included.  The ranges ascend and
no two of them touch, so a set can be written in one way only; every operation
keeps to that form.
-/

namespace JsonMatch

/-- A set of characters. -/
structure CharSet where
  ranges : List (Nat × Nat)
  deriving DecidableEq

namespace CharSet

/-- The greatest code point. -/
def maxCode : Nat := 0x10FFFF

/-- Whether a code point lies in one of ascending ranges. -/
def codeIn (code : Nat) : List (Nat × Nat) → Bool
  | [] => false
  | (first, last) :: rest =>
      if code < first then false else code ≤ last || codeIn code rest

def contains (set : CharSet) (c : Char) : Bool :=
  codeIn c.toNat set.ranges

def empty : CharSet := ⟨[]⟩

def between (first last : Char) : CharSet := ⟨[(first.toNat, last.toNat)]⟩

def single (c : Char) : CharSet := between c c

/-- Joins ranges that overlap or touch, given in the order of their first code
points; `current` comes before all of them. -/
def joinTouching (current : Nat × Nat) : List (Nat × Nat) → List (Nat × Nat)
  | [] => [current]
  | range :: rest =>
      if range.1 ≤ current.2 + 1 then
        joinTouching (current.1, max current.2 range.2) rest
      else current :: joinTouching range rest

def union (left right : CharSet) : CharSet :=
  match List.merge left.ranges right.ranges (fun x y => x.1 ≤ y.1) with
  | [] => empty
  | range :: rest => ⟨joinTouching range rest⟩

/-- The ranges between ascending ranges, from a code point on. -/
def gapsFrom (start : Nat) : List (Nat × Nat) → List (Nat × Nat)
  | [] => if start ≤ maxCode then [(start, maxCode)] else []
  | (first, last) :: rest =>
      if start < first then (start, first - 1) :: gapsFrom (last + 1) rest
      else gapsFrom (last + 1) rest

def complement (set : CharSet) : CharSet := ⟨gapsFrom 0 set.ranges⟩

def inter (left right : CharSet) : CharSet :=
  (left.complement.union right.complement).complement

def diff (left right : CharSet) : CharSet :=
  left.inter right.complement

def symmDiff (left right : CharSet) : CharSet :=
  (left.union right).diff (left.inter right)

/-- The code points that are no characters. -/
def surrogates : CharSet := ⟨[(0xD800, 0xDFFF)]⟩

/-- The set without code points that are no characters. -/
def characters (set : CharSet) : CharSet := set.diff surrogates

/-- The only member of a set with exactly one. -/
def only? (set : CharSet) : Option Char :=
  match set.ranges with
  | [(first, last)] => if first = last then some (Char.ofNat first) else none
  | _ => none

/-- Whether all members are ASCII characters. -/
def isAscii (set : CharSet) : Bool :=
  set.ranges.all fun range => range.2 < 0x80

end CharSet

end JsonMatch
