import JsonMatch.Value.Json

/-!
# Equality of values

`Json.same` tells integers from floating-point numbers and takes the two zeros
of the latter for equal.  `Json.sameByNumber` is the equality of schema
descriptions: there numbers are compared after rounding to binary64, whatever
their kind.
-/

namespace JsonMatch

mutual

/-- Equality of values. -/
def Json.same : Json → Json → Bool
  | .null, .null => true
  | .bool x, .bool y => x == y
  | .int x, .int y => x == y
  | .float x, .float y => x.sameValue y
  | .string x, .string y => x == y
  | .array xs, .array ys => Json.sameItems xs ys
  | .object xs, .object ys => Json.sameMembers xs ys
  | _, _ => false

def Json.sameItems : List Json → List Json → Bool
  | [], [] => true
  | x :: xs, y :: ys => x.same y && Json.sameItems xs ys
  | _, _ => false

/-- Equality of objects, member by member. -/
def Json.sameMembers : List (String × Json) → List (String × Json) → Bool
  | [], [] => true
  | (key, x) :: xs, (other, y) :: ys =>
      key == other && x.same y && Json.sameMembers xs ys
  | _, _ => false

end

instance : BEq Json := ⟨Json.same⟩

/-- Equality of numbers in a description: equal values of one kind, or equal
after rounding. -/
def Json.sameNumber (x y : Json) : Bool :=
  x.same y ||
    match x.number?, y.number? with
    | some x, some y => x.sameValue y
    | _, _ => false

mutual

/-- Equality in a description. -/
def Json.sameByNumber : Json → Json → Bool
  | .int x, y => Json.sameNumber (.int x) y
  | .float x, y => Json.sameNumber (.float x) y
  | .array xs, .array ys => Json.sameItemsByNumber xs ys
  | .object xs, .object ys =>
      xs.length == ys.length && Json.membersFoundByNumber xs ys
  | .null, y => Json.null.same y
  | .bool x, y => (Json.bool x).same y
  | .string x, y => (Json.string x).same y
  | _, _ => false

def Json.sameItemsByNumber : List Json → List Json → Bool
  | [], [] => true
  | x :: xs, y :: ys => x.sameByNumber y && Json.sameItemsByNumber xs ys
  | _, _ => false

/-- Whether every member on the left has an equal one on the right. -/
def Json.membersFoundByNumber : List (String × Json) → Members → Bool
  | [], _ => true
  | (key, x) :: xs, ys =>
      (match ys.get? key with
        | some y => x.sameByNumber y
        | none => false) &&
        Json.membersFoundByNumber xs ys

end

end JsonMatch
