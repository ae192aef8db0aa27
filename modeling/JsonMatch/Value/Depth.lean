import JsonMatch.Value.Text

/-!
# Nesting depth and previews

A message shows its input cut to a number of characters.  An input nested too
deeply is not rendered at all; whether it is too deep is decided by a walk over
the parts that keeps its own list of what is left to look at.
-/

namespace JsonMatch

/-- The direct parts of a value. -/
def Json.parts : Json → List Json
  | .array items => items
  | .object members => members.map Prod.snd
  | _ => []

mutual

/-- The number of values in a value, itself included. -/
def Json.size : Json → Nat
  | .array items => 1 + Json.sizeItems items
  | .object members => 1 + Json.sizeMembers members
  | _ => 1

def Json.sizeItems : List Json → Nat
  | [] => 0
  | item :: items => item.size + Json.sizeItems items

def Json.sizeMembers : List (String × Json) → Nat
  | [] => 0
  | (_, value) :: members => value.size + Json.sizeMembers members

end

def worklistSize : List (Json × Nat) → Nat
  | [] => 0
  | (value, _) :: entries => value.size + worklistSize entries

theorem worklistSize_append (left right : List (Json × Nat)) :
    worklistSize (left ++ right) = worklistSize left + worklistSize right := by
  induction left with
  | nil => simp [worklistSize]
  | cons entry left induction =>
      simp only [List.cons_append, worklistSize, induction]
      exact (Nat.add_assoc _ _ _).symm

theorem worklistSize_reverse (entries : List (Json × Nat)) :
    worklistSize entries.reverse = worklistSize entries := by
  induction entries with
  | nil => rfl
  | cons entry entries induction =>
      rw [List.reverse_cons, worklistSize_append, induction]
      simp only [worklistSize]
      exact Nat.add_comm _ _

private theorem worklistSize_items (depth : Nat) (items : List Json) :
    worklistSize (items.map fun item => (item, depth)) =
      Json.sizeItems items := by
  induction items with
  | nil => rfl
  | cons item items induction =>
      simp only [List.map_cons, worklistSize, Json.sizeItems, induction]

private theorem worklistSize_members (depth : Nat)
    (members : List (String × Json)) :
    worklistSize ((members.map Prod.snd).map fun item => (item, depth)) =
      Json.sizeMembers members := by
  induction members with
  | nil => rfl
  | cons member members induction =>
      simp only [List.map_cons, worklistSize, Json.sizeMembers, induction]

/-- The parts of a value together are smaller than the value. -/
theorem worklistSize_parts_lt (value : Json) (depth : Nat) :
    worklistSize (value.parts.map fun part => (part, depth)) < value.size := by
  cases value with
  | array items =>
      rw [show (Json.array items).parts = items from rfl,
        worklistSize_items, Json.size]
      omega
  | object members =>
      rw [show (Json.object members).parts = members.map Prod.snd from rfl,
        worklistSize_members, Json.size]
      omega
  | _ => simp [Json.parts, worklistSize, Json.size]

/-- Whether some entry of the worklist reaches below `bound`.  The last part of
a value is looked at first. -/
def anyDeeper (bound : Nat) : List (Json × Nat) → Bool
  | [] => false
  | (value, depth) :: entries =>
      if bound < depth then true
      else anyDeeper bound
        ((value.parts.reverse.map fun part => (part, depth + 1)) ++ entries)
termination_by entries => worklistSize entries
decreasing_by
  have smaller := worklistSize_parts_lt value (depth + 1)
  rw [worklistSize_append, List.map_reverse, worklistSize_reverse]
  simp only [worklistSize]
  omega

namespace Json

/-- Whether the value is nested deeper than `bound`. -/
def deeperThan (value : Json) (bound : Nat) : Bool :=
  anyDeeper bound [(value, 0)]

/-- The deepest nesting that is rendered. -/
def previewDepth : Nat := 128

/-- Stands for an input that is not rendered. -/
def unprintable : String := "<unprintable input>"

/-- The first `limit` characters of a text, with dots for what is cut off. -/
def truncate (text : String) (limit : Nat) : String :=
  if text.length ≤ limit then text
  else String.ofList (text.toList.take limit) ++ "..."

/-- The text of an input in a message. -/
def preview (value : Json) (limit : Nat) : String :=
  if value.deeperThan previewDepth then unprintable
  else truncate value.text limit

end Json

end JsonMatch
