import JsonMatch.Number.Rounding

/-!
# JSON values

Integers and floating-point numbers are different values, as they are written
differently: `1` is an integer and `1.0` is not.  The members of an object are
listed by ascending key, and `Members.insert` keeps them so;
`Json.isWellFormed` says it of a whole value.
-/

namespace JsonMatch

/-- A JSON value. -/
inductive Json where
  | null
  | bool (value : Bool)
  | int (value : Int)
  | float (value : Finite64)
  | string (value : String)
  | array (items : List Json)
  | object (members : List (String × Json))
  deriving Inhabited

/-- The members of an object. -/
abbrev Members := List (String × Json)

namespace Members

def get? (members : Members) (key : String) : Option Json :=
  members.lookup key

/-- Adds a member in its place; a key that is there already gets the new
value. -/
def insert (key : String) (value : Json) : Members → Members
  | [] => [(key, value)]
  | (other, held) :: rest =>
      if key < other then (key, value) :: (other, held) :: rest
      else if key = other then (key, value) :: rest
      else (other, held) :: insert key value rest

def ofList (members : List (String × Json)) : Members :=
  members.foldl (fun object member => object.insert member.1 member.2) []

def keys (members : Members) : List String :=
  members.map Prod.fst

/-- Whether the keys ascend, so that no key occurs twice. -/
def Ascending (members : Members) : Prop :=
  members.keys.Pairwise (· < ·)

instance (members : Members) : Decidable members.Ascending :=
  inferInstanceAs (Decidable (members.keys.Pairwise (· < ·)))

theorem get?_cons (key other : String) (value : Json) (members : Members) :
    get? ((key, value) :: members) other =
      if other = key then some value else members.get? other := by
  by_cases same : other = key
  · simp [get?, same]
  · simp [get?, List.lookup_cons, same, beq_eq_false_iff_ne.mpr same]

theorem get?_insert (members : Members) (key other : String) (value : Json) :
    (members.insert key value).get? other =
      if other = key then some value else members.get? other := by
  induction members with
  | nil => exact get?_cons key other value []
  | cons member members induction =>
      obtain ⟨first, held⟩ := member
      simp only [insert]
      split
      · exact get?_cons key other value _
      · rename_i notBefore
        split
        · rename_i same
          subst same
          simp only [get?_cons]
          split <;> rfl
        · rename_i different
          simp only [get?_cons, induction]
          by_cases atFirst : other = first
          · subst atFirst
            simp [Ne.symm different]
          · simp [atFirst]

theorem mem_keys_insert {members : Members} {key other : String}
    {value : Json} :
    other ∈ (members.insert key value).keys ↔
      other = key ∨ other ∈ members.keys := by
  induction members with
  | nil => simp [insert, keys]
  | cons member members induction =>
      obtain ⟨first, held⟩ := member
      simp only [insert]
      split
      · simp [keys]
      · split
        · rename_i same
          simp [keys, same]
        · simp only [keys, List.map_cons, List.mem_cons] at induction ⊢
          rw [induction]
          exact or_left_comm

theorem Ascending.insert {members : Members} (ascending : members.Ascending)
    (key : String) (value : Json) : (members.insert key value).Ascending := by
  induction members with
  | nil => simp [Members.insert, Ascending, keys]
  | cons member members induction =>
      obtain ⟨first, held⟩ := member
      obtain ⟨least, rest⟩ := List.pairwise_cons.mp ascending
      simp only [Members.insert]
      split
      · rename_i before
        refine List.pairwise_cons.mpr ⟨?_, ascending⟩
        intro other member
        rcases List.mem_cons.mp member with same | later
        · exact same ▸ before
        · exact String.lt_trans before (least other later)
      · rename_i notBefore
        split
        · rename_i same
          subst same
          exact List.pairwise_cons.mpr ⟨least, rest⟩
        · rename_i different
          refine List.pairwise_cons.mpr ⟨?_, induction rest⟩
          intro other member
          rcases mem_keys_insert.mp member with same | later
          · subst same
            exact Std.lt_of_le_of_ne (String.not_lt.mp notBefore)
              (Ne.symm different)
          · exact least other later

/-- Members added one after another ascend. -/
theorem ascending_ofList (members : List (String × Json)) :
    (ofList members).Ascending := by
  suffices kept : ∀ object : Members, object.Ascending →
      (members.foldl (fun object member => object.insert member.1 member.2)
        object).Ascending from kept [] List.Pairwise.nil
  induction members with
  | nil => exact fun _ ascending => ascending
  | cons member members induction =>
      exact fun object ascending =>
        induction _ (ascending.insert member.1 member.2)

end Members

namespace Json

/-- The word for a kind of value. -/
def kind : Json → String
  | .null => "null"
  | .bool _ => "boolean"
  | .int _ | .float _ => "number"
  | .string _ => "string"
  | .array _ => "array"
  | .object _ => "object"

/-- Whether the value has no parts. -/
def isScalar : Json → Bool
  | .array _ | .object _ => false
  | _ => true

def members? : Json → Option Members
  | .object members => some members
  | _ => none

def items? : Json → Option (List Json)
  | .array items => some items
  | _ => none

def string? : Json → Option String
  | .string text => some text
  | _ => none

/-- The number rounded to binary64, if the value is a number. -/
def number? : Json → Option Binary64
  | .int n => some (.ofInt n)
  | .float x => some (.finite x)
  | _ => none

/-- The member of an object at a key. -/
def member? (value : Json) (key : String) : Option Json :=
  value.members?.bind (·.get? key)

/-- The number of characters of a string or of items of an array. -/
def length? : Json → Option Nat
  | .string text => some text.length
  | .array items => some items.length
  | _ => none

mutual

/-- Whether the members of every object in a value ascend. -/
def isWellFormed : Json → Bool
  | .array items => itemsWellFormed items
  | .object members => decide (Members.Ascending members) &&
      membersWellFormed members
  | _ => true

def itemsWellFormed : List Json → Bool
  | [] => true
  | item :: items => item.isWellFormed && itemsWellFormed items

def membersWellFormed : List (String × Json) → Bool
  | [] => true
  | (_, value) :: members => value.isWellFormed && membersWellFormed members

end

end Json

end JsonMatch
