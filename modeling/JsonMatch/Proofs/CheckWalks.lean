import JsonMatch.Proofs.ModalWalks

/-!
# The walks of checks

The walk of each kind of check through a value, put together from the walks of
its parts by the few operations on walks in two modes.
-/

namespace JsonMatch

namespace Check

open Walk ModalWalk

section Parts

variable {m : Type → Type} [Monad m]

/-- The walk of a check through a value. -/
abbrev on (check : Check m) (value : Json) : ModalWalk m Json :=
  fun mode => check mode value

/-- The walk that rejects with a code and a message. -/
abbrev rejection {α : Type} (code message : String) : ModalWalk m α :=
  fun mode => reject mode code message

/-- The walk that accepts with an output if a condition holds. -/
def decided {α : Type} (holds : Bool) (output : α) (code message : String) :
    ModalWalk m α :=
  if holds then accept output else rejection code message

def leftOpen {α : Type} (output : α) : ModalWalk m α := fun _ => do
  defer
  return some output

/-- The walk that accepts with an output in place of one that has to be
awaited. -/
def stoodIn {α : Type} (output : α) : ModalWalk m α := fun _ => do
  guess
  return some output

/-- The walk that has the outcome of another validator. -/
def outcomeWalk : Outcome → ModalWalk m Json
  | .success output => accept output
  | .failure issues => fun mode => rejectWith mode issues

/-- The walks through the members of an object, declared fields first. -/
def objectParts (members : Members) (fields : List (Field (Check m)))
    (unknown : OtherKeys (Check m)) :
    List (ModalWalk m (List (String × Json))) :=
  (fields.map fun field mode => declaredField mode members field) ++
    (members.filter fun member => !Field.declares fields member.1).map
      fun member mode => unknownMember mode unknown member

/-- The walks through the items of an array. -/
def itemParts (checkAt : Nat → Option (Check m)) (values : List Json) :
    List (ModalWalk m Json) :=
  values.zipIdx.filterMap fun entry =>
    (checkAt entry.2).map fun check =>
      inside (.index entry.2) (check.on entry.1)

/-- The options of a variant that can be meant. -/
def candidates (found : Option Json) (options : List (Option Json × Check m)) :
    List (Check m) :=
  (options.filter fun option => isCandidate found option.1).map Prod.snd

/-- What a variant does when no option can be meant. -/
def unknownTag (key : String) (found : Option Json)
    (options : List (Option Json × Check m)) : ModalWalk m Json :=
  inside (.key key) <| rejection "invalid_discriminator"
    ("invalid discriminator: expected one of " ++
      String.intercalate ", "
        ((options.filterMap Prod.fst).map Json.text) ++ ", got " ++
      (found.map Json.text).getD "nothing")

theorem literal_on (expected value : Json) :
    (literal expected : Check m).on value =
      decided (value == expected) value "invalid_literal"
        ("expected literal " ++ expected.text) := by
  funext mode
  simp only [literal, decided]
  split <;> rfl

theorem primitive_on (kind : Primitive) (value : Json) :
    (primitive kind : Check m).on value =
      decided (kind.accepts value) value "invalid_type"
        ("expected " ++ kind.name ++ ", got " ++ value.kind) := by
  funext mode
  simp only [primitive, decided]
  split <;> rfl

theorem object_on (fields : List (Field (Check m)))
    (unknown : OtherKeys (Check m)) (members : Members) :
    (object fields unknown : Check m).on (.object members) =
      (all (objectParts members fields unknown)).mapped
        fun outputs => .object (Members.ofList outputs.flatten) := by
  funext mode
  simp only [object, mapped, all, objectParts, List.map_append, List.map_map,
    Function.comp_def]

theorem items_on (checkAt : Nat → Option (Check m))
    (values : List Json) (mode : Mode) :
    items mode checkAt values = (all (itemParts checkAt values)).mapped
      Json.array mode := by
  simp only [items, mapped, all, itemParts, List.map_filterMap, Option.map_map,
    Function.comp_def, inside]

theorem array_on (item : Check m) (values : List Json) :
    (array item).on (.array values) =
      (all (itemParts (fun _ => some item) values)).mapped Json.array := by
  funext mode
  exact items_on (fun _ => some item) values mode

theorem tuple_on (positions : List (Check m)) (rest : Option (Check m))
    (values : List Json) :
    (tuple positions rest).on (.array values) =
      if Schema.tupleLengthFits positions.length rest.isSome values.length then
        (all (itemParts (fun position => positions[position]?.or rest)
          values)).mapped
          Json.array
      else
        rejection "tuple_length"
          ("expected " ++ (if rest.isSome then "at least " else "") ++
            toString positions.length ++ " items, got " ++
              toString values.length) := by
  funext mode
  by_cases fits :
      Schema.tupleLengthFits positions.length rest.isSome values.length = true
  · simp only [tuple, fits, if_true, items_on]
  · simp only [tuple, fits]
    rfl

theorem union_on (options : List (Check m)) (value : Json) :
    (union options).on value =
      orElse (firstOf value options) (rejection "union_none_matched"
        ("value did not match any of " ++ toString options.length ++
          " options")) := by
  funext mode
  simp only [union, orElse]
  congr 1
  funext output
  cases output <;> rfl

omit [Monad m] in
theorem candidates_map {σ : Type} (tag? : σ → Option Json) (check : σ → Check m)
    (found : Option Json) (options : List σ) :
    candidates found (options.map fun option => (tag? option, check option)) =
      (options.filter fun option => isCandidate found (tag? option)).map
        check := by
  simp only [candidates, List.filter_map, List.map_map]
  rfl

section Variant

variable {key : String} {options : List (Option Json × Check m)}
    {members : Members}

theorem variant_on_of_nil
    (none_meant : candidates (members.get? key) options = []) :
    (variant key options).on (.object members) =
      unknownTag key (members.get? key) options := by
  funext mode
  simp only [candidates] at none_meant
  simp only [variant, none_meant]
  rfl

theorem variant_on_of_cons {first : Check m} {others : List (Check m)}
    (meant : candidates (members.get? key) options = first :: others) :
    (variant key options).on (.object members) =
      orElse (firstOf (.object members) (first :: others))
        (forIssues (first.on (.object members))) := by
  funext mode
  simp only [candidates] at meant
  simp only [variant, meant, orElse]
  congr 1
  funext output
  cases output <;> rfl

end Variant

section WrongKind

variable {value : Json}

theorem object_on_of_ne (fields : List (Field (Check m)))
    (unknown : OtherKeys (Check m))
    (other : ∀ members, value ≠ .object members) :
    (object fields unknown).on value =
      rejection "invalid_type" ("expected object, got " ++ value.kind) := by
  cases value with
  | object members => exact absurd rfl (other members)
  | _ => rfl

theorem variant_on_of_ne (key : String) (options : List (Option Json × Check m))
    (other : ∀ members, value ≠ .object members) :
    (variant key options).on value =
      rejection "invalid_type" ("expected object, got " ++ value.kind) := by
  cases value with
  | object members => exact absurd rfl (other members)
  | _ => rfl

theorem array_on_of_ne (item : Check m)
    (other : ∀ values, value ≠ .array values) :
    (array item).on value =
      rejection "invalid_type" ("expected array, got " ++ value.kind) := by
  cases value with
  | array values => exact absurd rfl (other values)
  | _ => rfl

theorem tuple_on_of_ne (positions : List (Check m)) (rest : Option (Check m))
    (other : ∀ values, value ≠ .array values) :
    (tuple positions rest).on value =
      rejection "invalid_type" ("expected tuple, got " ++ value.kind) := by
  cases value with
  | array values => exact absurd rfl (other values)
  | _ => rfl

end WrongKind

end Parts

theorem yields_leftOpen {α : Type} (output : α) (mode : Mode) (path : Path) :
    (leftOpen output mode : Walk Id (Option α)).Yields path (some output)
      { deferred := true } := by
  have yields :
      Walk.Yields (do defer; return some output : Walk Id (Option α)) path
      (some output) (({ deferred := true } : Findings) ++ {}) :=
    (yields_defer path).bind (.pure path (some output))
  exact yields

theorem yields_stoodIn {α : Type} (output : α) (mode : Mode) (path : Path) :
    (stoodIn output mode : Walk Id (Option α)).Yields path (some output)
      { deferred := true, guessed := true } := by
  have yields :
      Walk.Yields (do guess; return some output : Walk Id (Option α)) path
      (some output) (({ deferred := true, guessed := true } : Findings) ++
        {}) :=
    (yields_guess path).bind (.pure path (some output))
  exact yields

section Callbacks

private theorem bind_decided {α : Type} (answer : Id Bool) (output : α)
    (code message : String) (mode : Mode) :
    (do if ← (liftM answer : Walk Id Bool) then return some output
        else reject mode code message) =
      decided answer.run output code message mode := by
  change (if answer.run = true then _ else _) = _
  cases holds : answer.run <;> simp only [decided] <;> rfl

variable (inner : Check Id) (value : Json)

theorem refined_on (rule : Rule Id) (message : Option String) :
    (refined inner rule message).on value =
      (inner.on value).andThen fun output =>
        decided (rule.holds output).run output rule.code
          (message.getD rule.describe) := by
  funext mode
  simp only [refined, andThen]
  congr 1
  funext result
  cases result with
  | none => rfl
  | some output => exact bind_decided (rule.holds output) output _ _ mode

theorem transform_on (map : Json → Json) :
    (transform inner map : Check Id).on value =
      (inner.on value).andThen fun output => accept (map output) := by
  funext mode
  simp only [transform, andThen]
  congr 1
  funext result
  cases result <;> rfl

theorem asyncRefined_await_on (test : Json → Bool) (message : String) :
    (asyncRefined .await inner test message : Check Id).on value =
      (inner.on value).andThen fun output =>
        decided (test output) output "async_refinement" message := by
  funext mode
  simp only [asyncRefined, andThen]
  congr 1
  funext result
  cases result with
  | none => rfl
  | some output => exact bind_decided (test output) output _ _ mode

theorem asyncRefined_refuse_on (test : Json → Bool) (message : String) :
    (asyncRefined .refuse inner test message : Check Id).on value =
      (inner.on value).andThen leftOpen := by
  funext mode
  simp only [asyncRefined, andThen]
  congr 1
  funext result
  cases result <;> rfl

theorem custom_await_on (validate : Json → Answer Id) :
    (custom .await validate : Check Id).on value =
      outcomeWalk (validate value).settle.run := by
  funext mode
  change (match Answer.settle (validate value) with
    | .success output => _
    | .failure issues => _ : Walk Id _) = _
  cases (validate value).settle <;> rfl

theorem custom_refuse_on (validate : Json → Answer Id) :
    (custom .refuse validate : Check Id).on value =
      match validate value with
      | .ready outcome => outcomeWalk outcome
      | .pending _ => stoodIn value := by
  funext mode
  change (custom .refuse (fun _ => validate value) : Check Id) mode value = _
  generalize validate value = answer
  cases answer with
  | ready outcome => cases outcome <;> rfl
  | pending await => rfl

end Callbacks

end Check

end JsonMatch
