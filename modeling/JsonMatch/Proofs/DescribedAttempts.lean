import JsonMatch.Proofs.TruthfulValidators

/-!
# Attempts behind a description

A validator that describes itself is compiled to the precheck of its
description, followed by validation.  What a description allows passes its
precheck; so a validator that accepts no more than it describes is never kept
from accepting.
-/

namespace JsonMatch

namespace CompiledValidator

variable {m : Type → Type} [Monad m] {compiled : CompiledValidator m}
variable {description : Json}

/-- Whether a compiled validator shows a description and has the plan that the
adapter for descriptions offers. -/
structure Prechecked (compiled : CompiledValidator m) (description : Json) :
    Prop where
  shown : compiled.validator.description? = some description
  planned : compiled.plan.strategy =
    Compiler.strategyOf Adapter.described compiled.validator

theorem Prechecked.attempt_eq (prechecked : compiled.Prechecked description)
    (input : Json) :
    compiled.attempt input =
      if description.described.passes input then
        compiled.validator.attempt input
      else pure .noMatch := by
  rw [attempt, prechecked.planned]
  simp [Compiler.strategyOf, Adapter.described, prechecked.shown]

theorem Prechecked.settle_eq (prechecked : compiled.Prechecked description)
    (input : Json) :
    compiled.settle input =
      if description.described.passes input then compiled.validator.settle input
      else pure none := by
  rw [settle, prechecked.planned]
  simp [Compiler.strategyOf, Adapter.described, prechecked.shown]

end CompiledValidator

namespace Description

/-- What a description allows passes its precheck.  So when a validator accepts
only what its description allows, its compiled form accepts all that it accepts:
with the same output while waiting, and otherwise with that output or not
yet. -/
theorem precheck_keeps_allowed (description : Json) :
    (∀ value, description.allows value = true →
        description.described.passes value = true) ∧
      ∀ compiled : CompiledValidator Id, compiled.Prechecked description →
        (∀ value, value.isWellFormed = true →
          (compiled.validator.settle value : Option Json) ≠ none →
          description.allows value = true) →
        ∀ input output, input.isWellFormed = true →
          (compiled.validator.settle input : Option Json) = some output →
          (compiled.attemptWith .await input : Attempt) = .matched output ∧
            ((compiled.attemptWith .refuse input : Attempt) = .matched output ∨
              (compiled.attemptWith .refuse input : Attempt) =
                .asyncRequired) := by
  refine ⟨weakens description, ?_⟩
  intro compiled prechecked truthful input output wellFormed accepts
  have allowed : description.allows input = true := by
    apply truthful input wellFormed
    simp [accepts]
  have passes := weakens description input allowed
  constructor
  · have settles : (compiled.settle input : Option Json) = some output := by
      rw [prechecked.settle_eq, if_pos passes]
      exact accepts
    change Attempt.ofVerdict (compiled.settle input : Option Json) = _
    rw [settles]
    rfl
  · change (compiled.attempt input : Attempt) = _ ∨
      (compiled.attempt input : Attempt) = _
    rw [prechecked.attempt_eq, if_pos passes]
    exact Validator.attempt_of_settle accepts

/-- An object with a number that is given as `1.0` where `1` is described, with
items of two types, and with a required member that is described nowhere. -/
theorem precheck_keeps_allowed_nested :
    let description : Json := .object
      [("oneOf", .array [.object [("type", .string "null")], .bool true]),
        ("properties", .object
          [("kind", .object [("const", .int 1), ("type", .string "number")]),
            ("parts", .object
              [("items", .object
                [("type", .array [.string "integer", .string "null"])]),
                ("type", .string "array")])]),
        ("required", .array [.string "extra", .string "kind"]),
        ("type", .string "object")]
    let one : Finite64 :=
      ⟨false, 0x10000000000000, 1022, by decide, .inr (by decide), by decide⟩
    let input : Json := .object
      [("extra", .null), ("kind", .float one),
       ("parts", .array [.float one, .null])]
    let validator : Validator Id :=
      { identity := 1
        slotted := false
        validate := fun value =>
          pure (.ready (if description.allows value then .success .null
            else .failure (.ofMessage "not described")))
        schema? := none
        description? := some description }
    let compiled : CompiledValidator Id :=
      ⟨validator,
       ⟨1, "described", Compiler.strategyOf Adapter.described validator⟩⟩
    description.described.passes input = true ∧
      (compiled.attemptWith .await input : Attempt) = .matched .null ∧
      ((compiled.attemptWith .refuse input : Attempt) = .matched .null ∨
        (compiled.attemptWith .refuse input : Attempt) = .asyncRequired) := by
  intro description one input validator compiled
  have allowed : description.allows input = true := by decide +kernel
  have answers : ∀ value, (compiled.validator.settle value : Option Json) =
      if description.allows value = true then some .null else none := by
    intro value
    change Outcome.accepted? (if description.allows value = true
      then _ else _) = _
    split <;> rfl
  have truthful : ∀ value, value.isWellFormed = true →
      (compiled.validator.settle value : Option Json) ≠ none →
      description.allows value = true := by
    intro value _ accepted
    by_contra forbidden
    exact accepted ((answers value).trans (if_neg forbidden))
  have accepts := (answers input).trans (if_pos allowed)
  have wellFormed : input.isWellFormed = true := by decide +kernel
  have prechecked : compiled.Prechecked description := ⟨rfl, rfl⟩
  exact ⟨(precheck_keeps_allowed description).1 input allowed,
    (precheck_keeps_allowed description).2 compiled prechecked
      truthful input .null wellFormed accepts⟩

end Description

end JsonMatch
