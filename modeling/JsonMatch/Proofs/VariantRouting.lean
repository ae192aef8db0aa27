import JsonMatch.Proofs.Lists
import JsonMatch.Proofs.Pruning
import JsonMatch.Proofs.Verdicts

/-!
# Routing by tag

A variant tries the options that an object's value at the key leaves as
candidates, in their order.  An option that is left out pins the key to another
scalar, and would reject the object.  So the first candidate that accepts is the
first option that does, and a variant is a union of its options that takes
objects only.
-/

namespace JsonMatch

namespace Schema

section Tags

variable {m : Type → Type} {option : Schema m} {key : String}

private theorem carries_of_tag {expected value : Json}
    (tag : option.tag? key = some expected)
    (passes : option.passes value = true) :
    ∃ carried, value.member? key = some carried ∧
      (carried == expected) = true := by
  obtain ⟨⟨fields, unknown⟩, object, pinnedAt⟩ := Option.bind_eq_some_iff.mp tag
  obtain ⟨field, found, pinned⟩ := Option.bind_eq_some_iff.mp pinnedAt
  have named : field.name = key := by simpa using List.find?_some found
  rw [passes_of_object? object] at passes
  rw [← named]
  exact carries_of_passes (List.mem_of_find?_eq_some found) pinned passes

theorem isCandidate_of_passes {members : Members}
    (passes : option.passes (.object members) = true) :
    Check.isCandidate (members.get? key) (option.tag? key) = true := by
  cases tag : option.tag? key with
  | none => rfl
  | some expected =>
      obtain ⟨carried, held, same⟩ := carries_of_tag tag passes
      change members.get? key = some carried at held
      rw [Check.isCandidate, held, Option.bind_some,
        Json.scalarKey?_eq_of_same same]
      exact beq_self_eq_true _

end Tags

variable (key : String) (options : List (Schema Id))

/-- On objects, a variant and the union of its options have one verdict, whether
checks are awaited or not. -/
theorem verdict_variant_eq_union (waiting : Waiting) (members : Members) :
    (variant key options).verdict waiting (.object members) =
      (union options).verdict waiting (.object members) := by
  rw [verdict_variant, verdict_union, meantOptions]
  apply findSome?_filter
  intro option _ dropped
  by_contra accepts
  have passes := option.passes_of_verdict waiting accepts
  rw [isCandidate_of_passes passes] at dropped
  cases dropped

theorem settle_validate_eq_success (schema : Schema Id) (value output : Json) :
    ((schema.validate value : Answer Id).settle : Outcome) = .success output ↔
      schema.verdict .await value = some output := by
  rw [← settle_validate_accepted?]
  exact Outcome.accepted?_eq_some.symm

/-- A variant accepts, with some output, just the objects that the union of its
options accepts with this output: routing by tag never changes which option
wins. -/
theorem variant_settles_iff_union (value output : Json) :
    (((variant key options).validate value : Answer Id).settle : Outcome) =
        .success output ↔
      (∃ members, value = .object members) ∧
        (((union options).validate value : Answer Id).settle : Outcome) =
          .success output := by
  rw [settle_validate_eq_success, settle_validate_eq_success]
  constructor
  · intro accepts
    cases value with
    | object members =>
        refine ⟨⟨members, rfl⟩, ?_⟩
        rw [← verdict_variant_eq_union key]
        exact accepts
    | _ =>
        rw [verdict_variant_of_ne .await key options (by simp)] at accepts
        cases accepts
  · rintro ⟨⟨members, rfl⟩, accepts⟩
    rw [verdict_variant_eq_union]
    exact accepts

end Schema

end JsonMatch
