import JsonMatch.Proofs.VariantRouting

/-!
# Schemas in contexts

A context is a schema with a hole, into which any schema can be put.  The nodes
around the hole take nothing of the part in it but its verdicts; the tag that a
variant sees of an option only spares walks that would reject.  So a part may be
hidden behind a validator of its own, and the whole accepts the same values with
the same outputs.
-/

namespace JsonMatch

/-- A schema with a hole in the place of one part. -/
inductive SchemaContext (m : Type → Type) where
  | hole
  | field (before : List (Field (Schema m))) (name : String)
      (presence : Presence)
      (inner : SchemaContext m) (after : List (Field (Schema m)))
      (unknown : OtherKeys (Schema m))
  | otherKeys (fields : List (Field (Schema m))) (inner : SchemaContext m)
  | position (before : List (Schema m)) (inner : SchemaContext m)
      (after : List (Schema m)) (rest : Option (Schema m))
  | remainder (positions : List (Schema m)) (inner : SchemaContext m)
  | item (inner : SchemaContext m)
  | unionOption (before : List (Schema m)) (inner : SchemaContext m)
      (after : List (Schema m))
  | variantOption (key : String) (before : List (Schema m))
      (inner : SchemaContext m) (after : List (Schema m))
  | refined (inner : SchemaContext m) (rule : Rule m) (message : Option String)
  | transform (inner : SchemaContext m) (map : Json → m Json)
  | asyncRefined (inner : SchemaContext m) (test : Json → m Bool)
      (message : String)

namespace SchemaContext

variable {m : Type → Type}

/-- The schema with a part in the hole. -/
def fill : SchemaContext m → Schema m → Schema m
  | .hole, part => part
  | .field before name presence inner after unknown, part =>
      .object (before ++ ⟨name, presence, inner.fill part⟩ :: after) unknown
  | .otherKeys fields inner, part =>
    .object fields (.validate (inner.fill part))
  | .position before inner after rest, part =>
      .tuple (before ++ inner.fill part :: after) rest
  | .remainder positions inner, part =>
    .tuple positions (some (inner.fill part))
  | .item inner, part => .array (inner.fill part)
  | .unionOption before inner after, part =>
    .union (before ++ inner.fill part :: after)
  | .variantOption key before inner after, part =>
      .variant key (before ++ inner.fill part :: after)
  | .refined inner rule message, part => .refined (inner.fill part) rule message
  | .transform inner map, part => .transform (inner.fill part) map
  | .asyncRefined inner test message, part =>
      .asyncRefined (inner.fill part) test message

end SchemaContext

namespace Schema

theorem verdict_custom_validate (schema : Schema Id) :
    (custom schema.validate).verdict .await = schema.verdict .await := by
  funext value
  rw [verdict_custom_await]
  exact schema.settle_validate_accepted? value

section Congruence

variable {fields declared : List (Field (Schema Id))}
variable {unknown others : OtherKeys (Schema Id)}

theorem verdict_object_congr
    (same : memberVerdicts .await fields unknown =
      memberVerdicts .await declared others) :
    (object fields unknown).verdict .await =
      (object declared others).verdict .await := by
  funext value
  cases value with
  | object members => rw [verdict_object, verdict_object, same]
  | _ =>
    rw [verdict_object_of_ne _ _ _ (by simp),
      verdict_object_of_ne _ _ _ (by simp)]

variable {items positions : List (Schema Id)} {rest last : Option (Schema Id)}

theorem itemVerdicts_congr {schemaAt otherAt : Nat → Option (Schema Id)}
    (same : ∀ position, (schemaAt position).map (verdict · .await) =
      (otherAt position).map (verdict · .await)) :
    itemVerdicts .await schemaAt = itemVerdicts .await otherAt := by
  funext values
  apply List.filterMap_congr
  intro entry _
  have here := congrArg (Option.map (· entry.1)) (same entry.2)
  rwa [Option.map_map, Option.map_map] at here

theorem verdict_tuple_congr
    (same : items.map (verdict · .await) = positions.map (verdict · .await))
    (sameRest : rest.map (verdict · .await) = last.map (verdict · .await)) :
    (tuple items rest).verdict .await =
      (tuple positions last).verdict .await := by
  have lengths : items.length = positions.length := by
    simpa using congrArg List.length same
  have hasRest : rest.isSome = last.isSome := by
    simpa using congrArg Option.isSome sameRest
  have each : itemVerdicts .await (fun position => items[position]?.or rest) =
      itemVerdicts .await fun position => positions[position]?.or last := by
    apply itemVerdicts_congr
    intro position
    rw [Option.map_or, Option.map_or, ← List.getElem?_map,
      ← List.getElem?_map, same, sameRest]
  funext value
  cases value with
  | array values => rw [verdict_tuple, verdict_tuple, lengths, hasRest, each]
  | _ =>
    rw [verdict_tuple_of_ne _ _ _ (by simp),
      verdict_tuple_of_ne _ _ _ (by simp)]

theorem verdict_union_congr
    (same : items.map (verdict · .await) = positions.map (verdict · .await)) :
    (union items).verdict .await = (union positions).verdict .await := by
  have tried (options : List (Schema Id)) (value : Json) :
      (union options).verdict .await value =
        (options.map (verdict · .await)).findSome? (· value) := by
    rw [verdict_union, List.findSome?_map]
    rfl
  funext value
  rw [tried, tried, same]

theorem verdict_variant_congr (key : String)
    (same : items.map (verdict · .await) = positions.map (verdict · .await)) :
    (variant key items).verdict .await =
      (variant key positions).verdict .await := by
  funext value
  cases value with
  | object members =>
      -- The options may show different tags; what a tag leaves out would reject
      -- anyway.
      rw [verdict_variant_eq_union, verdict_variant_eq_union,
        verdict_union_congr same]
  | _ =>
    rw [verdict_variant_of_ne _ _ _ (by simp),
      verdict_variant_of_ne _ _ _ (by simp)]

variable {part other : Schema Id}

theorem verdict_array_congr
    (same : part.verdict .await = other.verdict .await) :
    (array part).verdict .await = (array other).verdict .await := by
  funext value
  cases value with
  | array values => rw [verdict_array, verdict_array, same]
  | _ =>
    rw [verdict_array_of_ne _ _ (by simp), verdict_array_of_ne _ _ (by simp)]

end Congruence

end Schema

namespace SchemaContext

open Schema

/-- Parts with the same verdicts make wholes with the same verdicts. -/
theorem verdict_fill {part other : Schema Id}
    (same : part.verdict .await = other.verdict .await)
    (context : SchemaContext Id) :
    (context.fill part).verdict .await =
      (context.fill other).verdict .await := by
  induction context with
  | hole => exact same
  | field before name presence inner after unknown induction =>
      apply verdict_object_congr
      funext members
      simp [memberVerdicts, fieldVerdict, Field.declares, induction]
  | otherKeys fields inner induction =>
      apply verdict_object_congr
      funext members
      simp [memberVerdicts, unknownVerdict, induction]
  | position before inner after rest induction =>
      apply verdict_tuple_congr
      · simp [induction]
      · rfl
  | remainder positions inner induction =>
      apply verdict_tuple_congr
      · rfl
      · simp [induction]
  | item inner induction => exact verdict_array_congr induction
  | unionOption before inner after induction =>
      apply verdict_union_congr
      simp [induction]
  | variantOption key before inner after induction =>
      apply verdict_variant_congr
      simp [induction]
  | refined inner rule message induction =>
      funext value
      rw [fill, fill, verdict_refined, verdict_refined, induction]
  | transform inner map induction =>
      funext value
      rw [fill, fill, verdict_transform, verdict_transform, induction]
  | asyncRefined inner test message induction =>
      funext value
      rw [fill, fill, verdict_asyncRefined_await, verdict_asyncRefined_await,
        induction]

/-- A part hidden behind a validator of its own: the whole accepts the same
values with the same outputs, wherever the part stands. -/
theorem validate_fill_custom (context : SchemaContext Id) (schema : Schema Id)
    (value output : Json) :
    (((context.fill schema).validate value : Answer Id).settle : Outcome) =
        .success output ↔
      (((context.fill (.custom schema.validate)).validate value :
        Answer Id).settle :
        Outcome) = .success output := by
  rw [settle_validate_eq_success, settle_validate_eq_success,
    context.verdict_fill schema.verdict_custom_validate]

end SchemaContext

end JsonMatch
