import JsonMatch.Precheck.OfDescription
import JsonMatch.Proofs.MemberLists
import JsonMatch.Proofs.SchemaParts

/-!
# The parts of a precheck

The companions of a definition over prechecks or descriptions apply it to the
parts of a list, a member or an option.  A precheck passes what its parts pass.
-/

namespace JsonMatch

namespace Precheck

theorem passesAll_eq_map (checks : List Precheck) :
    passesAll checks = checks.map passes := by
  induction checks with
  | nil => rfl
  | cons check checks induction => rw [passesAll, List.map_cons, induction]

theorem passesFields_eq_map (fields : List (ExpectedField Precheck)) :
    passesFields fields =
      fields.map fun field =>
        ⟨field.name, field.required, field.check.passes⟩ := by
  induction fields with
  | nil => rfl
  | cons field fields induction =>
      rw [List.map_cons, ← induction]
      rfl

theorem passesUnknown_eq_map (unknown : OtherKeys Precheck) :
    passesUnknown unknown = unknown.map passes := by
  cases unknown <;> rfl

theorem passesRest_eq_map (rest : Option Precheck) :
    passesRest rest = rest.map passes := by
  cases rest <;> rfl

theorem passesOptions_eq_map (options : List (Option ScalarKey × Precheck)) :
    passesOptions options = options.map fun option =>
      (option.1, option.2.passes) := by
  induction options with
  | nil => rfl
  | cons option options induction =>
      rw [List.map_cons, ← induction]
      rfl

theorem passes_any (value : Json) : any.passes value = true := rfl

theorem passes_object (fields : List (ExpectedField Precheck))
    (unknown : OtherKeys Precheck) :
    (object fields unknown).passes =
      Condition.object
        (fields.map
          fun field => ⟨field.name, field.required, field.check.passes⟩)
        (unknown.map passes) := by
  rw [← passesFields_eq_map, ← passesUnknown_eq_map]
  rfl

theorem passes_tuple (items : List Precheck) (rest : Option Precheck) :
    (tuple items rest).passes =
      Condition.tuple (items.map passes) (rest.map passes) := by
  rw [← passesAll_eq_map, ← passesRest_eq_map]
  rfl

theorem passes_variant (key : String)
    (options : List (Option ScalarKey × Precheck)) :
    (variant key options).passes =
      Condition.variant key
        (options.map fun option => (option.1, option.2.passes)) := by
  rw [← passesOptions_eq_map]
  rfl

theorem passes_anyOf (options : List Precheck) (value : Json) :
    (anyOf options).passes value = true ↔
      ∃ option ∈ options, option.passes value = true := by
  change (passesAll options).any (· value) = true ↔ _
  rw [passesAll_eq_map, List.any_map, List.any_eq_true]
  rfl

theorem passes_allOf (parts : List Precheck) (value : Json) :
    (allOf parts).passes value = true ↔
      ∀ part ∈ parts, part.passes value = true := by
  change (passesAll parts).all (· value) = true ↔ _
  rw [passesAll_eq_map, List.all_map, List.all_eq_true]
  rfl

end Precheck

namespace Json

theorem describedAll_eq_map (values : List Json) :
    describedAll values = values.map described := by
  induction values with
  | nil => rfl
  | cons value values induction => rw [describedAll, List.map_cons, induction]

theorem describedMembers_eq_map (members : List (String × Json)) :
    describedMembers members = members.map fun member =>
      (member.1, member.2.described) := by
  induction members with
  | nil => rfl
  | cons member members induction =>
      rw [List.map_cons, ← induction]
      rfl

theorem describedProperties_eq (keywords : Members) :
    describedProperties keywords =
      ((keywords.get? "properties").map describedMembersOf).getD [] :=
  Members.search_eq rfl
    (fun _ _ _ => by simp only [describedProperties, beq_iff_eq]) keywords

theorem describedItems?_eq (keywords : Members) :
    describedItems? keywords =
      ((keywords.get? "items").map fun value =>
        if value.members?.isSome then some value.described
            else none).getD none :=
  Members.search_eq rfl
    (fun _ _ _ => by simp only [describedItems?, beq_iff_eq]) keywords

theorem describedOptions_eq (name : String) (keywords : Members) :
    describedOptions name keywords =
      ((keywords.get? name).map describedItemsOf).getD [] :=
  Members.search_eq rfl
    (fun _ _ _ => by simp only [describedOptions, beq_iff_eq]) keywords

end Json

end JsonMatch
