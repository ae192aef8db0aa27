import JsonMatch.Proofs.Lists
import JsonMatch.Schema.Fields
import Mathlib.Data.List.Basic

/-!
# Declaring fields again

Fields declared one after another are found by their names.  A name keeps the
place where it was declared first and has the definition that was given last.
-/

namespace JsonMatch

namespace Field

variable {σ : Type}

theorem names_declare (field : Field σ) (fields : List (Field σ)) :
    (field.declare fields).map (·.name) =
      if field.name ∈ fields.map (·.name) then fields.map (·.name)
      else fields.map (·.name) ++ [field.name] := by
  induction fields with
  | nil => simp [declare]
  | cons other fields induction =>
      unfold declare
      by_cases here : other.name = field.name
      · simp [here]
      · rw [if_neg here, List.map_cons, induction]
        by_cases later : field.name ∈ fields.map (·.name)
        · rw [if_pos later, List.map_cons,
            if_pos (List.mem_cons_of_mem _ later)]
        · have nowhere : field.name ∉ other.name :: fields.map (·.name) := by
            simp only [List.mem_cons, not_or]
            exact ⟨Ne.symm here, later⟩
          rw [if_neg later, List.map_cons, if_neg nowhere, List.cons_append]

theorem find?_declare (field : Field σ) (fields : List (Field σ))
    (name : String) :
    (field.declare fields).find? (·.name == name) =
      if field.name = name then some field
      else fields.find? (·.name == name) := by
  induction fields with
  | nil =>
      by_cases same : field.name = name <;> simp [declare, same]
  | cons other fields induction =>
      unfold declare
      by_cases here : other.name = field.name
      · by_cases same : field.name = name <;> simp [here, same]
      · rw [if_neg here]
        by_cases found : other.name = name
        · have different : field.name ≠ name :=
            fun same => here (found.trans same.symm)
          simp [found, different]
        · simp [found, induction]

theorem declareAll_concat (declared : List (Field σ)) (last : Field σ) :
    declareAll (declared ++ [last]) = last.declare (declareAll declared) := by
  simp [declareAll]

theorem names_declareAll (declared : List (Field σ)) :
    (declareAll declared).map (·.name) = (declared.map (·.name)).eraseDups := by
  induction declared using List.reverseRecOn with
  | nil => rfl
  | append_singleton declared last induction =>
      rw [declareAll_concat, names_declare, induction, List.map_append,
        List.map_singleton, eraseDups_concat]
      simp only [List.mem_eraseDups]

theorem find?_declareAll (declared : List (Field σ)) (name : String) :
    (declareAll declared).find? (·.name == name) =
      declared.reverse.find? (·.name == name) := by
  induction declared using List.reverseRecOn with
  | nil => rfl
  | append_singleton declared last induction =>
      rw [declareAll_concat, find?_declare, induction, List.reverse_append,
        List.reverse_singleton, List.singleton_append]
      by_cases same : last.name = name
      · simp [same]
      · have different : (last.name == name) = false :=
          beq_eq_false_iff_ne.mpr same
        simp [same, different]

theorem nodup_declareAll (declared : List (Field σ)) :
    ((declareAll declared).map (·.name)).Nodup := by
  rw [names_declareAll]
  exact nodup_eraseDups _

/-- A name keeps the place where it was declared first and has the definition
that was given last. -/
theorem declareAll_eq (declared : List (Field σ)) :
    declareAll declared =
      (declared.map (·.name)).eraseDups.filterMap fun name =>
        declared.reverse.find? (·.name == name) := by
  rw [← names_declareAll, List.filterMap_map]
  calc declareAll declared
    _ = (declareAll declared).filterMap some := List.filterMap_some.symm
    _ = _ := by
      apply List.filterMap_congr
      intro field member
      rw [Function.comp_apply, ← find?_declareAll]
      exact (find?_key (nodup_declareAll declared) member).symm

end Field

end JsonMatch
