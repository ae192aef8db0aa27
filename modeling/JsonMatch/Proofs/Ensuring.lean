import JsonMatch.Schema.Walk
import Mathlib.Tactic.Choose

/-!
# What a computation ensures

Callbacks may do anything that their monad allows, so a computation has no one
result.  It ensures a property when every result that it can come to has it, and
a walk leads from states of one kind to states of another when it ensures this
from each of them.
-/

namespace JsonMatch

variable {m : Type → Type} [Monad m] {α β : Type}

/-- Whether every result of a computation has a property, whatever its callbacks
do. -/
def Ensures (property : α → Prop) (computation : m α) : Prop :=
  ∃ refined : m { result // property result },
    Subtype.val <$> refined = computation

theorem Ensures.of_id {property : α → Prop} {computation : Id α}
    (ensures : Ensures property computation) : property computation.run := by
  obtain ⟨refined, rfl⟩ := ensures
  exact refined.run.property

namespace Ensures

variable [LawfulMonad m] {property : α → Prop}

theorem pure {value : α} (holds : property value) :
    Ensures property (Pure.pure value : m α) :=
  ⟨Pure.pure ⟨value, holds⟩, map_pure _ _⟩

theorem of_forall (holds : ∀ value, property value) (computation : m α) :
    Ensures property computation := by
  refine ⟨(fun value => ⟨value, holds value⟩) <$> computation, ?_⟩
  rw [Functor.map_map]
  exact id_map computation

theorem bind {computation : m α} {next : α → m β} {later : β → Prop}
    (first : Ensures property computation)
    (follows : ∀ value, property value → Ensures later (next value)) :
    Ensures later (computation >>= next) := by
  obtain ⟨refined, rfl⟩ := first
  choose continued same using
    fun value : { value // property value } => follows value.1 value.2
  refine ⟨refined >>= continued, ?_⟩
  rw [map_bind, bind_map_left]
  exact bind_congr same

end Ensures

namespace Walk

/-- Whether a walk that begins in a state of one kind ends in a state of
another, whatever its callbacks do. -/
def Leads (before after : WalkState → Prop) (walk : Walk m α) : Prop :=
  ∀ state, before state → Ensures (fun run => after run.2) (walk.run state)

variable [LawfulMonad m] {before between after : WalkState → Prop}

namespace Leads

theorem pure (value : α) :
    Leads before before (Pure.pure value : Walk m α) := by
  intro state holds
  rw [StateT.run_pure]
  exact .pure holds

theorem bind {walk : Walk m α} {next : α → Walk m β}
    (first : walk.Leads before between)
    (follows : ∀ value, (next value).Leads between after) :
    Leads before after (walk >>= next) := by
  intro state holds
  rw [StateT.run_bind]
  apply (first state holds).bind
  intro run reached
  exact follows run.1 run.2 reached

theorem lift (computation : m α) :
    Leads before before (liftM computation : Walk m α) := by
  intro state holds
  apply (Ensures.of_forall (fun _ => trivial) computation).bind
  intro value _
  exact .pure holds

theorem get : Leads before before (get : Walk m WalkState) := by
  intro state holds
  exact .pure holds

theorem modify {change : WalkState → WalkState}
    (changes : ∀ state, before state → after (change state)) :
    Leads before after (modify change : Walk m PUnit) := by
  intro state holds
  exact .pure (changes state holds)

theorem within {walk : Walk m α} {step : PathStep} {inner : WalkState → Prop}
    (enters : ∀ state, before state → inner { state with
      path := state.path.enter step })
    (leads : walk.Leads inner inner)
    (leaves : ∀ state, inner state → after { state with
      path := state.path.leave }) :
    Leads before after (Walk.within step walk) := by
  apply (modify enters).bind
  intro _
  apply leads.bind
  intro result
  apply (modify leaves).bind
  intro _
  exact pure result

theorem allOf (mode : Mode) {parts : List (Walk m (Option α))}
    (leads : ∀ part ∈ parts, part.Leads before before) :
    Leads before before (Walk.allOf mode parts) := by
  induction parts with
  | nil => exact pure _
  | cons part parts induction =>
      have later := induction fun other member =>
        leads other (List.mem_cons_of_mem _ member)
      apply (leads part List.mem_cons_self).bind
      intro output
      cases output with
      | some output =>
          apply later.bind
          intro outputs
          exact pure _
      | none =>
          cases mode with
          | failFast => exact pure none
          | collect =>
              apply later.bind
              intro _
              exact pure none

/-- An option is tried in a walk of its own, of which only the marks are
kept. -/
theorem tryOption (guesses : ∀ state, before state →
      before { state with deferred := true, guessed := true })
    (option : Check m) (value : Json) :
    Leads before before (Walk.tryOption option value) := by
  apply get.bind
  intro state
  apply (lift _).bind
  intro trial
  dsimp only
  split
  · apply (modify guesses).bind
    intro _
    exact pure _
  · exact pure _

theorem firstOf (guesses : ∀ state, before state →
      before { state with deferred := true, guessed := true })
    (value : Json) (options : List (Check m)) :
    Leads before before (Walk.firstOf value options) := by
  induction options with
  | nil => exact pure none
  | cons option options induction =>
      apply (tryOption guesses option value).bind
      intro output
      cases output with
      | some output => exact pure _
      | none => exact induction

end Leads

end Walk

end JsonMatch
