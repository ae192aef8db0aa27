import JsonMatch.Proofs.Regularity
import Mathlib.Data.List.Forall2

/-!
# Walks that wait and walks that do not

A walk that does not wait is compared with the walk that waits for the same
checks.  When it leaves nothing open, the two give the same output and find the
same issues.  When it lets nothing stand in for an awaited output, its output is
that of the waiting walk unless the latter rejects.
-/

namespace JsonMatch

open Walk

variable {α β : Type}

namespace ModalWalk

/-- What a walk without waiting settles about one that waits. -/
structure Settles (early late : ModalWalk Id α) : Prop where
  earlySteady : ∀ mode, (early mode).Steady
  lateSteady : ∀ mode, (late mode).Steady
  unchanged : ∀ mode path, ((early mode).findings path).deferred = false →
    (late mode).output path = (early mode).output path ∧
      ((late mode).findings path).issues = ((early mode).findings path).issues
  final : ∀ mode path, ((early mode).findings path).guessed = false →
    (late mode).output path = none ∨ (late mode).output path =
      (early mode).output path

namespace Settles

variable {early late : ModalWalk Id α}

theorem refl {part : ModalWalk Id α} (steady : ∀ mode, (part mode).Steady) :
    part.Settles part where
  earlySteady := steady
  lateSteady := steady
  unchanged _ _ _ := ⟨rfl, rfl⟩
  final _ _ _ := .inr rfl

theorem of_open {output : α} {found : Findings}
    (yields : ∀ mode path, (early mode).Yields path (some output) found)
    (left_open : found.deferred = true) (steady : ∀ mode, (late mode).Steady)
    (final : found.guessed = false → ∀ mode path,
      (late mode).output path = none ∨ (late mode).output path = some output) :
    early.Settles late where
  earlySteady mode := steady_of_yields (yields mode)
  lateSteady := steady
  unchanged mode path closed := by
    rw [(yields mode path).findings_eq, left_open] at closed
    cases closed
  final mode path certain := by
    rw [(yields mode path).findings_eq] at certain
    rw [(yields mode path).output_eq]
    exact final certain mode path

theorem andThen {nextEarly nextLate : α → ModalWalk Id β}
    (settles : early.Settles late)
    (follows : ∀ value, (nextEarly value).Settles (nextLate value)) :
    (early.andThen nextEarly).Settles (late.andThen nextLate) where
  earlySteady mode :=
    steady_andThen (settles.earlySteady mode) fun value =>
      (follows value).earlySteady mode
  lateSteady mode :=
    steady_andThen (settles.lateSteady mode) fun value =>
      (follows value).lateSteady mode
  unchanged mode path closed := by
    rw [findings_andThen (settles.earlySteady mode)
      (fun value => (follows value).earlySteady mode)] at closed ⊢
    rw [output_andThen (settles.earlySteady mode)
      (fun value => (follows value).earlySteady mode)]
    rw [output_andThen (settles.lateSteady mode)
      (fun value => (follows value).lateSteady mode),
      findings_andThen (settles.lateSteady mode)
        (fun value => (follows value).lateSteady mode)]
    simp only [Findings.append_deferred, Bool.or_eq_false_iff] at closed
    obtain ⟨sameOutput, sameIssues⟩ := settles.unchanged mode path closed.1
    rw [sameOutput]
    simp only [Findings.append_issues, sameIssues]
    cases given : (early mode).output path with
    | none => exact ⟨rfl, rfl⟩
    | some value =>
        rw [given] at closed
        obtain ⟨nextOutput, nextIssues⟩ :=
          (follows value).unchanged mode path closed.2
        simp [nextOutput, nextIssues]
  final mode path certain := by
    rw [findings_andThen (settles.earlySteady mode)
      (fun value => (follows value).earlySteady mode)] at certain
    rw [output_andThen (settles.earlySteady mode)
      (fun value => (follows value).earlySteady mode),
      output_andThen (settles.lateSteady mode)
        (fun value => (follows value).lateSteady mode)]
    simp only [Findings.append_guessed, Bool.or_eq_false_iff] at certain
    rcases settles.final mode path certain.1 with rejects | same
    · exact .inl (by rw [rejects]; rfl)
    · rw [same]
      cases given : (early mode).output path with
      | none => exact .inl rfl
      | some value =>
          rw [given] at certain
          exact (follows value).final mode path certain.2

theorem inside (settles : early.Settles late) (step : PathStep) :
    (early.inside step).Settles (late.inside step) where
  earlySteady mode := steady_inside (settles.earlySteady mode)
  lateSteady mode := steady_inside (settles.lateSteady mode)
  unchanged mode path := by
    rw [output_inside (settles.earlySteady mode),
      output_inside (settles.lateSteady mode),
      findings_inside (settles.earlySteady mode),
      findings_inside (settles.lateSteady mode)]
    exact settles.unchanged mode _
  final mode path := by
    rw [output_inside (settles.earlySteady mode),
      output_inside (settles.lateSteady mode),
      findings_inside (settles.earlySteady mode)]
    exact settles.final mode _

theorem mapped (settles : early.Settles late) (function : α → β) :
    (early.mapped function).Settles (late.mapped function) where
  earlySteady mode := steady_mapped (settles.earlySteady mode)
  lateSteady mode := steady_mapped (settles.lateSteady mode)
  unchanged mode path closed := by
    rw [findings_mapped (settles.earlySteady mode)] at closed ⊢
    rw [output_mapped (settles.earlySteady mode),
      output_mapped (settles.lateSteady mode),
      findings_mapped (settles.lateSteady mode)]
    exact (settles.unchanged mode path closed).imp_left
      (congrArg (Option.map function))
  final mode path certain := by
    rw [findings_mapped (settles.earlySteady mode)] at certain
    rw [output_mapped (settles.earlySteady mode),
      output_mapped (settles.lateSteady mode)]
    exact (settles.final mode path certain).imp
      (fun rejects => by simp [rejects]) (congrArg (Option.map function))

theorem both {othersEarly othersLate : ModalWalk Id (List α)}
    (settles : early.Settles late)
    (later : othersEarly.Settles othersLate) :
    (early.both othersEarly).Settles (late.both othersLate) where
  earlySteady mode :=
    steady_both (settles.earlySteady mode) (later.earlySteady mode)
  lateSteady mode :=
    steady_both (settles.lateSteady mode) (later.lateSteady mode)
  unchanged mode path closed := by
    rw [findings_both (settles.earlySteady mode)
      (later.earlySteady mode)] at closed ⊢
    rw [output_both (settles.earlySteady mode) (later.earlySteady mode),
      output_both (settles.lateSteady mode) (later.lateSteady mode),
      findings_both (settles.lateSteady mode) (later.lateSteady mode)]
    simp only [Findings.append_deferred, Bool.or_eq_false_iff] at closed
    obtain ⟨sameOutput, sameIssues⟩ := settles.unchanged mode path closed.1
    rw [sameOutput]
    simp only [Findings.append_issues, sameIssues]
    cases visited : goesOn mode ((early mode).output path) with
    | true =>
        rw [visited] at closed
        obtain ⟨othersOutput, othersIssues⟩ :=
          later.unchanged mode path closed.2
        simp [othersOutput, othersIssues]
    | false =>
        cases given : (early mode).output path with
        | none => simp
        | some value => simp [given, goesOn] at visited
  final mode path certain := by
    rw [findings_both (settles.earlySteady mode)
      (later.earlySteady mode)] at certain
    rw [output_both (settles.earlySteady mode) (later.earlySteady mode),
      output_both (settles.lateSteady mode) (later.lateSteady mode)]
    simp only [Findings.append_guessed, Bool.or_eq_false_iff] at certain
    rcases settles.final mode path certain.1 with rejects | same
    · exact .inl (by rw [rejects]; rfl)
    · rw [same]
      cases given : (early mode).output path with
      | none => exact .inl rfl
      | some value =>
          simp only [given, goesOn, Option.isSome_some, Bool.true_or,
            if_true] at certain
          rcases later.final mode path certain.2 with othersReject | othersSame
          · exact .inl (by simp [othersReject])
          · exact .inr (by simp [othersSame])

theorem all {earlyParts lateParts : List (ModalWalk Id α)}
    (settles : List.Forall₂ Settles earlyParts lateParts) :
    (ModalWalk.all earlyParts).Settles (ModalWalk.all lateParts) := by
  induction settles with
  | nil => exact refl fun _ => steady_pure _
  | cons first _ induction =>
      rw [all_cons, all_cons]
      exact first.both induction

theorem orElse {earlyAttempt lateAttempt : Walk Id (Option α)}
    (earlySteady : earlyAttempt.Steady) (lateSteady : lateAttempt.Steady)
    (earlySilent : ∀ path, (earlyAttempt.findings path).issues = [])
    (lateSilent : ∀ path, (lateAttempt.findings path).issues = [])
    (cautious : ∀ path, (earlyAttempt.findings path).Cautious)
    (same : ∀ path, (earlyAttempt.findings path).guessed = false →
      lateAttempt.output path = earlyAttempt.output path)
    (fallback : early.Settles late) :
    (ModalWalk.orElse earlyAttempt early).Settles
      (ModalWalk.orElse lateAttempt late) where
  earlySteady mode := steady_orElse earlySteady (fallback.earlySteady mode)
  lateSteady mode := steady_orElse lateSteady (fallback.lateSteady mode)
  unchanged mode path closed := by
    rw [findings_orElse earlySteady (fallback.earlySteady mode)] at closed ⊢
    rw [output_orElse earlySteady (fallback.earlySteady mode),
      output_orElse lateSteady (fallback.lateSteady mode),
      findings_orElse lateSteady (fallback.lateSteady mode)]
    simp only [Findings.append_deferred, Bool.or_eq_false_iff] at closed
    have certain : (earlyAttempt.findings path).guessed = false :=
      Bool.eq_false_iff.mpr fun guessed => by
        simp [cautious path guessed] at closed
    rw [same path certain]
    simp only [Findings.append_issues, earlySilent, lateSilent, List.nil_append]
    cases given : earlyAttempt.output path with
    | none =>
        rw [given] at closed
        simpa using fallback.unchanged mode path closed.2
    | some value => simp
  final mode path certain := by
    rw [findings_orElse earlySteady (fallback.earlySteady mode)] at certain
    rw [output_orElse earlySteady (fallback.earlySteady mode),
      output_orElse lateSteady (fallback.lateSteady mode)]
    simp only [Findings.append_guessed, Bool.or_eq_false_iff] at certain
    rw [same path certain.1]
    cases given : earlyAttempt.output path with
    | none =>
        rw [given] at certain
        simpa using fallback.final mode path certain.2
    | some value => exact .inr rfl

theorem forIssues (settles : early.Settles late) :
    early.forIssues.Settles late.forIssues where
  earlySteady mode := steady_forIssues (settles.earlySteady mode)
  lateSteady mode := steady_forIssues (settles.lateSteady mode)
  unchanged mode path closed := by
    rw [findings_forIssues (settles.earlySteady mode)] at closed ⊢
    rw [output_forIssues (settles.earlySteady mode),
      output_forIssues (settles.lateSteady mode),
      findings_forIssues (settles.lateSteady mode)]
    refine ⟨rfl, ?_⟩
    cases mode with
    | collect => exact (settles.unchanged _ path closed).2
    | failFast => rfl
  final mode path _ := .inl (output_forIssues (settles.lateSteady mode) path)

end Settles

end ModalWalk

namespace Walk

theorem output_firstOf_settled {σ : Type} {early late : σ → Check Id}
    {value : Json} {options : List σ}
    (settles : ∀ option ∈ options,
      ((early option).on value).Settles ((late option).on value))
    {path : Path}
    (certain :
      ((firstOf value (options.map early)).findings path).guessed = false) :
    (firstOf value (options.map late)).output path =
      (firstOf value (options.map early)).output path := by
  induction options with
  | nil => rfl
  | cons option options induction =>
      have first := settles option List.mem_cons_self
      simp only [List.map_cons] at certain ⊢
      rw [findings_firstOf_cons, Findings.append_guessed, Bool.or_eq_false_iff,
        findings_tryOption] at certain
      rw [output_firstOf_cons, output_firstOf_cons]
      cases given : (early option .failFast value).output path with
      | some output =>
          -- The winner has nothing open, so it wins just as well when awaited.
          simp only [tried, given, Option.isSome_some, Bool.true_and] at certain
          have closed :
              ((early option .failFast value).findings path).deferred =
                false := by
            cases open_check :
              ((early option .failFast value).findings path).deferred with
            | false => rfl
            | true => simp [open_check] at certain
          rw [(first.unchanged .failFast path closed).1, given]
          rfl
      | none =>
          -- An early rejection that is no guess is a rejection when awaited.
          simp only [given, tried, Option.isSome_none, Bool.false_and,
            Bool.or_false] at certain
          have unguessed :
              ((early option .failFast value).findings path).guessed =
                false := by
            cases guess :
              ((early option .failFast value).findings path).guessed with
            | false => rfl
            | true => simp [guess] at certain
          have rejects : (late option .failFast value).output path = none := by
            rcases first.final .failFast path unguessed with none_late | same
            · exact none_late
            · rw [same, given]
          rw [rejects, Option.none_or, Option.none_or]
          exact induction
            (fun other member => settles other (List.mem_cons_of_mem _ member))
            certain.2

end Walk

namespace Check

variable {σ : Type} {early late : σ → Check Id}

/-- What the checks of a tree without waiting settle about those that wait. -/
def Settles (early late : Check Id) : Prop :=
  ∀ value, (early.on value).Settles (late.on value)

theorem settles_rejection (code message : String) :
    (rejection code message : ModalWalk Id α).Settles
      (rejection code message) :=
  .refl (ModalWalk.Regular.reject code message).steady

theorem settles_accept (output : α) :
    (ModalWalk.accept output : ModalWalk Id α).Settles
      (ModalWalk.accept output) :=
  .refl (ModalWalk.Regular.accept output).steady

theorem settles_decided (holds : Bool) (output : α) (code message : String) :
    (decided holds output code message : ModalWalk Id α).Settles
      (decided holds output code message) :=
  .refl (ModalWalk.Regular.decided holds output code message).steady

theorem output_decided (holds : Bool) (output : α)
    (code message : String) (mode : Mode)
    (path : Path) :
    (decided holds output code message mode : Walk Id (Option α)).output
      path = none ∨
      (decided holds output code message mode : Walk Id (Option α)).output
        path = some output := by
  cases holds with
  | true => exact .inr rfl
  | false => exact .inl (yields_reject mode code message path).output_eq

theorem settles_outcomeWalk (outcome : Outcome) :
    (outcomeWalk outcome : ModalWalk Id Json).Settles (outcomeWalk outcome) :=
  .refl (ModalWalk.Regular.outcomeWalk outcome).steady

private theorem settles_declaredField (members : Members) (field : Field σ)
    (settles : (early field.schema).Settles (late field.schema)) :
    ModalWalk.Settles (fun mode => declaredField mode members (field.map early))
      (fun mode => declaredField mode members (field.map late)) := by
  simp only [declaredField, Field.map]
  cases members.get? field.name with
  | some value => exact ((settles value).inside _).mapped _
  | none =>
      cases field.presence with
      | required => exact (settles_rejection _ _).inside _
      | optional => exact settles_accept _
      | default value => exact settles_accept _

private theorem settles_unknownMember {unknown : OtherKeys σ}
    (settles : ∀ schema, unknown = .validate schema →
      (early schema).Settles (late schema))
    (member : String × Json) :
    ModalWalk.Settles
      (fun mode => unknownMember mode (unknown.map early) member)
      (fun mode => unknownMember mode (unknown.map late) member) := by
  cases unknown with
  | allow => exact settles_accept _
  | deny => exact (settles_rejection _ _).inside _
  | validate schema => exact ((settles schema rfl member.2).inside _).mapped _

theorem settles_object {fields : List (Field σ)} {unknown : OtherKeys σ}
    (settlesFields : ∀ field ∈ fields,
      (early field.schema).Settles (late field.schema))
    (settlesUnknown : ∀ schema, unknown = .validate schema →
      (early schema).Settles (late schema)) :
    (object (fields.map (Field.map early)) (unknown.map early)).Settles
      (object (fields.map (Field.map late)) (unknown.map late)) := by
  intro value
  cases value with
  | object members =>
      rw [object_on, object_on]
      refine .mapped (.all ?_) _
      simp only [objectParts, Field.declares_map, List.map_map]
      refine List.rel_append ?_ ?_
      · rw [List.forall₂_map_left_iff, List.forall₂_map_right_iff,
          List.forall₂_same]
        exact fun field member =>
          settles_declaredField members field (settlesFields field member)
      · rw [List.forall₂_map_left_iff, List.forall₂_map_right_iff,
          List.forall₂_same]
        exact fun extra _ => settles_unknownMember settlesUnknown extra
  | _ => exact settles_rejection _ _

private theorem settles_itemParts (schemaAt : Nat → Option σ)
    (settles : ∀ position schema, schemaAt position = some schema →
      (early schema).Settles (late schema)) (values : List Json) :
    List.Forall₂ ModalWalk.Settles
      (itemParts (fun position => (schemaAt position).map early) values)
      (itemParts (fun position => (schemaAt position).map late) values) := by
  refine List.rel_filterMap (R := Eq) ?_ (List.forall₂_refl _)
  rintro ⟨value, position⟩ _ rfl
  dsimp only
  cases found : schemaAt position with
  | none => exact .none
  | some schema => exact .some ((settles position schema found value).inside _)

theorem settles_array {item : σ} (settles : (early item).Settles (late item)) :
    (array (early item)).Settles (array (late item)) := by
  intro value
  cases value with
  | array values =>
      rw [array_on, array_on]
      refine .mapped (.all (settles_itemParts (fun _ => some item)
        (fun _ schema same => ?_) values)) _
      cases same
      exact settles
  | _ => exact settles_rejection _ _

theorem settles_tuple {items : List σ} {rest : Option σ}
    (settlesItems : ∀ item ∈ items, (early item).Settles (late item))
    (settlesRest : ∀ schema, rest = some schema →
      (early schema).Settles (late schema)) :
    (tuple (items.map early) (rest.map early)).Settles
      (tuple (items.map late) (rest.map late)) := by
  intro value
  cases value with
  | array values =>
      rw [tuple_on, tuple_on]
      simp only [List.length_map, Option.isSome_map, List.getElem?_map,
        ← Option.map_or]
      split
      · refine .mapped (.all
          (settles_itemParts _ (fun position schema found => ?_) values)) _
        rcases Option.or_eq_some_iff.mp found with here | ⟨_, later⟩
        · exact settlesItems schema (List.mem_of_getElem? here)
        · exact settlesRest schema later
      · exact settles_rejection _ _
  | _ => exact settles_rejection _ _

theorem settles_union {options : List σ}
    (settles : ∀ option ∈ options, (early option).Settles (late option)) :
    (union (options.map early)).Settles (union (options.map late)) := by
  intro value
  rw [union_on, union_on, List.length_map, List.length_map]
  exact .orElse (steady_firstOf _ _) (steady_firstOf _ _) (silent_firstOf _ _)
    (silent_firstOf _ _) (cautious_firstOf _ _)
    (fun path certain =>
      output_firstOf_settled
        (fun option member => settles option member value) certain)
    (settles_rejection _ _)

theorem settles_variant {key : String} {options : List σ}
    (tag? : σ → Option Json)
    (settles : ∀ option ∈ options, (early option).Settles (late option)) :
    (variant key (options.map
      fun option => (tag? option, early option))).Settles
      (variant key (options.map fun option => (tag? option, late option))) := by
  intro value
  cases value with
  | object members =>
      cases meant : options.filter
          fun option =>
            isCandidate (Members.get? members key) (tag? option) with
      | nil =>
          rw [variant_on_of_nil (by rw [candidates_map, meant]; rfl),
            variant_on_of_nil (by rw [candidates_map, meant]; rfl)]
          simp only [unknownTag, List.filterMap_map, Function.comp_def]
          exact (settles_rejection _ _).inside _
      | cons first others =>
          rw [variant_on_of_cons (by rw [candidates_map, meant]; rfl),
            variant_on_of_cons (by rw [candidates_map, meant]; rfl)]
          have settlesMeant : ∀ option ∈ first :: others,
              (early option).Settles (late option) := fun option member =>
            settles option (List.mem_filter.mp (meant ▸ member)).1
          exact .orElse (steady_firstOf _ _) (steady_firstOf _ _)
            (silent_firstOf _ _) (silent_firstOf _ _) (cautious_firstOf _ _)
            (fun path certain => output_firstOf_settled
              (fun option member => settlesMeant option member _) certain)
            (settlesMeant first List.mem_cons_self _).forIssues
  | _ => exact settles_rejection _ _

end Check

/-- Without waiting, the walk of a schema settles what it does when it waits. -/
theorem Schema.settles (schema : Schema Id) :
    (schema.check .refuse).Settles (schema.check .await) := by
  induction schema with
  | literal value => exact fun _ => .refl (Check.regular_literal value _).steady
  | primitive kind =>
    exact fun _ => .refl (Check.regular_primitive kind _).steady
  | object fields unknown settlesFields settlesUnknown =>
      rw [check_object, check_object]
      exact Check.settles_object settlesFields settlesUnknown
  | tuple items rest settlesItems settlesRest =>
      rw [check_tuple, check_tuple]
      exact Check.settles_tuple settlesItems settlesRest
  | array item settles => exact Check.settles_array settles
  | union options settles =>
      rw [check_union, check_union]
      exact Check.settles_union settles
  | variant key options settles =>
      rw [check_variant, check_variant]
      exact Check.settles_variant (·.tag? key) settles
  | refined inner rule message settles =>
      intro value
      rw [check, check, Check.refined_on, Check.refined_on]
      exact (settles value).andThen fun output => Check.settles_decided _ _ _ _
  | transform inner map settles =>
      intro value
      rw [check, check, Check.transform_on, Check.transform_on]
      exact (settles value).andThen fun output => Check.settles_accept _
  | asyncRefined inner test message settles =>
      intro value
      rw [check, check, Check.asyncRefined_refuse_on,
        Check.asyncRefined_await_on]
      refine (settles value).andThen fun output => ?_
      refine .of_open (Check.yields_leftOpen output) rfl
        (ModalWalk.Regular.decided _ _ _ _).steady fun _ mode path => ?_
      exact Check.output_decided _ _ _ _ mode path
  | custom validate =>
      intro value
      rw [check, check, Check.custom_refuse_on, Check.custom_await_on]
      cases validate value with
      | ready outcome => exact Check.settles_outcomeWalk outcome
      | pending await =>
          exact .of_open (Check.yields_stoodIn value) rfl
            (ModalWalk.Regular.outcomeWalk _).steady
              fun certain => by cases certain

end JsonMatch
