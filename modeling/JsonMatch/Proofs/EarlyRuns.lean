import JsonMatch.Proofs.TruthfulValidators

/-!
# Runs that do not wait

A run that does not wait and a run that waits visit the same clauses, and do the
same up to the first part that has to be awaited.  There the one ends with a
fault and the other goes on.  So a result without waiting is also the result of
waiting, and after a fault no clause before the one at fault hits.
-/

namespace JsonMatch

/-- What an attempt without waiting says about the one that waits: a verdict is
final, and a verdict left open may come out either way. -/
inductive Attempt.Foretells : Attempt → Attempt → Prop where
  | noMatch : Foretells .noMatch .noMatch
  | matched (output : Json) : Foretells (.matched output) (.matched output)
  | asyncRequired (verdict : Option Json) :
      Foretells .asyncRequired (.ofVerdict verdict)

namespace Attempt

theorem foretells_ofVerdict (verdict : Option Json) :
    Foretells (.ofVerdict verdict) (.ofVerdict verdict) := by
  cases verdict with
  | none => exact .noMatch
  | some output => exact .matched output

theorem Foretells.decided {early late : Attempt}
    (foretells : early.Foretells late) :
    late ≠ .asyncRequired := by
  cases foretells with
  | noMatch => exact nofun
  | matched output => exact nofun
  | asyncRequired verdict => cases verdict <;> exact nofun

end Attempt

/-- A schema that was attempted without waiting keeps its verdict, if it gave
one. -/
theorem Schema.Attempted.foretells {schema : Schema Id} {value : Json}
    {attempt : Attempt} (attempted : schema.Attempted value attempt) :
    attempt.Foretells (.ofVerdict (schema.verdict .await value)) := by
  cases attempted with
  | matched accepts closed =>
      rw [schema.verdict_await_of_closed .collect value closed, accepts]
      exact .matched _
  | noMatch rejects =>
      rw [rejects]
      exact .noMatch
  | asyncRequired left_open => exact .asyncRequired _

namespace Validator

theorem attempt_foretells (validator : Validator Id) (input : Json) :
    Attempt.Foretells (validator.attempt input : Attempt)
      (.ofVerdict (validator.settle input : Option Json)) := by
  obtain ⟨answer, validated⟩ := exists_pure (validator.validate input)
  rw [attempt, settle, validated, pure_bind, pure_bind]
  cases answer with
  | ready outcome => exact Attempt.foretells_ofVerdict outcome.accepted?
  | pending await => exact .asyncRequired _

/-- The verdicts of schemas are final, and so are those of validators that show
none, whether or not they describe themselves. -/
theorem attemptBuiltIn_foretells {validator : Validator Id}
    (shown : validator.Native ∨ validator.schema? = none) {input : Json}
    (wellFormed : input.isWellFormed = true) :
    Attempt.Foretells (validator.attemptBuiltIn .refuse input : Attempt)
      (validator.attemptBuiltIn .await input : Attempt) := by
  rcases shown with ⟨identity, schema, rfl⟩ | hidden
  · rw [attemptBuiltIn_ofSchema_await identity schema wellFormed]
    exact (attempted_ofSchema identity schema wellFormed).foretells
  · have foretells := validator.attempt_foretells input
    cases described : validator.description? with
    | none =>
        have silent : validator.Silent := ⟨hidden, described⟩
        rw [(silent.attemptBuiltIn_eq input).1,
          (silent.attemptBuiltIn_eq input).2]
        exact foretells
    | some description =>
        have describes : validator.Describes description := ⟨hidden, described⟩
        rw [(describes.attemptBuiltIn_eq input).1,
          (describes.attemptBuiltIn_eq input).2]
        cases description.described.passes input with
        | true => exact foretells
        | false => exact .noMatch

end Validator

variable {ρ : Type}

/-- Whether a run gets through a clause, its validators being tried by
`attempt`. -/
def Clause.Unhindered (waiting : Waiting)
    (attempt : Validator Id → Id Attempt) :
    Clause Id ρ → Prop
  | .schemas validators guard handler =>
      (∀ validator ∈ validators, attempt validator ≠ pure .asyncRequired) ∧
        (∀ given, guard = some given → ¬ waiting.StopsAt given.suspends) ∧
        ¬ waiting.StopsAt handler.suspends
  | .when predicate handler =>
      ¬ waiting.StopsAt predicate.suspends ∧ ¬ waiting.StopsAt handler.suspends

namespace Clause

section Unhindered

variable {waiting : Waiting} {attempt : Validator Id → Id Attempt}
    {input : Json}

private theorem scanValidators_of_unhindered {guard : Option (Guard Id)}
    {handler : Handler Id ρ} {validators : List (Validator Id)}
    (decided : ∀ validator ∈ validators, attempt validator ≠
      pure .asyncRequired)
    (admits : ∀ given, guard = some given → ¬ waiting.StopsAt given.suspends)
    (responds : ¬ waiting.StopsAt handler.suspends) (position : Nat) :
    ∃ answer : Option ρ,
      (scanValidators waiting attempt input guard handler position validators :
        Id (Trial ρ)) = pure (answer.elim .passed .hit) := by
  induction validators generalizing position with
  | nil => exact ⟨none, rfl⟩
  | cons validator validators induction =>
      have further := induction
        (fun other member => decided other (List.mem_cons_of_mem _ member))
        (position + 1)
      have finishes : ∀ output, ∃ answer : Option ρ,
          (handler.finish waiting output input : Id (Trial ρ)) =
            pure (answer.elim .passed .hit) :=
        fun output => ⟨some _, Handler.finish_of_goes responds output input⟩
      obtain ⟨first, attempted⟩ := exists_pure (attempt validator)
      rw [scanValidators, attempted, pure_bind]
      cases first with
      | noMatch => exact further
      | asyncRequired =>
          exact absurd attempted (decided validator List.mem_cons_self)
      | matched output =>
          cases guard with
          | none => exact finishes output
          | some guard =>
              obtain ⟨admitted, asked⟩ :=
                exists_pure (guard.admits output input)
              simp only [if_neg (admits guard rfl), asked]
              cases admitted with
              | true => exact finishes output
              | false => exact further

theorem Unhindered.scanClause_eq {clause : Clause Id ρ}
    (free : clause.Unhindered waiting attempt) (input : Json) :
    ∃ answer : Option ρ,
      (clause.scanClause waiting attempt input : Id (Trial ρ)) =
        pure (answer.elim .passed .hit) := by
  cases clause with
  | schemas validators guard handler =>
      obtain ⟨decided, admits, responds⟩ := free
      exact scanValidators_of_unhindered decided admits responds 0
  | when predicate handler =>
      obtain ⟨goes, responds⟩ := free
      obtain ⟨holds, asked⟩ := exists_pure (predicate.holds input)
      rw [scanClause, if_neg goes, asked, pure_bind]
      cases holds with
      | true => exact ⟨some _, Handler.finish_of_goes responds input input⟩
      | false => exact ⟨none, rfl⟩

theorem scan_of_unhindered {entries : List (Clause Id ρ × Nat)}
    (free : ∀ entry ∈ entries, entry.1.Unhindered waiting attempt)
    (input : Json) :
    ∃ execution : Execution ρ,
      (scan waiting attempt input entries :
        Id (Except (Fault Id) (Execution ρ))) = pure (.ok execution) ∧
      (execution = .unmatched ∨
        ∃ entry ∈ entries, ∃ output, execution = .matched entry.2 output) := by
  induction entries with
  | nil => exact ⟨.unmatched, rfl, .inl rfl⟩
  | cons entry entries induction =>
      obtain ⟨answer, tried⟩ :=
        (free entry List.mem_cons_self).scanClause_eq input
      rw [scan, tried, pure_bind]
      cases answer with
      | some output =>
          exact ⟨_, rfl, .inr ⟨entry, List.mem_cons_self, output, rfl⟩⟩
      | none =>
          obtain ⟨execution, scanned, ended⟩ := induction fun other member =>
            free other (List.mem_cons_of_mem _ member)
          refine ⟨execution, scanned, ended.imp id ?_⟩
          rintro ⟨other, member, output, hit⟩
          exact ⟨other, List.mem_cons_of_mem _ member, output, hit⟩

end Unhindered

end Clause

/-- What the trial of a clause without waiting says about the one that waits.  A
trial that stops at the handler has found all that is needed for a hit. -/
inductive Trial.Foretells : Trial ρ → Trial ρ → Prop where
  | passed : Foretells .passed .passed
  | hit (output : ρ) : Foretells (.hit output) (.hit output)
  | atHandler (output : ρ) : Foretells (.blocked .handler) (.hit output)
  | stopped {origin : AsyncOrigin} (before : origin ≠ .handler)
      (late : Trial ρ) :
      Foretells (.blocked origin) late

/-- What a run without waiting says about the one that waits. -/
inductive Execution.Foretells :
    Except (Fault Id) (Execution ρ) → Except (Fault Id) (Execution ρ) →
    Prop where
  | result (execution : Execution ρ) : Foretells (.ok execution) (.ok execution)
  | atHandler (case : Nat) (output : ρ) :
      Foretells (.error (.asyncRequired case .handler))
        (.ok (.matched case output))
  | unmatched (case : Nat) {origin : AsyncOrigin} (before : origin ≠ .handler) :
      Foretells (.error (.asyncRequired case origin)) (.ok .unmatched)
  | matched {case later : Nat} {origin : AsyncOrigin}
      (before : origin ≠ .handler) (notEarlier : case ≤ later) (output : ρ) :
      Foretells (.error (.asyncRequired case origin))
        (.ok (.matched later output))

namespace Clause

section Foretells

variable {early late : Validator Id → Id Attempt} {input : Json}

private theorem finish_foretells (handler : Handler Id ρ) (output : Json) :
    Trial.Foretells (handler.finish .refuse output input : Id (Trial ρ))
      (handler.finish .await output input : Id (Trial ρ)) := by
  have responds : (handler.finish .await output input : Id (Trial ρ)) = _ :=
    Handler.finish_of_goes (by simp) output input
  rw [responds]
  by_cases stops : Waiting.StopsAt .refuse handler.suspends
  · rw [Handler.finish, if_pos stops]
    exact .atHandler _
  · rw [Handler.finish_of_goes stops]
    exact .hit _

private theorem scanValidators_foretells (guard : Option (Guard Id))
    (handler : Handler Id ρ) {validators : List (Validator Id)}
    (foretells : ∀ validator ∈ validators,
      Attempt.Foretells (early validator : Attempt) (late validator : Attempt))
    (position : Nat) :
    Trial.Foretells
      (scanValidators .refuse early input guard handler
        position validators : Trial ρ)
      (scanValidators .await late input guard handler position validators :
        Trial ρ) := by
  induction validators generalizing position with
  | nil => exact .passed
  | cons validator validators induction =>
      have further := induction
        (fun other member => foretells other (List.mem_cons_of_mem _ member))
        (position + 1)
      have first := foretells validator List.mem_cons_self
      obtain ⟨earlyFirst, earlyAttempted⟩ := exists_pure (early validator)
      obtain ⟨lateFirst, lateAttempted⟩ := exists_pure (late validator)
      rw [earlyAttempted, lateAttempted] at first
      rw [scanValidators, scanValidators, earlyAttempted,
        lateAttempted, pure_bind, pure_bind]
      cases first with
      | noMatch => exact further
      | asyncRequired verdict => exact .stopped (by simp) _
      | matched output =>
          cases guard with
          | none => exact finish_foretells handler output
          | some guard =>
              obtain ⟨admitted, asked⟩ :=
                exists_pure (guard.admits output input)
              have waits : ¬ Waiting.StopsAt .await guard.suspends := by simp
              simp only [if_neg waits, asked]
              split
              · exact .stopped (by simp) _
              · cases admitted with
                | true => exact finish_foretells handler output
                | false => exact further

theorem scanClause_foretells {clause : Clause Id ρ}
    (foretells : ∀ validator ∈ clause.validators,
      Attempt.Foretells (early validator : Attempt) (late validator : Attempt))
    (input : Json) :
    Trial.Foretells (clause.scanClause .refuse early input : Trial ρ)
      (clause.scanClause .await late input : Trial ρ) := by
  cases clause with
  | schemas validators guard handler =>
      exact scanValidators_foretells guard handler foretells 0
  | when predicate handler =>
      obtain ⟨holds, asked⟩ := exists_pure (predicate.holds input)
      have waits : ¬ Waiting.StopsAt .await predicate.suspends := by simp
      rw [scanClause, scanClause, if_neg waits, asked]
      split
      · exact .stopped (by simp) _
      · cases holds with
        | true => exact finish_foretells handler input
        | false => exact .passed

/-- What an ascending scan without waiting says about the one that waits. -/
theorem scan_foretells {entries : List (Clause Id ρ × Nat)}
    (ascending : entries.Pairwise fun first second => first.2 < second.2)
    (foretells : ∀ entry ∈ entries, ∀ validator ∈ entry.1.validators,
      Attempt.Foretells (early validator : Attempt)
        (late validator : Attempt)) :
    Execution.Foretells
      (scan .refuse early input entries : Except (Fault Id) (Execution ρ))
      (scan .await late input entries : Except (Fault Id) (Execution ρ)) := by
  have free : ∀ entry ∈ entries, entry.1.Unhindered .await late := by
    rintro ⟨clause, case⟩ member
    have decided := fun validator listed =>
      (foretells _ member validator listed).decided
    cases clause with
    | schemas validators guard handler => exact ⟨decided, by simp, by simp⟩
    | when predicate handler => exact ⟨by simp, by simp⟩
  induction entries with
  | nil => exact .result _
  | cons entry entries induction =>
      obtain ⟨before, ascendingRest⟩ := List.pairwise_cons.mp ascending
      have further := induction ascendingRest
        (fun other member => foretells other (List.mem_cons_of_mem _ member))
        (fun other member => free other (List.mem_cons_of_mem _ member))
      have first :=
        scanClause_foretells (foretells entry List.mem_cons_self) input
      -- Where a run without waiting stops, the other one goes on as far as it
      -- can.
      obtain ⟨execution, scanned, ended⟩ := scan_of_unhindered free input
      obtain ⟨earlyTrial, earlyTried⟩ :=
        exists_pure (entry.1.scanClause .refuse early input : Id (Trial ρ))
      obtain ⟨lateTrial, lateTried⟩ :=
        exists_pure (entry.1.scanClause .await late input : Id (Trial ρ))
      rw [earlyTried, lateTried] at first
      cases first with
      | passed =>
          rw [scan, scan, earlyTried, lateTried, pure_bind, pure_bind]
          exact further
      | hit output =>
          rw [scan, scan, earlyTried, lateTried, pure_bind, pure_bind]
          exact .result _
      | atHandler output =>
          rw [scan, scan, earlyTried, lateTried, pure_bind, pure_bind]
          exact .atHandler _ _
      | stopped other late =>
          rw [scanned, scan, earlyTried, pure_bind]
          rcases ended with rfl | ⟨hit, member, output, rfl⟩
          · exact .unmatched _ other
          · refine .matched other ?_ output
            rcases List.mem_cons.mp member with rfl | later
            · exact Nat.le_refl _
            · exact Nat.le_of_lt (before hit later)

end Foretells

end Clause

/-- Whether nothing in a validator ever has to be awaited. -/
def Validator.Immediate (validator : Validator Id) : Prop :=
  (∀ schema, validator.schema? = some schema → schema.Immediate) ∧
    (validator.schema? = none → ∀ value, ∃ outcome,
      validator.validate value = (.ready outcome : Answer Id))

/-- Whether nothing in a clause ever has to be awaited. -/
def Clause.Immediate : Clause Id ρ → Prop
  | .schemas validators guard handler =>
      (∀ validator ∈ validators, validator.Immediate) ∧
        (∀ given, guard = some given → given.suspends = false) ∧
        handler.suspends = false
  | .when predicate handler =>
      predicate.suspends = false ∧ handler.suspends = false

namespace Validator

theorem Immediate.attemptBuiltIn_ne {validator : Validator Id}
    (immediate : validator.Immediate)
    (shown : validator.Native ∨ validator.schema? = none) {input : Json}
    (wellFormed : input.isWellFormed = true) :
    validator.attemptBuiltIn .refuse input ≠
      (pure .asyncRequired : Id Attempt) := by
  rcases shown with ⟨identity, schema, rfl⟩ | hidden
  · intro leftOpen
    obtain ⟨outcome, ready⟩ := (immediate.1 schema rfl).validate_ready input
    have pending :=
      (attempted_ofSchema identity schema wellFormed).answers.2.2.1 leftOpen
    rw [ready] at pending
    cases pending
  · obtain ⟨outcome, ready⟩ := immediate.2 hidden input
    have decided : (.ofVerdict outcome.accepted? : Attempt) ≠ .asyncRequired :=
      (Attempt.foretells_ofVerdict _).decided
    cases described : validator.description? with
    | none =>
        have silent : validator.Silent := ⟨hidden, described⟩
        rw [(silent.attemptBuiltIn_eq input).1, attempt_of_ready ready]
        exact decided
    | some description =>
        have describes : validator.Describes description := ⟨hidden, described⟩
        rw [(describes.attemptBuiltIn_eq input).1, attempt_of_ready ready]
        cases description.described.passes input with
        | true => exact decided
        | false => exact nofun

end Validator

namespace Clause

theorem Immediate.unhindered {clause : Clause Id ρ}
    (immediate : clause.Immediate) (shown : ∀ validator ∈ clause.validators,
      validator.Native ∨ validator.schema? = none)
    {input : Json} (wellFormed : input.isWellFormed = true) :
    clause.Unhindered .refuse (·.attemptBuiltIn .refuse input) := by
  cases clause with
  | schemas validators guard handler =>
      obtain ⟨validatorsImmediate, guardGoes, handlerGoes⟩ := immediate
      refine ⟨?_, ?_, ?_⟩
      · intro validator member
        exact (validatorsImmediate validator member).attemptBuiltIn_ne
          (shown validator member) wellFormed
      · intro given same
        simp [guardGoes given same]
      · simp [handlerGoes]
  | when predicate handler =>
      obtain ⟨predicateGoes, handlerGoes⟩ := immediate
      exact ⟨by simp [predicateGoes], by simp [handlerGoes]⟩

/-- A run without waiting ends with the result of the waiting run, or with a
fault at a clause.  After a fault the waiting run hits that clause, a later one
or none, and that clause when only its handler was left.  There is no fault when
nothing in the clauses has to be awaited.  The stores that the two runs start
from may differ. -/
theorem execute_refuse_foretells (compiler : Compiler Id)
    (builtIn : compiler.BuiltIn)
    (registry : Registry Id) (clauses : List (Clause Id ρ))
    (inUse : ∀ clause ∈ clauses, ∀ validator ∈ clause.validators,
      registry.Has validator)
    (shown : ∀ clause ∈ clauses, ∀ validator ∈ clause.validators,
      validator.Native ∨ validator.schema? = none)
    (config : Config) (table : Option DispatchTable)
    (own : ∀ built, table = some built →
      DispatchTable.build? clauses compiler config = some built)
    (store other : Store Id) (faithful : store.Faithful registry)
    (otherFaithful : other.Faithful registry)
    (input : Json) (wellFormed : input.isWellFormed = true) :
    let early : Except (Fault Id) (Execution ρ) :=
      (StateT.run (m := Id)
        (execute .refuse clauses table compiler input) store).1
    let late : Except (Fault Id) (Execution ρ) :=
      (StateT.run (m := Id)
        (execute .await clauses table compiler input) other).1
    ((∃ execution, early = .ok execution ∧ late = .ok execution) ∨
      ∃ case origin, early = .error (.asyncRequired case origin) ∧
        ((origin ≠ .handler ∧ late = .ok .unmatched) ∨
          ∃ hit output, late = .ok (.matched hit output) ∧ case ≤ hit ∧
            (origin = .handler → hit = case))) ∧
      ((∀ clause ∈ clauses, clause.Immediate) →
        ∃ execution, early = .ok execution) := by
  intro early late
  obtain ⟨keep, visited, _⟩ := DispatchTable.exists_kept table own input
  have earlyScan : early = _ :=
    (follows_execute_of_visited builtIn inUse visited).output_eq faithful
  have lateScan : late = _ :=
    (follows_execute_of_visited builtIn inUse visited).output_eq otherFaithful
  have inList : ∀ entry ∈ clauses.zipIdx.filter fun entry => keep entry.1,
      entry.1 ∈ clauses := by
    intro entry member
    exact List.fst_mem_of_mem_zipIdx (List.mem_filter.mp member).1
  constructor
  · have ascending := List.pairwise_map.mp (pairwise_positions keep clauses)
    have foretells : Execution.Foretells early late := by
      rw [earlyScan, lateScan]
      apply scan_foretells ascending
      intro entry member validator listed
      exact Validator.attemptBuiltIn_foretells
        (shown entry.1 (inList entry member) validator listed) wellFormed
    clear_value early late
    cases foretells with
    | result execution => exact .inl ⟨execution, rfl, rfl⟩
    | atHandler case output =>
        exact .inr ⟨case, .handler, rfl,
          .inr ⟨case, output, rfl, Nat.le_refl _, fun _ => rfl⟩⟩
    | @unmatched case origin before =>
        exact .inr ⟨case, origin, rfl, .inl ⟨before, rfl⟩⟩
    | @matched case hit origin before notEarlier output =>
        exact .inr ⟨case, origin, rfl,
          .inr ⟨hit, output, rfl, notEarlier, fun same => absurd same before⟩⟩
  · intro immediate
    obtain ⟨execution, scanned, _⟩ := scan_of_unhindered (fun entry member =>
      (immediate entry.1 (inList entry member)).unhindered
        (shown entry.1 (inList entry member)) wellFormed) input
    exact ⟨execution, earlyScan.trans scanned⟩

/-- Two clauses told apart by `type`, the first with a check that is awaited,
and one whose handler is awaited: a result, a fault at the check and a fault at
the handler.  There is no fault when the check and that handler are left out. -/
theorem execute_refuse_foretells_tagged :
    let tagged (tag : String) : Schema Id :=
      .object [⟨"type", .required, .literal (.string tag)⟩] .allow
    let checked := Validator.ofSchema 1
      (.asyncRefined (tagged "a") (fun _ => false) "taken")
    let plain := Validator.ofSchema 2 (tagged "b")
    let any := Validator.ofFunction (m := Id) 3 fun value =>
      pure (.ready (.success value))
    let handler (suspends : Bool) : Handler Id Json :=
      ⟨suspends, fun output _ => output⟩
    let clauses : List (Clause Id Json) :=
      [.schemas [checked] none (handler false),
        .schemas [plain] none (handler false),
        .schemas [any] none (handler true)]
    let direct : List (Clause Id Json) :=
      [.schemas [plain] none (handler false),
       .schemas [any] none (handler false)]
    let table := DispatchTable.build? clauses Compiler.shared {}
    let run (clauses : List (Clause Id Json)) (table : Option DispatchTable)
        (waiting : Waiting) (input : Json) :
          Except (Fault Id) (Execution Json) :=
      (StateT.run (m := Id)
        (execute waiting clauses table Compiler.shared input)
        ({} : Store Id)).1
    let object (tag : String) := Json.object [("type", .string tag)]
    run clauses none .await (object "b") = .ok (.matched 1 (object "b")) ∧
      run clauses none .refuse (object "a") =
        .error (.asyncRequired 0 (.validator 0)) ∧
      (run clauses none .await (object "a") = .ok .unmatched ∨
        ∃ hit output, run clauses none .await (object "a") =
          .ok (.matched hit output)) ∧
      table.isSome = true ∧
      run clauses table .refuse (object "c") =
        .error (.asyncRequired 2 .handler) ∧
      (∃ output, run clauses table .await (object "c") =
        .ok (.matched 2 output)) ∧
      ∃ execution, run direct none .refuse (object "c") = .ok execution := by
  intro tagged checked plain any handler clauses direct table run object
  let registry : Registry Id := fun identity =>
    if identity = 1 then some checked else if identity = 2 then some plain
    else if identity = 3 then some any else none
  have faithful := Store.faithful_empty registry
  have known : ∀ validator, validator = checked ∨ validator = plain ∨
      validator = any →
      registry.Has validator ∧
        (validator.Native ∨ validator.schema? = none) := by
    rintro validator (rfl | rfl | rfl)
    · exact ⟨rfl, .inl ⟨1, _, rfl⟩⟩
    · exact ⟨rfl, .inl ⟨2, _, rfl⟩⟩
    · exact ⟨rfl, .inr rfl⟩
  have inClauses : ∀ clause ∈ clauses, ∀ validator ∈ clause.validators,
      validator = checked ∨ validator = plain ∨ validator = any := by
    intro clause member validator listed
    simp only [clauses, List.mem_cons, List.not_mem_nil, or_false] at member
    rcases member with rfl | rfl | rfl
    · exact .inl (List.mem_singleton.mp listed)
    · exact .inr (.inl (List.mem_singleton.mp listed))
    · exact .inr (.inr (List.mem_singleton.mp listed))
  have inDirect : ∀ clause ∈ direct, ∀ validator ∈ clause.validators,
      validator = plain ∨ validator = any := by
    intro clause member validator listed
    rcases List.mem_pair.mp member with rfl | rfl
    · exact .inl (List.mem_singleton.mp listed)
    · exact .inr (List.mem_singleton.mp listed)
  have immediate : ∀ clause ∈ direct, clause.Immediate := by
    intro clause member
    have plainImmediate : (tagged "b").Immediate :=
      .object (by simp [Schema.Immediate.literal]) nofun
    rcases List.mem_pair.mp member with rfl | rfl
    · refine ⟨?_, nofun, rfl⟩
      intro validator listed
      obtain rfl := List.mem_singleton.mp listed
      refine ⟨?_, nofun⟩
      rintro schema ⟨⟩
      exact plainImmediate
    · refine ⟨?_, nofun, rfl⟩
      intro validator listed
      obtain rfl := List.mem_singleton.mp listed
      exact ⟨nofun, fun _ value => ⟨_, rfl⟩⟩
  have foretells (table : Option DispatchTable)
      (own : ∀ built, table = some built →
        DispatchTable.build? clauses Compiler.shared {} = some built)
      (input : Json) (wellFormed : input.isWellFormed = true) :=
    (execute_refuse_foretells Compiler.shared rfl registry clauses
      (fun clause member validator listed =>
        (known validator (inClauses clause member validator listed)).1)
      (fun clause member validator listed =>
        (known validator (inClauses clause member validator listed)).2)
      {} table own {} {} faithful faithful input wellFormed).1
  refine ⟨?_, rfl, ?_, rfl, rfl, ?_, ?_⟩
  · obtain ⟨execution, early, late⟩ | ⟨case, origin, early, _⟩ :=
      foretells none nofun (object "b") rfl
    · cases early
      exact late
    · cases early
  · obtain ⟨execution, early, _⟩ | ⟨case, origin, early, late⟩ :=
      foretells none nofun (object "a") rfl
    · cases early
    · rcases late with ⟨_, unmatched⟩ | ⟨hit, output, matched, _⟩
      · exact .inl unmatched
      · exact .inr ⟨hit, output, matched⟩
  · obtain ⟨execution, early, _⟩ | ⟨case, origin, early, late⟩ :=
      foretells table (fun _ same => same) (object "c") rfl
    · cases early
    · cases early
      rcases late with ⟨before, _⟩ | ⟨hit, output, matched, _, same⟩
      · exact absurd rfl before
      · obtain rfl := same rfl
        exact ⟨output, matched⟩
  · exact (execute_refuse_foretells Compiler.shared rfl registry direct
      (fun clause member validator listed =>
        (known validator (.inr (inDirect clause member validator listed))).1)
      (fun clause member validator listed =>
        (known validator (.inr (inDirect clause member validator listed))).2)
      {} none nofun {} {} faithful faithful (object "c") rfl).2 immediate

end Clause

end JsonMatch
