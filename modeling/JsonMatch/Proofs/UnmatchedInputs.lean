import JsonMatch.Proofs.NaiveExecution
import JsonMatch.Proofs.Reports

/-!
# Reports on unmatched inputs

A run that hits no clause has tried the validators of all clauses that it
visited.  Each of them rejected, or a guard turned its output away.  The report
on the input asks them again: a report that waits accounts for every one of
them, and a report that does not wait leaves out those whose answer it would
have to wait for, although the run without waiting has rejected the input by
them.
-/

namespace JsonMatch

/-- What an attempt gives in a clause that is passed. -/
inductive Attempt.Passed (guarded : Bool) : Attempt → Prop where
  | noMatch : Passed guarded .noMatch
  | matched (output : Json) (turnedAway : guarded = true) :
      Passed guarded (.matched output)

variable {ρ : Type}

namespace Clause

variable {waiting : Waiting} {attempt : Validator Id → Id Attempt}
    {input : Json}

private theorem finish_ne_passed (handler : Handler Id ρ) (output : Json) :
    (handler.finish waiting output input : Id (Trial ρ)) ≠ pure .passed := by
  unfold Handler.finish
  split
  · exact nofun
  · intro passed
    cases passed

private theorem passed_of_scanValidators {guard : Option (Guard Id)}
    {handler : Handler Id ρ} {validators : List (Validator Id)} {position : Nat}
    (passes :
      (scanValidators waiting attempt input guard handler position validators :
        Id (Trial ρ)) = pure .passed) :
    ∀ validator ∈ validators,
      Attempt.Passed guard.isSome (attempt validator : Attempt) := by
  induction validators generalizing position with
  | nil => exact nofun
  | cons validator validators induction =>
      obtain ⟨first, attempted⟩ := exists_pure (attempt validator)
      rw [scanValidators, attempted, pure_bind] at passes
      suffices tried : Attempt.Passed guard.isSome first ∧
          scanValidators waiting attempt input guard handler
            (position + 1) validators = (pure .passed : Id (Trial ρ)) by
        intro other member
        rcases List.mem_cons.mp member with rfl | later
        · rw [attempted]
          exact tried.1
        · exact induction tried.2 other later
      -- A handler hits or blocks; only a guard lets an accepted output go by.
      cases first with
      | noMatch => exact ⟨.noMatch, passes⟩
      | asyncRequired => cases passes
      | matched output =>
          cases guard with
          | none => exact absurd passes (finish_ne_passed handler output)
          | some guard =>
              refine ⟨.matched output rfl, ?_⟩
              obtain ⟨admitted, asked⟩ :=
                exists_pure (guard.admits output input)
              dsimp only at passes
              split at passes
              · cases passes
              · rw [asked, pure_bind] at passes
                cases admitted with
                | true => exact absurd passes (finish_ne_passed handler output)
                | false => exact passes

theorem passed_of_scanClause {clause : Clause Id ρ}
    (passes : (clause.scanClause waiting attempt input : Id (Trial ρ)) =
      pure .passed) :
    ∀ validator ∈ clause.validators,
      Attempt.Passed clause.isGuarded (attempt validator : Attempt) := by
  cases clause with
  | schemas validators guard handler => exact passed_of_scanValidators passes
  | when predicate handler => exact nofun

theorem passes_of_scan {entries : List (Clause Id ρ × Nat)}
    (unmatched : (scan waiting attempt input entries :
      Id (Except (Fault Id) (Execution ρ))) = pure (.ok .unmatched)) :
    ∀ entry ∈ entries,
      (entry.1.scanClause waiting attempt input : Id (Trial ρ)) =
        pure .passed := by
  induction entries with
  | nil => exact nofun
  | cons entry entries induction =>
      obtain ⟨trial, tried⟩ :=
        exists_pure (entry.1.scanClause waiting attempt input : Id (Trial ρ))
      rw [scan, tried, pure_bind] at unmatched
      cases trial with
      | hit output => cases unmatched
      | blocked origin => cases unmatched
      | passed =>
          intro other member
          rcases List.mem_cons.mp member with rfl | later
          · exact tried
          · exact induction unmatched other later

end Clause

namespace Workspace

theorem Plain.execute_eq_scan {registry : Registry Id}
    {workspace : Workspace Id ρ Unit} (plain : workspace.Plain registry)
    {matcher : Matcher Id ρ} (made : matcher ∈ workspace.matchers)
    (untold : matcher.ownTable = none) (waiting : Waiting) (input : Json) :
    (Engine.runIn (matcher.execute waiting input) workspace.toMachine).1 =
      .ok (Clause.scan waiting (·.attemptBuiltIn waiting input) input
        matcher.clauses.toList.zipIdx :
          Id (Except (Fault Id) (Execution ρ))) := by
  have visited :
      casesToVisit matcher.clauses.toList.length matcher.ownTable input =
      positions (fun _ => true) matcher.clauses.toList := by
    rw [untold, positions_true]
    rfl
  rw [plain.execute_of_visited made visited,
    List.filter_eq_self.mpr fun _ _ => rfl]

/-- When a run hits nothing, each validator of the report was tried, and its
clause passed. -/
theorem Plain.passed_of_unmatched {registry : Registry Id}
    {workspace : Workspace Id ρ Unit} (plain : workspace.Plain registry)
    {matcher : Matcher Id ρ} (made : matcher ∈ workspace.matchers)
    {waiting : Waiting} {input : Json}
    (unmatched : (Engine.runIn (matcher.execute waiting input)
      workspace.toMachine).1 = .ok (.ok .unmatched)) :
    ∀ target ∈ matcher.targets input,
      Attempt.Passed target.guarded
        (target.validator.attemptBuiltIn waiting input : Attempt) := by
  intro target inReport
  obtain ⟨keep, visited, _⟩ := DispatchTable.exists_kept matcher.ownTable
    (fun _ same => same) input
  rw [plain.execute_of_visited made visited] at unmatched
  have passes := Clause.passes_of_scan (Except.ok.inj unmatched)
  obtain ⟨cases, _, visits, listed⟩ := matcher.exists_cases input
  rw [listed] at inReport
  obtain ⟨inCases, clause, found, stands, guarded⟩ :=
    Target.mem_ofCases.mp inReport
  -- The clause of the validator was visited, so it is one that the scan passed.
  have kept := visits target.case inCases
  rw [visited, mem_positions] at kept
  obtain ⟨same, again, keeps⟩ := kept
  obtain rfl := Option.some.inj (found.symm.trans again)
  have entry : (clause, target.case) ∈
      matcher.clauses.toList.zipIdx.filter fun entry => keep entry.1 :=
    List.mem_filter.mpr ⟨List.mem_zipIdx_iff_getElem?.mpr found, keeps⟩
  rw [← guarded]
  exact Clause.passed_of_scanClause (passes _ entry) _
    (List.mem_of_getElem? stands)

theorem Orderly.report_after_execute {workspace : Workspace Id ρ Unit}
    (orderly : workspace.Orderly) {matcher : Matcher Id ρ}
    (made : matcher ∈ workspace.matchers) (waiting : Waiting)
    (schedule : Schedule) (input : Json) :
    let ran := Engine.runIn (matcher.execute waiting input) workspace.toMachine
    ∃ report : Report Id,
      (Engine.runIn (matcher.diagnose waiting schedule input) ran.2).1 =
        .ok report ∧
      report.validators = (matcher.targets input).map (·.validator) ∧
      ∀ target ∈ matcher.targets input,
        target.StandsIn matcher.clauses.toList ∧
          report.findingsAt target.case target.schema =
            target.findings (target.seen waiting input) :=
  (orderly.execute made waiting input).report_accounts
    made waiting schedule input

end Workspace

/-- How a schema validates that was tried, without waiting, in a clause that is
passed.  Its answer is held back only if the collecting walk, which does not
stop where the trial did, came to a guess; and then it is a rejection all the
same. -/
theorem Schema.Attempted.validate_of_passed {schema : Schema Id} {value : Json}
    {attempt : Attempt} {guarded : Bool}
    (attempted : schema.Attempted value attempt)
    (passed : attempt.Passed guarded) :
    (guarded = true ∧
        ∃ output, schema.validate value =
          (.ready (.success output) : Answer Id)) ∨
      (∃ issues, schema.validate value =
        (.ready (.failure issues) : Answer Id)) ∨
      (schema.finds .refuse .collect value).guessed = true ∧
        ∃ issues, schema.validate value =
          (.pending (.failure issues) : Answer Id) := by
  cases passed with
  | matched output turnedAway =>
      cases attempted with
      | matched accepts closed =>
          exact .inl ⟨turnedAway, output,
            schema.validate_of_accepted value accepts closed⟩
  | noMatch =>
      cases attempted with
      | noMatch rejects =>
          cases guessed : (schema.finds .refuse .collect value).guessed with
          | false =>
              obtain ⟨issues, _, ready⟩ :=
                schema.validate_of_rejected value (rejects .refuse) guessed
              exact .inr (.inl ⟨issues, ready⟩)
          | true =>
              have pending := schema.validate_of_holdsBack value (.inr guessed)
              have verdict := schema.settled_accepted? value
              rw [rejects .await] at verdict
              rw [pending]
              cases settled : (schema.settled value : Outcome) with
              | success output =>
                  rw [settled] at verdict
                  cases verdict
              | failure issues => exact .inr (.inr ⟨rfl, issues, rfl⟩)

/-- The outcome of a validator once it is settled. -/
def Validator.outcome (validator : Validator Id) (input : Json) : Outcome :=
  (validator.validate input).run.settle.run

namespace Target

variable {target : Target Id} {input : Json}

theorem seen_await :
    target.seen .await input = some (target.validator.outcome input) := by
  obtain ⟨answer, validated⟩ := exists_pure (target.validator.validate input)
  rw [seen, rerun, Validator.outcome, validated]
  cases answer with
  | ready outcome => rfl
  | pending await => rfl

theorem seen_refuse_of_ready {outcome : Outcome}
    (ready : target.validator.validate input = (.ready outcome : Answer Id)) :
    target.seen .refuse input = some outcome := by
  have validated : target.validator.validate input =
      (pure (.ready outcome) : Id (Answer Id)) := ready
  rw [seen, rerun, validated]
  rfl

theorem seen_refuse_of_pending {await : Id Outcome}
    (pending : target.validator.validate input = (.pending await : Answer Id)) :
    target.seen .refuse input = none := by
  have validated : target.validator.validate input =
      (pure (.pending await) : Id (Answer Id)) := pending
  rw [seen, rerun, validated]
  rfl

end Target

namespace Workspace

private theorem made_of_known {registry : Registry Id}
    {property : Validator Id → Prop}
    {first : Validator Id} {others : List (Validator Id)}
    (known : ∀ validator ∈ first :: others,
      registry.Has validator ∧ property validator)
    (guard : Option (Guard Id)) (handler : Handler Id ρ) :
    let operations : List (Operation Id ρ) :=
      [.create {} Compiler.shared,
       .revise 0 (.clauseOfAny (first :: others) guard handler)]
    let matcher : Matcher Id ρ :=
      ⟨ClauseList.nil.append 2 (.schemas (first :: others) guard handler), {},
        Compiler.shared, 3⟩
    (∀ operation ∈ operations, operation.InUse (.builtIn registry)) ∧
      matcher ∈ (after () operations).matchers ∧
      ∀ clause ∈ matcher.clauses.toList, ∀ validator ∈ clause.validators,
        property validator := by
  intro operations matcher
  refine ⟨?_, ?_, ?_⟩
  · intro operation member
    rcases List.mem_pair.mp member with rfl | rfl
    · rfl
    · intro clause added validator listed
      obtain rfl := List.mem_singleton.mp added
      exact (known validator listed).1
  · have found : (after () operations).matchers[1]? = some matcher := rfl
    exact List.mem_of_getElem? found
  · intro clause member validator listed
    obtain rfl := List.mem_singleton.mp member
    exact (known validator listed).2

/-- In a workspace with the built-in adapters, a report that waits on an input
that a matcher of honest validators did not match accounts for all validators
that it runs again.  One that accepts after all has a guard, and the report says
so; of any other one it lists the issues. -/
theorem diagnose_await_accounts (registry : Registry Id)
    (operations : List (Operation Id ρ))
    (allowed : ∀ operation ∈ operations, operation.InUse (.builtIn registry))
    (matcher : Matcher Id ρ) (made : matcher ∈ (after () operations).matchers)
    (honest : ∀ clause ∈ matcher.clauses.toList,
      ∀ validator ∈ clause.validators, validator.Honest)
    (schedule : Schedule) (input : Json)
    (wellFormed : input.isWellFormed = true) :
    let ran :=
      Engine.runIn (matcher.execute .await input)
        (after () operations).toMachine
    ran.1 = .ok (.ok .unmatched) →
      ∃ report : Report Id,
        (Engine.runIn (matcher.diagnose .await schedule input) ran.2).1 =
          .ok report ∧
        report.validators = (matcher.targets input).map (·.validator) ∧
        ∀ target ∈ matcher.targets input,
          target.StandsIn matcher.clauses.toList ∧
          let found := report.findingsAt target.case target.schema
          found ≠ [] ∧
            (∀ output, target.validator.outcome input = .success output →
              target.guarded = true ∧
                found = [⟨target.case, target.schema, Target.guardRejected⟩]) ∧
            ∀ issues, target.validator.outcome input = .failure issues →
              found = issues.toList.map fun issue =>
                ⟨target.case, target.schema, issue⟩ := by
  intro ran unmatched
  have plain : (after () operations).Plain registry := .after allowed ()
  obtain ⟨report, reported, validators, accounts⟩ :=
    plain.orderly.report_after_execute made .await schedule input
  refine ⟨report, reported, validators, fun target inReport => ?_⟩
  obtain ⟨stands, found⟩ := accounts target inReport
  refine ⟨stands, ?_⟩
  have tried := plain.passed_of_unmatched made unmatched target inReport
  obtain ⟨clause, listed, inClause, _⟩ := stands
  have honestly := honest clause (List.mem_of_getElem? listed) target.validator
    (List.mem_of_getElem? inClause)
  rw [honestly.attemptBuiltIn_await wellFormed] at tried
  change Attempt.Passed target.guarded
    (.ofVerdict (target.validator.outcome input).accepted?) at tried
  rw [found, Target.seen_await]
  cases settled : target.validator.outcome input with
  | success output =>
      rw [settled] at tried
      cases tried with
      | matched output turnedAway =>
          rw [Target.findings, if_pos turnedAway]
          refine ⟨nofun, fun _ _ => ⟨turnedAway, rfl⟩, nofun⟩
  | failure issues =>
      refine ⟨nofun, nofun, fun _ same => ?_⟩
      cases same
      rfl

/-- A check that is awaited and fails, a description that turns the input away,
and a validator that accepts in the end and whose output the guard does not
admit. -/
theorem diagnose_await_accounts_guarded :
    let checked := Validator.ofSchema 1
      (.asyncRefined (.primitive .string) (fun _ => false) "taken" : Schema Id)
    let objects : Validator Id :=
      { identity := 2
        slotted := false
        validate := fun value =>
          pure (.ready (if value.kind = "object" then .success value
            else .failure (.ofMessage "no object")))
        schema? := none
        description? := some (.object [("type", .string "object")]) }
    let any := Validator.ofFunction (m := Id) 3 fun value =>
      pure (.pending (.success value))
    let guard : Guard Id := ⟨true, fun _ _ => false⟩
    let handler : Handler Id Json := ⟨true, fun output _ => output⟩
    let clause : Clause Id Json :=
      .schemas [checked, objects, any] (some guard) handler
    let operations : List (Operation Id Json) :=
      [.create {} Compiler.shared,
        .revise 0 (.clauseOfAny [checked, objects, any] (some guard) handler)]
    let matcher : Matcher Id Json :=
      ⟨ClauseList.nil.append 2 clause, {}, Compiler.shared, 3⟩
    let ran := Engine.runIn (matcher.execute .await (.string "x"))
      (after () operations).toMachine
    ran.1 = .ok (.ok .unmatched) ∧
      ∃ report : Report Id,
        (Engine.runIn (matcher.diagnose .await .inOrder (.string "x"))
          ran.2).1 = .ok report ∧
        report.validators.length = 3 ∧
        report.findingsAt 0 0 = [⟨0, 0, ⟨[], "taken", "async_refinement"⟩⟩] ∧
        report.findingsAt 0 1 = [⟨0, 1, ⟨[], "no object", "invalid"⟩⟩] ∧
        report.findingsAt 0 2 = [⟨0, 2, Target.guardRejected⟩] := by
  intro checked objects any guard handler clause operations matcher ran
  let registry : Registry Id := fun identity =>
    if identity = 1 then some checked else if identity = 2 then some objects
    else if identity = 3 then some any else none
  have truthful : objects.Truthful := by
    refine ⟨_, ⟨rfl, rfl⟩, fun value _ accepted => ?_⟩
    cases value with
    | object members => rfl
    | _ => exact absurd rfl accepted
  have known : ∀ validator ∈ [checked, objects, any],
      registry.Has validator ∧ validator.Honest := by
    simp only [List.mem_cons, List.not_mem_nil, or_false]
    rintro validator (rfl | rfl | rfl)
    · exact ⟨rfl, .inl ⟨1, _, rfl⟩⟩
    · exact ⟨rfl, .inr (.inr truthful)⟩
    · exact ⟨rfl, .inr (.inl ⟨rfl, rfl⟩)⟩
  obtain ⟨allowed, made, honest⟩ := made_of_known known (some guard) handler
  have plain : (after () operations).Plain registry := .after allowed ()
  have unmatched : ran.1 = .ok (.ok .unmatched) :=
    plain.execute_eq_scan made rfl .await (.string "x")
  obtain ⟨report, reported, validators, accounts⟩ :=
    diagnose_await_accounts registry
      operations allowed matcher made honest .inOrder
        (.string "x") rfl unmatched
  have targets : matcher.targets (.string "x") =
      [⟨0, 0, checked, true⟩, ⟨0, 1, objects, true⟩, ⟨0, 2, any, true⟩] := rfl
  rw [targets] at validators accounts
  simp only [List.forall_mem_cons] at accounts
  obtain ⟨⟨_, _, _, ofChecked⟩, ⟨_, _, _, ofObjects⟩, ⟨_, _, ofAny, _⟩, _⟩ :=
    accounts
  refine ⟨unmatched, report, reported, ?_, ofChecked _ rfl, ofObjects _ rfl,
    (ofAny _ rfl).2⟩
  rw [validators]
  rfl

/-- In a workspace with the built-in adapters, a report without waiting on an
input that a matcher of schemas did not match, without waiting, says something
of every validator that it runs again and that answers at once.  It leaves out a
validator that holds back its answer.  Such a validator rejects the input when
it is settled, and its walk for issues has let some output stand in for one that
has to be awaited. -/
theorem diagnose_refuse_accounts (registry : Registry Id)
    (operations : List (Operation Id ρ))
    (allowed : ∀ operation ∈ operations, operation.InUse (.builtIn registry))
    (matcher : Matcher Id ρ) (made : matcher ∈ (after () operations).matchers)
    (native : ∀ clause ∈ matcher.clauses.toList,
      ∀ validator ∈ clause.validators, validator.Native)
    (schedule : Schedule) (input : Json)
    (wellFormed : input.isWellFormed = true) :
    let ran :=
      Engine.runIn (matcher.execute .refuse input)
        (after () operations).toMachine
    ran.1 = .ok (.ok .unmatched) →
      ∃ report : Report Id,
        (Engine.runIn (matcher.diagnose .refuse schedule input) ran.2).1 =
          .ok report ∧
        report.validators = (matcher.targets input).map (·.validator) ∧
        ∀ target ∈ matcher.targets input,
          target.StandsIn matcher.clauses.toList ∧
          let found := report.findingsAt target.case target.schema
          let answer : Answer Id := target.validator.validate input
          (answer.isPending = false → found ≠ []) ∧
            (answer.isPending = true → found = [] ∧
              (∃ issues, target.validator.outcome input = .failure issues) ∧
              ∃ schema, target.validator.schema? = some schema ∧
                (schema.walk .refuse .collect input).2.guessed = true) := by
  intro ran unmatched
  have plain : (after () operations).Plain registry := .after allowed ()
  obtain ⟨report, reported, validators, accounts⟩ :=
    plain.orderly.report_after_execute made .refuse schedule input
  refine ⟨report, reported, validators, fun target inReport => ?_⟩
  obtain ⟨stands, found⟩ := accounts target inReport
  refine ⟨stands, ?_⟩
  have tried := plain.passed_of_unmatched made unmatched target inReport
  obtain ⟨clause, listed, inClause, _⟩ := stands
  obtain ⟨identity, schema, same⟩ := native clause (List.mem_of_getElem? listed)
    target.validator (List.mem_of_getElem? inClause)
  have shown : target.validator.schema? = some schema := by
    rw [same]
    rfl
  have validates : target.validator.validate input = schema.validate input := by
    rw [same]
    rfl
  rw [same] at tried
  intro atPlace answer
  rw [show atPlace = _ from found]
  rw [show answer = _ from validates]
  have attempted := Validator.attempted_ofSchema identity schema wellFormed
  rcases attempted.validate_of_passed tried with
    ⟨turnedAway, output, ready⟩ | ⟨issues, ready⟩ | ⟨guessed, issues, pending⟩
  · rw [Target.seen_refuse_of_ready (validates.trans ready),
      ready, Target.findings, if_pos turnedAway]
    exact ⟨nofun, nofun⟩
  · rw [Target.seen_refuse_of_ready (validates.trans ready), ready]
    exact ⟨nofun, nofun⟩
  · rw [Target.seen_refuse_of_pending (validates.trans pending), pending]
    refine ⟨nofun, fun _ => ⟨rfl, ⟨issues, ?_⟩, schema, shown, ?_⟩⟩
    · rw [Validator.outcome, validates, pending]
      rfl
    · rw [schema.walk_eq .refuse .collect input]
      exact guessed

/-- Three schemas behind a guard that admits nothing: the first one accepts, the
second one rejects, and the third one rejects a member before one that it has to
wait for. -/
theorem diagnose_refuse_accounts_guarded :
    let any := Validator.ofSchema 1 (.primitive .any : Schema Id)
    let integer := Validator.ofSchema 2 (.primitive .integer : Schema Id)
    let pair : Validator Id := Validator.ofSchema 3
      (.object [⟨"a", .required, .primitive .integer⟩,
        ⟨"b", .required, .custom fun value => .pending (.success value)⟩]
          .allow)
    let guard : Guard Id := ⟨false, fun _ _ => false⟩
    let handler : Handler Id Json := ⟨false, fun output _ => output⟩
    let clause : Clause Id Json :=
      .schemas [any, integer, pair] (some guard) handler
    let operations : List (Operation Id Json) :=
      [.create {} Compiler.shared,
        .revise 0 (.clauseOfAny [any, integer, pair] (some guard) handler)]
    let matcher : Matcher Id Json :=
      ⟨ClauseList.nil.append 2 clause, {}, Compiler.shared, 3⟩
    let input := Json.object [("a", .string "x"), ("b", .int 1)]
    let ran :=
      Engine.runIn (matcher.execute .refuse input)
        (after () operations).toMachine
    matcher ∈ (after () operations).matchers ∧ ran.1 = .ok (.ok .unmatched) ∧
      ∃ report : Report Id,
        (Engine.runIn (matcher.diagnose .refuse .inOrder input) ran.2).1 =
          .ok report ∧
        report.validators.length = 3 ∧ report.findingsAt 0 0 ≠ [] ∧
        report.findingsAt 0 1 ≠ [] ∧ report.findingsAt 0 2 = [] := by
  intro any integer pair guard handler clause operations matcher input ran
  let registry : Registry Id := fun identity =>
    if identity = 1 then some any else if identity = 2 then some integer
    else if identity = 3 then some pair else none
  have known : ∀ validator ∈ [any, integer, pair],
      registry.Has validator ∧ validator.Native := by
    simp only [List.mem_cons, List.not_mem_nil, or_false]
    rintro validator (rfl | rfl | rfl)
    · exact ⟨rfl, 1, _, rfl⟩
    · exact ⟨rfl, 2, _, rfl⟩
    · exact ⟨rfl, 3, _, rfl⟩
  obtain ⟨allowed, made, native⟩ := made_of_known known (some guard) handler
  have plain : (after () operations).Plain registry := .after allowed ()
  have unmatched : ran.1 = .ok (.ok .unmatched) :=
    plain.execute_eq_scan made rfl .refuse input
  obtain ⟨report, reported, validators, accounts⟩ :=
    diagnose_refuse_accounts registry
      operations allowed matcher made native .inOrder input rfl unmatched
  have targets : matcher.targets input =
      [⟨0, 0, any, true⟩, ⟨0, 1, integer, true⟩, ⟨0, 2, pair, true⟩] := rfl
  rw [targets] at validators accounts
  simp only [List.forall_mem_cons] at accounts
  obtain ⟨⟨_, foundAny, _⟩, ⟨_, foundInteger, _⟩, ⟨_, _, foundPair⟩, _⟩ :=
    accounts
  refine ⟨made, unmatched, report, reported, ?_, foundAny rfl, foundInteger rfl,
    (foundPair rfl).1⟩
  rw [validators]
  rfl

/-- A report without waiting may say nothing of a schema by which the run has
rejected the input: here of one that rejects a member before one that it has to
wait for. -/
theorem diagnose_refuse_silent :
    ¬ ∀ (registry : Registry Id) (operations : List (Operation Id Json)),
      (∀ operation ∈ operations, operation.InUse (.builtIn registry)) →
      ∀ matcher ∈ (after () operations).matchers,
        (∀ clause ∈ matcher.clauses.toList, ∀ validator ∈ clause.validators,
          validator.Native) →
        ∀ schedule input, input.isWellFormed = true →
          let ran := Engine.runIn (matcher.execute .refuse input)
            (after () operations).toMachine
          ran.1 = .ok (.ok .unmatched) →
            ∃ report : Report Id,
              (Engine.runIn (matcher.diagnose .refuse schedule input) ran.2).1 =
                .ok report ∧
              ∀ target ∈ matcher.targets input,
                report.findingsAt target.case target.schema ≠ [] := by
  intro speaks
  let pair : Validator Id := Validator.ofSchema 1
    (.object [⟨"a", .required, .primitive .integer⟩,
      ⟨"b", .required, .custom fun value => .pending (.success value)⟩] .allow)
  let handler : Handler Id Json := ⟨false, fun output _ => output⟩
  let matcher : Matcher Id Json :=
    ⟨ClauseList.nil.append 2 (.schemas [pair] none handler),
     {}, Compiler.shared, 3⟩
  let input := Json.object [("a", .string "x"), ("b", .int 1)]
  let registry : Registry Id := fun _ => some pair
  have known : ∀ validator ∈ [pair], registry.Has validator ∧
      validator.Native := by
    intro validator member
    obtain rfl := List.mem_singleton.mp member
    exact ⟨rfl, 1, _, rfl⟩
  obtain ⟨allowed, made, native⟩ := made_of_known known none handler
  have rerun : ⟨0, 0, pair, false⟩ ∈ matcher.targets input := List.mem_cons_self
  obtain ⟨report, reported, listed⟩ :=
    speaks registry _ allowed matcher made native .inOrder input rfl rfl
  cases reported
  exact listed _ rerun rfl

end Workspace

end JsonMatch
