import JsonMatch.Proofs.BuiltInWorkspaces
import JsonMatch.Proofs.TruthfulValidators

/-!
# Naive execution

What a matcher answers, waiting, is what is read off its clauses: the first
clause that hits makes the result, and every validator is simply asked.
Dispatch tables, plans, prechecks and first attempts that do not wait only save
work, in whatever workspace the matcher was made.
-/

namespace JsonMatch

variable {ρ : Type}

/-- Whether there is no guard, or it admits the output. -/
def Guard.lets (guard : Option (Guard Id)) (input output : Json) : Bool :=
  guard.all fun guard => (guard.admits output input).run

namespace Clause

/-- The result of a clause if it hits: by the first output of a validator that
the guard admits, or by a predicate that holds. -/
def answer? (input : Json) : Clause Id ρ → Option ρ
  | .schemas validators guard handler =>
      (validators.findSome? fun validator =>
        (validator.settle input).run.filter (Guard.lets guard input)).map
          fun output => (handler.respond output input).run
  | .when predicate handler =>
      if (predicate.holds input).run then some (handler.respond input input).run
      else none

/-- The first clause that hits, the first clause having this position. -/
def interpretFrom (input : Json) : Nat → List (Clause Id ρ) → Execution ρ
  | _, [] => .unmatched
  | case, clause :: clauses =>
      match clause.answer? input with
      | some output => .matched case output
      | none => interpretFrom input (case + 1) clauses

/-- Runs clauses as they are declared. -/
def interpret (clauses : List (Clause Id ρ)) (input : Json) : Execution ρ :=
  interpretFrom input 0 clauses

/-- How a trial ends that does not block. -/
private def trialOf : Option ρ → Trial ρ
  | some output => .hit output
  | none => .passed

variable {input : Json}

private theorem scanValidators_eq (guard : Option (Guard Id))
    (handler : Handler Id ρ)
    {validators : List (Validator Id)}
    (honest : ∀ validator ∈ validators, validator.Honest)
    (wellFormed : input.isWellFormed = true) (position : Nat) :
    (scanValidators .await (·.attemptBuiltIn .await input) input
      guard handler position
      validators : Id (Trial ρ)) =
      pure (trialOf (Clause.answer? input
        (.schemas validators guard handler))) := by
  induction validators generalizing position with
  | nil => rfl
  | cons validator validators induction =>
      have further := fun position => induction
        (fun other member => honest other (List.mem_cons_of_mem _ member))
          position
      have asked : validator.attemptBuiltIn .await input =
          pure (.ofVerdict (validator.settle input).run) :=
        (honest validator List.mem_cons_self).attemptBuiltIn_await wellFormed
      rw [answer?] at further ⊢
      rw [scanValidators, List.findSome?_cons, asked, pure_bind]
      cases settled : (validator.settle input).run with
      | none => exact further _
      | some output =>
          cases guard with
          | none => exact Handler.finish_of_goes (by simp) output input
          | some guard =>
              change (if Waiting.await = .refuse ∧ guard.suspends then _ else
                if (guard.admits output input).run = true then _ else _ :
                  Trial ρ) = _
              rw [if_neg (by simp)]
              cases admitted : (guard.admits output input).run with
              | true =>
                  have lets : Guard.lets (some guard) input output = true :=
                    admitted
                  rw [if_pos rfl, Option.filter_some_pos lets]
                  exact Handler.finish_of_goes (by simp) output input
              | false =>
                  have stops : Guard.lets (some guard) input output = false :=
                    admitted
                  rw [if_neg Bool.false_ne_true, Option.filter_some_neg stops]
                  exact further _

private theorem scanClause_eq {clause : Clause Id ρ}
    (honest : ∀ validator ∈ clause.validators, validator.Honest)
    (wellFormed : input.isWellFormed = true) :
    (clause.scanClause .await (·.attemptBuiltIn .await input) input :
      Id (Trial ρ)) =
      pure (trialOf (clause.answer? input)) := by
  cases clause with
  | schemas validators guard handler =>
      exact scanValidators_eq guard handler honest wellFormed 0
  | when predicate handler =>
      rw [scanClause, answer?, if_neg (by simp)]
      change (if (predicate.holds input).run = true then _ else _ : Trial ρ) = _
      split
      · exact Handler.finish_of_goes (by simp) input input
      · rfl

/-- A scan of clauses with honest validators reads the result off the
clauses. -/
theorem scan_eq_interpret {clauses : List (Clause Id ρ)}
    (honest : ∀ clause ∈ clauses,
      ∀ validator ∈ clause.validators, validator.Honest)
    (wellFormed : input.isWellFormed = true) (first : Nat) :
    (scan .await (·.attemptBuiltIn .await input) input (clauses.zipIdx first) :
      Id (Except (Fault Id) (Execution ρ))) =
      pure (.ok (interpretFrom input first clauses)) := by
  induction clauses generalizing first with
  | nil => rfl
  | cons clause clauses induction =>
      have further := induction
        (fun other member => honest other (List.mem_cons_of_mem _ member))
        (first + 1)
      have tried := scanClause_eq (honest clause List.mem_cons_self) wellFormed
      rw [List.zipIdx_cons, scan, interpretFrom, tried, pure_bind]
      cases clause.answer? input with
      | none => exact further
      | some output => rfl

end Clause

namespace Workspace

/-- In a workspace with the built-in adapters, a matcher of honest validators
answers, waiting, what is read off its clauses. -/
theorem execute_eq_interpret (registry : Registry Id)
    (operations : List (Operation Id ρ))
    (allowed : ∀ operation ∈ operations, operation.InUse (.builtIn registry))
    (matcher : Matcher Id ρ) (made : matcher ∈ (after () operations).matchers)
    (honest : ∀ clause ∈ matcher.clauses.toList,
      ∀ validator ∈ clause.validators, validator.Honest)
    (input : Json) (wellFormed : input.isWellFormed = true) :
    (Engine.runIn (matcher.execute .await input)
      (after () operations).toMachine).1 =
      .ok (.ok (Clause.interpret matcher.clauses.toList input)) := by
  have plain : (after () operations).Plain registry := .after allowed ()
  obtain ⟨store, faithful, runs⟩ := plain.execute_eq made .await input
  have excluded : ∀ clause ∈ matcher.clauses.toList,
      ∀ validator ∈ clause.validators,
      ∀ discriminator,
      Compiler.shared.discriminator? validator matcher.config.priority =
        some discriminator →
      discriminator.Excludes input →
      validator.attemptBuiltIn .await input = (pure .noMatch : Id Attempt) := by
    intro clause listed validator member discriminator found excludes
    have honestly := honest clause listed validator member
    have rejects := honestly.settle_of_excludes found wellFormed excludes
    have asked := honestly.attemptBuiltIn_await wellFormed
    rw [rejects] at asked
    exact asked
  have follows := Clause.follows_execute (plain.builtIn made) (plain.has made)
    (fun _ same => same) excluded
  have scanned := Clause.scan_eq_interpret honest wellFormed 0
  rw [runs]
  exact congrArg Except.ok ((follows.output_eq faithful).trans scanned)

/-- A schema, a validator of strings that describes itself, and one that shows
nothing. -/
theorem execute_eq_interpret_mixed :
    let tagged := Validator.ofSchema 1
      (.object [⟨"kind", .required, .literal (.string "a")⟩] .allow : Schema Id)
    let strings : Validator Id :=
      { identity := 2
        slotted := false
        validate := fun value =>
          pure (.ready (if value.kind = "string" then .success value
            else .failure (.ofMessage "no string")))
        schema? := none
        description? := some (.object [("type", .string "string")]) }
    let any := Validator.ofFunction (m := Id) 3 fun value =>
      pure (.ready (.success value))
    let handler : Handler Id Json := ⟨false, fun output _ => pure output⟩
    let guard : Guard Id :=
      ⟨true, fun output _ => pure (output.kind == "string")⟩
    let operations : List (Operation Id Json) :=
      [.create {} Compiler.shared, .revise 0 (.clause tagged handler),
        .revise 1 (.clauseOfAny [strings, any] (some guard) handler),
        .execute 2 .refuse .null, .compile Compiler.shared any]
    let tags := ClauseList.nil.append 2 (.schemas [tagged] none handler)
    let matcher : Matcher Id Json :=
      ⟨tags.append 4 (.schemas [strings, any] (some guard) handler), {},
        Compiler.shared, 5⟩
    matcher ∈ (after () operations).matchers ∧
      (Engine.runIn (matcher.execute .await (.string "x"))
        (after () operations).toMachine).1 =
          .ok (.ok (.matched 1 (.string "x"))) := by
  intro tagged strings any handler guard operations tags matcher
  let registry : Registry Id := fun identity =>
    if identity = 1 then some tagged else if identity = 2 then some strings
    else if identity = 3 then some any else none
  have made : matcher ∈ (after () operations).matchers := by
    have found : (after () operations).matchers[2]? = some matcher := by rfl
    exact List.mem_of_getElem? found
  have native : tagged.Honest := .inl ⟨1, _, rfl⟩
  have silent : any.Honest := .inr (.inl ⟨rfl, rfl⟩)
  have truthful : strings.Honest := by
    refine .inr (.inr ⟨_, ⟨rfl, rfl⟩, ?_⟩)
    intro value _ accepted
    cases value with
    | string text => rfl
    | _ => exact absurd rfl accepted
  have hasAny : (Catalogue.builtIn registry).HasValidator any := rfl
  have strings_any : Clause.InUse (.schemas [strings, any] (some guard) handler)
      (.builtIn registry) := by
    intro validator listed
    rcases List.mem_pair.mp listed with rfl | rfl
    · rfl
    · rfl
  have allowed : ∀ operation ∈ operations,
      operation.InUse (.builtIn registry) := by
    simp only [operations, List.forall_mem_cons]
    refine ⟨rfl, ?_, ?_, trivial, ⟨rfl, hasAny⟩, nofun⟩
    · apply Operation.InUse.ofClause
      rfl
    · exact List.forall_mem_singleton.mpr strings_any
  have honest : ∀ clause ∈ matcher.clauses.toList,
      ∀ validator ∈ clause.validators,
      validator.Honest := by
    intro clause member validator listed
    rcases List.mem_pair.mp member with rfl | rfl
    · obtain rfl := List.mem_singleton.mp listed
      exact native
    · rcases List.mem_pair.mp listed with rfl | rfl
      · exact truthful
      · exact silent
  exact ⟨made,
    execute_eq_interpret registry operations allowed matcher made honest _ rfl⟩

end Workspace

end JsonMatch
