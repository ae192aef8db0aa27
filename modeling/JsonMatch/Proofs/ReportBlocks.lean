import JsonMatch.Proofs.Lists
import JsonMatch.Proofs.Reports

/-!
# Reports in blocks

A report is a concatenation of blocks, one for each validator that is run again,
in the order of their places.  A block depends on its own validator only, so it
does not matter which of the others raise, nor in which order they are run.  As
the blocks are in order, the clauses with findings are listed without
repetitions.
-/

namespace JsonMatch

/-- Whether the place of a finding does not come after that of another one. -/
def Finding.NotAfter (first second : Finding) : Prop :=
  first.case < second.case ∨ first.case = second.case ∧
    first.schema ≤ second.schema

section Blocks

variable {m : Type → Type}

/-- What a report says when these are the validators that it goes by, each with
its outcome if it has one. -/
structure Report.Accounts (report : Report m)
    (entries : List (Target m × Option Outcome)) : Prop where
  validators : report.validators = entries.map fun entry => entry.1.validator
  ordered : report.findings.Pairwise Finding.NotAfter
  placed : ∀ finding ∈ report.findings, ∃ entry ∈ entries,
    finding.case = entry.1.case ∧ finding.schema = entry.1.schema
  blocks : ∀ entry ∈ entries, report.findingsAt entry.1.case entry.1.schema =
    entry.1.findings entry.2
  cases_ascend : report.cases.Pairwise (· < ·)
  mem_cases : ∀ case, case ∈ report.cases ↔
    ∃ finding ∈ report.findings, finding.case = case
  concatenated : report.cases.flatMap report.findingsOf = report.findings

theorem Target.pairwise_findings (target : Target m)
    (outcome : Option Outcome) :
    (target.findings outcome).Pairwise Finding.NotAfter := by
  apply List.pairwise_of_forall_mem_list
  intro first firstMember second secondMember
  obtain ⟨firstCase, firstSchema⟩ := place_of_mem_findings firstMember
  obtain ⟨secondCase, secondSchema⟩ := place_of_mem_findings secondMember
  right
  omega

theorem Target.pairwise_flatMap_findings
    {entries : List (Target m × Option Outcome)}
    (ordered : entries.Pairwise fun entry other => entry.1.Before other.1) :
    (entries.flatMap fun entry => entry.1.findings entry.2).Pairwise
      Finding.NotAfter := by
  apply List.pairwise_flatMap.mpr
  constructor
  · intro entry _
    exact entry.1.pairwise_findings entry.2
  · apply ordered.imp
    intro entry other before first firstMember second secondMember
    obtain ⟨firstCase, firstSchema⟩ := place_of_mem_findings firstMember
    obtain ⟨secondCase, secondSchema⟩ := place_of_mem_findings secondMember
    rcases before with earlier | ⟨same, earlier⟩
    · left
      omega
    · right
      omega

theorem Report.accounts_of_findings {report : Report m}
    {entries : List (Target m × Option Outcome)}
    (ordered : entries.Pairwise fun entry other => entry.1.Before other.1)
    (validators :
      report.validators = entries.map fun entry => entry.1.validator)
    (findings : report.findings =
      entries.flatMap fun entry => entry.1.findings entry.2) :
    report.Accounts entries := by
  have inOrder : report.findings.Pairwise Finding.NotAfter := by
    rw [findings]
    exact Target.pairwise_flatMap_findings ordered
  have byCase : report.findings.Pairwise fun first second =>
      first.case ≤ second.case := by
    apply inOrder.imp
    intro first second notAfter
    unfold Finding.NotAfter at notAfter
    omega
  have ascending := pairwise_eraseReps (List.pairwise_map.mpr byCase)
  constructor
  case validators => exact validators
  case ordered => exact inOrder
  case placed =>
    intro finding member
    rw [findings] at member
    obtain ⟨entry, listed, said⟩ := List.mem_flatMap.mp member
    exact ⟨entry, listed, Target.place_of_mem_findings said⟩
  case blocks =>
    intro entry member
    rw [findingsAt, findings]
    exact Target.filter_flatMap_findings ordered member
  case cases_ascend => exact ascending
  case mem_cases =>
    intro case
    rw [cases, mem_eraseReps]
    exact List.mem_map
  case concatenated =>
    apply flatMap_filter_key ascending byCase
    intro finding member
    exact mem_eraseReps.mpr (List.mem_map_of_mem member)

/-- A report accounts for its validators by the outcomes that it was made
from. -/
theorem Report.accounts_ofOutcomes {inquiry : Inquiry m}
    {entries : List (Target m × Option Outcome)}
    (listed : entries.map Prod.fst = inquiry.targets)
    (ordered : inquiry.targets.Pairwise Target.Before)
    (config : Config) (input : Json) :
    (ofOutcomes inquiry config input (entries.map Prod.snd)).Accounts
      entries := by
  have paired : entries = inquiry.targets.zip (entries.map Prod.snd) :=
    List.zip_of_prod listed rfl
  have orderedEntries : entries.Pairwise fun entry other =>
      entry.1.Before other.1 := by
    rw [← listed] at ordered
    exact List.pairwise_map.mp ordered
  have validators : (entries.map fun entry => entry.1.validator) =
      inquiry.targets.map (·.validator) := by
    rw [← listed, List.map_map]
    rfl
  apply accounts_of_findings orderedEntries
  · rw [validators]
    cases inquiry <;> rfl
  · cases inquiry with
    | unknown info =>
        rw [List.map_eq_nil_iff.mp listed]
        rfl
    | rerun targets info =>
        change (targets.zip (entries.map Prod.snd)).flatMap _ = _
        rw [← show entries = targets.zip (entries.map Prod.snd) from paired]

end Blocks

section Worlds

variable {ε σ ρ : Type} {waiting : Waiting} {input : Json}

namespace Target

/-- What a report goes by when it runs a validator again in a world, and the
world that this leaves.  There is no outcome when the validator raises, at once
or while it is awaited, or when it has to be awaited by a report that does not
wait. -/
def answerIn (waiting : Waiting) (input : Json) (target : Target (Callback ε σ))
    (world : σ) : Option Outcome × σ :=
  match Callback.runIn (target.validator.validate input) world with
  | (.error _, left) => (none, left)
  | (.ok (.ready outcome), left) => (some outcome, left)
  | (.ok (.pending await), left) =>
      match waiting with
      | .refuse => (none, left)
      | .await =>
          match Callback.runIn await left with
          | (.error _, later) => (none, later)
          | (.ok outcome, later) => (some outcome, later)

/-- Validators with the outcomes that they have when they are run again one
after another, and the world that is left. -/
def answersFrom (waiting : Waiting) (input : Json) :
    List (Target (Callback ε σ)) → σ →
    List (Target (Callback ε σ) × Option Outcome) × σ
  | [], world => ([], world)
  | target :: targets, world =>
      let answer := target.answerIn waiting input world
      let others := answersFrom waiting input targets answer.2
      ((target, answer.1) :: others.1, others.2)

/-- Whether the outcome of a validator does not depend on the world. -/
def Steady (waiting : Waiting) (input : Json)
    (target : Target (Callback ε σ)) : Prop :=
  ∀ world other,
    (target.answerIn waiting input world).1 =
      (target.answerIn waiting input other).1

theorem runIn_rerun (target : Target (Callback ε σ)) (world : σ) :
    Callback.runIn (target.rerun waiting input) world =
      (.ok (target.answerIn waiting input world).1,
        (target.answerIn waiting input world).2) := by
  rw [rerun, Callback.runIn_bind, Callback.runIn_rescue, answerIn]
  rcases Callback.runIn (target.validator.validate input) world with
    ⟨fault | answer, left⟩
  · rfl
  · cases answer with
    | ready outcome => rfl
    | pending await =>
        cases waiting with
        | refuse => rfl
        | await =>
            change Callback.runIn (Rescue.rescue await) left = _
            rw [Callback.runIn_rescue]
            dsimp only
            rcases await.runIn left with ⟨fault | outcome, later⟩ <;> rfl

theorem map_fst_answersFrom (targets : List (Target (Callback ε σ)))
    (world : σ) :
    (answersFrom waiting input targets world).1.map Prod.fst = targets := by
  induction targets generalizing world with
  | nil => rfl
  | cons target targets induction =>
      rw [answersFrom, List.map_cons, induction]

theorem runIn_mapM_rerun (targets : List (Target (Callback ε σ))) (world : σ) :
    Callback.runIn (targets.mapM (rerun waiting input)) world =
      (.ok ((answersFrom waiting input targets world).1.map Prod.snd),
        (answersFrom waiting input targets world).2) := by
  induction targets generalizing world with
  | nil => rfl
  | cons target targets induction =>
      rw [List.mapM_cons, Callback.runIn_bind_of_ok (target.runIn_rerun world),
        Callback.runIn_bind_of_ok (induction _)]
      rfl

/-- Whether an outcome is one that a validator has in some world. -/
def Answers (waiting : Waiting) (input : Json) (target : Target (Callback ε σ))
    (outcome : Option Outcome) : Prop :=
  ∃ here, outcome = (target.answerIn waiting input here).1

theorem Answers.eq_of_steady {target : Target (Callback ε σ)}
    {outcome : Option Outcome} (answers : target.Answers waiting input outcome)
    (steady : target.Steady waiting input) (other : σ) :
    outcome = (target.answerIn waiting input other).1 := by
  obtain ⟨here, same⟩ := answers
  rw [same]
  exact steady here other

theorem answers_answersFrom (targets : List (Target (Callback ε σ)))
    (world : σ) :
    List.Forall₂ (Answers waiting input) targets
      ((answersFrom waiting input targets world).1.map Prod.snd) := by
  induction targets generalizing world with
  | nil => exact .nil
  | cons target targets induction => exact .cons ⟨world, rfl⟩ (induction _)

private theorem exists_runIn_mapM_rerunAt (waiting : Waiting) (input : Json)
    (targets : List (Target (Callback ε σ)))
    (order : List Nat) (world : σ) :
    ∃ outcomes left,
      Callback.runIn (order.mapM (rerunAt waiting input targets)) world =
        (.ok outcomes, left) ∧
      List.Forall₂
        (fun position outcome => ∀ target, targets[position]? = some target →
          target.Answers waiting input outcome)
        order outcomes := by
  induction order generalizing world with
  | nil => exact ⟨[], world, rfl, .nil⟩
  | cons position order induction =>
      obtain ⟨outcome, here, ran, answers⟩ : ∃ outcome here,
          Callback.runIn (rerunAt waiting input targets position) world =
            (.ok outcome, here) ∧
          ∀ target, targets[position]? = some target →
            target.Answers waiting input outcome := by
        unfold rerunAt
        cases targets[position]? with
        | none => exact ⟨none, world, rfl, nofun⟩
        | some target =>
            refine ⟨_, _, target.runIn_rerun world, ?_⟩
            rintro _ ⟨⟩
            exact ⟨world, rfl⟩
      obtain ⟨outcomes, left, rest, others⟩ := induction here
      refine ⟨outcome :: outcomes, left, ?_, .cons answers others⟩
      rw [List.mapM_cons, Callback.runIn_bind_of_ok ran,
        Callback.runIn_bind_of_ok rest]
      rfl

/-- However validators are run again, each has an outcome that it has in some
world. -/
theorem exists_runIn_rerunAll (waiting : Waiting) (schedule : Schedule)
    (config : Config) (input : Json) (targets : List (Target (Callback ε σ)))
    (world : σ) :
    ∃ outcomes left,
      Callback.runIn (rerunAll waiting schedule config input targets) world =
        (.ok outcomes, left) ∧
      List.Forall₂ (Answers waiting input) targets outcomes := by
  unfold rerunAll
  split
  · obtain ⟨outcomes, left, ran, answers⟩ :=
      exists_runIn_mapM_rerunAt waiting input
        targets (schedule.order targets.length) world
    refine ⟨_, left, ?_, schedule.forall₂_lookup answers⟩
    rw [rerunScheduled, Callback.runIn_bind_of_ok ran]
    rfl
  · exact ⟨_, _, runIn_mapM_rerun targets world,
      answers_answersFrom targets world⟩

theorem eq_of_steady {targets : List (Target (Callback ε σ))}
    {outcomes others : List (Option Outcome)}
    (steady : ∀ target ∈ targets, target.Steady waiting input)
    (answers : List.Forall₂ (Answers waiting input) targets outcomes)
    (otherAnswers : List.Forall₂ (Answers waiting input) targets others) :
    outcomes = others := by
  induction answers generalizing others with
  | nil =>
      cases otherAnswers
      rfl
  | @cons target outcome targets outcomes isAnswer answers induction =>
      obtain ⟨other, rest, ⟨here, rfl⟩, restAnswers, rfl⟩ :=
        List.forall₂_cons_left_iff.mp otherAnswers
      have first :=
        isAnswer.eq_of_steady (steady target List.mem_cons_self) here
      have later := induction
        (fun target member => steady target (List.mem_cons_of_mem _ member))
          restAnswers
      rw [first, later]

end Target

/-- A report comes to its end whatever its validators do.  It goes through
validators of the clauses in the order of their places and accounts for them by
outcomes that they have in some world.  When it runs them one after another,
these are the outcomes that they have then; and when outcomes do not depend on
the world, the report is the same in whatever order the validators are run. -/
theorem Report.diagnose_accounts (waiting : Waiting) (schedule : Schedule)
    (clauses : List (Clause (Callback ε σ) ρ)) (table : Option DispatchTable)
    (own : ∀ built, table = some built → ∃ compiler settings,
      DispatchTable.build? clauses compiler settings = some built)
    (config : Config) (input : Json) (world : σ) :
    let targets := (Inquiry.ofInput clauses table input).targets
    let answers := Target.answersFrom waiting input targets world
    ∃ report entries left,
      Callback.runIn
        (Report.diagnose waiting schedule clauses table config input)
          world = (.ok report, left) ∧
      report.Accounts entries ∧
      entries.map Prod.fst = targets ∧
      targets.Pairwise Target.Before ∧
      (∀ target ∈ targets, target.StandsIn clauses) ∧
      (∀ entry ∈ entries, entry.1.Answers waiting input entry.2) ∧
      (∀ entry ∈ entries, entry.1.Steady waiting input →
        ∀ other, entry.2 = (entry.1.answerIn waiting input other).1) ∧
      (config.parallel = false ∨ waiting = .await →
        entries = answers.1 ∧ left = answers.2) ∧
      ((∀ target ∈ targets, target.Steady waiting input) →
        entries = answers.1 ∧
          ∀ parallel other, ∃ left,
            Callback.runIn (Report.diagnose waiting other clauses table
              { config with parallel } input) world =
              (.ok report, left)) := by
  intro targets answers
  let inquiry := Inquiry.ofInput clauses table input
  obtain ⟨cases, ascending, listed⟩ : ∃ cases : List Nat,
      cases.Pairwise (· < ·) ∧ targets = Target.ofCases clauses cases :=
    Inquiry.exists_ascending_cases own input
  have ordered : targets.Pairwise Target.Before := by
    rw [listed]
    exact Target.pairwise_ofCases clauses ascending
  obtain ⟨outcomes, left, ran, answered⟩ :=
    Target.exists_runIn_rerunAll waiting schedule config input targets world
  have length := answered.length_eq
  have outcomesOf : (targets.zip outcomes).map Prod.snd = outcomes :=
    List.map_snd_zip (Nat.le_of_eq length.symm)
  have targetsOf : (targets.zip outcomes).map Prod.fst = targets :=
    List.map_fst_zip (Nat.le_of_eq length)
  have inSequence : answers.1.map Prod.fst = targets :=
    Target.map_fst_answersFrom targets world
  have entriesOf (same : outcomes = answers.1.map Prod.snd) :
      targets.zip outcomes = answers.1 := by
    rw [same, ← inSequence]
    exact List.zip_of_prod rfl rfl |>.symm
  refine ⟨Report.ofOutcomes inquiry config input outcomes,
    targets.zip outcomes, left, ?_, ?_, targetsOf, ordered, ?_, ?_, ?_, ?_, ?_⟩
  · rw [diagnose, Callback.runIn_bind_of_ok ran]
    rfl
  · have accounts := accounts_ofOutcomes targetsOf ordered config input
    rw [outcomesOf] at accounts
    exact accounts
  · intro target member
    rw [listed] at member
    exact (Target.mem_ofCases.mp member).2
  · intro entry member
    exact List.forall₂_zip answered member
  · intro entry member steady other
    exact (List.forall₂_zip answered member).eq_of_steady steady other
  · intro sequential
    have goes : ¬(config.parallel = true ∧ waiting = .refuse) := by
      rintro ⟨parallel, rfl⟩
      rcases sequential with off | awaits
      · cases off.symm.trans parallel
      · cases awaits
    rw [Target.rerunAll, if_neg goes, Target.runIn_mapM_rerun] at ran
    obtain ⟨found, leaves⟩ := Prod.mk.inj ran
    exact ⟨entriesOf (Except.ok.inj found).symm, leaves.symm⟩
  · intro steady
    have same := Target.eq_of_steady steady answered
      (Target.answers_answersFrom targets world)
    refine ⟨entriesOf same, ?_⟩
    intro parallel other
    obtain ⟨others, otherLeft, otherRan, otherAnswered⟩ :=
      Target.exists_runIn_rerunAll waiting other
        { config with parallel } input targets world
    obtain rfl := Target.eq_of_steady steady answered otherAnswered
    refine ⟨otherLeft, ?_⟩
    rw [diagnose, Callback.runIn_bind_of_ok otherRan]
    rfl

/-- One validator raises and one rejects, one accepts under a guard, and one
would have to be awaited. -/
theorem Report.diagnose_accounts_raising :
    let Call := Callback String Nat
    let raising : Validator Call := .ofFunction 1 fun _ => throw "at once"
    let rejecting : Validator Call :=
      .ofFunction 2 fun _ => pure (.ready (.failure (.ofMessage "rejected")))
    let accepting : Validator Call :=
      .ofFunction 3 fun value => pure (.ready (.success value))
    let late : Validator Call :=
      .ofFunction 4 fun _ => pure (.pending (throw "late"))
    let handler : Handler Call Json := ⟨false, fun output _ => pure output⟩
    let clauses : List (Clause Call Json) :=
      [.schemas [raising, rejecting] none handler,
        .schemas [accepting, late]
          (some ⟨false, fun _ _ => pure false⟩) handler]
    let backwards : Schedule :=
      ⟨fun count => (List.range count).reverse, fun _ => List.reverse_perm _⟩
    ∃ report left,
      Callback.runIn (Report.diagnose .refuse backwards clauses none
          { parallel := true } .null) 0 = (.ok report, left) ∧
      report.findingsAt 0 0 = [] ∧
      report.findingsAt 0 1 = [⟨0, 1, ⟨[], "rejected", "invalid"⟩⟩] ∧
      report.findingsAt 1 0 = [⟨1, 0, Target.guardRejected⟩] ∧
      report.findingsAt 1 1 = [] ∧
      ∃ left,
        Callback.runIn (Report.diagnose .refuse .inOrder clauses none {} .null)
          0 =
        (.ok report, left) := by
  intro Call raising rejecting accepting late handler clauses backwards
  obtain ⟨report, entries, left, ran, accounts, _, _, _, _, _, _, scheduled⟩ :=
    diagnose_accounts .refuse backwards clauses none
      nofun { parallel := true } .null 0
  have steady : ∀ target ∈ ([⟨0, 0, raising, false⟩, ⟨0, 1, rejecting, false⟩,
        ⟨1, 0, accepting, true⟩, ⟨1, 1, late, true⟩] : List (Target Call)),
      target.Steady .refuse .null := by
    simp only [List.forall_mem_cons]
    exact ⟨fun _ _ => rfl,
      fun _ _ => rfl, fun _ _ => rfl, fun _ _ => rfl, nofun⟩
  obtain ⟨inSequence, anyOrder⟩ := scheduled steady
  subst inSequence
  have blocks : ∀ entry ∈ ([(⟨0, 0, raising, false⟩, none),
        (⟨0, 1, rejecting, false⟩, some (.failure (.ofMessage "rejected"))),
        (⟨1, 0, accepting, true⟩, some (.success .null)),
        (⟨1, 1, late, true⟩, none)] : List (Target Call × Option Outcome)),
      report.findingsAt entry.1.case entry.1.schema =
        entry.1.findings entry.2 :=
    accounts.blocks
  simp only [List.forall_mem_cons] at blocks
  obtain ⟨first, second, third, fourth, _⟩ := blocks
  exact ⟨report, left, ran, first, second, third, fourth,
    anyOrder false .inOrder⟩

end Worlds

end JsonMatch
