import JsonMatch.Proofs.DispatchTables
import JsonMatch.Proofs.Workspaces
import Mathlib.Data.List.Forall2

/-!
# What reports list

A report goes through validators of a clause list in the order of their places,
and what it says of one of them is all that it says at that place.  The
validators are those of all clauses, or of the clauses registered under the
value of the input; in both cases a run that comes to its end has tried them.
-/

namespace JsonMatch

section Places

variable {m : Type → Type} {ρ : Type}

/-- Whether a finding is on the validator at this place. -/
def Finding.isAt (case schema : Nat) (finding : Finding) : Bool :=
  finding.case == case && finding.schema == schema

def Report.findingsAt (report : Report m) (case schema : Nat) : List Finding :=
  report.findings.filter (Finding.isAt case schema)

namespace Target

/-- Whether a validator stands at its place in a list of clauses. -/
def StandsIn (target : Target m) (clauses : List (Clause m ρ)) : Prop :=
  ∃ clause, clauses[target.case]? = some clause ∧
    clause.validators[target.schema]? = some target.validator ∧
    clause.isGuarded = target.guarded

/-- Whether the place of a validator comes before that of another one. -/
def Before (target other : Target m) : Prop :=
  target.case < other.case ∨
    target.case = other.case ∧ target.schema < other.schema

variable {clauses : List (Clause m ρ)} {cases : List Nat} {target : Target m}

theorem mem_ofCases :
    target ∈ ofCases clauses cases ↔
      target.case ∈ cases ∧ target.StandsIn clauses := by
  rw [ofCases, List.mem_flatMap]
  constructor
  · rintro ⟨case, listed, member⟩
    cases found : clauses[case]? with
    | none =>
        rw [found] at member
        cases member
    | some clause =>
        rw [found] at member
        obtain ⟨⟨validator, schema⟩, entry, rfl⟩ := List.mem_map.mp member
        exact ⟨listed, clause, found,
          List.mem_zipIdx_iff_getElem?.mp entry, rfl⟩
  · rintro ⟨listed, clause, found, stands, guarded⟩
    refine ⟨target.case, listed, ?_⟩
    rw [found]
    refine List.mem_map.mpr ⟨(target.validator, target.schema), ?_, ?_⟩
    · exact List.mem_zipIdx_iff_getElem?.mpr stands
    · rw [guarded]

private theorem pairwise_ofCases_singleton (clauses : List (Clause m ρ))
    (case : Nat) :
    (ofCases clauses [case]).Pairwise Before := by
  rw [ofCases, List.flatMap_cons, List.flatMap_nil, List.append_nil]
  cases clauses[case]? with
  | none => exact .nil
  | some clause =>
      have ascending :
          (clause.validators.zipIdx.map Prod.snd).Pairwise (· < ·) := by
        rw [List.zipIdx_map_snd]
        exact List.pairwise_lt_range' 1
      refine List.pairwise_map.mpr ((List.pairwise_map.mp ascending).imp ?_)
      exact fun less => .inr ⟨rfl, less⟩

theorem pairwise_ofCases (clauses : List (Clause m ρ))
    (ascending : cases.Pairwise (· < ·)) :
    (ofCases clauses cases).Pairwise Before := by
  induction cases with
  | nil => exact .nil
  | cons case cases induction =>
      obtain ⟨first, rest⟩ := List.pairwise_cons.mp ascending
      have here : ∀ target ∈ ofCases clauses [case], target.case = case :=
        fun target member => List.mem_singleton.mp (mem_ofCases.mp member).1
      have split : ofCases clauses (case :: cases) =
          ofCases clauses [case] ++ ofCases clauses cases := by
        rw [ofCases, ofCases, ofCases, ← List.flatMap_append]
        rfl
      rw [split]
      refine List.pairwise_append.mpr
        ⟨pairwise_ofCases_singleton clauses case, induction rest, ?_⟩
      intro target member other otherMember
      refine .inl ?_
      rw [here target member]
      exact first _ (mem_ofCases.mp otherMember).1

theorem place_of_mem_findings {outcome : Option Outcome} {finding : Finding}
    (member : finding ∈ target.findings outcome) :
    finding.case = target.case ∧ finding.schema = target.schema := by
  unfold findings at member
  split at member
  · obtain ⟨issue, _, rfl⟩ := List.mem_map.mp member
    exact ⟨rfl, rfl⟩
  · split at member
    · obtain rfl := List.mem_singleton.mp member
      exact ⟨rfl, rfl⟩
    · cases member
  · cases member

theorem filter_findings_self (target : Target m) (outcome : Option Outcome) :
    (target.findings outcome).filter (Finding.isAt target.case target.schema) =
      target.findings outcome := by
  refine List.filter_eq_self.mpr fun finding member => ?_
  obtain ⟨case, schema⟩ := place_of_mem_findings member
  simp [Finding.isAt, case, schema]

theorem filter_findings_other {other : Target m}
    (apart : target.Before other ∨ other.Before target)
    (outcome : Option Outcome) :
    (target.findings outcome).filter (Finding.isAt other.case other.schema) =
      [] := by
  refine List.filter_eq_nil_iff.mpr fun finding member => ?_
  obtain ⟨case, schema⟩ := place_of_mem_findings member
  simp only [Finding.isAt, case, schema, Bool.and_eq_true, beq_iff_eq, not_and]
  unfold Before at apart
  omega

/-- Among the findings on ordered validators, those at the place of one of them
are what is said of it. -/
theorem filter_flatMap_findings {entries : List (Target m × Option Outcome)}
    (ordered : entries.Pairwise fun entry other => entry.1.Before other.1)
    {entry : Target m × Option Outcome} (member : entry ∈ entries) :
    (entries.flatMap fun entry => entry.1.findings entry.2).filter
        (Finding.isAt entry.1.case entry.1.schema) =
      entry.1.findings entry.2 := by
  induction entries with
  | nil => cases member
  | cons first others induction =>
      obtain ⟨before, orderedOthers⟩ := List.pairwise_cons.mp ordered
      rw [List.flatMap_cons, List.filter_append]
      rcases List.mem_cons.mp member with rfl | later
      · have silent :
            (others.flatMap fun other => other.1.findings other.2).filter
            (Finding.isAt entry.1.case entry.1.schema) = [] := by
          rw [List.filter_flatMap, List.flatMap_eq_nil_iff]
          intro other listed
          exact filter_findings_other (.inr (before other listed)) _
        rw [filter_findings_self, silent, List.append_nil]
      · rw [filter_findings_other (.inl (before entry later)), List.nil_append]
        exact induction orderedOthers later

end Target

end Places

section Inquiries

variable {m : Type → Type} {ρ : Type}
variable {clauses : List (Clause m ρ)} {compiler : Compiler m} {config : Config}

/-- A report goes through the validators of ascending clauses, all of which a
run that comes to its end has visited. -/
theorem Inquiry.exists_cases {table : Option DispatchTable}
    (own : ∀ built, table = some built →
      DispatchTable.build? clauses compiler config = some built)
        (input : Json) :
    ∃ cases : List Nat, cases.Pairwise (· < ·) ∧
      (∀ case ∈ cases, case ∈ casesToVisit clauses.length table input) ∧
      (ofInput clauses table input).targets = Target.ofCases clauses cases := by
  cases table with
  | none => exact ⟨_, List.pairwise_lt_range, fun _ listed => listed, rfl⟩
  | some table =>
      cases found : table.lookup input with
      | notKeyed =>
          refine ⟨List.range clauses.length, List.pairwise_lt_range, ?_, ?_⟩
          · rw [DispatchTable.casesToVisit_of_notKeyed found]
            exact fun _ listed => listed
          · rw [ofInput, found]
            rfl
      | miss value =>
          refine ⟨[], .nil, nofun, ?_⟩
          rw [ofInput, found]
          rfl
      | hit value cases =>
          obtain ⟨ascending, visited⟩ :=
            DispatchTable.visited_of_hit (own table rfl) found
          refine ⟨cases, ascending, visited, ?_⟩
          rw [ofInput, found]
          rfl

theorem Inquiry.exists_ascending_cases {table : Option DispatchTable}
    (own : ∀ built, table = some built → ∃ compiler settings,
      DispatchTable.build? clauses compiler settings = some built)
        (input : Json) :
    ∃ cases : List Nat, cases.Pairwise (· < ·) ∧
      (ofInput clauses table input).targets = Target.ofCases clauses cases := by
  cases table with
  | none => exact ⟨_, List.pairwise_lt_range, rfl⟩
  | some table =>
      obtain ⟨compiler, settings, built⟩ := own table rfl
      have ownOnly : ∀ other, some table = some other →
          DispatchTable.build? clauses compiler settings = some other := by
        intro other same
        rw [built, same]
      obtain ⟨cases, ascending, _, listed⟩ := exists_cases ownOnly input
      exact ⟨cases, ascending, listed⟩

end Inquiries

section Schedules

private theorem exists_lookup_zip {α β : Type} [BEq α] [LawfulBEq α]
    {related : α → β → Prop} {keys : List α} {values : List β}
    (found : List.Forall₂ related keys values) {key : α} (member : key ∈ keys) :
    ∃ value, (keys.zip values).lookup key = some value ∧ related key value := by
  induction found with
  | nil => cases member
  | @cons first value others later isRelated rest induction =>
      rw [List.zip_cons_cons, List.lookup_cons]
      by_cases same : key = first
      · subst same
        refine ⟨value, ?_, isRelated⟩
        rw [beq_self_eq_true]
      · have further : key ∈ others :=
          (List.mem_cons.mp member).resolve_left same
        rw [beq_eq_false_iff_ne.mpr same]
        exact induction further

/-- What a schedule finds out at each position stands in the order of the
items. -/
theorem Schedule.forall₂_lookup (schedule : Schedule)
    {α β : Type} {items : List α}
    {related : α → Option β → Prop} {outcomes : List (Option β)}
    (found : List.Forall₂
      (fun position outcome => ∀ item, items[position]? = some item →
        related item outcome)
      (schedule.order items.length) outcomes) :
    List.Forall₂ related items ((List.range items.length).map fun position =>
      (((schedule.order items.length).zip outcomes).lookup position).join) := by
  apply List.forall₂_iff_get.mpr
  refine ⟨by simp, ?_⟩
  intro position inItems inRange
  have scheduled : position ∈ schedule.order items.length :=
    (schedule.perm items.length).mem_iff.mpr (List.mem_range.mpr inItems)
  obtain ⟨outcome, looked, isRelated⟩ := exists_lookup_zip found scheduled
  have here := isRelated items[position] (List.getElem?_eq_getElem inItems)
  simpa [looked] using here

end Schedules

section Reports

variable {ρ : Type} {waiting : Waiting} {schedule : Schedule} {input : Json}

/-- The validators that a report on an input runs again. -/
def Matcher.targets {m : Type → Type} [Monad m] (matcher : Matcher m ρ)
    (input : Json) : List (Target m) :=
  (Inquiry.ofInput matcher.clauses.toList matcher.ownTable input).targets

theorem Matcher.exists_cases {m : Type → Type} [Monad m] (matcher : Matcher m ρ)
    (input : Json) :
    ∃ cases : List Nat, cases.Pairwise (· < ·) ∧
      (∀ case ∈ cases, case ∈ casesToVisit matcher.clauses.toList.length
        matcher.ownTable input) ∧
      matcher.targets input = Target.ofCases matcher.clauses.toList cases :=
  Inquiry.exists_cases (fun _ same => same) input

/-- The outcome of a validator that a report goes by, if it does. -/
def Target.seen (waiting : Waiting) (input : Json) (target : Target Id) :
    Option Outcome :=
  (target.rerun waiting input : Id (Option Outcome)).run

theorem Target.rerunAll_eq (config : Config) (targets : List (Target Id)) :
    (rerunAll waiting schedule config input targets : Id _) =
      targets.map (seen waiting input) := by
  unfold rerunAll
  split
  · have ran : ((schedule.order targets.length).mapM
        (rerunAt waiting input targets)).run =
          (schedule.order targets.length).map fun position =>
            (rerunAt waiting input targets position).run := List.idRun_mapM
    symm
    change targets.map (seen waiting input) =
      (List.range targets.length).map fun position =>
        (((schedule.order targets.length).zip
          ((schedule.order targets.length).mapM
            (rerunAt waiting input targets)).run).lookup position).join
    rw [ran, ← List.forall₂_eq_eq_eq, List.forall₂_map_left_iff]
    apply schedule.forall₂_lookup
    rw [List.forall₂_map_right_iff, List.forall₂_same]
    intro position _ target found
    rw [rerunAt, found]
    rfl
  · exact List.idRun_mapM

/-- A report lists what is said of the validators, one after another. -/
theorem Report.diagnose_lists (waiting : Waiting) (schedule : Schedule)
    (clauses : List (Clause Id ρ)) (table : Option DispatchTable)
    (config : Config) (input : Json) :
    let report : Report Id :=
      (Report.diagnose waiting schedule clauses table config input).run
    let targets := (Inquiry.ofInput clauses table input).targets
    report.findings =
        targets.flatMap
          (fun target => target.findings (target.seen waiting input)) ∧
      report.validators = targets.map (·.validator) := by
  intro report targets
  have outcomes :
      report = ofOutcomes (Inquiry.ofInput clauses table input) config input
      (targets.map (Target.seen waiting input)) := by
    rw [← Target.rerunAll_eq config targets]
    rfl
  rw [outcomes]
  unfold targets
  cases Inquiry.ofInput clauses table input with
  | unknown info => exact ⟨rfl, rfl⟩
  | rerun targets info =>
      refine ⟨?_, rfl⟩
      change (targets.zip (targets.map (Target.seen waiting input))).flatMap _ =
        _
      rw [← List.map_prod_left_eq_zip, List.flatMap_map]
      rfl

/-- The report of a matcher lists the validators that it goes through; each
stands in the clauses, and what is said of it stands at its place and nothing
else does. -/
theorem Workspace.Orderly.report_accounts {workspace : Workspace Id ρ Unit}
    (orderly : workspace.Orderly) {matcher : Matcher Id ρ}
    (member : matcher ∈ workspace.matchers) (waiting : Waiting)
    (schedule : Schedule) (input : Json) :
    ∃ report : Report Id,
      (Engine.runIn (matcher.diagnose waiting schedule input)
        workspace.toMachine).1 = .ok report ∧
      report.validators = (matcher.targets input).map (·.validator) ∧
      ∀ target ∈ matcher.targets input,
        target.StandsIn matcher.clauses.toList ∧
          report.findingsAt target.case target.schema =
            target.findings (target.seen waiting input) := by
  let report : Report Id :=
    (Report.diagnose waiting schedule matcher.clauses.toList
      matcher.ownTable matcher.config input).run
  obtain ⟨findings, validators⟩ := Report.diagnose_lists waiting schedule
    matcher.clauses.toList matcher.ownTable matcher.config input
  obtain ⟨cases, ascending, _, listed⟩ := matcher.exists_cases input
  refine ⟨report, ?_, validators, fun target inReport => ⟨?_, ?_⟩⟩
  · rw [Matcher.diagnose,
      Engine.runIn_bind_of_ok (matcher.runIn_look workspace.toMachine),
      orderly.lookIn_eq member]
    rfl
  · rw [listed] at inReport
    exact (Target.mem_ofCases.mp inReport).2
  · have ordered : (matcher.targets input).Pairwise Target.Before := by
      rw [listed]
      exact Target.pairwise_ofCases _ ascending
    let entry (target : Target Id) := (target, target.seen waiting input)
    have said := Target.filter_flatMap_findings
      (List.pairwise_map.mpr ordered :
        ((matcher.targets input).map entry).Pairwise _)
      (List.mem_map_of_mem inReport)
    rw [List.flatMap_map] at said
    rw [Report.findingsAt, findings]
    exact said

end Reports

end JsonMatch
