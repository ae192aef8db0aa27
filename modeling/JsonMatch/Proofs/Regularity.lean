import JsonMatch.Proofs.CheckWalks
import JsonMatch.Proofs.SchemaParts

/-!
# Collecting and fail-fast walks

The two modes of a walk give the same output.  A fail-fast walk finds no issue;
a collecting one finds some exactly when it rejects.  An accepting walk visits
the same parts in both modes, and a collecting one never visits fewer, so that
it has all the marks of the fail-fast one.  All this is kept by the ways in
which checks are put together, and so it holds for every schema.
-/

namespace JsonMatch

open Walk

variable {α β : Type}

namespace Findings

/-- Whether the marks of some findings are also those of others. -/
structure MarksLE (fewer more : Findings) : Prop where
  deferred : fewer.deferred = true → more.deferred = true
  guessed : fewer.guessed = true → more.guessed = true

namespace MarksLE

theorem refl (found : Findings) : MarksLE found found :=
  ⟨id, id⟩

theorem nothing (found : Findings) : MarksLE {} found :=
  ⟨by simp, by simp⟩

theorem append {fewer more added others : Findings} (left : MarksLE fewer more)
    (right : MarksLE added others) :
    MarksLE (fewer ++ added) (more ++ others) := by
  constructor
  · simp only [append_deferred, Bool.or_eq_true]
    exact Or.imp left.deferred right.deferred
  · simp only [append_guessed, Bool.or_eq_true]
    exact Or.imp left.guessed right.guessed

end MarksLE

/-- An output that stands in for another one leaves its check open. -/
def Cautious (found : Findings) : Prop :=
  found.guessed = true → found.deferred = true

theorem cautious_nothing : Cautious {} := by
  simp [Cautious]

theorem Cautious.append {earlier later : Findings} (first : earlier.Cautious)
    (second : later.Cautious) : (earlier ++ later).Cautious := by
  simp only [Cautious, append_deferred, append_guessed, Bool.or_eq_true]
  exact Or.imp first second

end Findings

namespace ModalWalk

/-- How the two modes of a walk are related at a path. -/
structure RegularAt (part : ModalWalk Id α) (path : Path) : Prop where
  sameOutput : (part .failFast).output path = (part .collect).output path
  quiet : ((part .failFast).findings path).issues = []
  explained : (part .collect).output path = none ↔
    ((part .collect).findings path).issues ≠ []
  accepted : (part .collect).output path ≠ none →
    (part .failFast).findings path = (part .collect).findings path
  marks : ((part .failFast).findings path).MarksLE
    ((part .collect).findings path)

namespace RegularAt

variable {part : ModalWalk Id α} {path : Path}

theorem output_eq (regular : part.RegularAt path) (mode : Mode) :
    (part mode).output path = (part .collect).output path := by
  cases mode with
  | collect => rfl
  | failFast => exact regular.sameOutput

theorem of_none (output : ∀ mode, (part mode).output path = none)
    (quiet : ((part .failFast).findings path).issues = [])
    (some_issue : ((part .collect).findings path).issues ≠ [])
    (marks : ((part .failFast).findings path).MarksLE
      ((part .collect).findings path)) :
    part.RegularAt path where
  sameOutput := by rw [output, output]
  quiet := quiet
  explained := iff_of_true (output _) some_issue
  accepted outputs := absurd (output _) outputs
  marks := marks

theorem after (next : ModalWalk Id α) {before : Findings}
    (silent : before.issues = [])
    (output : ∀ mode, (part mode).output path = (next mode).output path)
    (findings : ∀ mode,
      (part mode).findings path = before ++ (next mode).findings path)
    (regular : next.RegularAt path) : part.RegularAt path where
  sameOutput := by rw [output, output, regular.sameOutput]
  quiet := by rw [findings, Findings.append_issues, silent, regular.quiet]; rfl
  explained := by
    rw [output, findings, Findings.append_issues, silent, List.nil_append]
    exact regular.explained
  accepted := by
    rw [output, findings, findings]
    exact fun outputs => congrArg (before ++ ·) (regular.accepted outputs)
  marks := by
    rw [findings, findings]
    exact (Findings.MarksLE.refl before).append regular.marks

theorem silent_of_some (regular : part.RegularAt path) {value : α}
    (output : (part .collect).output path = some value) :
    ((part .collect).findings path).issues = [] := by
  refine Decidable.byContradiction fun some_issue => ?_
  rw [regular.explained.mpr some_issue] at output
  cases output

theorem findings_eq (regular : part.RegularAt path) {value : α}
    (output : (part .collect).output path = some value) (mode : Mode) :
    (part mode).findings path = (part .collect).findings path := by
  cases mode with
  | collect => rfl
  | failFast => exact regular.accepted (by simp [output])

end RegularAt

/-- A walk whose modes are related at every path, and whose output is the same
at all of them. -/
structure Regular (part : ModalWalk Id α) : Prop where
  steady : ∀ mode, (part mode).Steady
  regularAt : ∀ path, part.RegularAt path
  cautious : ∀ mode path, ((part mode).findings path).Cautious
  uniform : ∀ mode path, (part mode).output path = (part .collect).output []

namespace Regular

variable {part : ModalWalk Id α}

theorem of_yields_some {value : α} {found : Path → Findings}
    (yields : ∀ mode path, (part mode).Yields path (some value) (found path))
    (silent : ∀ path, (found path).issues = [])
    (cautious : ∀ path, (found path).Cautious) :
    part.Regular where
  steady mode := steady_of_yields (yields mode)
  regularAt path := by
    have output := fun mode => (yields mode path).output_eq
    have findings := fun mode => (yields mode path).findings_eq
    constructor <;> simp [output, findings, silent, Findings.MarksLE.refl]
  cautious mode path := by
    rw [(yields mode path).findings_eq]
    exact cautious path
  uniform mode path := by
    rw [(yields mode path).output_eq, (yields .collect []).output_eq]

theorem of_rejects {issues : Path → List Issue}
    (some_issue : ∀ path, issues path ≠ [])
    (yields : ∀ mode path, (part mode).Yields path none
      (rejected mode (issues path))) :
    part.Regular where
  steady mode := steady_of_yields (yields mode)
  regularAt path := by
    have findings := fun mode => (yields mode path).findings_eq
    refine .of_none (fun mode => (yields mode path).output_eq) ?_ ?_ ?_
    · rw [findings]
      rfl
    · rw [findings]
      exact some_issue path
    · rw [findings, findings]
      exact .nothing _
  cautious mode path := by
    rw [(yields mode path).findings_eq]
    cases mode <;> exact Findings.cautious_nothing
  uniform mode path := by
    rw [(yields mode path).output_eq, (yields .collect []).output_eq]

theorem accept (value : α) : (accept value : ModalWalk Id α).Regular :=
  of_yields_some (fun _ path => Yields.pure path (some value)) (fun _ => rfl)
    fun _ => Findings.cautious_nothing

theorem reject (code message : String) :
    Regular (fun mode => reject mode code message : ModalWalk Id α) :=
  of_rejects (by simp) fun mode => yields_reject mode code message

theorem rejectWith (issues : Issues) :
    Regular (fun mode => rejectWith mode issues : ModalWalk Id α) :=
  of_rejects (by simp [Issues.toList]) fun mode => yields_rejectWith mode issues

theorem andThen {next : α → ModalWalk Id β} (regular : part.Regular)
    (follows : ∀ value, (next value).Regular) :
    (part.andThen next).Regular where
  steady mode := steady_andThen (regular.steady mode) fun value =>
    (follows value).steady mode
  regularAt path := by
    have output := fun mode => output_andThen (regular.steady mode)
      (fun value => (follows value).steady mode) path
    have findings := fun mode => findings_andThen (regular.steady mode)
      (fun value => (follows value).steady mode) path
    have first := regular.regularAt path
    cases given : (part .collect).output path with
    | none =>
        have givenAny := fun mode => (first.output_eq mode).trans given
        simp only [givenAny, Option.elim_none, Findings.append_nothing]
          at findings
        refine .of_none (fun mode => by simp [output, givenAny]) ?_ ?_ ?_
        · rw [findings, first.quiet]
        · rw [findings]
          exact first.explained.mp given
        · rw [findings, findings]
          exact first.marks
    | some value =>
        have givenAny := fun mode => (first.output_eq mode).trans given
        simp only [givenAny, Option.elim_some, first.findings_eq given]
          at findings
        exact .after (next value) (first.silent_of_some given)
          (fun mode => by
            simp [output, givenAny]) findings ((follows value).regularAt path)
  cautious mode path := by
    rw [findings_andThen (regular.steady mode)
      (fun value => (follows value).steady mode)]
    refine (regular.cautious mode path).append ?_
    cases (part mode).output path with
    | none => exact Findings.cautious_nothing
    | some value => exact (follows value).cautious mode path
  uniform mode path := by
    rw [output_andThen (regular.steady mode)
      (fun value => (follows value).steady mode),
      output_andThen (regular.steady .collect)
        (fun value => (follows value).steady .collect),
      regular.uniform mode path]
    exact Option.bind_congr fun value _ => (follows value).uniform mode path

theorem inside (regular : part.Regular) (step : PathStep) :
    (part.inside step).Regular where
  steady mode := steady_inside (regular.steady mode)
  regularAt path := by
    have output mode : (part.inside step mode).output path = _ :=
      output_inside (regular.steady mode) path
    have findings mode : (part.inside step mode).findings path = _ :=
      findings_inside (regular.steady mode) path
    obtain ⟨sameOutput, quiet, explained, accepted, marks⟩ :=
      regular.regularAt (path.enter step)
    constructor <;> simp only [output, findings] <;> assumption
  cautious mode path := by
    rw [findings_inside (regular.steady mode)]
    exact regular.cautious mode _
  uniform mode path := by
    rw [output_inside (regular.steady mode),
      output_inside (regular.steady .collect), regular.uniform mode,
      regular.uniform .collect (Path.enter [] step)]

theorem mapped (regular : part.Regular) (function : α → β) :
    (part.mapped function).Regular where
  steady mode := steady_mapped (regular.steady mode)
  regularAt path := by
    have output mode : (part.mapped function mode).output path = _ :=
      output_mapped (regular.steady mode) path
    have findings mode : (part.mapped function mode).findings path = _ :=
      findings_mapped (regular.steady mode) path
    obtain ⟨sameOutput, quiet, explained, accepted, marks⟩ :=
      regular.regularAt path
    constructor <;>
      simp only [output, findings, sameOutput, ne_eq,
        Option.map_eq_none_iff] <;> assumption
  cautious mode path := by
    rw [findings_mapped (regular.steady mode)]
    exact regular.cautious mode path
  uniform mode path := by
    rw [output_mapped (regular.steady mode),
      output_mapped (regular.steady .collect), regular.uniform mode path]

theorem both {others : ModalWalk Id (List α)} (regular : part.Regular)
    (later : others.Regular) : (part.both others).Regular where
  steady mode := steady_both (regular.steady mode) (later.steady mode)
  regularAt path := by
    have output := fun mode => output_both (regular.steady mode)
      (later.steady mode) path
    have findings := fun mode => findings_both (regular.steady mode)
      (later.steady mode) path
    have first := regular.regularAt path
    cases given : (part .collect).output path with
    | none =>
        have givenAny := fun mode => (first.output_eq mode).trans given
        simp only [givenAny, goesOn] at findings
        refine .of_none (fun mode => by simp [output, givenAny]) ?_ ?_ ?_
        · rw [findings]
          simpa using first.quiet
        · rw [findings]
          simp [first.explained.mp given]
        · rw [findings, findings]
          exact first.marks.append (.nothing _)
    | some value =>
        have givenAny := fun mode => (first.output_eq mode).trans given
        refine .after (others.mapped (value :: ·)) (first.silent_of_some given)
          (fun mode => ?_) (fun mode => ?_) ((later.mapped _).regularAt path)
        · rw [output, givenAny, output_mapped (later.steady mode)]
          rfl
        · rw [findings, givenAny, first.findings_eq given,
            findings_mapped (later.steady mode)]
          simp [goesOn]
  cautious mode path := by
    rw [findings_both (regular.steady mode) (later.steady mode)]
    refine (regular.cautious mode path).append ?_
    split
    · exact later.cautious mode path
    · exact Findings.cautious_nothing
  uniform mode path := by
    rw [output_both (regular.steady mode) (later.steady mode),
      output_both (regular.steady .collect) (later.steady .collect),
      regular.uniform mode path, later.uniform mode path]

theorem all {parts : List (ModalWalk Id α)}
    (regular : ∀ part ∈ parts, part.Regular) :
    (ModalWalk.all parts).Regular := by
  induction parts with
  | nil => exact accept []
  | cons part parts induction =>
      rw [all_cons]
      exact (regular part (by simp)).both
        (induction fun other member => regular other (by simp [member]))

theorem orElse {attempt : Walk Id (Option α)} {fallback : ModalWalk Id α}
    (steady : attempt.Steady)
    (silent : ∀ path, (attempt.findings path).issues = [])
    (cautious : ∀ path, (attempt.findings path).Cautious)
    (fallbackSteady : ∀ mode, (fallback mode).Steady)
    (uniform : ∀ path, attempt.output path = attempt.output [])
    (fallbackCautious : ∀ mode path, ((fallback mode).findings path).Cautious)
    (fallbackUniform : ∀ mode path,
      (fallback mode).output path = (fallback .collect).output [])
    (regularAt : ∀ path, attempt.output path = none → fallback.RegularAt path) :
    (ModalWalk.orElse attempt fallback).Regular where
  steady mode := steady_orElse steady (fallbackSteady mode)
  regularAt path := by
    have output := fun mode => output_orElse steady (fallbackSteady mode) path
    have findings :=
      fun mode => findings_orElse steady (fallbackSteady mode) path
    cases given : attempt.output path with
    | none =>
        exact .after fallback (silent path)
          (fun mode => by simp [output, given])
          (fun mode => by simp [findings, given]) (regularAt path given)
    | some value =>
        exact .after (ModalWalk.accept value) (silent path)
          (fun mode => by simp [output, given, ModalWalk.accept])
          (fun mode => by simp [findings, given, ModalWalk.accept])
          ((accept value).regularAt path)
  cautious mode path := by
    rw [findings_orElse steady (fallbackSteady mode)]
    refine (cautious path).append ?_
    split
    · exact Findings.cautious_nothing
    · exact fallbackCautious mode path
  uniform mode path := by
    rw [output_orElse steady (fallbackSteady mode),
      output_orElse steady (fallbackSteady .collect), uniform path,
      fallbackUniform mode path]

/-- A walk that rejects may be taken again for its issues. -/
theorem regularAt_forIssues (regular : part.Regular) {path : Path}
    (rejects : (part .failFast).output path = none) :
    part.forIssues.RegularAt path := by
  have findings := fun mode => findings_forIssues (regular.steady mode) path
  have first := regular.regularAt path
  refine .of_none (fun mode => output_forIssues (regular.steady mode) path)
    ?_ ?_ ?_
  · rw [findings]
    rfl
  · rw [findings]
    exact first.explained.mp (first.sameOutput ▸ rejects)
  · rw [findings, findings]
    exact .nothing _

theorem uniform_forIssues (regular : part.Regular) (mode : Mode) (path : Path) :
    (part.forIssues mode).output path =
      (part.forIssues .collect).output [] := by
  rw [output_forIssues (regular.steady mode),
    output_forIssues (regular.steady .collect)]

theorem cautious_forIssues (regular : part.Regular) (mode : Mode)
    (path : Path) :
    ((part.forIssues mode).findings path).Cautious := by
  rw [findings_forIssues (regular.steady mode)]
  split
  · exact regular.cautious mode path
  · exact Findings.cautious_nothing

theorem decided (holds : Bool) (output : α) (code message : String) :
    (Check.decided holds output code message : ModalWalk Id α).Regular := by
  cases holds with
  | true => exact accept output
  | false => exact reject code message

theorem outcomeWalk (outcome : Outcome) :
    (Check.outcomeWalk outcome : ModalWalk Id Json).Regular := by
  cases outcome with
  | success output => exact accept output
  | failure issues => exact rejectWith issues

end Regular

end ModalWalk

namespace Walk

variable (value : Json)

theorem silent_tryOption (option : Check Id) (path : Path) :
    ((tryOption option value).findings path).issues = [] := by
  rw [findings_tryOption, tried]
  split <;> rfl

theorem cautious_tryOption (option : Check Id) (path : Path) :
    ((tryOption option value).findings path).Cautious := by
  rw [findings_tryOption, tried]
  split <;> simp [Findings.Cautious]

theorem silent_firstOf (options : List (Check Id)) (path : Path) :
    ((firstOf value options).findings path).issues = [] := by
  induction options with
  | nil => rfl
  | cons option options induction =>
      rw [findings_firstOf_cons, Findings.append_issues, silent_tryOption]
      split
      · rfl
      · exact induction

theorem cautious_firstOf (options : List (Check Id)) (path : Path) :
    ((firstOf value options).findings path).Cautious := by
  induction options with
  | nil => exact Findings.cautious_nothing
  | cons option options induction =>
      rw [findings_firstOf_cons]
      refine (cautious_tryOption value option path).append ?_
      split
      · exact Findings.cautious_nothing
      · exact induction

end Walk

namespace Check

/-- A check whose walks are regular. -/
def Regular (check : Check Id) : Prop :=
  ∀ value, (check.on value).Regular

variable {check inner : Check Id}

theorem regular_literal (expected : Json) :
    (literal expected : Check Id).Regular := by
  intro value
  rw [literal_on]
  exact .decided _ _ _ _

theorem regular_primitive (kind : Primitive) :
    (primitive kind : Check Id).Regular := by
  intro value
  rw [primitive_on]
  exact .decided _ _ _ _

private theorem regular_declaredField (members : Members)
    {field : Field (Check Id)} (regular : field.schema.Regular) :
    ModalWalk.Regular (fun mode => declaredField mode members field) := by
  cases found : members.get? field.name with
  | some value =>
      simp only [declaredField, found]
      exact ((regular value).inside _).mapped _
  | none =>
      simp only [declaredField, found]
      cases field.presence with
      | required => exact (ModalWalk.Regular.reject _ _).inside _
      | optional => exact .accept []
      | default value => exact .accept _

private theorem regular_unknownMember {unknown : OtherKeys (Check Id)}
    (regular : ∀ check, unknown = .validate check → check.Regular)
    (member : String × Json) :
    ModalWalk.Regular (fun mode => unknownMember mode unknown member) := by
  cases unknown with
  | allow => exact .accept _
  | deny => exact (ModalWalk.Regular.reject _ _).inside _
  | validate check => exact ((regular check rfl member.2).inside _).mapped _

theorem regular_object {fields : List (Field (Check Id))}
    {unknown : OtherKeys (Check Id)}
    (regularFields : ∀ field ∈ fields, field.schema.Regular)
    (regularUnknown : ∀ check, unknown = .validate check → check.Regular) :
    (object fields unknown).Regular := by
  intro value
  cases value with
  | object members =>
      rw [object_on]
      refine .mapped (.all fun part member => ?_) _
      rcases List.mem_append.mp member with declared | other
      · obtain ⟨field, fieldMember, rfl⟩ := List.mem_map.mp declared
        exact regular_declaredField members (regularFields field fieldMember)
      · obtain ⟨extra, _, rfl⟩ := List.mem_map.mp other
        exact regular_unknownMember regularUnknown extra
  | _ => exact .reject _ _

private theorem regular_itemParts {checkAt : Nat → Option (Check Id)}
    (regular : ∀ position check, checkAt position = some check → check.Regular)
    (values : List Json) : ∀ part ∈ itemParts checkAt values, part.Regular := by
  intro part member
  obtain ⟨⟨value, position⟩, _, found⟩ := List.mem_filterMap.mp member
  obtain ⟨check, checked, rfl⟩ := Option.map_eq_some_iff.mp found
  exact (regular position check checked value).inside _

theorem regular_array (regular : inner.Regular) : (array inner).Regular := by
  intro value
  cases value with
  | array values =>
      rw [array_on]
      refine .mapped (.all (regular_itemParts (fun _ check same => ?_) values))
        _
      cases same
      exact regular
  | _ => exact .reject _ _

theorem regular_tuple {positions : List (Check Id)} {rest : Option (Check Id)}
    (regularPositions : ∀ check ∈ positions, check.Regular)
    (regularRest : ∀ check, rest = some check → check.Regular) :
    (tuple positions rest).Regular := by
  intro value
  cases value with
  | array values =>
      rw [tuple_on]
      split
      · refine .mapped (.all
          (regular_itemParts (fun position check found => ?_) values)) _
        rcases Option.or_eq_some_iff.mp found with here | ⟨_, later⟩
        · exact regularPositions check (List.mem_of_getElem? here)
        · exact regularRest check later
      · exact .reject _ _
  | _ => exact .reject _ _

private theorem uniform_firstOf {value : Json} {options : List (Check Id)}
    (regular : ∀ option ∈ options, option.Regular) (path : Path) :
    (firstOf value options).output path =
      (firstOf value options).output [] := by
  induction options with
  | nil => rfl
  | cons option options induction =>
      have first := regular option List.mem_cons_self value
      have same : (option .failFast value).output path =
          (option .failFast value).output [] :=
        (first.uniform .failFast path).trans (first.uniform .failFast []).symm
      rw [output_firstOf_cons, output_firstOf_cons, same,
        induction fun other member =>
          regular other (List.mem_cons_of_mem _ member)]

theorem regular_union {options : List (Check Id)}
    (regular : ∀ option ∈ options, option.Regular) :
    (union options).Regular := by
  intro value
  rw [union_on]
  have fallback : (rejection "union_none_matched"
      ("value did not match any of " ++ toString options.length ++ " options") :
      ModalWalk Id Json).Regular := .reject _ _
  exact .orElse (steady_firstOf value options) (silent_firstOf value options)
    (cautious_firstOf value options) fallback.steady (uniform_firstOf regular)
    fallback.cautious fallback.uniform fun path _ => fallback.regularAt path

theorem regular_variant {key : String} {options : List (Option Json × Check Id)}
    (regular : ∀ option ∈ options, option.2.Regular) :
    (variant key options).Regular := by
  intro value
  cases value with
  | object members =>
      cases meant : candidates (Members.get? members key) options with
      | nil =>
          rw [variant_on_of_nil meant]
          exact (ModalWalk.Regular.reject _ _).inside _
      | cons first others =>
          rw [variant_on_of_cons meant]
          have regularMeant : ∀ option ∈ first :: others, option.Regular := by
            intro option member
            rw [← meant] at member
            obtain ⟨tagged, taggedMember, rfl⟩ := List.mem_map.mp member
            exact regular tagged (List.mem_filter.mp taggedMember).1
          have again := regularMeant first List.mem_cons_self (.object members)
          refine .orElse (steady_firstOf _ _) (silent_firstOf _ _)
            (cautious_firstOf _ _)
            (fun mode => ModalWalk.steady_forIssues (again.steady mode))
            (uniform_firstOf regularMeant) again.cautious_forIssues
              again.uniform_forIssues
            fun path none_accepts => ?_
          exact again.regularAt_forIssues
            ((output_firstOf_eq_none _).mp none_accepts _ List.mem_cons_self)
  | _ => exact .reject _ _

theorem regular_refined (regular : inner.Regular) (rule : Rule Id)
    (message : Option String) : (refined inner rule message).Regular := by
  intro value
  rw [refined_on]
  exact (regular value).andThen fun output => .decided _ _ _ _

theorem regular_transform (regular : inner.Regular) (map : Json → Json) :
    (transform inner map : Check Id).Regular := by
  intro value
  rw [transform_on]
  exact (regular value).andThen fun output => .accept _

theorem regular_asyncRefined (regular : inner.Regular) (waiting : Waiting)
    (test : Json → Bool) (message : String) :
    (asyncRefined waiting inner test message : Check Id).Regular := by
  intro value
  cases waiting with
  | refuse =>
      rw [asyncRefined_refuse_on]
      refine (regular value).andThen fun output => ?_
      exact .of_yields_some (yields_leftOpen output) (fun _ => rfl)
        fun _ => by simp [Findings.Cautious]
  | await =>
      rw [asyncRefined_await_on]
      exact (regular value).andThen fun output => .decided _ _ _ _

theorem regular_custom (waiting : Waiting) (validate : Json → Answer Id) :
    (custom waiting validate : Check Id).Regular := by
  intro value
  cases waiting with
  | await =>
      rw [custom_await_on]
      exact .outcomeWalk _
  | refuse =>
      rw [custom_refuse_on]
      cases validate value with
      | ready outcome => exact .outcomeWalk outcome
      | pending _ =>
          exact .of_yields_some (yields_stoodIn value) (fun _ => rfl)
            fun _ => by simp [Findings.Cautious]

end Check

/-- The walks of every schema are regular, waiting or not. -/
theorem Schema.regular (schema : Schema Id) (waiting : Waiting) :
    (schema.check waiting).Regular := by
  apply Schema.check_induction (motive := Check.Regular)
  case literal =>
    intro value
    exact Check.regular_literal value
  case primitive =>
    intro kind
    exact Check.regular_primitive kind
  case object =>
    intro fields unknown regularFields regularUnknown
    exact Check.regular_object regularFields regularUnknown
  case tuple =>
    intro items rest regularItems regularRest
    exact Check.regular_tuple regularItems regularRest
  case array =>
    intro item regular
    exact Check.regular_array regular
  case union =>
    intro options regular
    exact Check.regular_union regular
  case variant =>
    intro key options regular
    exact Check.regular_variant regular
  case refined =>
    intro inner rule message regular
    exact Check.regular_refined regular rule message
  case transform =>
    intro inner map regular
    exact Check.regular_transform regular map
  case asyncRefined =>
    intro inner test message regular
    exact Check.regular_asyncRefined regular waiting test message
  case custom =>
    intro validate
    exact Check.regular_custom waiting validate

end JsonMatch
