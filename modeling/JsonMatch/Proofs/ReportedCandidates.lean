import JsonMatch.Proofs.DistinctKeys
import JsonMatch.Proofs.VariantRouting

/-!
# The candidate that is reported

When all candidates of a variant refuse an object at once, the variant answers
with the issues of the first candidate.  Candidates are kept in the order of
their declaration, so that an option that pins the key to nothing is reported
before a later one that is told apart by the very value that the object carries.
-/

namespace JsonMatch

namespace Schema

/-- Whether validation refuses a value without being awaited. -/
def RefusesAtOnce (schema : Schema Id) (value : Json) : Prop :=
  ∃ issues, schema.validate value = (.ready (.failure issues) : Answer Id)

theorem refusesAtOnce_iff {schema : Schema Id} {value : Json} :
    schema.RefusesAtOnce value ↔ schema.verdict .refuse value = none ∧
      (schema.finds .refuse .collect value).guessed = false := by
  constructor
  · rintro ⟨issues, refused⟩
    rcases schema.validate_cases value with ⟨output, _, _, accepted⟩ |
      ⟨_, rejects, certain, _⟩ | ⟨_, pending⟩
    · rw [accepted] at refused
      cases refused
    · exact ⟨rejects, certain⟩
    · rw [pending] at refused
      cases refused
  · rintro ⟨rejects, certain⟩
    obtain ⟨issues, _, refused⟩ :=
      schema.validate_of_rejected value rejects certain
    exact ⟨issues, refused⟩

theorem RefusesAtOnce.validate_eq {left right : Schema Id} {value : Json}
    (refusesLeft : left.RefusesAtOnce value)
    (refusesRight : right.RefusesAtOnce value)
    (same : (left.finds .refuse .collect value).issues =
      (right.finds .refuse .collect value).issues) :
    (left.validate value : Answer Id) = right.validate value := by
  obtain ⟨rejects, certain⟩ := refusesAtOnce_iff.mp refusesLeft
  obtain ⟨rejectsToo, certainToo⟩ := refusesAtOnce_iff.mp refusesRight
  obtain ⟨issues, listed, answer⟩ :=
    left.validate_of_rejected value rejects certain
  obtain ⟨others, listedToo, answerToo⟩ :=
    right.validate_of_rejected value rejectsToo certainToo
  have listedAlike : Issues.ofList? issues.toList =
      Issues.ofList? others.toList := by
    rw [listed, listedToo, same]
  rw [Issues.ofList?_toList, Issues.ofList?_toList] at listedAlike
  cases listedAlike
  rw [answer, answerToo]

private theorem findings_tryOption_of_refused {option : Schema Id}
    {value : Json} (refuses : option.RefusesAtOnce value) :
    (Walk.tryOption (option.check .refuse) value).findings [] = {} := by
  obtain ⟨rejects, certain⟩ := refusesAtOnce_iff.mp refuses
  have unguessed : (option.finds .refuse .failFast value).guessed = false := by
    rw [Bool.eq_false_iff] at certain ⊢
    exact mt (option.regularAt .refuse value []).marks.guessed certain
  rw [Walk.findings_tryOption, output_eq_verdict, rejects,
    Walk.tried, unguessed]
  rfl

private theorem findings_firstOf_of_refused {options : List (Schema Id)}
    {value : Json} (refuse : ∀ option ∈ options, option.RefusesAtOnce value) :
    (Walk.firstOf value (options.map (check .refuse))).findings [] = {} := by
  induction options with
  | nil => rfl
  | cons option options induction =>
      obtain ⟨first, others⟩ := List.forall_mem_cons.mp refuse
      rw [List.map_cons, Walk.findings_firstOf_cons,
        findings_tryOption_of_refused first,
        output_eq_verdict, (refusesAtOnce_iff.mp first).1, induction others]
      rfl

section Variant

variable {key : String} {options : List (Schema Id)} {members : Members}

private theorem finds_variant_of_refused {first : Schema Id}
    {others : List (Schema Id)}
    (meant : meantOptions key options members = first :: others)
    (refuse : ∀ option ∈ first :: others,
      option.RefusesAtOnce (.object members)) :
    (variant key options).finds .refuse .collect (.object members) =
      first.finds .refuse .collect (.object members) := by
  have candidates : Check.candidates (members.get? key)
      (options.map fun option => (option.tag? key, option.check .refuse)) =
        first.check .refuse :: others.map (check .refuse) := by
    rw [Check.candidates_map]
    exact congrArg _ meant
  have noneWins : (Walk.firstOf (.object members)
      ((first :: others).map (check .refuse))).output [] = none := by
    rw [Walk.output_firstOf_eq_none]
    rintro _ listed
    obtain ⟨option, member, rfl⟩ := List.mem_map.mp listed
    rw [output_eq_verdict]
    exact (refusesAtOnce_iff.mp (refuse option member)).1
  have again := first.steady .refuse .collect (.object members)
  have walk := Check.variant_on_of_cons candidates
  rw [← check_variant] at walk
  rw [finds, show (variant key options).check .refuse .collect
    (.object members) = _ from congrFun walk .collect, ← List.map_cons,
    ModalWalk.findings_orElse (Walk.steady_firstOf _ _)
      (ModalWalk.steady_forIssues again),
    noneWins, findings_firstOf_of_refused refuse,
      ModalWalk.findings_forIssues again]
  rfl

/-- A variant whose candidates all refuse an object at once answers as the first
of them does. -/
theorem validate_variant_of_refused {first : Schema Id}
    {others : List (Schema Id)}
    (meant : meantOptions key options members = first :: others)
    (refuse : ∀ option ∈ first :: others,
      option.RefusesAtOnce (.object members)) :
    ((variant key options).validate (.object members) : Answer Id) =
      first.validate (.object members) := by
  have same := finds_variant_of_refused meant refuse
  have firstRefuses := refuse first List.mem_cons_self
  apply RefusesAtOnce.validate_eq _ firstRefuses (congrArg Findings.issues same)
  refine refusesAtOnce_iff.mpr ⟨?_, ?_⟩
  · rw [verdict_variant, meant, List.findSome?_eq_none_iff]
    exact fun option member => (refusesAtOnce_iff.mp (refuse option member)).1
  · rw [same]
    exact (refusesAtOnce_iff.mp firstRefuses).2

private theorem find?_candidate {before : List (Schema Id)} {carried : Json}
    (scalar : carried.isScalar = true)
    (different : ∀ other ∈ before, ∀ pinned, other.tag? key = some pinned →
      (carried == pinned) = false) :
    before.find?
      (fun other => Check.isCandidate (some carried) (other.tag? key)) =
      before.find? fun other => (other.tag? key).isNone := by
  induction before with
  | nil => rfl
  | cons other before induction =>
      obtain ⟨first, later⟩ := List.forall_mem_cons.mp different
      have alike : Check.isCandidate (some carried) (other.tag? key) =
          (other.tag? key).isNone := by
        cases tag : other.tag? key with
        | none => rfl
        | some pinned =>
            refine beq_eq_false_iff_ne.mpr fun keys => ?_
            have differs := first pinned tag
            rw [Json.same_of_scalarKey? scalar keys] at differs
            cases differs
      rw [List.find?_cons, List.find?_cons, alike, induction later]

/-- When all candidates refuse an object at once and some option is told apart
by the value that it carries, the variant answers with the issues of the first
such option, but only if no candidate is declared before it: an option that pins
the key to nothing is reported instead. -/
theorem variant_reports_first {before after : List (Schema Id)}
    {option : Schema Id}
    {carried expected : Json} (held : members.get? key = some carried)
    (tag : option.tag? key = some expected)
    (same : (carried == expected) = true)
    (refuse : ∀ other ∈ meantOptions key (before ++ option :: after) members,
      other.RefusesAtOnce (.object members)) :
    let reported := (before.find? fun other =>
      Check.isCandidate (some carried) (other.tag? key)).getD option
    (∃ issues,
        ((variant key (before ++ option :: after)).validate (.object members) =
          (.ready (.failure issues) : Answer Id)) ∧
        reported.validate (.object members) =
          (.ready (.failure issues) : Answer Id)) ∧
      (carried.isScalar = true → (∀ other ∈ before, ∀ pinned,
          other.tag? key = some pinned → (carried == pinned) = false) →
        reported =
          (before.find? fun other => (other.tag? key).isNone).getD option) := by
  intro reported
  constructor
  · have meant : (meantOptions key (before ++ option :: after) members).head? =
        some reported := by
      have candidate :
          Check.isCandidate (members.get? key) (option.tag? key) = true := by
        rw [held, tag, Check.isCandidate, Option.bind_some,
          Json.scalarKey?_eq_of_same same]
        exact beq_self_eq_true _
      rw [meantOptions, List.head?_filter, List.find?_append,
        List.find?_cons, candidate, held]
      simp only [reported]
      cases before.find? _ <;> rfl
    obtain ⟨others, meant⟩ := List.head?_eq_some_iff.mp meant
    rw [meant] at refuse
    obtain ⟨issues, refused⟩ := refuse reported List.mem_cons_self
    exact ⟨issues, (validate_variant_of_refused meant refuse).trans refused,
      refused⟩
  · intro scalar different
    simp only [reported, find?_candidate scalar different]

/-- A point told apart by its type, after a box that declares none: the type is
that of the point, and the missing field of the box is reported. -/
theorem variant_reports_first_untagged :
    let box : Schema Id :=
      .object [⟨"x", .required, .primitive .integer⟩] .allow
    let point : Schema Id :=
      .object [⟨"type", .required, .literal (.string "a")⟩,
        ⟨"y", .required, .primitive .integer⟩] .allow
    let input : Json := .object [("type", .string "a")]
    ∃ issues, (variant "type" [box, point]).validate input =
        (.ready (.failure issues) : Answer Id) ∧
      box.validate input = (.ready (.failure issues) : Answer Id) := by
  intro box point input
  have refuse : ∀ other ∈ meantOptions "type" ([box] ++ point :: [])
      [("type", .string "a")], other.RefusesAtOnce input := by
    intro other member
    have listed := List.mem_of_mem_filter member
    rcases List.mem_cons.mp listed with rfl | listed
    · exact ⟨_, rfl⟩
    · obtain rfl := List.mem_singleton.mp listed
      exact ⟨_, rfl⟩
  obtain ⟨⟨issues, refused, reported⟩, chosen⟩ :=
    variant_reports_first rfl rfl rfl refuse
  have different : ∀ other ∈ [box], ∀ pinned, other.tag? "type" = some pinned →
      (Json.string "a" == pinned) = false := by
    rintro other member pinned tag
    obtain rfl := List.mem_singleton.mp member
    cases tag
  rw [chosen rfl different] at reported
  exact ⟨issues, refused, reported⟩

/-- So the option that is told apart by the carried value is not always the one
that is reported. -/
theorem not_variant_reports_tagged :
    let box : Schema Id :=
      .object [⟨"x", .required, .primitive .integer⟩] .allow
    let point : Schema Id :=
      .object [⟨"type", .required, .literal (.string "a")⟩,
        ⟨"y", .required, .primitive .integer⟩] .allow
    let input : Json := .object [("type", .string "a")]
    let missing (name message : String) : Answer Id :=
      .ready (.failure ⟨⟨[.key name], message, "required"⟩, []⟩)
    box.tag? "type" = none ∧ point.tag? "type" = some (.string "a") ∧
      box.validate input = missing "x" "required field 'x' is missing" ∧
      point.validate input = missing "y" "required field 'y' is missing" ∧
      (variant "type" [box, point]).validate input =
        missing "x" "required field 'x' is missing" :=
  ⟨rfl, rfl, rfl, rfl, rfl⟩

end Variant

end Schema

end JsonMatch
