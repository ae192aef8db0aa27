import JsonMatch.Proofs.Ensuring
import JsonMatch.Proofs.MemberLists
import JsonMatch.Proofs.WalkModes

/-!
# Where issues stand

A path is followed step by step, into the member of an object or the item of an
array.  The walk of a schema keeps its path at the part that it looks at, and
leaves an issue only there, or at a key that this part lacks.  Transforms change
what is looked at afterwards, but not where; so every issue of a rejection
stands in the input.
-/

namespace JsonMatch

namespace Json

/-- The part of a value that a step leads to. -/
def step? (value : Json) : PathStep → Option Json
  | .key name => value.member? name
  | .index position => value.items?.bind (·[position]?)

/-- The part of a value at a path. -/
def at? (value : Json) : Path → Option Json
  | [] => some value
  | step :: path => (value.step? step).bind (at? · path)

theorem at?_append (value : Json) (outer inner : Path) :
    value.at? (outer ++ inner) = (value.at? outer).bind (at? · inner) := by
  induction outer generalizing value with
  | nil => rfl
  | cons step outer induction =>
      rw [List.cons_append, at?, at?, Option.bind_assoc]
      apply Option.bind_congr
      intro part _
      exact induction part

theorem at?_enter {root part : Json} {path : Path}
    (there : root.at? path = some part) (step : PathStep) :
    root.at? (path.enter step) = part.step? step := by
  rw [Path.enter, at?_append, there, Option.bind_some]
  exact Option.bind_fun_some _

end Json

/-- Whether a path ends in a key that its parent, an object, does not have. -/
def Path.EndsAbsent (path : Path) (root : Json) : Prop :=
  ∃ parent key members, path = Path.enter parent (.key key) ∧
    root.at? parent = some (.object members) ∧ Members.get? members key = none

/-- Whether the path of an issue leads to a part of the value.  A missing field
is reported at the key that is absent, and so may be a missing discriminator. -/
structure Issue.StandsIn (issue : Issue) (root : Json) : Prop where
  place : (root.at? issue.path).isSome = true ∨
    ((issue.code = "required" ∨ issue.code = "invalid_discriminator") ∧
      issue.path.EndsAbsent root)
  required : issue.code = "required" → issue.path.EndsAbsent root

theorem Issue.standsIn_of_at {root part : Json} {path : Path}
    (there : root.at? path = some part) {code : String}
    (other : code ≠ "required") (message : String) :
    Issue.StandsIn ⟨path, message, code⟩ root := by
  constructor
  · left
    rw [there]
    rfl
  · intro same
    exact absurd same other

theorem Rule.code_ne_required {m : Type → Type} (rule : Rule m) :
    rule.code ≠ "required" := by
  cases rule <;> simp [code]

/-- Whether a walk is at a path, and all issues found so far stand in the
value. -/
structure WalkState.IsAt (root : Json) (path : Path) (state : WalkState) :
    Prop where
  here : state.path = path
  stands : ∀ issue ∈ state.issues, issue.StandsIn root

namespace Walk

variable {m : Type → Type} [Monad m] [LawfulMonad m] {α β : Type}

/-- A walk that returns to the path where it began, and all issues of which
stand in the value. -/
def Stays (root : Json) (path : Path) (walk : Walk m α) : Prop :=
  walk.Leads (WalkState.IsAt root path) (WalkState.IsAt root path)

variable {root : Json} {path : Path}

theorem stays_guessed (state : WalkState) (isAt : state.IsAt root path) :
    WalkState.IsAt root path { state with deferred := true, guessed := true } :=
  ⟨isAt.here, isAt.stands⟩

namespace Stays

theorem pure (value : α) : Stays root path (Pure.pure value : Walk m α) :=
  Leads.pure value

theorem bind {walk : Walk m α} {next : α → Walk m β}
    (stays : walk.Stays root path)
    (follows : ∀ value, (next value).Stays root path) :
    Stays root path (walk >>= next) :=
  Leads.bind stays follows

theorem lift (computation : m α) :
    Stays root path (liftM computation : Walk m α) :=
  Leads.lift computation

theorem reject (mode : Mode) {code message : String}
    (stands : Issue.StandsIn ⟨path, message, code⟩ root) :
    Stays root path (Walk.reject mode code message : Walk m (Option α)) := by
  cases mode with
  | failFast => exact pure none
  | collect =>
      apply Stays.bind
      · apply Leads.modify
        intro state isAt
        refine ⟨isAt.here, ?_⟩
        intro issue member
        rcases List.mem_append.mp member with earlier | last
        · exact isAt.stands issue earlier
        · obtain rfl := List.mem_singleton.mp last
          rw [isAt.here]
          exact stands
      · intro _
        exact pure none

theorem rejectHere {part : Json} (there : root.at? path = some part)
    (mode : Mode) {code : String} (other : code ≠ "required")
    (message : String) :
    Stays root path (Walk.reject mode code message : Walk m (Option α)) :=
  reject mode (Issue.standsIn_of_at there other message)

theorem within {walk : Walk m α} {step : PathStep}
    (stays : walk.Stays root (path.enter step)) :
    Stays root path (Walk.within step walk) := by
  apply Leads.within _ stays
  · intro state isAt
    exact ⟨(congrArg Path.leave isAt.here).trans (Path.leave_enter path step),
      isAt.stands⟩
  · intro state isAt
    exact ⟨congrArg (Path.enter · step) isAt.here, isAt.stands⟩

theorem allOf (mode : Mode) {parts : List (Walk m (Option α))}
    (stays : ∀ part ∈ parts, part.Stays root path) :
    Stays root path (Walk.allOf mode parts) :=
  Leads.allOf mode stays

theorem firstOf (value : Json) (options : List (Check m)) :
    Stays root path (Walk.firstOf value options) :=
  Leads.firstOf stays_guessed value options

theorem elim {walk : Walk m (Option α)} {next : Option α → Walk m β}
    (stays : walk.Stays root path) (nothing : (next none).Stays root path)
    (follows : ∀ output, (next (some output)).Stays root path) :
    Stays root path (walk >>= next) := by
  apply stays.bind
  intro output
  cases output with
  | none => exact nothing
  | some output => exact follows output

end Stays

end Walk

namespace Check

variable {m : Type → Type} [Monad m] [LawfulMonad m]

/-- A check whose walk through a part of a value stays at that part. -/
def Stays (check : Check m) : Prop :=
  ∀ root path value, root.at? path = some value → value.isWellFormed = true →
    ∀ mode, (check mode value).Stays root path

variable {root : Json} {path : Path}

theorem Stays.step {check : Check m} (stays : check.Stays) {value part : Json}
    (there : root.at? path = some value) (step : PathStep)
    (leads : value.step? step = some part)
    (wellFormed : part.isWellFormed = true) (mode : Mode) :
    Walk.Stays root path (Walk.within step (check mode part)) := by
  apply Walk.Stays.within
  apply stays _ _ _ _ wellFormed
  rw [Json.at?_enter there, leads]

theorem stays_literal (expected : Json) :
    (literal expected : Check m).Stays := by
  intro root path value there _ mode
  unfold literal
  split
  · exact .pure _
  · exact .rejectHere there mode (by decide) _

theorem stays_primitive (kind : Primitive) :
    (primitive kind : Check m).Stays := by
  intro root path value there _ mode
  unfold primitive
  split
  · exact .pure _
  · exact .rejectHere there mode (by decide) _

section Objects

variable {members : Members}

private theorem standsIn_absent (there : root.at? path = some (.object members))
    {key : String} (absent : members.get? key = none) {code : String}
    (named : code = "required" ∨ code = "invalid_discriminator")
    (message : String) :
    Issue.StandsIn ⟨path.enter (.key key), message, code⟩ root := by
  have ends : Path.EndsAbsent (path.enter (.key key)) root :=
    ⟨path, key, members, rfl, there, absent⟩
  exact ⟨.inr ⟨named, ends⟩, fun _ => ends⟩

private theorem stays_declaredField {field : Field (Check m)}
    (stays : field.schema.Stays)
    (there : root.at? path = some (.object members))
    (wellFormed : (Json.object members).isWellFormed = true) (mode : Mode) :
    Walk.Stays root path (declaredField mode members field) := by
  unfold declaredField
  cases held : members.get? field.name with
  | some value =>
      have part := ((Json.isWellFormed_object members).mp wellFormed).2 _
        (Members.mem_of_get? held)
      apply (stays.step there (.key field.name) held part mode).bind
      intro output
      exact .pure _
  | none =>
      cases field.presence with
      | required =>
          apply Walk.Stays.within
          apply Walk.Stays.reject
          exact standsIn_absent there held (.inl rfl) _
      | optional => exact .pure _
      | default value => exact .pure _

private theorem stays_unknownMember {unknown : OtherKeys (Check m)}
    (stays : ∀ check, unknown = .validate check → check.Stays)
    (there : root.at? path = some (.object members))
    (wellFormed : (Json.object members).isWellFormed = true)
    {member : String × Json} (listed : member ∈ members) (mode : Mode) :
    Walk.Stays root path (unknownMember mode unknown member) := by
  obtain ⟨ascending, parts⟩ := (Json.isWellFormed_object members).mp wellFormed
  -- No key occurs twice, so the path of a member leads to this member.
  have held : (Json.object members).step? (.key member.1) = some member.2 :=
    ascending.get?_of_mem listed
  cases unknown with
  | allow => exact .pure _
  | deny =>
      have below : root.at? (path.enter (.key member.1)) = some member.2 :=
        (Json.at?_enter there _).trans held
      exact .within (.rejectHere below mode (by decide) _)
  | validate check =>
      apply ((stays check rfl).step there (.key member.1) held
        (parts member listed) mode).bind
      intro output
      exact .pure _

theorem stays_object {fields : List (Field (Check m))}
    {unknown : OtherKeys (Check m)}
    (declared : ∀ field ∈ fields, field.schema.Stays)
    (others : ∀ check, unknown = .validate check → check.Stays) :
    (object fields unknown).Stays := by
  intro root path value there wellFormed mode
  cases value with
  | object members =>
      apply Walk.Stays.bind
      · apply Walk.Stays.allOf
        intro part member
        rcases List.mem_append.mp member with listed | listed
        · obtain ⟨field, found, rfl⟩ := List.mem_map.mp listed
          exact stays_declaredField (declared field found) there wellFormed mode
        · obtain ⟨extra, found, rfl⟩ := List.mem_map.mp listed
          exact stays_unknownMember others there wellFormed
            (List.mem_filter.mp found).1 mode
      · intro outputs
        exact .pure _
  | _ => exact .rejectHere there mode (by decide) _

end Objects

section Arrays

private theorem stays_items {checkAt : Nat → Option (Check m)}
    (stays : ∀ position check, checkAt position = some check → check.Stays)
    {values : List Json} (there : root.at? path = some (.array values))
    (wellFormed : (Json.array values).isWellFormed = true) (mode : Mode) :
    Walk.Stays root path (items mode checkAt values) := by
  apply Walk.Stays.bind
  · apply Walk.Stays.allOf
    intro part member
    obtain ⟨⟨value, position⟩, entry, given⟩ := List.mem_filterMap.mp member
    obtain ⟨check, chosen, rfl⟩ := Option.map_eq_some_iff.mp given
    have held : values[position]? = some value :=
      List.mem_zipIdx_iff_getElem?.mp entry
    have itemFormed := (Json.isWellFormed_array values).mp wellFormed value
      (List.mem_of_getElem? held)
    exact (stays position check chosen).step there
      (.index position) held itemFormed mode
  · intro outputs
    exact .pure _

theorem stays_array {item : Check m} (stays : item.Stays) :
    (array item).Stays := by
  intro root path value there wellFormed mode
  cases value with
  | array values =>
      simp only [array]
      apply stays_items _ there wellFormed
      intro position check same
      cases same
      exact stays
  | _ => exact .rejectHere there mode (by decide) _

theorem stays_tuple {positions : List (Check m)} {rest : Option (Check m)}
    (listed : ∀ check ∈ positions, check.Stays)
    (after : ∀ check, rest = some check → check.Stays) :
    (tuple positions rest).Stays := by
  intro root path value there wellFormed mode
  cases value with
  | array values =>
      simp only [tuple]
      split
      · apply stays_items _ there wellFormed
        intro position check chosen
        rcases Option.or_eq_some_iff.mp chosen with here | ⟨_, last⟩
        · exact listed check (List.mem_of_getElem? here)
        · exact after check last
      · exact .rejectHere there mode (by decide) _
  | _ => exact .rejectHere there mode (by decide) _

end Arrays

section Options

theorem stays_union (options : List (Check m)) : (union options).Stays := by
  intro root path value there _ mode
  -- Nothing is asked of the options: what they find is dropped with their
  -- trials.
  apply (Walk.Stays.firstOf value options).elim
  · exact .rejectHere there mode (by decide) _
  · intro output
    exact .pure _

/-- When all candidates reject, the first one is walked again for its issues,
from the same path. -/
theorem stays_variant {key : String} {options : List (Option Json × Check m)}
    (stays : ∀ option ∈ options, option.2.Stays) :
    (variant key options).Stays := by
  intro root path value there wellFormed mode
  cases value with
  | object members =>
      simp only [variant]
      split
      · apply Walk.Stays.within
        cases held : Members.get? members key with
        | none =>
            apply Walk.Stays.reject
            exact standsIn_absent there held (.inr rfl) _
        | some carried =>
            have below : root.at? (path.enter (.key key)) = some carried :=
              (Json.at?_enter there _).trans held
            exact .rejectHere below mode (by decide) _
      · rename_i first others meant
        have member : first ∈ (options.filter fun option =>
            isCandidate (Members.get? members key) option.1).map Prod.snd := by
          rw [meant]
          exact List.mem_cons_self
        obtain ⟨option, kept, rfl⟩ := List.mem_map.mp member
        have staysFirst := stays option (List.mem_filter.mp kept).1
        apply (Walk.Stays.firstOf _ _).elim
        · cases mode with
          | failFast => exact .pure none
          | collect =>
              apply (staysFirst root path _ there wellFormed .collect).bind
              intro _
              exact .pure none
        · intro output
          exact .pure _
  | _ => exact .rejectHere there mode (by decide) _

end Options

section Wrappers

variable {inner : Check m}

theorem stays_refined (stays : inner.Stays) (rule : Rule m)
    (message : Option String) :
    (refined inner rule message).Stays := by
  intro root path value there wellFormed mode
  apply (stays root path value there wellFormed mode).elim
  · exact .pure none
  · intro output
    apply (Walk.Stays.lift _).bind
    intro holds
    split
    · exact .pure _
    · exact .rejectHere there mode rule.code_ne_required _

theorem stays_transform (stays : inner.Stays) (map : Json → m Json) :
    (transform inner map).Stays := by
  intro root path value there wellFormed mode
  apply (stays root path value there wellFormed mode).elim
  · exact .pure none
  · intro output
    apply (Walk.Stays.lift _).bind
    intro mapped
    exact .pure _

theorem stays_asyncRefined (stays : inner.Stays) (waiting : Waiting)
    (test : Json → m Bool) (message : String) :
    (asyncRefined waiting inner test message).Stays := by
  intro root path value there wellFormed mode
  apply (stays root path value there wellFormed mode).elim
  · exact .pure none
  · intro output
    cases waiting with
    | refuse =>
        apply Walk.Stays.bind
        · apply Walk.Leads.modify
          intro state isAt
          exact ⟨isAt.here, isAt.stands⟩
        · intro _
          exact .pure _
    | await =>
        apply (Walk.Stays.lift _).bind
        intro holds
        split
        · exact .pure _
        · exact .rejectHere there mode (by decide) _

end Wrappers

end Check

section Schemas

variable {m : Type → Type}

/-- Whether a schema holds no validator of another kind, which may report what
it likes. -/
inductive Schema.Inspectable : Schema m → Prop where
  | literal (value : Json) : Inspectable (.literal value)
  | primitive (kind : Primitive) : Inspectable (.primitive kind)
  | object {fields : List (Field (Schema m))} {unknown : OtherKeys (Schema m)}
      (declared : ∀ field ∈ fields, Inspectable field.schema)
      (others : ∀ schema, unknown = .validate schema → Inspectable schema) :
      Inspectable (.object fields unknown)
  | tuple {items : List (Schema m)} {rest : Option (Schema m)}
      (listed : ∀ item ∈ items, Inspectable item)
      (after : ∀ schema, rest = some schema → Inspectable schema) :
      Inspectable (.tuple items rest)
  | array {item : Schema m} (inner : Inspectable item) :
      Inspectable (.array item)
  | union {options : List (Schema m)}
      (listed : ∀ option ∈ options, Inspectable option) :
      Inspectable (.union options)
  | variant {key : String} {options : List (Schema m)}
      (listed : ∀ option ∈ options, Inspectable option) :
      Inspectable (.variant key options)
  | refined {inner : Schema m} {rule : Rule m} {message : Option String}
      (below : Inspectable inner) : Inspectable (.refined inner rule message)
  | transform {inner : Schema m} {map : Json → m Json}
      (below : Inspectable inner) :
      Inspectable (.transform inner map)
  | asyncRefined {inner : Schema m} {test : Json → m Bool} {message : String}
      (below : Inspectable inner) :
        Inspectable (.asyncRefined inner test message)

variable [Monad m] [LawfulMonad m]

namespace Schema

theorem Inspectable.stays {schema : Schema m} (inspectable : schema.Inspectable)
    (waiting : Waiting) : (schema.check waiting).Stays := by
  induction inspectable with
  | literal value => exact Check.stays_literal value
  | primitive kind => exact Check.stays_primitive kind
  | @object fields unknown _ _ declared others =>
      rw [check_object]
      apply Check.stays_object
      · intro field member
        obtain ⟨held, listed, rfl⟩ := List.mem_map.mp member
        exact declared held listed
      · intro check same
        cases unknown with
        | validate schema =>
            cases same
            exact others schema rfl
        | _ => cases same
  | tuple _ _ listed after =>
      rw [check_tuple]
      apply Check.stays_tuple
      · intro check member
        obtain ⟨item, found, rfl⟩ := List.mem_map.mp member
        exact listed item found
      · intro check same
        obtain ⟨schema, found, rfl⟩ := Option.map_eq_some_iff.mp same
        exact after schema found
  | array _ item => exact Check.stays_array item
  | union _ _ =>
      rw [check_union]
      exact Check.stays_union _
  | variant _ options =>
      rw [check_variant]
      apply Check.stays_variant
      intro tagged member
      obtain ⟨option, listed, rfl⟩ := List.mem_map.mp member
      exact options option listed
  | refined _ inner => exact Check.stays_refined inner _ _
  | transform _ inner => exact Check.stays_transform inner _
  | asyncRefined _ inner => exact Check.stays_asyncRefined inner waiting _ _

end Schema

/-- A concluded walk reports what was found, or rejects the value itself. -/
theorem WalkState.IsAt.stands_conclude {root : Json} {path : Path}
    {state : WalkState} (isAt : state.IsAt root path) (output : Option Json) :
    ∀ issue ∈ (state.conclude output).issues, issue.StandsIn root := by
  intro issue member
  unfold WalkState.conclude at member
  cases found : state.issues with
  | cons first rest =>
      rw [found] at member
      exact isAt.stands issue (found ▸ member)
  | nil =>
      rw [found] at member
      cases output with
      | some output => cases member
      | none =>
          obtain rfl := List.mem_singleton.mp member
          have there : root.at? [] = some root := rfl
          exact Issue.standsIn_of_at there (by decide) _

namespace Schema

variable {schema : Schema m} {value : Json}

theorem Inspectable.ensures_walk (inspectable : schema.Inspectable)
    (wellFormed : value.isWellFormed = true) (waiting : Waiting) (mode : Mode) :
    Ensures (fun run => run.2.IsAt value [])
      (schema.walk waiting mode value) := by
  apply inspectable.stays waiting value [] value rfl wellFormed mode
  exact ⟨rfl, nofun⟩

/-- However the callbacks of a schema behave, every issue of a rejection,
awaited if need be, stands in the value. -/
theorem validate_issues_stand (inspectable : schema.Inspectable)
    (wellFormed : value.isWellFormed = true) :
    Ensures (fun outcome => ∀ issue ∈ outcome.issues, issue.StandsIn value)
      (do (← schema.validate value).settle) := by
  have settled :
      Ensures (fun outcome => ∀ issue ∈ outcome.issues, issue.StandsIn value)
      (schema.settled value) := by
    apply (inspectable.ensures_walk wellFormed .await .collect).bind
    intro run isAt
    exact .pure (isAt.stands_conclude run.1)
  rw [validate, bind_assoc]
  apply (inspectable.ensures_walk wellFormed .refuse .collect).bind
  intro run isAt
  dsimp only
  split
  · rw [pure_bind]
    exact .pure (isAt.stands_conclude run.1)
  · rw [pure_bind]
    exact settled

/-- A missing member, a missing tag, a member that is not declared, and an item
of the wrong kind, at their places below two checks of the whole. -/
theorem validate_issues_stand_nested :
    let tagged : Schema Id := .variant "tag"
      [.object [⟨"tag", .required, .literal (.string "a")⟩] .allow]
    let item : Schema Id := .object
      [⟨"name", .required, .primitive .string⟩,
       ⟨"kind", .required, tagged⟩] .deny
    let schema : Schema Id :=
      .asyncRefined (.transform (.array item) fun _ => .null)
        (fun _ => true) "refused"
    let value : Json :=
      .array [.object [("kind", .object []), ("other", .null)], .int 3]
    let outcome : Outcome :=
      (do (← schema.validate value).settle : Id Outcome).run
    outcome.issues.map (fun issue => (issue.path, issue.code)) =
        [([.index 0, .key "name"], "required"),
          ([.index 0, .key "kind", .key "tag"], "invalid_discriminator"),
          ([.index 0, .key "other"], "unknown_field"),
          ([.index 1], "invalid_type")] ∧
      ∀ issue ∈ outcome.issues, issue.StandsIn value := by
  intro tagged item schema value outcome
  have taggedInspectable : tagged.Inspectable := by
    apply Inspectable.variant
    intro option member
    obtain rfl := List.mem_singleton.mp member
    refine .object (fun field listed => ?_) (fun schema same => by cases same)
    obtain rfl := List.mem_singleton.mp listed
    exact .literal _
  have itemInspectable : item.Inspectable := by
    refine .object (fun field listed => ?_) (fun schema same => by cases same)
    simp only [List.mem_cons, List.not_mem_nil, or_false] at listed
    rcases listed with rfl | rfl
    · exact .primitive _
    · exact taggedInspectable
  have inspectable : schema.Inspectable :=
    .asyncRefined (.transform (.array itemInspectable))
  have wellFormed : value.isWellFormed = true := by decide +kernel
  refine ⟨by decide +kernel, ?_⟩
  exact (validate_issues_stand inspectable wellFormed).of_id

end Schema

end Schemas

end JsonMatch
