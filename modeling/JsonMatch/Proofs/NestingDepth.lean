import JsonMatch.Proofs.DistinctKeys
import JsonMatch.Value.Depth
import Mathlib.Logic.Relation

/-!
# Nesting depth and what a preview shows

A walk over a value keeps a worklist of entries with their depths.  In each
round it takes out an entry that is not too deep and puts in the parts of that
entry.  Which entry is taken, and where its parts go, has no influence on the
answer: some entry is found too deep exactly when the value is nested too
deeply.  As every round takes one value out of the worklist for good, no walk
has more rounds than there are values in the value.
-/

namespace JsonMatch

mutual

/-- How deeply a value is nested: one level deeper than its deepest part, and
not at all if it has no parts. -/
def Json.depth : Json → Nat
  | .array items => Json.depthOfItems items
  | .object members => Json.depthOfMembers members
  | _ => 0

def Json.depthOfItems : List Json → Nat
  | [] => 0
  | item :: items => max (item.depth + 1) (Json.depthOfItems items)

def Json.depthOfMembers : List (String × Json) → Nat
  | [] => 0
  | (_, value) :: members => max (value.depth + 1) (Json.depthOfMembers members)

end

namespace Json

private theorem depthOfMembers_eq (members : List (String × Json)) :
    depthOfMembers members = depthOfItems (members.map Prod.snd) := by
  induction members with
  | nil => rfl
  | cons member members induction =>
      rw [depthOfMembers, List.map_cons, depthOfItems, induction]

private theorem lt_depthOfItems_iff (level : Nat) (items : List Json) :
    level < depthOfItems items ↔ ∃ item ∈ items, level ≤ item.depth := by
  induction items with
  | nil => simp [depthOfItems]
  | cons item items induction =>
      rw [depthOfItems, lt_max_iff, induction, Nat.lt_succ_iff]
      simp only [List.mem_cons, exists_eq_or_imp]

/-- A value is nested below a level when one of its parts reaches that level. -/
theorem lt_depth_iff (level : Nat) (value : Json) :
    level < value.depth ↔ ∃ part ∈ value.parts, level ≤ part.depth := by
  cases value with
  | array items => exact lt_depthOfItems_iff level items
  | object members =>
      rw [depth, depthOfMembers_eq]
      exact lt_depthOfItems_iff level (members.map Prod.snd)
  | _ => simp [depth, parts]

end Json

namespace DepthWalk

variable {bound : Nat} {entries next : List (Json × Nat)}

/-- A round of a walk: some entry that is not too deep gives way to its parts.
It may be any entry, and its parts may be put anywhere. -/
inductive Round (bound : Nat) : List (Json × Nat) → List (Json × Nat) →
    Prop where
  | visit {before after placed : List (Json × Nat)} {value : Json} {depth : Nat}
      (shallow : depth ≤ bound)
      (holds : placed.Perm
        ((value.parts.map fun part => (part, depth + 1)) ++
          (before ++ after))) :
      Round bound (before ++ (value, depth) :: after) placed

/-- How a walk ends: with an entry that is too deep, or with nothing left. -/
inductive Ends (bound : Nat) : List (Json × Nat) → Bool → Prop where
  | exhausted : Ends bound [] false
  | found {before after : List (Json × Nat)} {value : Json} {depth : Nat}
      (deep : bound < depth) :
        Ends bound (before ++ (value, depth) :: after) true
  | later {entries next : List (Json × Nat)} {answer : Bool}
      (round : Round bound entries next) (ends : Ends bound next answer) :
      Ends bound entries answer

/-- Whether a value in the worklist has something in it that is too deep. -/
def Reaches (bound : Nat) (entries : List (Json × Nat)) : Prop :=
  ∃ entry ∈ entries, bound < entry.2 + entry.1.depth

theorem reaches_perm (same : entries.Perm next) :
    Reaches bound entries ↔ Reaches bound next := by
  simp only [Reaches, same.mem_iff]

theorem reaches_append :
    Reaches bound (entries ++ next) ↔
      Reaches bound entries ∨ Reaches bound next := by
  simp only [Reaches, List.mem_append, or_and_right, exists_or]

theorem reaches_singleton {value : Json} {depth : Nat} :
    Reaches bound [(value, depth)] ↔ bound < depth + value.depth := by
  simp [Reaches]

theorem reaches_parts {value : Json} {depth : Nat} (shallow : depth ≤ bound) :
    Reaches bound (value.parts.map fun part => (part, depth + 1)) ↔
      bound < depth + value.depth := by
  have level : bound < depth + value.depth ↔
      bound - depth < value.depth := by omega
  rw [level, Json.lt_depth_iff]
  constructor
  · rintro ⟨entry, listed, deep⟩
    obtain ⟨part, member, rfl⟩ := List.mem_map.mp listed
    refine ⟨part, member, ?_⟩
    dsimp only at deep
    omega
  · rintro ⟨part, member, reaches⟩
    refine ⟨(part, depth + 1), List.mem_map.mpr ⟨part, member, rfl⟩, ?_⟩
    dsimp only
    omega

theorem Round.reaches_iff (round : Round bound entries next) :
    Reaches bound entries ↔ Reaches bound next := by
  cases round with
  | @visit before after _ value depth shallow holds =>
      calc Reaches bound (before ++ (value, depth) :: after)
        _ ↔ Reaches bound ([(value, depth)] ++ (before ++ after)) :=
          reaches_perm List.perm_middle
        _ ↔ bound < depth + value.depth ∨ Reaches bound (before ++ after) := by
          rw [reaches_append, reaches_singleton]
        _ ↔ Reaches bound ((value.parts.map fun part => (part, depth + 1)) ++
            (before ++ after)) := by
          rw [← reaches_parts shallow, ← reaches_append]
        _ ↔ Reaches bound next := (reaches_perm holds).symm

/-- Every walk that ends gives the same answer. -/
theorem Ends.answer_iff {answer : Bool} (ends : Ends bound entries answer) :
    answer = true ↔ Reaches bound entries := by
  induction ends with
  | exhausted => simp [Reaches]
  | @found before after value depth deep =>
      have reaches : Reaches bound (before ++ (value, depth) :: after) :=
        ⟨(value, depth), by simp, Nat.lt_add_right _ deep⟩
      exact iff_of_true rfl reaches
  | later round _ induction => exact induction.trans round.reaches_iff.symm

theorem ends_anyDeeper (bound : Nat) (entries : List (Json × Nat)) :
    Ends bound entries (anyDeeper bound entries) := by
  induction entries using anyDeeper.induct bound with
  | case1 =>
      rw [anyDeeper]
      exact .exhausted
  | case2 value depth entries deep =>
      rw [anyDeeper, if_pos deep]
      exact @Ends.found bound [] entries value depth deep
  | case3 value depth entries shallow induction =>
      rw [anyDeeper, if_neg shallow]
      have holds : ((value.parts.reverse.map fun part => (part, depth + 1)) ++
          entries).Perm ((value.parts.map fun part => (part, depth + 1)) ++
            entries) := by
        apply List.Perm.append_right
        exact value.parts.reverse_perm.map _
      have round := @Round.visit bound [] entries _ value depth
        (Nat.le_of_not_lt shallow) holds
      exact .later round induction

/-- A walk can be brought to its end from anywhere, always with the same
answer. -/
theorem ends_iff (entries : List (Json × Nat)) (answer : Bool) :
    Ends bound entries answer ↔ (answer = true ↔ Reaches bound entries) := by
  constructor
  · exact Ends.answer_iff
  · intro same
    have ends := ends_anyDeeper bound entries
    have equal : answer = anyDeeper bound entries :=
      Bool.eq_iff_iff.mpr (same.trans ends.answer_iff.symm)
    exact equal ▸ ends

theorem worklistSize_perm (same : entries.Perm next) :
    worklistSize entries = worklistSize next := by
  induction same with
  | nil => rfl
  | cons entry _ induction => rw [worklistSize, worklistSize, induction]
  | swap left right entries =>
      simp only [worklistSize]
      omega
  | trans _ _ first second => exact first.trans second

theorem Round.size_lt (round : Round bound entries next) :
    worklistSize next < worklistSize entries := by
  cases round with
  | @visit before after placed value depth shallow holds =>
      have smaller := worklistSize_parts_lt value (depth + 1)
      rw [worklistSize_perm holds, worklistSize_perm List.perm_middle,
        worklistSize_append, worklistSize]
      omega

theorem length_le_of_rounds {later : List (List (Json × Nat))}
    (rounds : List.IsChain (Round bound) (entries :: later)) :
    later.length ≤ worklistSize entries := by
  induction later generalizing entries with
  | nil => exact Nat.zero_le _
  | cons next later induction =>
      obtain ⟨round, rest⟩ := List.isChain_cons_cons.mp rounds
      have shorter := induction rest
      have smaller := round.size_lt
      rw [List.length_cons]
      omega

theorem reaches_iff_of_walk {start : List (Json × Nat)}
    (walk : Relation.ReflTransGen (Round bound) start entries) :
    Reaches bound start ↔ Reaches bound entries := by
  induction walk with
  | refl => exact Iff.rfl
  | tail _ round induction => exact induction.trans round.reaches_iff

end DepthWalk

namespace Json

theorem deeperThan_iff (value : Json) (bound : Nat) :
    value.deeperThan bound = true ↔ bound < value.depth := by
  have answer := (DepthWalk.ends_anyDeeper bound [(value, 0)]).answer_iff
  rwa [DepthWalk.reaches_singleton, Nat.zero_add] at answer

private theorem head?_text (value : Json) :
    value.text.toList.head? ≠ some '<' := by
  have unsigned {negative : Bool} {shown : List Char}
      (digit : shown.head?.any Char.isDigit = true) :
      (signed negative shown).head? ≠ some '<' := by
    intro head
    cases negative with
    | true => cases head
    | false =>
        rw [signed, if_neg Bool.false_ne_true] at head
        rw [head] at digit
        cases digit
  cases value with
  | null => decide
  | bool value => cases value <;> decide
  | int n =>
      rw [text_int]
      exact unsigned (unsigned_toDigits n.natAbs)
  | float x =>
      obtain ⟨shown, _, text, shows, _⟩ := text_float x
      rw [text]
      exact unsigned shows.unsigned
  | string value => simp [text, quote]
  | array items => simp [text]
  | object members => simp [text]

theorem text_ne_unprintable (value : Json) : value.text ≠ unprintable := by
  intro same
  apply value.head?_text
  rw [same]
  rfl

theorem truncate_of_le {text : String} {limit : Nat}
    (fits : text.length ≤ limit) :
    truncate text limit = text :=
  if_pos fits

theorem truncate_of_lt {text : String} {limit : Nat}
    (long : limit < text.length) :
    ∃ shown cut, text = shown ++ cut ∧ shown.length = limit ∧
      truncate text limit = shown ++ "..." := by
  refine ⟨String.ofList (text.toList.take limit),
    String.ofList (text.toList.drop limit),
    ?_, ?_, if_neg (Nat.not_le_of_lt long)⟩
  · rw [← String.ofList_append, List.take_append_drop, String.ofList_toList]
  · rw [String.length_ofList, List.length_take, String.length_toList]
    exact Nat.min_eq_left (Nat.le_of_lt long)

theorem dots_ne_unprintable (shown : String) :
    shown ++ "..." ≠ unprintable := by
  intro same
  have last := congrArg (fun text => text.toList.getLast?) same
  simp [unprintable, String.toList_append] at last

theorem preview_of_lt {value : Json} (deep : 128 < value.depth) (limit : Nat) :
    value.preview limit = unprintable :=
  if_pos ((value.deeperThan_iff previewDepth).mpr deep)

theorem preview_of_le {value : Json} (shallow : value.depth ≤ 128)
    (limit : Nat) :
    value.preview limit = truncate value.text limit := by
  have notDeeper : ¬value.deeperThan previewDepth = true :=
    fun deeper =>
      Nat.not_lt_of_le shallow ((value.deeperThan_iff previewDepth).mp deeper)
  exact if_neg notDeeper

theorem truncate_text_ne_unprintable (value : Json) (limit : Nat) :
    truncate value.text limit ≠ unprintable := by
  rcases Nat.lt_or_ge limit value.text.length with long | fits
  · obtain ⟨shown, cut, _, _, truncated⟩ := truncate_of_lt long
    rw [truncated]
    exact dots_ne_unprintable shown
  · rw [truncate_of_le fits]
    exact value.text_ne_unprintable

/-- Whatever order the parts of a value are looked at in, a walk comes to an end
after at most as many rounds as there are values, and wherever it has got to,
its answer is whether the value is nested too deeply.  A preview therefore
stands aside for an input that is nested deeper than 128 levels, and only then;
and it shows as many characters of the text of any other input as are
allowed. -/
theorem depth_decides_preview (value : Json) :
    (∀ bound,
      (∀ rounds, List.IsChain (DepthWalk.Round bound) ([(value, 0)] :: rounds) →
        rounds.length ≤ value.size) ∧
      (∀ entries,
        Relation.ReflTransGen (DepthWalk.Round bound) [(value, 0)] entries →
        ∀ answer, DepthWalk.Ends bound entries answer ↔
          (answer = true ↔ bound < value.depth)) ∧
      (value.deeperThan bound = true ↔ bound < value.depth)) ∧
    ∀ limit,
      (value.preview limit = unprintable ↔ 128 < value.depth) ∧
      (value.depth ≤ 128 →
        (value.text.length ≤ limit → value.preview limit = value.text) ∧
        (limit < value.text.length → ∃ shown cut, value.text = shown ++ cut ∧
          shown.length = limit ∧ value.preview limit = shown ++ "...")) := by
  constructor
  · intro bound
    refine ⟨?_, ?_, value.deeperThan_iff bound⟩
    · intro rounds chain
      exact DepthWalk.length_le_of_rounds chain
    · intro entries walk answer
      rw [DepthWalk.ends_iff, ← DepthWalk.reaches_iff_of_walk walk,
        DepthWalk.reaches_singleton, Nat.zero_add]
  · intro limit
    constructor
    · constructor
      · intro placeholder
        by_contra notDeep
        have shallow : value.depth ≤ 128 := Nat.le_of_not_lt notDeep
        rw [preview_of_le shallow] at placeholder
        exact value.truncate_text_ne_unprintable limit placeholder
      · intro deep
        exact preview_of_lt deep limit
    · intro shallow
      rw [preview_of_le shallow]
      exact ⟨truncate_of_le, truncate_of_lt⟩

/-- A walk that puts the parts of an array in another order, a text that is cut
behind a character of two bytes, and an input that is nested one level too
deeply. -/
theorem depth_decides_preview_nested :
    let value : Json := .array [.array [.null], .string "é"]
    let nested := Nat.repeat (fun value => Json.array [value]) 129 .null
    DepthWalk.Ends 1 [(.string "é", 1), (.array [.null], 1)] true ∧
      (∃ shown cut, value.text = shown ++ cut ∧ shown.length = 10 ∧
        value.preview 10 = shown ++ "...") ∧
      nested.preview 10 = unprintable := by
  intro value nested
  obtain ⟨walks, shows⟩ := value.depth_decides_preview
  obtain ⟨_, answers, _⟩ := walks 1
  have round :
      DepthWalk.Round 1 [(value, 0)] [(.string "é", 1), (.array [.null], 1)] :=
    @DepthWalk.Round.visit 1 [] [] _ value 0 (Nat.zero_le 1) (.swap _ _ [])
  have deep : 1 < value.depth := by decide
  have shallow : value.depth ≤ 128 := by decide
  have long : 10 < value.text.length := by decide +kernel
  have tooDeep : 128 < nested.depth := by decide +kernel
  constructor
  · exact (answers _ (.single round) true).mpr (iff_of_true rfl deep)
  · constructor
    · exact ((shows 10).2 shallow).2 long
    · exact (nested.depth_decides_preview.2 10).1.mpr tooDeep

end Json

end JsonMatch
