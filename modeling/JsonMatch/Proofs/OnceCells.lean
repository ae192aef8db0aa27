import JsonMatch.Plan.Store

/-!
# What is found out once

What is found out about a thing is kept under its identity, where all copies of
the thing find it.  As long as no identity is that of two things, and nothing is
kept under the identities that are still to be given away, what a thing finds is
its own.
-/

namespace JsonMatch

variable {α β : Type}

/-- Whether nothing is kept under the identities of some things but what is
their own, and nothing under the identities to come. -/
structure OwnCells (key : α → Option Identity) (own : α → β) (held : List α)
    (next : Identity) (kept : Identity → Option β) : Prop where
  given : ∀ item ∈ held, ∀ identity, key item = some identity → identity < next
  empty : ∀ identity, next ≤ identity → kept identity = none
  apart : ∀ item ∈ held, ∀ other ∈ held, ∀ identity, key item = some identity →
    key other = some identity → item = other
  own : ∀ item ∈ held, ∀ identity, key item = some identity →
    ∀ found, kept identity = some found → found = own item

namespace OwnCells

variable {key : α → Option Identity} {own : α → β} {held others : List α}
variable {next later identity : Identity} {kept : Identity → Option β}
    {item : α}

theorem start (next : Identity) : OwnCells key own [] next fun _ => none where
  given := nofun
  empty _ _ := rfl
  apart := nofun
  own := nofun

/-- Identities may be taken at any time, and things may be copied. -/
theorem mono (cells : OwnCells key own held next kept) (grows : next ≤ later)
    (known : ∀ other ∈ others, other ∈ held ∨ key other = none) :
    OwnCells key own others later kept := by
  have old : ∀ other ∈ others, ∀ identity, key other = some identity →
      other ∈ held := by
    intro other member identity has
    rcases known other member with listed | bare
    · exact listed
    · cases bare.symm.trans has
  constructor
  case given =>
    intro other member identity has
    have before :=
      cells.given other (old other member identity has) identity has
    exact Nat.lt_of_lt_of_le before grows
  case empty =>
    intro identity free
    exact cells.empty identity (Nat.le_trans grows free)
  case apart =>
    intro left leftMember right rightMember identity leftHas rightHas
    apply cells.apart left (old left leftMember identity leftHas) right
      (old right rightMember identity rightHas) identity leftHas rightHas
  case own =>
    intro other member identity has
    exact cells.own other (old other member identity has) identity has

/-- A new thing gets an identity that was not given away before. -/
theorem add (cells : OwnCells key own held next kept)
    (has : key item = some identity)
    (fresh : next ≤ identity) (grows : identity < later)
    (known : ∀ other ∈ others, other ∈ held ∨ other = item) :
    OwnCells key own others later kept := by
  have old : ∀ other ∈ held, key other ≠ some identity := by
    intro other member same
    exact Nat.not_le_of_lt (cells.given other member identity same) fresh
  constructor
  case given =>
    intro other member otherIdentity otherHas
    rcases known other member with listed | rfl
    · have before := cells.given other listed otherIdentity otherHas
      exact Nat.lt_trans before (Nat.lt_of_le_of_lt fresh grows)
    · obtain rfl := Option.some.inj (has.symm.trans otherHas)
      exact grows
  case empty =>
    intro otherIdentity free
    apply cells.empty
    exact Nat.le_trans fresh (Nat.le_trans (Nat.le_of_lt grows) free)
  case apart =>
    intro left leftMember right rightMember shared leftHas rightHas
    rcases known left leftMember with leftOld | rfl
    · rcases known right rightMember with rightOld | rfl
      · exact cells.apart left leftOld right rightOld shared leftHas rightHas
      · obtain rfl := Option.some.inj (has.symm.trans rightHas)
        exact absurd leftHas (old left leftOld)
    · rcases known right rightMember with rightOld | rfl
      · obtain rfl := Option.some.inj (has.symm.trans leftHas)
        exact absurd rightHas (old right rightOld)
      · rfl
  case own =>
    intro other member otherIdentity otherHas found isKept
    rcases known other member with listed | rfl
    · exact cells.own other listed otherIdentity otherHas found isKept
    · obtain rfl := Option.some.inj (has.symm.trans otherHas)
      cases (cells.empty identity fresh).symm.trans isKept

theorem ask_eq (cells : OwnCells key own held next kept) (member : item ∈ held)
    (has : key item = some identity) :
    (askOnce kept identity fun _ => own item).1 = own item := by
  unfold askOnce
  split
  · rename_i found isKept
    exact cells.own item member identity has found isKept
  · rfl

/-- A thing that finds out about itself leaves all things with what is their
own. -/
theorem ask (cells : OwnCells key own held next kept) (member : item ∈ held)
    (has : key item = some identity) :
    OwnCells key own held next (askOnce kept identity fun _ => own item).2 := by
  unfold askOnce
  split
  · exact cells
  · constructor
    case given => exact cells.given
    case apart => exact cells.apart
    case empty =>
      intro other free
      have before := cells.given item member identity has
      have different : other ≠ identity :=
        Nat.ne_of_gt (Nat.lt_of_lt_of_le before free)
      dsimp only
      rw [assign_of_ne _ _ different]
      exact cells.empty other free
    case own =>
      intro other otherMember otherIdentity otherHas found isKept
      dsimp only at isKept
      by_cases same : otherIdentity = identity
      · subst same
        rw [assign_self] at isKept
        rw [cells.apart other otherMember item member _ otherHas has]
        exact (Option.some.inj isKept).symm
      · rw [assign_of_ne _ _ same] at isKept
        exact cells.own other otherMember otherIdentity otherHas found isKept

end OwnCells

end JsonMatch
