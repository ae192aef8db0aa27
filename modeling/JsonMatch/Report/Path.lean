/-!
# Paths

A path leads from a value to one of its parts.
-/

namespace JsonMatch

/-- A step from a value to a part of it. -/
inductive PathStep where
  | key (name : String)
  | index (position : Nat)
  deriving DecidableEq, Repr

/-- The steps from the outermost value inwards; the value itself is at the
empty path. -/
abbrev Path := List PathStep

namespace Path

/-- The path continued by a step. -/
def enter (path : Path) (step : PathStep) : Path :=
  path ++ [step]

/-- The path without its last step. -/
def leave (path : Path) : Path :=
  path.dropLast

@[simp] theorem leave_enter (path : Path) (step : PathStep) :
    (path.enter step).leave = path := by
  simp [enter, leave]

/-- The path of a part seen from a value that contains the outermost one at
`outer`. -/
def below (path outer : Path) : Path :=
  outer ++ path

theorem enter_below (path outer : Path) (step : PathStep) :
    (path.enter step).below outer = (path.below outer).enter step := by
  simp [enter, below]

/-- A step that is not the first; a key follows a point. -/
def laterStepText : PathStep → String
  | .key name => "." ++ name
  | .index position => "[" ++ toString position ++ "]"

/-- The first step of a path. -/
def firstStepText : PathStep → String
  | .key name => name
  | step => laterStepText step

/-- The text of a path. -/
def text : Path → String
  | [] => ""
  | first :: later =>
    firstStepText first ++ String.join (later.map laterStepText)

end Path

end JsonMatch
