import JsonMatch.Report.Path

/-!
# Issues

An issue is one reason to reject a value, at a path.  A rejection carries at
least one.
-/

namespace JsonMatch

/-- One reason to reject a value. -/
structure Issue where
  path : Path := []
  message : String
  code : String := "invalid"
  deriving DecidableEq, Repr

namespace Issue

/-- The issue moved to another path. -/
def moveTo (issue : Issue) (path : Path) : Issue :=
  { issue with path := path }

/-- The message, after the path unless that is empty. -/
def text (issue : Issue) : String :=
  if issue.path.isEmpty then issue.message
  else issue.path.text ++ ": " ++ issue.message

end Issue

/-- The issues of a rejection, in order. -/
structure Issues where
  first : Issue
  rest : List Issue
  deriving DecidableEq, Repr

namespace Issues

/-- All issues as a list. -/
def toList (issues : Issues) : List Issue :=
  issues.first :: issues.rest

/-- A list of issues, if there is one in it. -/
def ofList? : List Issue → Option Issues
  | [] => none
  | first :: rest => some ⟨first, rest⟩

/-- A single issue at the value itself. -/
def ofMessage (message : String) : Issues :=
  ⟨{ message }, []⟩

/-- The issues of two rejections. -/
def append (left right : Issues) : Issues :=
  ⟨left.first, left.rest ++ right.toList⟩

instance : Append Issues := ⟨append⟩

/-- The number of issues. -/
def length (issues : Issues) : Nat :=
  issues.toList.length

/-- The issues with a code. -/
def withCode (issues : Issues) (code : String) : List Issue :=
  issues.toList.filter fun issue => issue.code == code

/-- The texts of the issues. -/
def text (issues : Issues) : String :=
  String.intercalate "; " (issues.toList.map Issue.text)

@[simp] theorem ofList?_toList (issues : Issues) :
    ofList? issues.toList = some issues := rfl

end Issues

end JsonMatch
