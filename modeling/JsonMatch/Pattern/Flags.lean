import JsonMatch.Pattern.CaseFolding
import JsonMatch.Pattern.Regex

/-!
# Flags of patterns

How the rest of a group is to be read: what letters stand for, what dots and
line marks stand for, and whether blanks and comments are passed over.  Every
reader of a part of a pattern takes the flags in force there.
-/

namespace JsonMatch

/-- The flags in force. -/
structure Flags where
  /-- Letters stand for all their case variants. -/
  ignoreCase : Bool := false
  /-- Line marks stand for the places of every line. -/
  multiLine : Bool := false
  /-- A dot stands for a line end too. -/
  dotAll : Bool := false
  /-- Classes are those of every script, not of ASCII alone. -/
  unicode : Bool := true
  /-- Carriage returns end lines too. -/
  crlf : Bool := false
  /-- Blanks and comments are passed over. -/
  spaced : Bool := false

namespace Flags

/-! ## Flag lists -/

/-- Switches the flag of a letter.  Which match is preferred does not matter
here, so its flag changes nothing. -/
def switch? (flags : Flags) (letter : Char) (on : Bool) : Option Flags :=
  match letter with
  | 'i' => some { flags with ignoreCase := on }
  | 'm' => some { flags with multiLine := on }
  | 's' => some { flags with dotAll := on }
  | 'u' => some { flags with unicode := on }
  | 'R' => some { flags with crlf := on }
  | 'x' => some { flags with spaced := on }
  | 'U' => some flags
  | _ => none

/-- A list of flags as read: the flags that it leads to, whether it names any,
and whether it opens a group. -/
structure Listed where
  flags : Flags
  named : Bool
  opensGroup : Bool

/-- Reads a list of flags up to its end.  No letter may come twice; those after
a dash are switched off.  The letters `seen` already come last first. -/
def list? (flags : Flags) (seen : List Char) :
    List Char → Option (Listed × List Char)
  | [] => none
  | c :: rest =>
      if c = ':' ∨ c = ')' then
        if seen.head? = some '-' then none
        else some (⟨flags, !seen.isEmpty, c == ':'⟩, rest)
      else if seen.contains c then none
      else if c = '-' then list? flags (c :: seen) rest
      else do list? (← flags.switch? c (!seen.contains '-')) (c :: seen) rest

/-! ## Blanks and comments -/

/-- Passes over blanks, and over comments from a number sign to the end of the
line. -/
def passOver (comment : Bool) : List Char → List Char
  | [] => []
  | c :: rest =>
      if comment then passOver (c != '\n') rest
      else if CharSet.blanks.contains c then passOver false rest
      else if c = '#' then passOver true rest
      else c :: rest

def next (flags : Flags) (input : List Char) : List Char :=
  if flags.spaced then passOver false input else input

/-- Takes characters of a kind, as many as the limit allows. -/
def takeKind (flags : Flags) (kind : Char → Bool) :
    Nat → List Char → List Char × List Char
  | limit + 1, c :: rest =>
      if kind c then
        let (more, rest) := flags.takeKind kind limit (flags.next rest)
        (c :: more, rest)
      else ([], c :: rest)
  | _, input => ([], input)

def takeAll (flags : Flags) (kind : Char → Bool) (input : List Char) :
    List Char × List Char :=
  flags.takeKind kind input.length input

/-! ## What characters stand for -/

/-- A set with the case variants of its members, where case is ignored. -/
def withVariants (flags : Flags) (set : CharSet) : CharSet :=
  if flags.ignoreCase then
    set.closeUnderCase (if flags.unicode then CaseShift.all
      else CaseShift.ascii)
  else set

/-- A set, negated or not.  Without the classes of every script a set holds
ASCII characters only. -/
def finish? (flags : Flags) (negated : Bool) (set : CharSet) : Option CharSet :=
  let set := if negated then set.complement else set
  if flags.unicode || set.isAscii then some set else none

/-- The class of a letter after a backslash; a capital letter negates it. -/
def namedClass? (flags : Flags) (letter : Char) : Option (Option CharSet) :=
  let class? (name : String) (set : CharSet) : Option CharSet :=
    flags.finish? letter.isUpper
      (if flags.unicode then set else (CharSet.asciiNamed? name).getD .empty)
  match letter.toLower with
  | 'd' => some (class? "digit" .digits)
  | 's' => some (class? "space" .blanks)
  | 'w' => some (class? "word" .wordChars)
  | _ => none

def literal (flags : Flags) (c : Char) : Regex :=
  .ofSet (flags.withVariants (.single c))

/-- What a dot stands for: any character but a line end. -/
def dot? (flags : Flags) : Option Regex :=
  let lineEnds : CharSet :=
    if flags.dotAll then .empty
    else if flags.crlf then (CharSet.single '\n').union (.single '\r')
    else .single '\n'
  if flags.unicode then some (.ofSet lineEnds.complement) else none

def wordChars (flags : Flags) : CharSet :=
  if flags.unicode then .wordChars else (CharSet.asciiNamed? "word").getD .empty

def wordPlace (flags : Flags) (kind : WordPlace) : Place :=
  .word kind flags.wordChars

def startMark (flags : Flags) : Place :=
  if flags.multiLine then .lineStart flags.crlf else .textStart

def endMark (flags : Flags) : Place :=
  if flags.multiLine then .lineEnd flags.crlf else .textEnd

end Flags

end JsonMatch
