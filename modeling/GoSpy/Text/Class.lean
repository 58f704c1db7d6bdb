import GoSpy.Text.Ranges
/- Character classes of source text. ASCII is decided by rule, the rest by table, so that
   every fact about the delimiters of a source file holds without looking at a table. -/
namespace GoSpy.Text

def within (ranges : List (Nat × Nat)) (c : Char) : Bool :=
  ranges.any fun r => decide (r.1 ≤ c.toNat) && decide (c.toNat ≤ r.2)

def isAscii (c : Char) : Bool := decide (c.toNat < 128)

def isLetter (c : Char) : Bool :=
  if isAscii c then c.isAlpha else within letterRanges c

def isLetterOrNumber (c : Char) : Bool :=
  if isAscii c then c.isAlphanum else within letterRanges c || within numberRanges c

/-- White space: in ASCII the space and the five controls from tab to carriage return. -/
def isBlank (c : Char) : Bool :=
  if isAscii c then c == ' ' || (decide (9 ≤ c.toNat) && decide (c.toNat ≤ 13))
  else within blankRanges c

def isHidden (c : Char) : Bool :=
  if isAscii c then decide (c.toNat < 32) || c == '\x7f' else within hiddenRanges c

def startsName (c : Char) : Bool := isLetter c || c == '_'

def continuesName (c : Char) : Bool := isLetterOrNumber c || c == '_'

end GoSpy.Text
