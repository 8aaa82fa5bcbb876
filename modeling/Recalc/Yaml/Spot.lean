/-
Recalc/Yaml/Spot.lean

Places in YAML text.  A text is read line by line, so a place knows its line and column
beside what follows.  Line breaks are the newline, to which carriage returns and next-line
characters are turned beforehand, and the separators of lines and paragraphs, which stay
what they are.
-/

namespace Recalc.Yaml

/-! ### Characters -/

/-- Spaces and tabs. -/
def isBlank (c : Char) : Bool := c == ' ' || c == '\t'

/-- Line breaks. -/
def isBreak (c : Char) : Bool := c == '\n' || c == '\u2028' || c == '\u2029'

/-- Whether a blank, a line break or the end of the text comes next. -/
def parts : List Char → Bool
  | [] => true
  | c :: _ => isBlank c || isBreak c

/-- Brackets and the comma. -/
def isFlowMark (c : Char) : Bool :=
  c == ',' || c == '[' || c == ']' || c == '\x7b' || c == '\x7d'

/-- Characters of names. -/
def isWord (c : Char) : Bool := c.isAlphanum || c == '_' || c == '-'

/-- Line breaks of one kind, but for the separators of lines and paragraphs. -/
def unifyBreaks : List Char → List Char
  | '\r' :: '\n' :: rest => '\n' :: unifyBreaks rest
  | c :: rest => (if c == '\r' || c == '\u0085' then '\n' else c) :: unifyBreaks rest
  | [] => []

/-- The characters of documents. -/
def isAllowed (c : Char) : Bool :=
  c == '\t' || c == '\n' || (' ' ≤ c && c ≤ '~') ||
    ('\u00a0' ≤ c && c.toNat != 0xFFFE && c.toNat != 0xFFFF)

/-! ### Places -/

/-- A place in a text. -/
structure Spot where
  rest : List Char
  line : Nat
  column : Nat

namespace Spot

/-- Behind some characters of the line. -/
def past (s : Spot) (count : Nat) : Spot := ⟨s.rest.drop count, s.line, s.column + count⟩

/-- Where some last characters of the line are left. -/
def upTo (s : Spot) (rest : List Char) : Spot := s.past (s.rest.length - rest.length)

/-- Whether a mark of three such characters stands here. -/
def isMarker (s : Spot) (c : Char) : Bool :=
  s.column == 0 && s.rest.take 3 == [c, c, c] && parts (s.rest.drop 3)

/-- Whether a document starts or ends here. -/
def atMarker (s : Spot) : Bool := s.isMarker '-' || s.isMarker '.'

/-- Behind the blanks and the comment at the end of a line; none if anything else stands
there. -/
def pastLine? (s : Spot) : Option Spot :=
  let tail := s.rest.dropWhile isBlank
  let tail := if tail.head? == some '#' then tail.dropWhile (!isBreak ·) else tail
  match tail with
  | [] => some (s.upTo [])
  | c :: rest => if isBreak c then some ⟨rest, s.line + 1, 0⟩ else none

end Spot

end Recalc.Yaml
