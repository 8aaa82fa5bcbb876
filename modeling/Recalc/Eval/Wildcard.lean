/-
Recalc/Eval/Wildcard.lean

Patterns with `*` for any run of characters, `?` for any single one and `~` before a
character that is meant as itself.

Design.  Matching walks the pattern once and carries, for every position of the text,
whether the pattern so far can match up to it; `reach` has one more entry than the text
has characters.  A single character moves the marks by one place, a star spreads them to
the right.
-/

namespace Recalc.Wildcard

/-- A piece of a pattern. -/
inductive Piece
  | anyRun
  | anyChar
  | literal (c : Char)
deriving DecidableEq, Repr

/-- The pieces of a pattern; a `~` at the end means itself. -/
def pieces : List Char → List Piece
  | '~' :: c :: rest => .literal c :: pieces rest
  | '*' :: rest => .anyRun :: pieces rest
  | '?' :: rest => .anyChar :: pieces rest
  | c :: rest => .literal c :: pieces rest
  | [] => []

/-- Move every mark over one accepted character. -/
def advance (accept : Char → Bool) (text : List Char) (reach : List Bool) : List Bool :=
  false :: List.zipWith (fun c mark => mark && accept c) text reach

/-- Spread every mark to the right; `seen` tells whether one was passed. -/
def spread (seen : Bool) : List Bool → List Bool
  | [] => []
  | mark :: rest => (seen || mark) :: spread (seen || mark) rest

/-- The marks behind one more piece. -/
def step (text : List Char) (reach : List Bool) : Piece → List Bool
  | .anyRun => spread false reach
  | .anyChar => advance (fun _ => true) text reach
  | .literal c => advance (· == c) text reach

/-- The marks before the first piece: only the start of the text. -/
def start (text : List Char) : List Bool :=
  true :: List.replicate text.length false

/-- Whether the whole text matches. -/
def matchesPieces (ps : List Piece) (text : List Char) : Bool :=
  (ps.foldl (step text) (start text)).getLast?.getD false

/-- Whether the whole text matches the pattern. -/
def isMatch (pattern text : String) : Bool :=
  matchesPieces (pieces pattern.toList) text.toList

/-- The text holds a character that is special in patterns. -/
def isPattern (s : String) : Bool :=
  s.toList.any fun c => c == '*' || c == '?' || c == '~'

end Recalc.Wildcard
