/-
Recalc/Yaml/Scalar.lean

Scalars in YAML text: plain, in quotes, and line by line.

A plain or quoted scalar may run over several lines.  Blanks around a line break are not
part of it; one break alone is folded to a space, and of several all but the first are
kept.  A plain scalar ends before a colon that a blank follows, before a comment, and,
outside brackets, before a line that is not indented enough; inside brackets also before a
bracket or a comma.

A scalar written line by line has the indentation of its first line that is not empty.
Its last break is kept, and the empty lines behind it are not, unless a sign says otherwise.
-/
import Recalc.Yaml.Basic
import Recalc.Yaml.Spot

namespace Recalc.Yaml

/-- What stands between two words of a scalar. -/
inductive Gap
  /-- Blanks on one line, last one first. -/
  | blanks (cs : List Char)
  /-- The first line break, if it was not escaped, and those behind it, last one first. -/
  | breaks (first : Option Char) (more : List Char)

namespace Gap

/-- No gap. -/
def none : Gap := .blanks []

/-- Whether there is no gap. -/
def isNone : Gap → Bool
  | .blanks cs => cs.isEmpty
  | .breaks _ _ => false

/-- Whether a line ends in the gap. -/
def hasBreak : Gap → Bool
  | .blanks _ => false
  | .breaks _ _ => true

/-- A gap with one more blank. -/
def blank (c : Char) : Gap → Gap
  | .blanks cs => .blanks (c :: cs)
  | .breaks first more => .breaks first more

/-- A gap with one more line break. -/
def lineBreak (c : Char) : Gap → Gap
  | .blanks _ => .breaks (some c) []
  | .breaks first more => .breaks first (c :: more)

/-- What a gap stands for, last character first. -/
def folded : Gap → List Char
  | .blanks cs => cs
  | .breaks (some '\n') [] => [' ']
  | .breaks (some '\n') more => more
  | .breaks first more => more ++ first.toList

end Gap

/-- The text of a scalar and the place behind it. -/
structure Scanned where
  text : String
  /-- A line ended behind the last word. -/
  broken : Bool
  after : Spot

/-! ### Plain scalars -/

/-- The rest of a plain scalar of which `acc` is read, last character first. -/
def plainFrom (flow : Bool) (margin : Nat) (acc : List Char) :
    Gap → Nat → Nat → List Char → Option Scanned
  | gap, line, column, [] =>
    some ⟨String.ofList acc.reverse, gap.hasBreak, ⟨[], line, column⟩⟩
  | gap, line, column, c :: rest =>
    let stop : Option Scanned :=
      some ⟨String.ofList acc.reverse, gap.hasBreak, ⟨c :: rest, line, column⟩⟩
    if isBreak c then plainFrom flow margin acc (gap.lineBreak c) (line + 1) 0 rest
    else if isBlank c then
      if c == '\t' && gap.hasBreak && column < margin then none
      else plainFrom flow margin acc (gap.blank c) line (column + 1) rest
    else if c == '#' && !gap.isNone then stop
    else if gap.hasBreak && !flow && column < margin then stop
    else if gap.hasBreak && Spot.atMarker ⟨c :: rest, line, column⟩ then stop
    else if c == ':' && flow && rest.head?.any (fun d => d == '?' || isFlowMark d) then none
    else if c == ':' && parts rest then stop
    else if flow && isFlowMark c then stop
    else plainFrom flow margin (c :: gap.folded ++ acc) .none line (column + 1) rest

/-- The plain scalar that begins here; outside brackets, its further lines are indented by
`margin`. -/
def plain? (flow : Bool) (margin : Nat) (s : Spot) : Option Scanned :=
  plainFrom flow margin [] .none s.line s.column s.rest

/-! ### Quoted scalars -/

/-- The character that an escape of one letter stands for. -/
def shortEscape? : Char → Option Char
  | '0' => some '\x00'
  | 'a' => some '\x07'
  | 'b' => some '\x08'
  | 't' => some '\t'
  | '\t' => some '\t'
  | 'n' => some '\n'
  | 'v' => some '\x0b'
  | 'f' => some '\x0c'
  | 'r' => some '\r'
  | 'e' => some '\x1b'
  | ' ' => some ' '
  | '"' => some '"'
  | '/' => some '/'
  | '\\' => some '\\'
  | 'N' => some '\u0085'
  | '_' => some '\u00a0'
  | 'L' => some '\u2028'
  | 'P' => some '\u2029'
  | _ => none

/-- The character of a number written in hexadecimal. -/
def hexChar? (digits : List Char) : Option Char := do
  let n ← natInBase? 16 digits
  if n.isValidChar then some (Char.ofNat n) else none

/-- Whether a quoted scalar runs into the mark of a document. -/
def runsOut (gap : Gap) (column : Nat) (cs : List Char) : Bool :=
  gap.hasBreak && Spot.atMarker ⟨cs, 0, column⟩

/-- A finished quoted scalar. -/
def finished (gap : Gap) (acc : List Char) (line column : Nat) (rest : List Char) : Scanned :=
  ⟨String.ofList (gap.folded ++ acc).reverse, false, ⟨rest, line, column + 1⟩⟩

/-- The rest of a scalar in double quotes. -/
def doubleFrom (acc : List Char) : Gap → Nat → Nat → List Char → Option Scanned
  | _, _, _, [] => none
  | gap, line, column, '\\' :: 'x' :: a :: b :: rest => do
    doubleFrom ((← hexChar? [a, b]) :: gap.folded ++ acc) .none line (column + 4) rest
  | gap, line, column, '\\' :: 'u' :: a :: b :: c :: d :: rest => do
    doubleFrom ((← hexChar? [a, b, c, d]) :: gap.folded ++ acc) .none line (column + 6) rest
  | gap, line, column, '\\' :: 'U' :: a :: b :: c :: d :: e :: f :: g :: h :: rest => do
    doubleFrom ((← hexChar? [a, b, c, d, e, f, g, h]) :: gap.folded ++ acc) .none line
      (column + 10) rest
  | gap, line, column, '\\' :: e :: rest =>
    if isBreak e then doubleFrom (gap.folded ++ acc) (.breaks .none []) (line + 1) 0 rest
    else do
      doubleFrom ((← shortEscape? e) :: gap.folded ++ acc) .none line (column + 2) rest
  | gap, line, column, c :: rest =>
    if isBreak c then doubleFrom acc (gap.lineBreak c) (line + 1) 0 rest
    else if isBlank c then doubleFrom acc (gap.blank c) line (column + 1) rest
    else if runsOut gap column (c :: rest) then none
    else if c == '"' then some (finished gap acc line column rest)
    else doubleFrom (c :: gap.folded ++ acc) .none line (column + 1) rest

/-- The rest of a scalar in single quotes. -/
def singleFrom (acc : List Char) : Gap → Nat → Nat → List Char → Option Scanned
  | _, _, _, [] => none
  | gap, line, column, '\'' :: '\'' :: rest =>
    singleFrom ('\'' :: gap.folded ++ acc) .none line (column + 2) rest
  | gap, line, column, c :: rest =>
    if isBreak c then singleFrom acc (gap.lineBreak c) (line + 1) 0 rest
    else if isBlank c then singleFrom acc (gap.blank c) line (column + 1) rest
    else if runsOut gap column (c :: rest) then none
    else if c == '\'' then some (finished gap acc line column rest)
    else singleFrom (c :: gap.folded ++ acc) .none line (column + 1) rest

/-- The quoted scalar that begins here. -/
def quoted? (s : Spot) : Option Scanned :=
  match s.rest with
  | '"' :: rest => doubleFrom [] .none s.line (s.column + 1) rest
  | '\'' :: rest => singleFrom [] .none s.line (s.column + 1) rest
  | _ => none

/-! ### Scalars line by line -/

/-- What becomes of the line breaks at the end of a scalar. -/
inductive Chomping
  /-- All are dropped. -/
  | strip
  /-- The first is kept. -/
  | clip
  /-- All are kept. -/
  | keep
deriving DecidableEq, Repr

/-- What the sign of a chomping means. -/
def chomping? : Char → Option Chomping
  | '-' => some .strip
  | '+' => some .keep
  | _ => none

/-- The signs behind `|` or `>`, in either order, and what follows them: the chomping and how
much deeper than the node around it the scalar is indented. -/
def blockSigns? (cs : List Char) : Option (Chomping × Option Nat × List Char) :=
  let depth? (cs : List Char) : Option (Option Nat × List Char) :=
    match cs with
    | '0' :: _ => none
    | c :: rest => if c.isDigit then some (some (c.toNat - '0'.toNat), rest) else some (none, cs)
    | [] => some (none, [])
  match cs.head?.bind chomping? with
  | some chomping => (depth? (cs.drop 1)).map (chomping, ·)
  | none => do
    let (depth, rest) ← depth? cs
    match depth, rest.head?.bind chomping? with
    | some _, some chomping => some (chomping, depth, rest.drop 1)
    | _, _ => some (.clip, depth, rest)

/-- The deepest indentation up to the first line that is not empty; none if a tab stands in
front of it. -/
def indentation? (deepest : Nat) : Nat → List Char → Option Nat
  | column, [] => some (max deepest column)
  | column, c :: rest =>
    if c == ' ' then indentation? deepest (column + 1) rest
    else if c == '\t' then none
    else if isBreak c then indentation? (max deepest column) 0 rest
    else some (max deepest column)

/-- The lines of a scalar that are read. -/
structure BlockLines where
  /-- All but the last breaks, last character first. -/
  text : List Char
  /-- The break behind the last line. -/
  first : Option Char
  /-- Breaks of empty lines behind it, last one first. -/
  more : List Char
  /-- The last line begins with a blank. -/
  indented : Bool

namespace BlockLines

/-- Begin a line with a character: the breaks before it are kept, but one between two lines
that are folded is a space, or nothing if empty lines lie between. -/
def startLine (b : BlockLines) (fold : Bool) (c : Char) : BlockLines :=
  let joint :=
    if fold && b.first == some '\n' && !b.indented && !isBlank c then
      if b.more.isEmpty then [' '] else b.more
    else b.more ++ b.first.toList
  ⟨c :: joint ++ b.text, none, [], isBlank c⟩

/-- The text that is meant. -/
def chomped (b : BlockLines) (chomping : Chomping) : String :=
  let ending := match chomping with
    | .strip => []
    | .clip => b.first.toList
    | .keep => b.more ++ b.first.toList
  String.ofList (ending ++ b.text).reverse

end BlockLines

/-- The lines indented by `depth` from here on, where the flag tells whether a line has begun,
and the place behind them. -/
def blockLines (fold : Bool) (depth : Nat) :
    BlockLines → Bool → Nat → Nat → List Char → Option (BlockLines × Spot)
  | b, _, line, column, [] => some (b, ⟨[], line, column⟩)
  | b, true, line, column, c :: rest =>
    if isBreak c then blockLines fold depth { b with first := some c } false (line + 1) 0 rest
    else blockLines fold depth { b with text := c :: b.text } true line (column + 1) rest
  | b, false, line, column, c :: rest =>
    if c == ' ' && column < depth then blockLines fold depth b false line (column + 1) rest
    else if c == '\t' && column < depth then none
    else if isBreak c then
      blockLines fold depth { b with more := c :: b.more } false (line + 1) 0 rest
    else if column == depth then
      blockLines fold depth (b.startLine fold c) true line (column + 1) rest
    else some (b, ⟨c :: rest, line, column⟩)

/-- The scalar behind the `|` or `>` here, in block collections of the given columns, innermost
first. -/
def block? (fold : Bool) (blocks : List Nat) (s : Spot) : Option Scanned := do
  let (chomping, deeper, rest) ← blockSigns? (s.rest.drop 1)
  let start ← (s.upTo rest).pastLine?
  let depth ← match deeper with
    | some n => some (blocks.headD 0 + n)
    | none =>
      (indentation? 0 start.column start.rest).map fun n =>
        max (max n ((blocks.head?.map (· + 1)).getD 0)) 1
  let (b, after) ←
    blockLines fold depth ⟨[], none, [], false⟩ false start.line start.column start.rest
  return ⟨b.chomped chomping, true, after⟩

end Recalc.Yaml
