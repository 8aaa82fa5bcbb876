/-
Recalc/Yaml/Lexer.lean

YAML text as tokens.

Whether a node is a key is known only at the colon behind it.  So the lexer remembers the
place of a node that may be a key, and puts the token of the key, and that of a block mapping
which it begins, there afterwards.  A key lies on one line and its colon within 1024 columns.
Each level of brackets has a pending key of its own.

Block collections nest by column: a deeper one begins with a token of its own, and a line that
stands before its column ends it.  Inside brackets columns mean nothing.

Design.  Every step passes at least one character, so a step for each and one for the end are
enough.
-/
import Recalc.Yaml.Scalar
import Recalc.Yaml.Token

namespace Recalc.Yaml

/-- A node that may turn out to be a key. -/
structure PendingKey where
  /-- The number of tokens before it. -/
  position : Nat
  line : Nat
  column : Nat
  /-- Nothing but a key can stand there. -/
  required : Bool

namespace PendingKey

/-- The colon of the key has to come before this many columns have passed. -/
def span : Nat := 1024

/-- The node is no key any more, seen from a place behind it. -/
def isStale (k : PendingKey) (s : Spot) : Bool :=
  k.line < s.line || k.column + span < s.column

/-- The key, if it still may be one; none if it has to be one and is not. -/
def settle? (s : Spot) : Option PendingKey → Option (Option PendingKey)
  | none => some none
  | some k => if k.isStale s then if k.required then none else some none else some (some k)

end PendingKey

/-- The state between two tokens. -/
structure Lexer where
  spot : Spot
  /-- The columns of the open block collections, innermost first. -/
  blocks : List Nat
  /-- The node at this level that may be a key. -/
  pending : Option PendingKey
  /-- Those of the levels around the open brackets, innermost first. -/
  outer : List (Option PendingKey)
  /-- A key, or an item of a block, may begin here. -/
  keyAllowed : Bool
  tokens : Array Token

namespace Lexer

/-- Brackets are open. -/
def inFlow (l : Lexer) : Bool := !l.outer.isEmpty

/-- The column from which on a line belongs to the innermost block collection. -/
def margin (l : Lexer) : Nat := (l.blocks.head?.map (· + 1)).getD 0

/-- One more token. -/
def emit (l : Lexer) (t : Token) : Lexer := { l with tokens := l.tokens.push t }

/-- A token of some characters of the line. -/
def take (l : Lexer) (count : Nat) (t : Token) : Lexer :=
  { l with spot := l.spot.past count, tokens := l.tokens.push t }

/-! ### Pending keys -/

/-- The pending node is no key; none if it has to be one. -/
def forget? (l : Lexer) : Option Lexer :=
  if l.pending.any (·.required) then none else some { l with pending := none }

/-- The node that begins here may be a key. -/
def remember? (l : Lexer) : Option Lexer :=
  if l.keyAllowed then
    l.forget?.map fun l => { l with
      pending := some ⟨l.tokens.size, l.spot.line, l.spot.column,
        !l.inFlow && l.blocks.head? == some l.spot.column⟩ }
  else some l

/-- What is still pending here. -/
def settle? (l : Lexer) : Option Lexer := do
  return { l with
    pending := ← PendingKey.settle? l.spot l.pending
    outer := ← l.outer.mapM (PendingKey.settle? l.spot) }

/-! ### Block collections -/

/-- Open a block collection at a column, if it is deeper than those around it, with its token
at the given position. -/
def openBlock (l : Lexer) (column position : Nat) (t : Token) : Lexer :=
  if !l.inFlow && l.margin ≤ column then
    { l with
      blocks := column :: l.blocks
      tokens := l.tokens.insertIdxIfInBounds position t }
  else l

/-- Leave only some of the outermost block collections open. -/
def closeDownTo (l : Lexer) (blocks : List Nat) : Lexer :=
  if l.inFlow then l
  else
    { l with
      blocks
      tokens := l.tokens ++ Array.replicate (l.blocks.length - blocks.length) Token.blockEnd }

/-- Close the block collections deeper than a column. -/
def closeBeyond (l : Lexer) (column : Nat) : Lexer :=
  l.closeDownTo (l.blocks.dropWhile (column < ·))

/-- Close every block collection. -/
def closeAll (l : Lexer) : Lexer := l.closeDownTo []

/-- Open a block collection here, which a key or an item must be able to begin. -/
def beginBlock? (l : Lexer) (t : Token) : Option Lexer :=
  if l.inFlow then some l
  else if l.keyAllowed then some (l.openBlock l.spot.column l.tokens.size t)
  else none

/-! ### Tokens -/

/-- The item whose dash is here. -/
def item? (l : Lexer) : Option Lexer := do
  let l ← (← l.beginBlock? .blockSequence).forget?
  return { l.take 1 .item with keyAllowed := true }

/-- The key whose question mark is here. -/
def key? (l : Lexer) : Option Lexer := do
  let l ← (← l.beginBlock? .blockMapping).forget?
  return { l.take 1 .key with keyAllowed := !l.inFlow }

/-- The value whose colon is here, and the key before it. -/
def value? (l : Lexer) : Option Lexer :=
  match l.pending with
  | some k =>
    let l := { l with tokens := l.tokens.insertIdxIfInBounds k.position .key }
    let l := l.openBlock k.column k.position .blockMapping
    some { l.take 1 .value with pending := none, keyAllowed := false }
  | none =>
    (l.beginBlock? .blockMapping).map fun l => { l.take 1 .value with keyAllowed := !l.inFlow }

/-- A bracket that opens. -/
def openFlow? (l : Lexer) (t : Token) : Option Lexer :=
  l.remember?.map fun l =>
    { l.take 1 t with pending := none, outer := l.pending :: l.outer, keyAllowed := true }

/-- A bracket that closes. -/
def closeFlow? (l : Lexer) (t : Token) : Option Lexer :=
  l.forget?.map fun l =>
    { l.take 1 t with
      pending := l.outer.head?.getD none, outer := l.outer.tail, keyAllowed := false }

/-- A comma. -/
def comma? (l : Lexer) : Option Lexer :=
  l.forget?.map fun l => { l.take 1 .comma with keyAllowed := true }

/-- The mark of a document, which ends all that is open. -/
def marker? (l : Lexer) (t : Token) : Option Lexer :=
  l.closeAll.forget?.map fun l => { l.take 3 t with keyAllowed := false }

/-- A directive with its line. -/
def directive? (l : Lexer) : Option Lexer := do
  let l ← l.closeAll.forget?
  let (t, rest) ← Yaml.directive? l.spot.rest
  let after ← (l.spot.upTo rest).pastLine?
  return { l.emit t with spot := after, keyAllowed := false }

/-- A token before a node, which may be the node's key. -/
def property? (l : Lexer) (t : Token) (rest : List Char) : Option Lexer :=
  l.remember?.map fun l => { l.emit t with spot := l.spot.upTo rest, keyAllowed := false }

/-- A scalar that may be a key. -/
def scalar? (l : Lexer) (style : Style) (s : Scanned) : Option Lexer :=
  l.remember?.map fun l =>
    { l.emit (.scalar style s.text) with spot := s.after, keyAllowed := s.broken }

/-- A scalar line by line. -/
def block? (l : Lexer) (style : Style) : Option Lexer := do
  let l ← l.forget?
  let s ← Yaml.block? (style == .folded) l.blocks l.spot
  return { l.emit (.scalar style s.text) with spot := s.after, keyAllowed := true }

/-- Whether a plain scalar can begin with a character that nothing else begins with. -/
def startsPlain (c : Char) : Bool :=
  !(parts [c] || "#|>%@\x60".toList.contains c)

/-- The token that begins here with the given character. -/
def token? (l : Lexer) (c : Char) (rest : List Char) : Option Lexer :=
  if l.spot.column == 0 && c == '%' then l.directive?
  else if l.spot.isMarker '-' then l.marker? .documentStart
  else if l.spot.isMarker '.' then l.marker? .documentEnd
  else if c == '[' then l.openFlow? .flowSequence
  else if c == '\x7b' then l.openFlow? .flowMapping
  else if c == ']' then l.closeFlow? .flowSequenceEnd
  else if c == '\x7d' then l.closeFlow? .flowMappingEnd
  else if c == ',' then l.comma?
  else if c == '-' && parts rest then l.item?
  else if c == '?' && (l.inFlow || parts rest) then l.key?
  else if c == ':' && (l.inFlow || parts rest) then l.value?
  else if c == '*' then do
    let (name, rest) ← anchorName? l.spot.rest
    l.property? (.alias name) rest
  else if c == '&' then do
    let (name, rest) ← anchorName? l.spot.rest
    l.property? (.anchor name) rest
  else if c == '!' then do
    let (handle, suffix, rest) ← tag? l.inFlow l.spot.rest
    l.property? (.tag handle suffix) rest
  else if c == '|' && !l.inFlow then l.block? .literal
  else if c == '>' && !l.inFlow then l.block? .folded
  else if c == '\'' || c == '"' then do l.scalar? .quoted (← quoted? l.spot)
  else if startsPlain c then do l.scalar? .plain (← plain? l.inFlow l.margin l.spot)
  else none

/-! ### The whole text -/

/-- Where the next token begins, and whether a key may begin there, behind blanks, comments
and line breaks.  Outside brackets a line break allows a key, and a tab may not stand where a key
may.  A byte order mark may stand in front of a line. -/
def nextToken (flow comment keyAllowed : Bool) : Nat → Nat → List Char → Spot × Bool
  | line, column, [] => (⟨[], line, column⟩, keyAllowed)
  | line, column, c :: rest =>
    if isBreak c then nextToken flow false (keyAllowed || !flow) (line + 1) 0 rest
    else if comment then nextToken flow true keyAllowed line (column + 1) rest
    else if column == 0 && c == '\ufeff' || c == ' ' || c == '\t' && (flow || !keyAllowed) then
      nextToken flow false keyAllowed line (column + 1) rest
    else if c == '#' then nextToken flow true keyAllowed line (column + 1) rest
    else (⟨c :: rest, line, column⟩, keyAllowed)

/-- Before the next token, or at the end of the text. -/
def approach? (l : Lexer) : Option Lexer := do
  let (spot, keyAllowed) :=
    nextToken l.inFlow false l.keyAllowed l.spot.line l.spot.column l.spot.rest
  let l ← { l with spot, keyAllowed }.settle?
  return l.closeBeyond l.spot.column

/-- The tokens up to the end of the text. -/
def run? : Nat → Lexer → Option (List Token)
  | 0, _ => none
  | fuel + 1, l => do
    let l ← l.approach?
    match l.spot.rest with
    | [] => l.closeAll.forget?.map (·.tokens.toList)
    | c :: rest => run? fuel (← l.token? c rest)

end Lexer

/-- The tokens of a text with line breaks of one kind. -/
def tokens? (cs : List Char) : Option (List Token) :=
  Lexer.run? (cs.length + 1) ⟨⟨cs, 0, 0⟩, [], none, [], true, #[]⟩

end Recalc.Yaml
