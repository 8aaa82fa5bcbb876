/-
Recalc/Formula/Parser.lean

Token lists as trees.  From loosest to tightest: comparisons, `&`, `+` and `-`, `*` and
`/`, `^`, signs in front, `%` behind.  All but `^` group to the left.

    level 4 = level 3 (comparison level 3)*      level 0 = power
    level 3 = level 2 (& level 2)*               power   = signed (^ power)?
    level 2 = level 1 (+- level 1)*              signed  = (+-) signed | primary %*
    level 1 = level 0 (*/ level 0)*

References are resolved and calls checked as they are read, so the leftmost fault of a
well-spelt formula is the one told.  Calls of unknown functions and references that are
only known once computed are kept and flagged.

Design.  The functions recurse on an allowance of steps; `allowance` steps are enough
for every token list, since at most ten calls are nested per token.
-/
import Recalc.Formula.Function
import Recalc.Formula.Lexer
import Recalc.Formula.NameTable

namespace Recalc

/-- Why a part of a formula is not supported. -/
inductive UnsupportedReason
  | dynamicReference
  | unknownFunction
deriving DecidableEq, Repr

/-- The name of a reason. -/
def UnsupportedReason.tag : UnsupportedReason → String
  | .dynamicReference => "DynamicReference"
  | .unknownFunction => "UnknownFunction"

/-- A call that is not supported. -/
structure Unsupported where
  /-- Where the function name stands in the formula. -/
  position : Nat
  function : String
  reason : UnsupportedReason
deriving DecidableEq, Repr

/-- Where a formula stands and what it may refer to. -/
structure FormulaContext where
  sheet : String
  names : NameTable
  functions : Registry

/-- A formula that was read. -/
structure Formula where
  source : String
  expr : Expr
  /-- Unsupported calls, inner ones before those around them. -/
  unsupported : List Unsupported

/-- The targets referred to, from left to right. -/
def Formula.dependencies (f : Formula) : List Target := f.expr.references.map Reference.target

namespace Parser

/-- The tokens still to read, and the calls flagged so far. -/
structure Cursor where
  rest : List Token
  flagged : List Unsupported

namespace Cursor

/-- The next token. -/
def token (c : Cursor) : Token := c.rest.headD ⟨.eof, 0, 0⟩

/-- The kind of the next token. -/
def kind (c : Cursor) : TokenKind := c.token.kind

/-- Behind the next token; the end of the formula is never passed. -/
def skip (c : Cursor) : Cursor :=
  match c.rest with
  | [] => c
  | ⟨.eof, _, _⟩ :: _ => c
  | _ :: rest => { c with rest }

/-- One more flagged call. -/
def flag (c : Cursor) (u : Unsupported) : Cursor := { c with flagged := c.flagged ++ [u] }

end Cursor

/-- A fault at a token. -/
def failAt {α : Type} (t : Token) (fault : SyntaxFault) : Except FormulaError α :=
  .error (.parse t.pos fault)

/-! ### References -/

/-- The text of a token that may be one side of a reference. -/
def referencePart? : TokenKind → Option String
  | .cell text => some text
  | .identifier name => some name
  | .number _ text => some text
  | _ => none

/-- The target of a reference text, which starts at `pos`. -/
def resolveAt (ctx : FormulaContext) (sheet : Option String) (text : String) (pos : Nat)
    (c : Cursor) : Except FormulaError (Expr × Cursor) :=
  let text :=
    match sheet with
    | some sheet => SheetName.written sheet ++ "!" ++ text
    | none => text
  match ctx.names.resolve text ctx.sheet with
  | .ok r => .ok (.reference r, c)
  | .error _ => .error (.unknownReference pos text)

/-- The rest of a reference whose first part is read. -/
def reference (ctx : FormulaContext) (sheet : Option String) (text : String) (pos : Nat)
    (c : Cursor) : Except FormulaError (Expr × Cursor) :=
  match c.kind with
  | .colon =>
    let last := c.skip.token
    match referencePart? last.kind with
    | some lastText => resolveAt ctx sheet (text ++ ":" ++ lastText) pos c.skip.skip
    | none => failAt last (.noReferenceAfterColon last.kind)
  | _ => resolveAt ctx sheet text pos c

/-- The rest of a reference whose sheet, at `pos`, is read. -/
def qualified (ctx : FormulaContext) (sheet : String) (pos : Nat) (c : Cursor) :
    Except FormulaError (Expr × Cursor) :=
  match c.kind with
  | .bang =>
    let t := c.skip.token
    match referencePart? t.kind with
    | some text => reference ctx (some sheet) text pos c.skip.skip
    | none => failAt t (.noReferenceAfterSheet sheet t.kind)
  | _ => .error (.parse pos (.missingBang sheet))

/-! ### Arrays -/

/-- The truth value that a name spells. -/
def boolean? (name : String) : Option Bool :=
  if Text.sameIgnoringCase name "TRUE" then some true
  else if Text.sameIgnoringCase name "FALSE" then some false
  else none

/-- A number behind its sign. -/
def signedConstant (sign : Float → Float) (c : Cursor) : Except FormulaError (Value × Cursor) :=
  match c.kind with
  | .number x _ => .ok (.number (sign x), c.skip)
  | _ => failAt c.token .signWithoutNumber

/-- An element of an array. -/
def constant (c : Cursor) : Except FormulaError (Value × Cursor) :=
  match c.kind with
  | .minus => signedConstant (-·) c.skip
  | .plus => signedConstant id c.skip
  | .number x _ => .ok (.number x, c.skip)
  | .text s => .ok (.text s, c.skip)
  | .error f => .ok (.error f, c.skip)
  | .identifier name =>
    match boolean? name with
    | some b => .ok (.boolean b, c.skip)
    | none => failAt c.token .elementNotConstant
  | _ => failAt c.token .elementNotConstant

/-- The rows of an array up to and with its closing brace. -/
def arrayRows : Nat → Cursor → Except FormulaError (List (List Value) × Cursor)
  | 0, c => failAt c.token .tooDeep
  | fuel + 1, c => do
    let (v, c) ← constant c
    match c.kind with
    | .comma =>
      match ← arrayRows fuel c.skip with
      | (row :: rows, c) => return ((v :: row) :: rows, c)
      | ([], c) => return ([[v]], c)
    | .semicolon =>
      let (rows, c) ← arrayRows fuel c.skip
      return ([v] :: rows, c)
    | .rightBrace => return ([[v]], c.skip)
    | _ => failAt c.token .badArray

/-- Rows of one length. -/
def isRectangular (rows : List (List Value)) : Bool :=
  match rows with
  | [] => true
  | first :: rest => rest.all (·.length == first.length)

/-- The rest of an array whose opening brace, at `pos`, is read. -/
def array (pos : Nat) (c : Cursor) : Except FormulaError (Expr × Cursor) := do
  let (rows, c) ← arrayRows c.rest.length c
  if isRectangular rows then return (.array rows, c) else .error (.parse pos .raggedArray)

/-! ### Calls -/

/-- The number that a literal with signs in front spells. -/
def literalNumber? : Expr → Option Float
  | .literal (.number x) => some x
  | .unary .negate e => (literalNumber? e).map (-·)
  | .unary .plus e => literalNumber? e
  | _ => none

/-- A double as a whole number, far beyond the limits of a sheet at most. -/
def wholeOffset (x : Float) : Int := Binary64.clampInt (-0x10000000000) 0x10000000000 x

/-- The rectangle of the given size whose first cell lies at the given place; a reference fault
beyond the limits of the sheet. -/
def rectangle (sheet : String) (top left height width : Int) : Expr :=
  let bottom := top + height - 1
  let right := left + width - 1
  if 1 ≤ height ∧ 1 ≤ width ∧ 1 ≤ top ∧ 1 ≤ left ∧ bottom ≤ maxRow ∧ right ≤ maxColumn then
    let first : Coordinate := ⟨sheet, left.toNat, top.toNat⟩
    if height = 1 ∧ width = 1 then .reference ⟨.cell first, none⟩
    else .reference ⟨.range ⟨first, ⟨sheet, right.toNat, bottom.toNat⟩⟩, none⟩
  else .literal (.error .reference)

/-- The first cell, the height and the width of a target. -/
def extent : Target → Coordinate × Nat × Nat
  | .cell c => (c, 1, 1)
  | .range r => (r.first, r.rows, r.columns)

/-- The target of an offset from a reference by literal numbers; none if a number is not
literal. -/
def offset? (args : List Expr) : Option Expr :=
  match args with
  | .reference base :: offsets => do
    let numbers ← offsets.mapM literalNumber?
    match numbers with
    | rows :: columns :: size =>
      let (origin, height, width) := extent base.target
      let height : Int := (size[0]?.map wholeOffset).getD height
      let width : Int := (size[1]?.map wholeOffset).getD width
      some (rectangle origin.sheet (origin.row + wholeOffset rows)
        (origin.column + wholeOffset columns) height width)
    | _ => none
  | _ => none

/-- The call of a function whose name stands at `pos`. -/
def call (ctx : FormulaContext) (name : String) (args : List Expr) (pos : Nat) (c : Cursor) :
    Except FormulaError (Expr × Cursor) :=
  let function := Text.upperAscii name
  match ctx.functions.find? function with
  | none => .ok (.call function args, c.flag ⟨pos, function, .unknownFunction⟩)
  | some f =>
    match f.arityFault? args.length (args.any Expr.isOmitted) with
    | some expected => .error (.arity pos function expected args.length)
    | none =>
      if f.kind = .dynamic then
        match if function = "OFFSET" then offset? args else none with
        | some e => .ok (e, c)
        | none => .ok (.dynamic function args, c.flag ⟨pos, function, .dynamicReference⟩)
      else .ok (.call function args, c)

/-! ### Expressions -/

/-- The operators between the operands of a level. -/
def operator? : Nat → TokenKind → Option BinaryOp
  | 1, .star => some .multiply
  | 1, .slash => some .divide
  | 2, .plus => some .add
  | 2, .minus => some .subtract
  | 3, .ampersand => some .concat
  | 4, .equal => some .equal
  | 4, .notEqual => some .notEqual
  | 4, .less => some .less
  | 4, .lessEqual => some .lessEqual
  | 4, .greater => some .greater
  | 4, .greaterEqual => some .greaterEqual
  | _, _ => none

/-- The level of whole expressions. -/
def topLevel : Nat := 4

/-- A tree with the percent signs behind it. -/
def percents (e : Expr) : List Token → Expr × List Token
  | [] => (e, [])
  | t :: rest =>
    match t.kind with
    | .percent => percents (.unary .percent e) rest
    | _ => (e, t :: rest)

/-- The next token separates or ends arguments, so the argument before it is omitted. -/
def endsArgument : TokenKind → Bool
  | .comma => true
  | .semicolon => true
  | .rightParen => true
  | _ => false

mutual

/-- An expression of a level. -/
def level (ctx : FormulaContext) : Nat → Nat → Cursor → Except FormulaError (Expr × Cursor)
  | 0, _, c => failAt c.token .tooDeep
  | fuel + 1, 0, c => power ctx fuel c
  | fuel + 1, n + 1, c => do
    let (left, c) ← level ctx fuel n c
    chain ctx fuel n left c

/-- More operands of level `n` behind `left`. -/
def chain (ctx : FormulaContext) : Nat → Nat → Expr → Cursor → Except FormulaError (Expr × Cursor)
  | 0, _, _, c => failAt c.token .tooDeep
  | fuel + 1, n, left, c =>
    match operator? (n + 1) c.kind with
    | some op => do
      let (right, c) ← level ctx fuel n c.skip
      chain ctx fuel n (.binary op left right) c
    | none => .ok (left, c)

/-- A power, which groups to the right. -/
def power (ctx : FormulaContext) : Nat → Cursor → Except FormulaError (Expr × Cursor)
  | 0, c => failAt c.token .tooDeep
  | fuel + 1, c => do
    let (base, c) ← signed ctx fuel c
    match c.kind with
    | .caret =>
      let (exponent, c) ← power ctx fuel c.skip
      return (.binary .power base exponent, c)
    | _ => return (base, c)

/-- An operand with its signs in front or its percent signs behind. -/
def signed (ctx : FormulaContext) : Nat → Cursor → Except FormulaError (Expr × Cursor)
  | 0, c => failAt c.token .tooDeep
  | fuel + 1, c =>
    match c.kind with
    | .plus => do
      let (operand, c) ← signed ctx fuel c.skip
      return (.unary .plus operand, c)
    | .minus => do
      let (operand, c) ← signed ctx fuel c.skip
      return (.unary .negate operand, c)
    | _ => do
      let (operand, c) ← primary ctx fuel c
      let (e, rest) := percents operand c.rest
      return (e, { c with rest })

/-- An operand without operators outside parentheses. -/
def primary (ctx : FormulaContext) : Nat → Cursor → Except FormulaError (Expr × Cursor)
  | 0, c => failAt c.token .tooDeep
  | fuel + 1, start =>
    let t := start.token
    let c := start.skip
    match t.kind with
    | .number x text =>
      match c.kind with
      | .colon => reference ctx none text t.pos c
      | _ => .ok (.literal (.number x), c)
    | .text s => .ok (.literal (.text s), c)
    | .error f => .ok (.literal (.error f), c)
    | .cell text => reference ctx none text t.pos c
    | .sheetName sheet => qualified ctx sheet t.pos c
    | .identifier name =>
      match c.kind with
      | .bang => qualified ctx name t.pos c
      | .leftParen => do
        let (args, c) ←
          match c.skip.kind with
          | .rightParen => .ok ([], c.skip.skip)
          | _ => arguments ctx fuel c.skip
        call ctx name args t.pos c
      | .colon => reference ctx none name t.pos c
      | _ =>
        match boolean? name with
        | some b => .ok (.literal (.boolean b), c)
        | none => reference ctx none name t.pos c
    | .leftBrace => array t.pos c
    | .leftParen => do
      let (e, c) ← level ctx fuel topLevel c
      match c.kind with
      | .rightParen => return (e, c.skip)
      | kind => failAt c.token (.expectedClose kind)
    | .eof => failAt t .unexpectedEnd
    | kind => failAt t (.unexpectedToken kind)

/-- Arguments up to and with the closing parenthesis. -/
def arguments (ctx : FormulaContext) : Nat → Cursor → Except FormulaError (List Expr × Cursor)
  | 0, c => failAt c.token .tooDeep
  | fuel + 1, c => do
    let (arg, c) ←
      if endsArgument c.kind then .ok (.literal .empty, c) else level ctx fuel topLevel c
    match c.kind with
    | .comma =>
      let (args, c) ← arguments ctx fuel c.skip
      return (arg :: args, c)
    | .semicolon =>
      let (args, c) ← arguments ctx fuel c.skip
      return (arg :: args, c)
    | .rightParen => return ([arg], c.skip)
    | _ => failAt c.token .badArgumentList

end

/-- Steps that are enough for a token list. -/
def allowance (tokens : List Token) : Nat := 10 * (tokens.length + 1)

/-- The expression that a token list starts with. -/
def expression (ctx : FormulaContext) (tokens : List Token) : Except FormulaError (Expr × Cursor) :=
  level ctx (allowance tokens) topLevel ⟨tokens, []⟩

end Parser

/-- Read a formula, which starts with `=`. -/
def Formula.parse (ctx : FormulaContext) (source : String) : Except FormulaError Formula := do
  let cs := source.toList
  let start := (cs.takeWhile Text.isBlank).length
  match cs.drop start with
  | '=' :: body =>
    if body.all Text.isBlank then .error (.parse (start + 1) .emptyFormula)
    else
      let tokens ← Lexer.tokens (start + 1) body
      let (expr, c) ← Parser.expression ctx tokens
      match c.kind with
      | .eof => return ⟨source, expr, c.flagged⟩
      | _ => .error (.parse c.token.pos .trailingInput)
  | _ => .error (.parse start .missingEquals)

end Recalc
