/-
Recalc/Eval/Criterion.lean

Criteria of the conditional aggregates: a value that cells must equal, or a text with an
order sign in front, such as `>=10`, `<>x` or `a*`.

A text with a line break in it has no sign and is wanted as it stands.  What follows the
sign is a blank, a number, a truth value or a text, in this order of preference; a text
may be a pattern.  Blank cells satisfy no order.
-/
import Recalc.Eval.Comparison
import Recalc.Eval.Wildcard
import Recalc.Text.Blank

namespace Recalc

/-- How a cell must stand to the wanted value. -/
inductive Relation
  | equal
  | notEqual
  | less
  | lessEqual
  | greater
  | greaterEqual
deriving DecidableEq, Repr

/-- The wanted value. -/
inductive Wanted
  | number (x : Float)
  | boolean (b : Bool)
  /-- A text in lower case, which may be a pattern. -/
  | text (lower : String) (isPattern : Bool)
  | blank

/-- A condition on a cell. -/
structure Criterion where
  relation : Relation
  wanted : Wanted

namespace Criterion

/-- The order sign in front, and the rest. -/
def splitSign : List Char → Relation × List Char
  | '<' :: '=' :: rest => (.lessEqual, rest)
  | '>' :: '=' :: rest => (.greaterEqual, rest)
  | '<' :: '>' :: rest => (.notEqual, rest)
  | '<' :: rest => (.less, rest)
  | '>' :: rest => (.greater, rest)
  | '=' :: rest => (.equal, rest)
  | cs => (.equal, cs)

/-- The value that a text wants. -/
def wantedText (s : String) : Wanted :=
  if s = "" then .blank
  else match readFloat? (Text.trim s) with
    | some x => .number x
    | none =>
      if Text.sameIgnoringCase s "TRUE" then .boolean true
      else if Text.sameIgnoringCase s "FALSE" then .boolean false
      else .text (Text.lower s) (Wildcard.isPattern s)

/-- The criterion that a text spells. -/
def ofText (s : String) : Criterion :=
  if s.toList.contains '\n' then ⟨.equal, wantedText s⟩
  else
    let (relation, rest) := splitSign s.toList
    ⟨relation, wantedText (String.ofList rest)⟩

/-- The criterion that a value spells. -/
def ofValue : Value → Criterion
  | .number x => ⟨.equal, .number x⟩
  | .date x => ⟨.equal, .number x⟩
  | .boolean b => ⟨.equal, .boolean b⟩
  | .empty => ⟨.equal, .blank⟩
  | .error _ => ⟨.equal, .blank⟩
  | .text s => ofText s

/-- Whether a value is the wanted one. -/
def equals (tolerance : Float) : Wanted → Value → Bool
  | .blank, .empty => true
  | .blank, .text s => s == ""
  | .number x, .number y => near tolerance x y
  | .number x, .date y => near tolerance x y
  | .number x, .text s => (readFloat? (Text.trim s)).any (near tolerance x)
  | .boolean a, .boolean b => a == b
  | .text t isPattern, .text s =>
    if isPattern then Wildcard.isMatch t (Text.lower s) else t == Text.lower s
  | _, _ => false

/-- Whether a value stands in an accepted order to the wanted one. -/
def ordered (tolerance : Float) (accept : Ordering → Bool) (wanted : Wanted) (v : Value) : Bool :=
  if v.isEmpty then false
  else
    let against (w : Value) : Bool := (v.compare? tolerance w).any accept
    match wanted with
    | .number x => against (.number x)
    | .boolean b => against (.boolean b)
    | .text t _ => against (.text t)
    | .blank => false

/-- Whether a value satisfies the criterion. -/
def accepts (tolerance : Float) (c : Criterion) (v : Value) : Bool :=
  match c.relation with
  | .equal => equals tolerance c.wanted v
  | .notEqual => !equals tolerance c.wanted v
  | .less => ordered tolerance Ordering.isLT c.wanted v
  | .lessEqual => ordered tolerance Ordering.isLE c.wanted v
  | .greater => ordered tolerance Ordering.isGT c.wanted v
  | .greaterEqual => ordered tolerance Ordering.isGE c.wanted v

end Criterion

end Recalc
