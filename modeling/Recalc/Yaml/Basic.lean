/-
Recalc/Yaml/Basic.lean

YAML documents and the reading of typed data out of them.

What a scalar denotes depends on what is wanted: `010` is a double and a text but no
natural, `0x10` a natural but no double.  So a scalar keeps its text and its style, for
only a plain one, or a literal one that is tagged so, is a number or a truth value.

An alias stands for the node of an anchor.  Readers follow the aliases that they meet, one
at a time, so a node may contain an alias of itself.

A record is read from a mapping.  Names it does not know are passed over, a repeated name
that it knows makes the record unreadable.
-/
import Recalc.Json.Reader

namespace Recalc

namespace Yaml

/-- How a scalar is written. -/
inductive Style
  | plain
  | quoted
  /-- Line by line, behind `|`. -/
  | literal
  /-- Line by line, behind `>`. -/
  | folded
deriving DecidableEq, Repr

/-- What stands in front of a node. -/
structure Properties where
  /-- The number of the anchor. -/
  anchor : Option Nat
  tag : Option String
deriving DecidableEq, Repr

/-- A node without properties. -/
def Properties.bare : Properties := ⟨none, none⟩

/-- A node of a document. -/
inductive Node
  | alias (anchor : Nat)
  | scalar (p : Properties) (style : Style) (text : String)
  | sequence (p : Properties) (items : List Node)
  | mapping (p : Properties) (entries : List (Node × Node))

/-- A node of which nothing is written. -/
def Node.blank : Node := .scalar .bare .plain ""

instance : Inhabited Node := ⟨Node.blank⟩

end Yaml

/-- A document, or a part of one: a node and the nodes that its aliases stand for, the one
that an alias means before others of the same number. -/
structure Yaml where
  anchors : List (Nat × Yaml.Node)
  root : Yaml.Node

namespace Yaml

/-- The node that is meant. -/
def target (y : Yaml) : Node :=
  match y.root with
  | .alias n => (y.anchors.lookup n).getD y.root
  | node => node

/-! ### Tags -/

/-- What the tags of the common types start with. -/
def commonStem : String := "tag:yaml.org,2002:"

/-- The tag of a common type. -/
def commonTag (type : String) : String := commonStem ++ type

/-- The name that a tag of the application's own gives, the exclamation mark alone being a
name too. -/
def localName? (tag : String) : Option String :=
  match tag.toList with
  | ['!'] => some "!"
  | '!' :: name => some (String.ofList name)
  | _ => none

/-! ### Typed reading -/

/-- The text of a scalar. -/
def text? (y : Yaml) : Option String :=
  match y.target with
  | .scalar _ _ text => some text
  | _ => none

/-- The text of a scalar that may denote a value of a common type. -/
def typedText? (type : String) (y : Yaml) : Option String :=
  match y.target with
  | .scalar _ .plain text => some text
  | .scalar p .literal text => if p.tag = some (commonTag type) then some text else none
  | _ => none

/-- The word means that there is nothing. -/
def isNullWord (text : String) : Bool := ["~", "null", "Null", "NULL"].contains text

/-- A truth value. -/
def bool? (y : Yaml) : Option Bool := do
  let text ← y.typedText? "bool"
  if ["true", "True", "TRUE"].contains text then some true
  else if ["false", "False", "FALSE"].contains text then some false
  else none

/-- A numeral of a base up to sixteen, at least one digit long. -/
def natInBase? (base : Nat) (digits : List Char) : Option Nat :=
  if digits = [] then none
  else digits.foldlM (fun n c => do
    let d ← Json.hexDigit? c
    if d < base then return base * n + d else none) 0

/-- A numeral, in base sixteen behind `0x`, eight behind `0o` and two behind `0b`; in base
ten it has no zeros in front. -/
def natOfChars? : List Char → Option Nat
  | '0' :: 'x' :: digits => natInBase? 16 digits
  | '0' :: 'o' :: digits => natInBase? 8 digits
  | '0' :: 'b' :: digits => natInBase? 2 digits
  | '0' :: _ :: _ => none
  | digits => natInBase? 10 digits

/-- A natural below a limit, a plus sign in front allowed. -/
def natBelow? (limit : Nat) (y : Yaml) : Option Nat := do
  let text ← y.typedText? "int"
  let n ← match text.toList with
    | '+' :: digits => natOfChars? digits
    | digits => natOfChars? digits
  if n < limit then some n else none

/-- A double: one of the spellings of infinity and of no number, or a decimal that a double
can approach. -/
def float? (y : Yaml) : Option Float := do
  let text ← y.typedText? "float"
  if [".inf", ".Inf", ".INF", "+.inf", "+.Inf", "+.INF"].contains text then some (1.0 / 0.0)
  else if ["-.inf", "-.Inf", "-.INF"].contains text then some (-1.0 / 0.0)
  else if [".nan", ".NaN", ".NAN"].contains text then some (0.0 / 0.0)
  else (readFloat? text).filter Float.isFinite

/-- Nothing, or what reads.  A node tagged as nothing has to say so in a word. -/
def optional? {α : Type} (read : Yaml → Option α) (y : Yaml) : Option (Option α) :=
  match y.target with
  | .scalar ⟨_, none⟩ .plain text =>
    if text = "" ∨ isNullWord text then some none else (read y).map some
  | .scalar ⟨_, some tag⟩ .plain text =>
    if tag = commonTag "null" then if isNullWord text then some none else none
    else (read y).map some
  | _ => (read y).map some

/-- One of some names: the text of a scalar, or the name that its tag gives if nothing else
is said. -/
def oneOf? {α : Type} (named : String → Option α) (y : Yaml) : Option α :=
  match y.target with
  | .scalar p style text =>
    match p.tag.bind localName? with
    | some name =>
      if style = .plain ∧ (text = "" ∨ isNullWord text) then named name else none
    | none => named text
  | _ => none

/-- The fields of a record under the given names, each present or not. -/
def record? (names : List String) (y : Yaml) : Option (List (Option Yaml)) :=
  match y.target with
  | .mapping _ entries => do
    let fields ← entries.mapM fun (key, value) =>
      (text? ⟨y.anchors, key⟩).map (·, Yaml.mk y.anchors value)
    let known := fields.filter fun f => names.contains f.1
    if (known.map Prod.fst).Nodup then some (names.map fun name => List.lookup name known) else none
  | .scalar _ .plain "" => some (names.map fun _ => none)
  | _ => none

/-- A field that must be there. -/
def required? {α : Type} (read : Yaml → Option α) (field : Option Yaml) : Option α :=
  field.bind read

/-- A field that may be missing. -/
def orElse? {α : Type} (default : α) (read : Yaml → Option α) : Option Yaml → Option α
  | some y => read y
  | none => some default

end Yaml

end Recalc
