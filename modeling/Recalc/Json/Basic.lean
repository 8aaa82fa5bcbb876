/-
Recalc/Json/Basic.lean

JSON documents and the reading of typed data out of them.

An object keeps its fields in the order written, repeated names included.  A number
without fraction and exponent is an integer, any other a double; a literal too large for
a double reads as infinity, which no typed reader accepts.  A string that holds half of a
surrogate pair is grammatical but denotes no text, and an object with such a name no record;
both are kept as `unpaired`.

A record is read by field names or, from an array, by position.  Names it does not know
are passed over, a repeated name that it knows makes the record unreadable.
-/
import Recalc.Number.Text

namespace Recalc

/-- A JSON document. -/
inductive Json
  | null
  | bool (b : Bool)
  | int (n : Int)
  | float (x : Float)
  | string (s : String)
  /-- A string with half of a surrogate pair, or an object with such a name. -/
  | unpaired
  | array (items : List Json)
  | object (fields : List (String × Json))

namespace Json

instance : Inhabited Json := ⟨.null⟩

/-! ### Typed reading -/

/-- A truth value. -/
def bool? : Json → Option Bool
  | .bool b => some b
  | _ => none

/-- A text. -/
def string? : Json → Option String
  | .string s => some s
  | _ => none

/-- A natural below a limit, written as an integer. -/
def natBelow? (limit : Nat) : Json → Option Nat
  | .int n => if 0 ≤ n ∧ n < limit then some n.toNat else none
  | _ => none

/-- A finite double, or the double nearest to an integer. -/
def float? : Json → Option Float
  | .float x => if x.isFinite then some x else none
  | .int n =>
    let x := Binary64.ofRatio (decide (n < 0)) n.natAbs 1
    if x.isFinite then some x else none
  | _ => none

/-- A list whose items all read. -/
def list? {α : Type} (read : Json → Option α) : Json → Option (List α)
  | .array items => items.mapM read
  | _ => none

/-- `null`, or what reads. -/
def optional? {α : Type} (read : Json → Option α) : Json → Option (Option α)
  | .null => some none
  | j => (read j).map some

/-- One of some names, as a text or as the only field of an object whose value is `null`. -/
def oneOf? {α : Type} (named : String → Option α) : Json → Option α
  | .string s => named s
  | .object [(s, .null)] => named s
  | _ => none

/-- The fields of a record under the given names, each present or not. -/
def record? (names : List String) : Json → Option (List (Option Json))
  | .object fields =>
    let known := fields.filter fun f => names.contains f.1
    if (known.map Prod.fst).Nodup then some (names.map fun name => List.lookup name known) else none
  | .array items =>
    if items.length ≤ names.length then
      some (items.map some ++ List.replicate (names.length - items.length) none)
    else none
  | _ => none

/-- A field that must be there. -/
def required? {α : Type} (read : Json → Option α) : Option Json → Option α
  | some j => read j
  | none => none

/-- A field that may be missing. -/
def orElse? {α : Type} (default : α) (read : Json → Option α) : Option Json → Option α
  | some j => read j
  | none => some default

/-! ### Looking up -/

/-- The first field of a name. -/
def field? (name : String) : Json → Option Json
  | .object fields => List.lookup name fields
  | _ => none

/-- An object without the fields whose value is missing. -/
def ofFields (fields : List (String × Option Json)) : Json :=
  .object (fields.filterMap fun (name, value) => value.map (name, ·))

/-- A natural as a number. -/
def nat (n : Nat) : Json := .int n

end Json

end Recalc
