/-
Recalc/Formula/NameTable.lean

Names and sheets of a workbook, and what a reference text means there.

Names and sheets are found whatever the case of their ASCII letters.  Of names that
differ in case only the last one counts, of sheets the first, whose spelling becomes
the spelling of all.  A workbook that declares no sheets accepts every sheet.
-/
import Recalc.Formula.Expr

namespace Recalc

/-- A name for a cell or a range. -/
structure NamedTarget where
  name : String
  target : Target
deriving DecidableEq, Repr

/-- Why a text is no reference. -/
inductive ResolveError
  | unknownReference (text : String)
  | unknownSheet (sheet : String)
deriving DecidableEq, Repr

/-- The wording of a resolve error. -/
def ResolveError.message : ResolveError → String
  | .unknownReference text => s!"unknown reference '{text}'"
  | .unknownSheet sheet => s!"unknown sheet '{sheet}'"

/-- The names and sheets of a workbook, by their upper-case spelling. -/
structure NameTable where
  names : Std.TreeMap String NamedTarget
  sheets : Std.TreeMap String String

namespace NameTable

/-- The table of the given names and sheets. -/
def ofLists (names : List NamedTarget) (sheets : List String) : NameTable where
  names := names.foldl (fun m n => m.insert (Text.upperAscii n.name) n) ∅
  sheets := sheets.foldl (fun m s => m.insertIfNew (Text.upperAscii s) s) ∅

/-- The target of a name. -/
def find? (t : NameTable) (name : String) : Option NamedTarget :=
  t.names[Text.upperAscii name]?

/-- The names, sorted by their upper-case spelling. -/
def namedTargets (t : NameTable) : List NamedTarget := t.names.values

/-- The declared spelling of a sheet. -/
def canonicalSheet? (t : NameTable) (sheet : String) : Option String :=
  if t.sheets.isEmpty then some sheet else t.sheets[Text.upperAscii sheet]?

/-- The sheet is declared, or any sheet is accepted. -/
def knowsSheet (t : NameTable) (sheet : String) : Bool :=
  (t.canonicalSheet? sheet).isSome

/-- Cut a text at its first colon. -/
def cutColon (cs : List Char) : Option (List Char × List Char) :=
  match cs.dropWhile (· ≠ ':') with
  | _ :: tail => some (cs.takeWhile (· ≠ ':'), tail)
  | [] => none

/-- The range between two texts: two addresses, two columns or two rows. -/
def rangeTarget? (sheet one other : String) : Option Target :=
  match Address.parse one, Address.parse other with
  | .ok a, .ok b =>
    (CellRange.ofCorners (.ofAddress sheet a) (.ofAddress sheet b)).toOption.map .range
  | _, _ =>
    match Address.column? one, Address.column? other with
    | some a, some b => some (.range (.wholeColumns sheet a b))
    | _, _ =>
      match Address.row? one, Address.row? other with
      | some a, some b => some (.range (.wholeRows sheet a b))
      | _, _ => none

/-- The target of an address text on a sheet. -/
def addressTarget? (sheet text : String) : Option Target :=
  match cutColon text.toList with
  | none => (Address.parse text).toOption.map fun a => .cell (.ofAddress sheet a)
  | some (one, other) => rangeTarget? sheet (String.ofList one) (String.ofList other)

/-- What a reference text means on a sheet.  A name counts before an address; a qualified text is
never a name. -/
def resolve (t : NameTable) (text sheet : String) : Except ResolveError Reference :=
  let text := Text.trim text
  let addressOn (sheet address : String) : Except ResolveError Reference :=
    match addressTarget? sheet address with
    | some target => .ok ⟨target, none⟩
    | none => .error (.unknownReference text)
  match SheetName.splitQualifier text with
  | (some qualifier, address) =>
    match t.canonicalSheet? qualifier with
    | some canonical => addressOn canonical address
    | none => .error (.unknownSheet qualifier)
  | (none, address) =>
    match t.find? address with
    | some named => .ok ⟨named.target, some named.name⟩
    | none => addressOn ((t.canonicalSheet? sheet).getD sheet) address

end NameTable

end Recalc
