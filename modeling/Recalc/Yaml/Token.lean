/-
Recalc/Yaml/Token.lean

The tokens of YAML text, and those among them that are read on one line: anchors, aliases,
tags and directives.

A tag is a name of the application behind one exclamation mark, a handle between two of them
with a name behind it, or written out between angle brackets.  An octet may be escaped by a
percent sign; octets above ASCII are checked to come in the order of UTF-8, and nothing
counts behind a null.
-/
import Recalc.Yaml.Basic
import Recalc.Yaml.Spot

namespace Recalc.Yaml

/-- A token.  Block collections begin with a token that no character stands for, and end so. -/
inductive Token
  /-- The version of the format. -/
  | version (major minor : Nat)
  /-- What a handle of tags stands for. -/
  | handle (name stem : String)
  | documentStart
  | documentEnd
  | blockSequence
  | blockMapping
  | blockEnd
  | flowSequence
  | flowSequenceEnd
  | flowMapping
  | flowMappingEnd
  /-- The dash of an item. -/
  | item
  | comma
  /-- What follows is a key. -/
  | key
  /-- What follows is a value. -/
  | value
  | alias (name : String)
  | anchor (name : String)
  | tag (handle suffix : String)
  | scalar (style : Style) (text : String)
deriving DecidableEq, Repr

/-! ### Anchors and aliases -/

/-- The name behind the first of some characters, and what follows it. -/
def anchorName? (cs : List Char) : Option (String × List Char) :=
  let body := cs.drop 1
  let name := body.takeWhile isWord
  let rest := body.dropWhile isWord
  if name ≠ [] ∧ (parts rest ∨ rest.head?.any ("?:,]\x7d%@\x60".toList.contains ·)) then
    some (String.ofList name, rest)
  else none

/-! ### Tags -/

/-- Characters of tags, with those that only stand between angle brackets. -/
def isTagPart (verbatim : Bool) (c : Char) : Bool :=
  isWord c || ";/?:@&=+$.!~*'()".toList.contains c || verbatim && (c == ',' || c == '[' || c == ']')

/-- How many octets follow a leading one. -/
def octetsBehind? (octet : Nat) : Option Nat :=
  if octet < 0x80 then some 0
  else if octet < 0xC0 then none
  else if octet < 0xE0 then some 1
  else if octet < 0xF0 then some 2
  else if octet < 0xF8 then some 3
  else none

/-- The part of a tag from here on, with `due` escaped octets to come next, and what follows.
An octet is given as the character of its number. -/
def tagPart? (verbatim : Bool) (acc : List Char) : Nat → List Char → Option (List Char × List Char)
  | due, '%' :: a :: b :: rest => do
    let octet := (← Json.hexDigit? a) * 16 + (← Json.hexDigit? b)
    match due with
    | 0 => tagPart? verbatim (Char.ofNat octet :: acc) (← octetsBehind? octet) rest
    | due + 1 =>
      if 0x80 ≤ octet ∧ octet < 0xC0 then tagPart? verbatim (Char.ofNat octet :: acc) due rest
      else none
  | 0, c :: rest =>
    if isTagPart verbatim c then tagPart? verbatim (c :: acc) 0 rest
    else if c == '%' then none
    else some (acc.reverse, c :: rest)
  | 0, [] => some (acc.reverse, [])
  | _ + 1, _ => none

/-- What counts of a part of a tag. -/
def countingPart (cs : List Char) : String := String.ofList (cs.takeWhile (· != '\x00'))

/-- The part of a tag, at least one character long, and what follows. -/
def fullPart? (verbatim : Bool) (cs : List Char) : Option (String × List Char) := do
  let (part, rest) ← tagPart? verbatim [] 0 cs
  if part = [] then none else some (countingPart part, rest)

/-- The exclamation mark in front, the word behind it, and the second mark, if there is one. -/
def handleChars (cs : List Char) : List Char :=
  let word := (cs.drop 1).takeWhile isWord
  cs.take (if (cs.drop (1 + word.length)).head? == some '!' then word.length + 2
    else word.length + 1)

/-- A handle and not only the begin of a name. -/
def isHandle (cs : List Char) : Bool := 1 < cs.length && cs.getLast? == some '!'

/-- The tag that begins here, as a handle and what follows it, and the text behind it; a tag
that is written out has no handle. -/
def tag? (flow : Bool) (cs : List Char) : Option (String × String × List Char) := do
  let (handle, suffix, rest) ← match cs with
    | '!' :: '<' :: body => do
      let (part, rest) ← fullPart? true body
      match rest with
      | '>' :: rest => some ("", part, rest)
      | _ => none
    | _ =>
      let handle := handleChars cs
      if isHandle handle then
        (fullPart? false (cs.drop handle.length)).map fun (part, rest) =>
          (String.ofList handle, part, rest)
      else
        (tagPart? false [] 0 (cs.drop 1)).map fun (part, rest) =>
          let name := countingPart part
          if name = "" then ("", "!", rest) else ("!", name, rest)
  if parts rest || flow && rest.head? == some ',' then some (handle, suffix, rest) else none

/-! ### Directives -/

/-- A number of at most nine digits and what follows it. -/
def versionNumber? (cs : List Char) : Option (Nat × List Char) :=
  let digits := cs.takeWhile Char.isDigit
  if digits = [] ∨ 9 < digits.length then none
  else some (Decimal.ofDigits digits, cs.dropWhile Char.isDigit)

/-- The version behind the name of its directive. -/
def version? (cs : List Char) : Option (Token × List Char) := do
  let (major, rest) ← versionNumber? (cs.dropWhile isBlank)
  match rest with
  | '.' :: rest => (versionNumber? rest).map fun (minor, rest) => (.version major minor, rest)
  | _ => none

/-- The handle behind the name of its directive, and what it stands for. -/
def handle? (cs : List Char) : Option (Token × List Char) := do
  let body := cs.dropWhile isBlank
  let name := handleChars body
  let rest := body.drop name.length
  if name.head? == some '!' && (isHandle name || name == ['!']) &&
      rest.head?.any isBlank then
    let (stem, rest) ← fullPart? true (rest.dropWhile isBlank)
    if parts rest then some (.handle (String.ofList name) stem, rest) else none
  else none

/-- The directive that begins here, and what follows it on its line. -/
def directive? (cs : List Char) : Option (Token × List Char) :=
  let body := cs.drop 1
  let rest := body.dropWhile isWord
  if !parts rest then none
  else
    match String.ofList (body.takeWhile isWord) with
    | "YAML" => version? rest
    | "TAG" => handle? rest
    | _ => none

end Recalc.Yaml
