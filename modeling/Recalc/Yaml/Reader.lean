/-
Recalc/Yaml/Reader.lean

YAML text as one document.

An anchor is numbered by the count of different names before it, and an alias has the number
that its name has last been given.  So when a name is given twice, the next new name shares its
number; what the number means is the last anchor that bears it.

Design.  Collections nest, so their readers take fuel; no more than three calls nest for a token.
-/
import Recalc.Yaml.Lexer

namespace Recalc.Yaml

/-! ### Anchors -/

mutual

/-- The anchored nodes in a node, in the order of their anchors. -/
def Node.anchored : Node → List (Nat × Node)
  | .alias _ => []
  | .scalar p style text => (p.anchor.map (·, Node.scalar p style text)).toList
  | .sequence p items => (p.anchor.map (·, Node.sequence p items)).toList ++ anchoredItems items
  | .mapping p entries =>
    (p.anchor.map (·, Node.mapping p entries)).toList ++ anchoredEntries entries

/-- The anchored nodes in the items of a sequence. -/
def anchoredItems : List Node → List (Nat × Node)
  | [] => []
  | item :: rest => item.anchored ++ anchoredItems rest

/-- The anchored nodes in the entries of a mapping. -/
def anchoredEntries : List (Node × Node) → List (Nat × Node)
  | [] => []
  | (key, value) :: rest => key.anchored ++ value.anchored ++ anchoredEntries rest

end

/-- Tokens to read, and the numbers of the anchors passed. -/
structure Feed where
  tokens : List Token
  numbers : List (String × Nat)

namespace Feed

/-- The feed when these tokens are left. -/
def leaving (f : Feed) (tokens : List Token) : Feed := { f with tokens }

/-- Number an anchor. -/
def name (f : Feed) (anchor : String) : Nat × Feed :=
  let n := f.numbers.length
  (n, { f with numbers := (anchor, n) :: f.numbers.filter (·.1 != anchor) })

end Feed

/-! ### Properties -/

/-- What handles of tags stand for. -/
abbrev Handles := List (String × String)

/-- The tag of a handle and what follows it; none if the handle is unknown. -/
def fullTag? (handles : Handles) (handle suffix : String) : Option String :=
  if handle = "" then some suffix else (handles.lookup handle).map (· ++ suffix)

/-- The properties in front of a node: an anchor and a tag, in either order. -/
def properties? (handles : Handles) (f : Feed) : Option (Properties × Feed) :=
  match f.tokens with
  | .anchor name :: .tag handle suffix :: rest => do
    let (n, f) := (f.leaving rest).name name
    return (⟨n, ← fullTag? handles handle suffix⟩, f)
  | .tag handle suffix :: .anchor name :: rest => do
    let (n, f) := (f.leaving rest).name name
    return (⟨n, ← fullTag? handles handle suffix⟩, f)
  | .anchor name :: rest =>
    let (n, f) := (f.leaving rest).name name
    some (⟨n, none⟩, f)
  | .tag handle suffix :: rest => do
    return (⟨none, ← fullTag? handles handle suffix⟩, f.leaving rest)
  | _ => some (.bare, f)

/-! ### Nodes -/

/-- Whether one of some tokens comes next. -/
def Feed.before (f : Feed) (ts : List Token) : Bool := f.tokens.head?.any ts.contains

mutual

/-- The node that begins here.  Block collections may begin only where `block` says so, and a
sequence at the column of the mapping around it only as its key or value. -/
def node? (handles : Handles) (block inEntry : Bool) : Nat → Feed → Option (Node × Feed)
  | 0, _ => none
  | fuel + 1, f =>
    match f.tokens with
    | .alias name :: rest => (f.numbers.lookup name).map fun n => (.alias n, f.leaving rest)
    | _ => do
      let (p, f) ← properties? handles f
      match f.tokens, block, inEntry with
      | .scalar style text :: rest, _, _ => some (.scalar p style text, f.leaving rest)
      | .flowSequence :: rest, _, _ =>
        (flowItems? handles true fuel (f.leaving rest)).map fun (items, f) => (.sequence p items, f)
      | .flowMapping :: rest, _, _ =>
        (flowEntries? handles true fuel (f.leaving rest)).map fun (entries, f) =>
          (.mapping p entries, f)
      | .item :: _, _, true =>
        (flushItems? handles fuel f).map fun (items, f) => (.sequence p items, f)
      | .blockSequence :: rest, true, _ =>
        (blockItems? handles fuel (f.leaving rest)).map fun (items, f) => (.sequence p items, f)
      | .blockMapping :: rest, true, _ =>
        (blockEntries? handles fuel (f.leaving rest)).map fun (entries, f) =>
          (.mapping p entries, f)
      | _, _, _ => if p = .bare then none else some (.scalar p .plain "", f)

/-- The node that begins here, or a blank one before some tokens. -/
def nodeUnless? (handles : Handles) (block inEntry : Bool) (ts : List Token) :
    Nat → Feed → Option (Node × Feed)
  | 0, _ => none
  | fuel + 1, f => if f.before ts then some (.blank, f) else node? handles block inEntry fuel f

/-- The items of a block sequence. -/
def blockItems? (handles : Handles) : Nat → Feed → Option (List Node × Feed)
  | 0, _ => none
  | fuel + 1, f =>
    match f.tokens with
    | .blockEnd :: rest => some ([], f.leaving rest)
    | .item :: rest => do
      let (item, f) ← nodeUnless? handles true false [.item, .blockEnd] fuel (f.leaving rest)
      let (items, f) ← blockItems? handles fuel f
      return (item :: items, f)
    | _ => none

/-- The items of a block sequence at the column of the mapping around it. -/
def flushItems? (handles : Handles) : Nat → Feed → Option (List Node × Feed)
  | 0, _ => none
  | fuel + 1, f =>
    match f.tokens with
    | .item :: rest => do
      let (item, f) ←
        nodeUnless? handles true false [.item, .key, .value, .blockEnd] fuel (f.leaving rest)
      let (items, f) ← flushItems? handles fuel f
      return (item :: items, f)
    | _ => some ([], f)

/-- The entries of a block mapping. -/
def blockEntries? (handles : Handles) : Nat → Feed → Option (List (Node × Node) × Feed)
  | 0, _ => none
  | fuel + 1, f =>
    match f.tokens with
    | .blockEnd :: rest => some ([], f.leaving rest)
    | .key :: rest => do
      let (key, f) ← nodeUnless? handles true true [.key, .value, .blockEnd] fuel (f.leaving rest)
      let (value, f) ← match f.tokens with
        | .value :: rest =>
          nodeUnless? handles true true [.key, .value, .blockEnd] fuel (f.leaving rest)
        | _ => some (.blank, f)
      let (entries, f) ← blockEntries? handles fuel f
      return ((key, value) :: entries, f)
    | _ => none

/-- The items of a sequence in brackets, with a comma before each but the first. -/
def flowItems? (handles : Handles) (first : Bool) : Nat → Feed → Option (List Node × Feed)
  | 0, _ => none
  | fuel + 1, f =>
    if f.before [.flowSequenceEnd] then some ([], f.leaving f.tokens.tail)
    else if !first && !f.before [.comma] then none
    else do
      let f := if first then f else f.leaving f.tokens.tail
      if f.before [.flowSequenceEnd] then some ([], f.leaving f.tokens.tail)
      else
        let (item, f) ← match f.tokens with
          | .key :: rest => flowPair? handles fuel (f.leaving rest)
          | _ => node? handles false false fuel f
        let (items, f) ← flowItems? handles false fuel f
        return (item :: items, f)

/-- The mapping of one entry, whose key begins here, in a sequence in brackets.  The token that
a missing key stands before is passed over. -/
def flowPair? (handles : Handles) : Nat → Feed → Option (Node × Feed)
  | 0, _ => none
  | fuel + 1, f => do
    let (key, f) ←
      if f.before [.value, .comma, .flowSequenceEnd] then some (.blank, f.leaving f.tokens.tail)
      else node? handles false false fuel f
    let (value, f) ← match f.tokens with
      | .value :: rest =>
        nodeUnless? handles false false [.comma, .flowSequenceEnd] fuel (f.leaving rest)
      | _ => some (.blank, f)
    return (.mapping .bare [(key, value)], f)

/-- The entries of a mapping in brackets, with a comma before each but the first. -/
def flowEntries? (handles : Handles) (first : Bool) :
    Nat → Feed → Option (List (Node × Node) × Feed)
  | 0, _ => none
  | fuel + 1, f =>
    if f.before [.flowMappingEnd] then some ([], f.leaving f.tokens.tail)
    else if !first && !f.before [.comma] then none
    else do
      let f := if first then f else f.leaving f.tokens.tail
      if f.before [.flowMappingEnd] then some ([], f.leaving f.tokens.tail)
      else
        let (entry, f) ← match f.tokens with
          | .key :: rest => flowEntry? handles fuel (f.leaving rest)
          | _ => (node? handles false false fuel f).map fun (key, f) => ((key, .blank), f)
        let (entries, f) ← flowEntries? handles false fuel f
        return (entry :: entries, f)

/-- The entry of a mapping in brackets whose key begins here. -/
def flowEntry? (handles : Handles) : Nat → Feed → Option ((Node × Node) × Feed)
  | 0, _ => none
  | fuel + 1, f => do
    let (key, f) ← nodeUnless? handles false false [.value, .comma, .flowMappingEnd] fuel f
    let (value, f) ← match f.tokens with
      | .value :: rest =>
        nodeUnless? handles false false [.comma, .flowMappingEnd] fuel (f.leaving rest)
      | _ => some (.blank, f)
    return ((key, value), f)

end

/-! ### Documents -/

/-- The handles that need no directive. -/
def standardHandles : Handles := [("!", "!"), ("!!", commonStem)]

/-- The handles that the directives in front of a document define, and the tokens behind its
mark.  The version is told at most once, and a handle defined at most once. -/
def directives? (versioned : Bool) (handles : Handles) : List Token → Option (Handles × List Token)
  | .version major minor :: rest =>
    if !versioned && major == 1 && (minor == 1 || minor == 2) then directives? true handles rest
    else none
  | .handle name stem :: rest =>
    if (handles.lookup name).isSome then none
    else directives? versioned ((name, stem) :: handles) rest
  | .documentStart :: rest => some (handles, rest)
  | _ => none

/-- Whether a token begins a document or what is said before it. -/
def opensDocument : Token → Bool
  | .version _ _ => true
  | .handle _ _ => true
  | .documentStart => true
  | _ => false

/-- The root that some tokens begin with, and those behind it. -/
def root? (ts : List Token) : Option (Node × List Token) := do
  let (handles, body) ←
    if ts.head?.any opensDocument then directives? false [] ts else some ([], ts)
  let isEmpty :=
    if body.isEmpty then true
    else ts.head?.any opensDocument && body.head?.any fun t => opensDocument t || t == .documentEnd
  if isEmpty then some (.blank, body)
  else
    let (n, f) ←
      node? (handles ++ standardHandles) true false (3 * body.length + 3) ⟨body, []⟩
    return (n, f.tokens)

/-- The only document of a text; none if there are more. -/
def parse? (text : String) : Option Yaml := do
  let cs := unifyBreaks text.toList
  if !cs.all isAllowed then none
  else
    let (root, rest) ← root? (← tokens? cs)
    if rest.all (· == .documentEnd) then some ⟨root.anchored.reverse, root⟩ else none

end Recalc.Yaml
