/-
  From tokens to the node of the one document of a text. Where a node may be left out, the
  token that follows tells that it is. In brackets a key token makes a mapping of one pair; if
  that key is left out, the token that shows it is used up.
-/
import OrmGen.Yaml.Node

namespace OrmGen.Yaml.Node

/-- The handles of tags, with what each stands for. -/
abbrev Handles := List (String × List UInt8)

/-- The handles that every document has unless it says otherwise. -/
def defaultHandles : Handles := [("!", [0x21]), ("!!", Tag.coreNamespace)]

/-- A tag in full. A tag without handle is one already. -/
def fullTag? (handles : Handles) (t : TagName) : Option (List UInt8) :=
  if t.handle = "" then some t.suffix else (handles.lookup t.handle).map (· ++ t.suffix)

/-- What may stand in front of a node. -/
structure Properties where
  anchor : Option Nat := none
  tag : Option (List UInt8) := none

/-- Read an anchor and a tag, in any order. -/
def properties? (handles : Handles) : List Token → Option (Properties × List Token)
  | .anchor k :: .tag t :: ts | .tag t :: .anchor k :: ts =>
    (fullTag? handles t).map fun t => (⟨some k, some t⟩, ts)
  | .anchor k :: ts => some (⟨some k, none⟩, ts)
  | .tag t :: ts => (fullTag? handles t).map fun t => (⟨none, some t⟩, ts)
  | ts => some ({}, ts)

namespace Properties

/-- What the tag means. -/
def meaning (p : Properties) : Option Tag := p.tag.bind Tag.ofBytes?

/-- The node that properties make on their own. -/
def alone? (p : Properties) : Option Node :=
  if p.anchor.isSome || p.tag.isSome then some (.scalar p.anchor p.meaning "" true) else none

end Properties

/-- Where a node stands. -/
inductive Place where
  | block
  /-- The key or the value of a mapping in a block: the dashes of a sequence may stand below
  it without indentation. -/
  | blockPair
  | flow
deriving DecidableEq

/-- Whether the next token is one of `ends`, so that a node in front of it is left out. -/
def leftOut (ends : List Token) (ts : List Token) : Bool := ts.head?.any ends.contains

mutual

/-- Read a node. -/
def ofTokens? (handles : Handles) : Nat → Place → List Token → Option (Node × List Token)
  | 0, _, _ => none
  | _, _, .reference k :: ts => some (.reference k, ts)
  | fuel + 1, place, ts => do
    let (p, ts) ← properties? handles ts
    match ts, place with
    | .scalar s isPlain :: ts, _ => some (.scalar p.anchor p.meaning s isPlain, ts)
    | .openSequence :: ts, _ => do
      let (items, ts) ← flowItems? handles fuel ts
      return (.sequence p.anchor p.meaning items, ts)
    | .openMapping :: ts, _ => do
      let (pairs, ts) ← flowPairs? handles fuel ts
      return (.mapping p.anchor p.meaning pairs, ts)
    | .blockSequence :: ts, .block | .blockSequence :: ts, .blockPair => do
      let (items, ts) ← blockItems? handles fuel ts
      return (.sequence p.anchor p.meaning items, ts)
    | .blockMapping :: ts, .block | .blockMapping :: ts, .blockPair => do
      let (pairs, ts) ← blockPairs? handles fuel ts
      return (.mapping p.anchor p.meaning pairs, ts)
    | .dash :: ts, .blockPair => do
      let (items, ts) ← dashedItems? handles fuel (.dash :: ts)
      return (.sequence p.anchor p.meaning items, ts)
    | ts, _ => return (← p.alone?, ts)

/-- Read the entries of a sequence up to its end. -/
def blockItems? (handles : Handles) : Nat → List Token → Option (List Node × List Token)
  | 0, _ => none
  | _, .blockEnd :: ts => some ([], ts)
  | fuel + 1, .dash :: ts => do
    let (n, ts) ←
      if leftOut [.dash, .blockEnd] ts then some (empty, ts)
      else ofTokens? handles fuel .block ts
    let (ns, ts) ← blockItems? handles fuel ts
    return (n :: ns, ts)
  | _, _ => none

/-- Read the entries of a sequence without indentation. -/
def dashedItems? (handles : Handles) : Nat → List Token → Option (List Node × List Token)
  | 0, _ => none
  | fuel + 1, .dash :: ts => do
    let (n, ts) ←
      if leftOut [.dash, .key, .value, .blockEnd] ts then some (empty, ts)
      else ofTokens? handles fuel .block ts
    let (ns, ts) ← dashedItems? handles fuel ts
    return (n :: ns, ts)
  | _, ts => some ([], ts)

/-- Read the pairs of a mapping up to its end. -/
def blockPairs? (handles : Handles) : Nat → List Token → Option (List (Node × Node) × List Token)
  | 0, _ => none
  | _, .blockEnd :: ts => some ([], ts)
  | fuel + 1, .key :: ts => do
    let (k, ts) ←
      if leftOut [.key, .value, .blockEnd] ts then some (empty, ts)
      else ofTokens? handles fuel .blockPair ts
    let (v, ts) ← match ts with
      | .value :: ts =>
        if leftOut [.key, .value, .blockEnd] ts then some (empty, ts)
        else ofTokens? handles fuel .blockPair ts
      | ts => some (empty, ts)
    let (ps, ts) ← blockPairs? handles fuel ts
    return ((k, v) :: ps, ts)
  | _, _ => none

/-- Read the items up to a closing bracket. -/
def flowItems? (handles : Handles) : Nat → List Token → Option (List Node × List Token)
  | 0, _ => none
  | _, .closeSequence :: ts => some ([], ts)
  | fuel + 1, ts => do
    let (n, ts) ← match ts with
      | .key :: ts => do
        let (k, ts) ←
          if leftOut [.value, .comma, .closeSequence] ts then some (empty, ts.drop 1)
          else ofTokens? handles fuel .flow ts
        let (v, ts) ← match ts with
          | .value :: ts =>
            if leftOut [.comma, .closeSequence] ts then some (empty, ts)
            else ofTokens? handles fuel .flow ts
          | ts => some (empty, ts)
        some (.mapping none none [(k, v)], ts)
      | ts => ofTokens? handles fuel .flow ts
    let (ns, ts) ← match ts with
      | .comma :: ts => flowItems? handles fuel ts
      | .closeSequence :: ts => some ([], ts)
      | _ => none
    return (n :: ns, ts)

/-- Read the pairs up to a closing brace. -/
def flowPairs? (handles : Handles) : Nat → List Token → Option (List (Node × Node) × List Token)
  | 0, _ => none
  | _, .closeMapping :: ts => some ([], ts)
  | fuel + 1, ts => do
    let (k, v, ts) ← match ts with
      | .key :: ts => do
        let (k, ts) ←
          if leftOut [.value, .comma, .closeMapping] ts then some (empty, ts)
          else ofTokens? handles fuel .flow ts
        let (v, ts) ← match ts with
          | .value :: ts =>
            if leftOut [.comma, .closeMapping] ts then some (empty, ts)
            else ofTokens? handles fuel .flow ts
          | ts => some (empty, ts)
        some (k, v, ts)
      | ts => do
        let (k, ts) ← ofTokens? handles fuel .flow ts
        some (k, empty, ts)
    let (ps, ts) ← match ts with
      | .comma :: ts => flowPairs? handles fuel ts
      | .closeMapping :: ts => some ([], ts)
      | _ => none
    return ((k, v) :: ps, ts)

end

/-! ## Documents -/

/-- Read the directives of a document. At most one states a version, which must be 1.1 or 1.2,
and no handle is given twice. -/
def directives? (versioned : Bool) (handles : Handles) :
    List Token → Option (Handles × List Token)
  | .version major minor :: ts =>
    if versioned || major ≠ 1 || (minor ≠ 1 && minor ≠ 2) then none
    else directives? true handles ts
  | .tagHandle h r :: ts =>
    if (handles.lookup h).isSome then none else directives? versioned ((h, r) :: handles) ts
  | ts => some (handles, ts)

/-- Whether the text of a document is over before it has begun. -/
def noContent : List Token → Bool
  | [] | .version .. :: _ | .tagHandle .. :: _ | .documentStart :: _ | .documentEnd :: _ => true
  | _ => false

/-- Read a document, with or without a line that starts it. -/
def document? (ts : List Token) : Option (Node × List Token) :=
  let fuel := 3 * ts.length + 3
  match ts with
  | [] => some (empty, [])
  | .version .. :: _ | .tagHandle .. :: _ | .documentStart :: _ => do
    match ← directives? false [] ts with
    | (handles, .documentStart :: ts) =>
      if noContent ts then some (empty, ts)
      else ofTokens? (handles ++ defaultHandles) fuel .block ts
    | _ => none
  | ts => ofTokens? defaultHandles fuel .block ts

/-- The node of a text with one document. -/
def ofAllTokens? (ts : List Token) : Option Node := do
  let (n, ts) ← document? ts
  guard (ts.all (· = .documentEnd))
  return n

end OrmGen.Yaml.Node
