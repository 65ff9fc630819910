import Chip8.Yaml.Kind
import Chip8.Yaml.Lexer

/-!
From tokens to nodes. A text holds at most one document, and a document is one node: a scalar, a
sequence or a mapping, each with a tag. An alias stands for the node that its anchor marks, so the
tree may hold a node several times; an alias inside the very node it names is kept as `cycle`.
-/

namespace Chip8.Yaml

inductive Tag where
  | null | bool | int | float | text | merge | value
  | sequence | mapping | set | pairs | orderedPairs | binary | date
  /-- A tag without a meaning here. -/
  | unknown
  deriving DecidableEq, Repr

namespace Tag

def standard : String := "tag:yaml.org,2002:"

def names : List (String × Tag) :=
  [("null", null), ("bool", bool), ("int", int), ("float", float), ("str", text), ("merge", merge),
   ("value", value), ("seq", sequence), ("map", mapping), ("set", set), ("pairs", pairs),
   ("omap", orderedPairs), ("binary", binary), ("timestamp", date)]

def ofAddress (address : String) : Tag :=
  ((names.find? fun n => standard ++ n.1 = address).map (·.2)).getD unknown

def ofKind : Kind → Tag
  | .null => null
  | .bool => bool
  | .int => int
  | .float => float
  | .text => text
  | .merge => merge
  | .value => value

end Tag

inductive Node where
  | scalar (tag : Tag) (text : String)
  | sequence (tag : Tag) (items : List Node)
  | mapping (tag : Tag) (entries : List (Node × Node))
  | cycle
  deriving Repr

namespace Node

def empty : Node := scalar .null ""

/-- The tokens still to come, and the nodes of the anchors met, `none` while one is being read. -/
structure Reader where
  tokens : List Token
  anchors : List (String × Option Node)

private def Reader.peek (r : Reader) : Token := r.tokens.headD .streamEnd

private def Reader.drop (r : Reader) : Reader := { r with tokens := r.tokens.tail }

/-- What comes before the content of a node: an anchor and a tag, in either order. -/
private structure Properties where
  anchor : Option String
  tag : Option String

def commonHandles : List (String × String) := [("!", "!"), ("!!", Tag.standard)]

private def tagAddress (handles : List (String × String)) (handle : Option String)
    (suffix : String) : Except Failure String :=
  match handle with
  | none => .ok suffix
  | some h =>
    match handles.lookup h with
    | some address => .ok (address ++ suffix)
    | none => .error .malformed

private def properties (handles : List (String × String)) (r : Reader) :
    Except Failure (Properties × Reader) :=
  match r.tokens with
  | .anchor name :: .tag h suffix :: rest | .tag h suffix :: .anchor name :: rest => do
    return (⟨some name, some (← tagAddress handles h suffix)⟩, { r with tokens := rest })
  | .anchor name :: rest => .ok (⟨some name, none⟩, { r with tokens := rest })
  | .tag h suffix :: rest => do
    return (⟨none, some (← tagAddress handles h suffix)⟩, { r with tokens := rest })
  | _ => .ok (⟨none, none⟩, r)

/-- The tag of a scalar. Where none is given, or `!` alone, the text of a plain scalar decides. -/
private def scalarTag (given : Option String) (text : String) (plain : Bool) : Tag :=
  match given with
  | none => if plain then .ofKind (.ofPlain text) else .text
  | some "!" => .ofKind (.ofPlain text)
  | some address => .ofAddress address

private def collectionTag (given : Option String) (usual : Tag) : Tag :=
  match given with
  | none | some "!" => usual
  | some address => .ofAddress address

private def Reader.mark (r : Reader) (anchor : Option String) (node : Option Node) : Reader :=
  match anchor with
  | some name => { r with anchors := (name, node) :: r.anchors }
  | none => r

/-- Which tokens, besides its own, an empty place may stand before. -/
private def isOneOf (tokens : List Token) (t : Token) : Bool := tokens.contains t

mutual

/-- A node. Outside brackets blocks may begin, and as a value of a mapping a sequence whose entries
are not indented. -/
private def node (handles : List (String × String)) :
    Nat → Bool → Bool → Reader → Except Failure (Node × Reader)
  | 0, _, _, _ => .error .malformed
  | fuel + 1, block, unindented, r =>
    match r.tokens with
    | .alias name :: rest =>
      match r.anchors.lookup name with
      | some (some known) => .ok (known, { r with tokens := rest })
      | some none => .ok (.cycle, { r with tokens := rest })
      | none => .error .malformed
    | _ => do
      let (given, r) ← properties handles r
      let known := match given.anchor with
        | some name => (r.anchors.lookup name).isSome
        | none => false
      if known then .error .malformed
      else
        let opened := r.mark given.anchor none
        let sequence (p : List Node × Reader) : Node × Reader :=
          let n := Node.sequence (collectionTag given.tag .sequence) p.1
          (n, p.2.mark given.anchor (some n))
        let mapping (p : List (Node × Node) × Reader) : Node × Reader :=
          let n := Node.mapping (collectionTag given.tag .mapping) p.1
          (n, p.2.mark given.anchor (some n))
        let scalar (text : String) (plain : Bool) (r : Reader) : Node × Reader :=
          let n := Node.scalar (scalarTag given.tag text plain) text
          (n, r.mark given.anchor (some n))
        match r.peek with
        | .scalar text plain => .ok (scalar text plain r.drop)
        | .flowSequenceStart => (flowItems handles fuel true opened.drop).map sequence
        | .flowMappingStart => (flowEntries handles fuel true opened.drop).map mapping
        | .blockEntry =>
          if unindented then (unindentedItems handles fuel opened).map sequence
          else if given.anchor.isSome || given.tag.isSome then .ok (scalar "" true r)
          else .error .malformed
        | .blockSequenceStart =>
          if block then (blockItems handles fuel opened.drop).map sequence
          else if given.anchor.isSome || given.tag.isSome then .ok (scalar "" true r)
          else .error .malformed
        | .blockMappingStart =>
          if block then (blockEntries handles fuel opened.drop).map mapping
          else if given.anchor.isSome || given.tag.isSome then .ok (scalar "" true r)
          else .error .malformed
        | _ =>
          if given.anchor.isSome || given.tag.isSome then .ok (scalar "" true r)
          else .error .malformed

private def nodeOrEmpty (handles : List (String × String)) :
    Nat → Bool → Bool → List Token → Reader → Except Failure (Node × Reader)
  | 0, _, _, _, _ => .error .malformed
  | fuel + 1, block, unindented, ends, r =>
    if isOneOf ends r.peek then .ok (.empty, r) else node handles fuel block unindented r

private def valueOrEmpty (handles : List (String × String)) :
    Nat → Bool → List Token → Reader → Except Failure (Node × Reader)
  | 0, _, _, _ => .error .malformed
  | fuel + 1, block, ends, r =>
    if r.peek = .value then nodeOrEmpty handles fuel block block ends r.drop else .ok (.empty, r)

/-- The items of a sequence in brackets. An item with a key is a mapping of one entry. -/
private def flowItems (handles : List (String × String)) :
    Nat → Bool → Reader → Except Failure (List Node × Reader)
  | 0, _, _ => .error .malformed
  | fuel + 1, first, r =>
    if r.peek = .flowSequenceEnd then .ok ([], r.drop)
    else if !first && r.peek ≠ .flowEntry then .error .malformed
    else
      let r := if first then r else r.drop
      if r.peek = .key then do
        let ends := [Token.flowEntry, .flowSequenceEnd]
        let (k, r) ← nodeOrEmpty handles fuel false false (.value :: ends) r.drop
        let (v, r) ← valueOrEmpty handles fuel false ends r
        let (rest, r) ← flowItems handles fuel false r
        return (.mapping .mapping [(k, v)] :: rest, r)
      else if r.peek = .flowSequenceEnd then .ok ([], r.drop)
      else do
        let (item, r) ← node handles fuel false false r
        let (rest, r) ← flowItems handles fuel false r
        return (item :: rest, r)

/-- The entries of a mapping in braces. A node without a key token is a key without a value. -/
private def flowEntries (handles : List (String × String)) :
    Nat → Bool → Reader → Except Failure (List (Node × Node) × Reader)
  | 0, _, _ => .error .malformed
  | fuel + 1, first, r =>
    if r.peek = .flowMappingEnd then .ok ([], r.drop)
    else if !first && r.peek ≠ .flowEntry then .error .malformed
    else
      let r := if first then r else r.drop
      if r.peek = .key then do
        let ends := [Token.flowEntry, .flowMappingEnd]
        let (k, r) ← nodeOrEmpty handles fuel false false (.value :: ends) r.drop
        let (v, r) ← valueOrEmpty handles fuel false ends r
        let (rest, r) ← flowEntries handles fuel false r
        return ((k, v) :: rest, r)
      else if r.peek = .flowMappingEnd then .ok ([], r.drop)
      else do
        let (k, r) ← node handles fuel false false r
        let (rest, r) ← flowEntries handles fuel false r
        return ((k, .empty) :: rest, r)

private def blockItems (handles : List (String × String)) :
    Nat → Reader → Except Failure (List Node × Reader)
  | 0, _ => .error .malformed
  | fuel + 1, r =>
    if r.peek = .blockEntry then do
      let (item, r) ← nodeOrEmpty handles fuel true false [.blockEntry, .blockEnd] r.drop
      let (rest, r) ← blockItems handles fuel r
      return (item :: rest, r)
    else if r.peek = .blockEnd then .ok ([], r.drop)
    else .error .malformed

private def unindentedItems (handles : List (String × String)) :
    Nat → Reader → Except Failure (List Node × Reader)
  | 0, _ => .error .malformed
  | fuel + 1, r =>
    if r.peek = .blockEntry then do
      let (item, r) ←
        nodeOrEmpty handles fuel true false [.blockEntry, .key, .value, .blockEnd] r.drop
      let (rest, r) ← unindentedItems handles fuel r
      return (item :: rest, r)
    else .ok ([], r)

private def blockEntries (handles : List (String × String)) :
    Nat → Reader → Except Failure (List (Node × Node) × Reader)
  | 0, _ => .error .malformed
  | fuel + 1, r =>
    if r.peek = .key then do
      let ends := [Token.key, .value, .blockEnd]
      let (k, r) ← nodeOrEmpty handles fuel true true ends r.drop
      let (v, r) ← valueOrEmpty handles fuel true ends r
      let (rest, r) ← blockEntries handles fuel r
      return ((k, v) :: rest, r)
    else if r.peek = .blockEnd then .ok ([], r.drop)
    else .error .malformed

end

/-- The directives in front of a document. Versions other than 1 are refused, and so is a second
directive of the same purpose. -/
private def directives :
    List Token → Bool → List (String × String) → Except Failure (List (String × String) × List Token)
  | .versionDirective major :: rest, versioned, handles =>
    if versioned ∨ major ≠ 1 then .error .malformed else directives rest true handles
  | .tagDirective handle address :: rest, versioned, handles =>
    if (handles.lookup handle).isSome then .error .malformed
    else directives rest versioned ((handle, address) :: handles)
  | .otherDirective :: rest, versioned, handles => directives rest versioned handles
  | rest, _, handles => .ok (handles ++ commonHandles, rest)

private def onlyEnds (tokens : List Token) : Bool :=
  tokens.all fun t => t = .documentEnd ∨ t = .streamEnd

private def content (handles : List (String × String)) (tokens : List Token) :
    Except Failure Node := do
  let (n, r) ← node handles (4 * tokens.length + 4) true false ⟨tokens, []⟩
  if onlyEnds r.tokens then return n else .error .malformed

def ofText? (text : String) : Except Failure (Option Node) := do
  let tokens ← Token.ofText text
  match tokens.headD .streamEnd with
  | .streamEnd => return none
  | .versionDirective _ | .tagDirective .. | .otherDirective | .documentStart =>
    let (handles, rest) ← directives tokens false []
    match rest with
    | .documentStart :: rest =>
      match rest.headD .streamEnd with
      | .documentEnd | .streamEnd =>
        if onlyEnds rest then return some empty else .error .malformed
      | .versionDirective _ | .tagDirective .. | .otherDirective | .documentStart =>
        .error .malformed
      | _ => return some (← content handles rest)
    | _ => .error .malformed
  | _ => return some (← content commonHandles tokens)

end Node

end Chip8.Yaml
