import Chip8.Yaml.ScalarText
import Chip8.Yaml.TagText
import Chip8.Yaml.Token

/-!
From text to tokens. Two things are not told by the characters at hand alone. A block begins and
ends by indentation, so the lexer keeps the columns of the open blocks. And a key shows only by the
colon after it, so wherever a key may begin the lexer notes a candidate, with the place in the
token list where the key's token will go.
-/

namespace Chip8.Yaml

structure Candidate where
  position : Nat
  /-- Nothing else than a key can stand here. -/
  required : Bool
  index : Nat
  line : Nat
  column : Nat
  deriving Repr

structure Lexer where
  cursor : Cursor
  tokens : Array Token
  flow : Nat
  /-- The column of the innermost block, -1 outside all blocks. -/
  indent : Int
  outer : List Int
  keyAllowed : Bool
  /-- The candidates, at most one for each level of brackets. -/
  candidates : List (Nat × Candidate)

namespace Lexer

def start (text : String) : Lexer :=
  ⟨.start text.toList, #[], 0, -1, [], true, []⟩

private def push (s : Lexer) (token : Token) : Lexer := { s with tokens := s.tokens.push token }

private def inFlow (s : Lexer) : Bool := s.flow ≠ 0

def longestKey : Nat := 1024

/-- Drops candidates that the text has left behind: a key ends on the line it begins on. -/
private def dropStale (s : Lexer) : Except Failure Lexer :=
  let stale (k : Candidate) : Bool :=
    k.line ≠ s.cursor.line || s.cursor.index > k.index + longestKey
  if s.candidates.any fun e => stale e.2 && e.2.required then .error .malformed
  else .ok { s with candidates := s.candidates.filter fun e => !stale e.2 }

private def dropCandidate (s : Lexer) : Except Failure Lexer :=
  match s.candidates.lookup s.flow with
  | some k =>
    if k.required then .error .malformed
    else .ok { s with candidates := s.candidates.filter fun e => e.1 ≠ s.flow }
  | none => .ok s

private def noteCandidate (s : Lexer) : Except Failure Lexer :=
  if s.keyAllowed then do
    let s ← s.dropCandidate
    let c := s.cursor
    let k : Candidate :=
      ⟨s.tokens.size, !s.inFlow && s.indent = (c.column : Int), c.index, c.line, c.column⟩
    return { s with candidates := (s.flow, k) :: s.candidates }
  else return s

private def unwind (s : Lexer) (column : Int) : Lexer :=
  if s.inFlow then s
  else go s.outer s
where
  go : List Int → Lexer → Lexer
    | [], s => s
    | outer :: rest, s =>
      if s.indent > column then
        go rest { s.push .blockEnd with indent := outer, outer := rest }
      else s

private def open? (s : Lexer) (column : Nat) : Option Lexer :=
  if s.indent < (column : Int) then
    some { s with indent := column, outer := s.indent :: s.outer }
  else none

private def openHere (s : Lexer) (token : Token) : Lexer :=
  match s.open? s.cursor.column with
  | some s => s.push token
  | none => s

private def insert (tokens : Array Token) (position : Nat) (new : List Token) : Array Token :=
  tokens.extract 0 position ++ new.toArray ++ tokens.extract position tokens.size

private def take (s : Lexer) (count : Nat) (token : Token) : Lexer :=
  { s.push token with cursor := s.cursor.forward count }

/-- Skips blanks, comments and line ends. After a line end outside brackets a key may begin. -/
private def skip : Nat → Lexer → Lexer
  | 0, s => s
  | fuel + 1, s =>
    let c := s.cursor.skipSpaces.skipComment
    match c.lineBreak? with
    | some (_, c) => skip fuel { s with cursor := c, keyAllowed := s.keyAllowed || !s.inFlow }
    | none => { s with cursor := c }

private def skipMark (s : Lexer) : Lexer :=
  if s.cursor.index = 0 && s.cursor.head = byteOrderMark then { s with cursor := s.cursor.next }
  else s

private def directive (s : Lexer) : Except Failure Lexer := do
  let s ← (s.unwind (-1)).dropCandidate
  let (token, c) ← readDirective s.cursor
  return { s.push token with cursor := c, keyAllowed := false }

private def separator (s : Lexer) (token : Token) : Except Failure Lexer := do
  let s ← (s.unwind (-1)).dropCandidate
  return { s.take 3 token with keyAllowed := false }

private def openFlow (s : Lexer) (token : Token) : Except Failure Lexer := do
  let s ← s.noteCandidate
  return { s.take 1 token with flow := s.flow + 1, keyAllowed := true }

private def closeFlow (s : Lexer) (token : Token) : Except Failure Lexer := do
  if s.flow = 0 then .error .malformed
  else
    let s ← s.dropCandidate
    return { s.take 1 token with flow := s.flow - 1, keyAllowed := false }

private def flowEntry (s : Lexer) : Except Failure Lexer := do
  let s ← s.dropCandidate
  return { s.take 1 .flowEntry with keyAllowed := true }

private def blockEntry (s : Lexer) : Except Failure Lexer := do
  if !s.inFlow && !s.keyAllowed then .error .malformed
  else
    let s := if s.inFlow then s else s.openHere .blockSequenceStart
    let s ← s.dropCandidate
    return { s.take 1 .blockEntry with keyAllowed := true }

private def explicitKey (s : Lexer) : Except Failure Lexer := do
  if !s.inFlow && !s.keyAllowed then .error .malformed
  else
    let s := if s.inFlow then s else s.openHere .blockMappingStart
    let s ← s.dropCandidate
    return { s.take 1 .key with keyAllowed := !s.inFlow }

/-- A colon: what the candidate began was a key, or else a key was marked or is left out. -/
private def valueMark (s : Lexer) : Except Failure Lexer := do
  match s.candidates.lookup s.flow with
  | some k =>
    let s := { s with candidates := s.candidates.filter fun e => e.1 ≠ s.flow }
    let s :=
      if s.inFlow then { s with tokens := insert s.tokens k.position [.key] }
      else match s.open? k.column with
        | some s => { s with tokens := insert s.tokens k.position [.blockMappingStart, .key] }
        | none => { s with tokens := insert s.tokens k.position [.key] }
    return { s.take 1 .value with keyAllowed := false }
  | none =>
    if !s.inFlow && !s.keyAllowed then .error .malformed
    else
      let s := if s.inFlow then s else s.openHere .blockMappingStart
      let s ← s.dropCandidate
      return { s.take 1 .value with keyAllowed := !s.inFlow }

private def keyed (s : Lexer) (read : Cursor → Except Failure (Token × Cursor)) :
    Except Failure Lexer := do
  let s ← s.noteCandidate
  let (token, c) ← read s.cursor
  return { s.push token with cursor := c, keyAllowed := false }

private def blockScalar (s : Lexer) (folded : Bool) : Except Failure Lexer := do
  let s ← s.dropCandidate
  let (text, c) ← Block.read folded s.indent s.cursor
  return { s.push (.scalar text false) with cursor := c, keyAllowed := true }

private def plain (s : Lexer) : Except Failure Lexer := do
  let s ← s.noteCandidate
  let (text, broken, c) := Plain.read s.inFlow s.indent s.cursor
  return { s.push (.scalar text true) with cursor := c, keyAllowed := broken }

private def beginsPlain (s : Lexer) : Bool :=
  let ch := s.cursor.head
  let beforeText := !isBlank (s.cursor.peek 1)
  !(isBlank ch || "-?:,[]\x7b\x7d#&*!|>'\"%@`".toList.contains ch) ||
    (beforeText && (ch = '-' || (!s.inFlow && (ch = '?' || ch = ':'))))

private def token (s : Lexer) : Except Failure Lexer :=
  let c := s.cursor
  let ch := c.head
  let beforeBlank := isBlank (c.peek 1)
  if ch = '%' && c.column = 0 then s.directive
  else if ch = '-' && c.column = 0 && c.atSeparator then s.separator .documentStart
  else if ch = '.' && c.column = 0 && c.atSeparator then s.separator .documentEnd
  else if ch = '[' then s.openFlow .flowSequenceStart
  else if ch = '\x7b' then s.openFlow .flowMappingStart
  else if ch = ']' then s.closeFlow .flowSequenceEnd
  else if ch = '\x7d' then s.closeFlow .flowMappingEnd
  else if ch = ',' then s.flowEntry
  else if ch = '-' && beforeBlank then s.blockEntry
  else if ch = '?' && (s.inFlow || beforeBlank) then s.explicitKey
  else if ch = ':' && (s.inFlow || beforeBlank) then s.valueMark
  else if ch = '*' then s.keyed fun c => (readName c).map fun r => (.alias r.1, r.2)
  else if ch = '&' then s.keyed fun c => (readName c).map fun r => (.anchor r.1, r.2)
  else if ch = '!' then s.keyed readTag
  else if ch = '|' && !s.inFlow then s.blockScalar false
  else if ch = '>' && !s.inFlow then s.blockScalar true
  else if ch = '\'' || ch = '"' then
    s.keyed fun c => (Quoted.read c).map fun r => (.scalar r.1 false, r.2)
  else if s.beginsPlain then s.plain
  else .error .malformed

private def finish (s : Lexer) : Except Failure Lexer := do
  let s ← (s.unwind (-1)).dropCandidate
  return s.push .streamEnd

def run : Nat → Lexer → Except Failure Lexer
  | 0, _ => .error .malformed
  | fuel + 1, s => do
    let s ← (skip (s.cursor.rest.length + 1) s.skipMark).dropStale
    let s := s.unwind s.cursor.column
    if s.cursor.rest.isEmpty then s.finish else run fuel (← s.token)

end Lexer

def isReadable (c : Char) : Bool :=
  let n := c.toNat
  n = 0x9 || n = 0xA || n = 0xD || (0x20 ≤ n && n ≤ 0x7E) || n = 0x85 ||
    (0xA0 ≤ n && n ≤ 0xFFFD) || 0x10000 ≤ n

def Token.ofText (text : String) : Except Failure (List Token) :=
  if text.toList.all isReadable then
    (Lexer.run (text.length + 2) (.start text)).map (·.tokens.toList)
  else .error .malformed

end Chip8.Yaml
