import Chip8.Numeral
import Chip8.Yaml.Cursor
import Chip8.Yaml.Failure

/-!
The text of scalars: quoted with escapes, in blocks with kept or folded lines, and plain. Each
reader starts at the scalar and gives its text and the cursor behind it. A single line break
between two lines of a quoted, folded or plain scalar becomes a space, and of several all but the
first are kept.
-/

namespace Chip8.Yaml

/-- A text read so far, in reverse, and the cursor behind it. -/
private structure Reading where
  reversed : List Char
  cursor : Cursor

private def Reading.add (r : Reading) (text : List Char) (cursor : Cursor) : Reading :=
  ⟨text.reverse ++ r.reversed, cursor⟩

private def joint (first : Char) (others : List Char) : List Char :=
  if first ≠ '\n' then first :: others
  else if others.isEmpty then [' ']
  else others

namespace Quoted

def simpleEscape? : Char → Option Char
  | '0' => some '\x00'
  | 'a' => some '\x07'
  | 'b' => some '\x08'
  | 't' | '\t' => some '\t'
  | 'n' => some '\n'
  | 'v' => some '\x0b'
  | 'f' => some '\x0c'
  | 'r' => some '\r'
  | 'e' => some '\x1b'
  | ' ' => some ' '
  | '"' => some '"'
  | '\\' => some '\\'
  | '/' => some '/'
  | 'N' => some '\x85'
  | '_' => some '\xa0'
  | 'L' => some '\u2028'
  | 'P' => some '\u2029'
  | _ => none

def codeLength? : Char → Option Nat
  | 'x' => some 2
  | 'u' => some 4
  | 'U' => some 8
  | _ => none

/-- The character of a code point. Half of a surrogate pair becomes the replacement character. -/
def ofCode (code : Nat) : Except Failure Char :=
  if code ≥ Nat.pow 2 31 then .error .codePointSize
  else if code > 0x10FFFF then .error .codePoint
  else if 0xD800 ≤ code ∧ code ≤ 0xDFFF then .ok '\uFFFD'
  else .ok (Char.ofNat code)

private def breaks : Nat → Cursor → Except Failure (List Char × Cursor)
  | 0, c => .ok ([], c)
  | fuel + 1, c =>
    if c.atSeparator then .error .malformed
    else
      let c := c.skipWhile fun ch => ch = ' ' || ch = '\t'
      match c.lineBreak? with
      | none => .ok ([], c)
      | some (ch, c) => do
        let (more, c) ← breaks fuel c
        return (ch :: more, c)

private def escape (r : Reading) (c : Cursor) : Except Failure Reading :=
  match simpleEscape? c.head with
  | some ch => .ok (r.add [ch] c.next)
  | none =>
    match codeLength? c.head with
    | some count =>
      let digits := c.next.rest.take count
      if digits.length = count ∧ digits.all isHexDigit then do
        let ch ← ofCode (Numeral.value 16 (digits.filterMap Hex.value?))
        return r.add [ch] (c.next.forward count)
      else .error .malformed
    | none =>
      match c.lineBreak? with
      | none => .error .malformed
      | some (_, c) => do
        let (kept, c) ← breaks (c.rest.length + 1) c
        return r.add kept c

private def scan (double : Bool) : Nat → Reading → Except Failure Reading
  | 0, _ => .error .malformed
  | fuel + 1, r =>
    let c := r.cursor
    let ch := c.head
    if ch = '"' && double then .ok { r with cursor := c.next }
    else if ch = '\'' && !double then
      if c.peek 1 = '\'' then scan double fuel (r.add ['\''] c.next.next)
      else .ok { r with cursor := c.next }
    else if ch = '\\' && double then do
      scan double fuel (← escape r c.next)
    else if isBlank ch then
      let (blanks, c) := c.takeWhile fun ch => ch = ' ' || ch = '\t'
      if isEnd c.head then .error .malformed
      else match c.lineBreak? with
        | none => scan double fuel (r.add blanks c)
        | some (first, c) => do
          let (others, c) ← breaks (c.rest.length + 1) c
          scan double fuel (r.add (joint first others) c)
    else scan double fuel (r.add [ch] c.next)

/-- Reads a quoted scalar whose quote is at the cursor. -/
def read (c : Cursor) : Except Failure (String × Cursor) := do
  let r ← scan (c.head = '"') (2 * c.rest.length + 2) ⟨[], c.next⟩
  return (String.ofList r.reversed.reverse, r.cursor)

end Quoted

namespace Block

inductive Chomping where
  | strip | clip | keep
  deriving DecidableEq, Repr

private def sign? (c : Char) : Option Chomping :=
  if c = '+' then some .keep else if c = '-' then some .strip else none

/-- The marks behind `|` or `>`: a sign and an indentation from one to nine, in any order. -/
private def indicators (c : Cursor) : Except Failure (Chomping × Option Nat × Cursor) := do
  let (chomping, increment, c) :=
    match sign? c.head with
    | some s =>
      let c := c.next
      if c.head.isDigit then (s, some (c.head.toNat - 48), c.next) else (s, none, c)
    | none =>
      if c.head.isDigit then
        let n := c.head.toNat - 48
        let c := c.next
        match sign? c.head with
        | some s => (s, some n, c.next)
        | none => (.clip, some n, c)
      else (.clip, none, c)
  if increment = some 0 ∨ !isGap c.head then .error .malformed
  else return (chomping, increment, c)

private def endOfLine (c : Cursor) : Except Failure Cursor :=
  let c := c.skipSpaces.skipComment
  if isBreakOrEnd c.head then .ok ((c.lineBreak?.map (·.2)).getD c) else .error .malformed

private def firstLines : Nat → Cursor → Nat → List Char × Nat × Cursor
  | 0, c, widest => ([], widest, c)
  | fuel + 1, c, widest =>
    if c.head = ' ' then
      let c := c.next
      firstLines fuel c (max widest c.column)
    else match c.lineBreak? with
      | some (ch, c) =>
        let (more, widest, c) := firstLines fuel c widest
        (ch :: more, widest, c)
      | none => ([], widest, c)

private def skipIndent (indent : Nat) (c : Cursor) : Cursor :=
  c.forward (min (indent - c.column) (c.takeWhile (· = ' ')).1.length)

private def emptyLines (indent : Nat) : Nat → Cursor → List Char × Cursor
  | 0, c => ([], c)
  | fuel + 1, c =>
    let c := skipIndent indent c
    match c.lineBreak? with
    | some (ch, c) =>
      let (more, c) := emptyLines indent fuel c
      (ch :: more, c)
    | none => ([], c)

private def isSpaceOrTab (c : Char) : Bool := c = ' ' || c = '\t'

/-- The lines of text. The break that ends the last line and the empty lines after it are left to
chomping. -/
private def lines (folded : Bool) (indent : Nat) :
    Nat → Reading → List Char → Reading × List Char × List Char
  | 0, r, empty => (r, [], empty)
  | fuel + 1, r, empty =>
    let (text, c) := r.cursor.takeWhile (!isBreakOrEnd ·)
    let flush := !isSpaceOrTab r.cursor.head
    let (ended, c) := match c.lineBreak? with
      | some (ch, c) => ([ch], c)
      | none => ([], c)
    let (after, c) := emptyLines indent (c.rest.length + 1) c
    let r := r.add (empty ++ text) c
    if c.column = indent && !isEnd c.head then
      let between :=
        if folded && ended = ['\n'] && flush && !isSpaceOrTab c.head then
          if after.isEmpty then [' '] else []
        else ended
      lines folded indent fuel (r.add between c) after
    else (r, ended, after)

/-- Reads a block scalar whose mark is at the cursor, inside a block of the given indentation. -/
def read (folded : Bool) (parent : Int) (c : Cursor) : Except Failure (String × Cursor) := do
  let (chomping, increment, c) ← indicators c.next
  let c ← endOfLine c
  let least := max (parent + 1) 1
  let (empty, indent, c) := match increment with
    | some n =>
      let indent := (least + n - 1).toNat
      let (empty, c) := emptyLines indent (c.rest.length + 1) c
      (empty, indent, c)
    | none =>
      let (empty, widest, c) := firstLines (c.rest.length + 1) c 0
      (empty, max least.toNat widest, c)
  let (r, ended, after) :=
    if c.column = indent && !isEnd c.head then
      lines folded indent (c.rest.length + 1) ⟨[], c⟩ empty
    else (⟨[], c⟩, [], empty)
  let tail := match chomping with
    | .strip => []
    | .clip => ended
    | .keep => ended ++ after
  return (String.ofList (r.reversed.reverse ++ tail), r.cursor)

end Block

namespace Plain

private def stops (inFlow : Bool) (ch following : Char) : Bool :=
  isBlank ch ||
    (ch = ':' && (isBlank following || (inFlow && ",[]\x7b\x7d".toList.contains following))) ||
    (inFlow && ",?[]\x7b\x7d".toList.contains ch)

private def chunk (inFlow : Bool) : List Char → List Char
  | [] => []
  | ch :: rest =>
    if stops inFlow ch (rest.headD '\x00') then [] else ch :: chunk inFlow rest

/-- Line breaks and spaces, up to a visible character or a separator of documents. The flag tells
that the separator came. -/
private def moreBreaks : Nat → Cursor → List Char × Bool × Cursor
  | 0, c => ([], false, c)
  | fuel + 1, c =>
    if c.head = ' ' then moreBreaks fuel c.next
    else match c.lineBreak? with
      | none => ([], false, c)
      | some (ch, c) =>
        if c.atSeparator then ([ch], true, c)
        else
          let (more, stop, c) := moreBreaks fuel c
          (ch :: more, stop, c)

/-- The space between two chunks, whether it holds a line break, and the cursor behind it. It is
empty where the scalar must end. -/
private def space (c : Cursor) : List Char × Bool × Cursor :=
  let (spaces, c) := c.takeWhile (· = ' ')
  match c.lineBreak? with
  | none => (spaces, false, c)
  | some (first, c) =>
    if c.atSeparator then ([], true, c)
    else
      let (others, stop, c) := moreBreaks (c.rest.length + 1) c
      if stop then ([], true, c) else (joint first others, true, c)

private def scan (inFlow : Bool) (indent : Int) :
    Nat → Reading → List Char → Bool → Reading × Bool
  | 0, r, _, broken => (r, broken)
  | fuel + 1, r, between, broken =>
    let c := r.cursor
    let text := if c.head = '#' then [] else chunk inFlow c.rest
    if text.isEmpty then (r, broken)
    else
      let (after, breaks, c') := space (c.forward text.length)
      let r := r.add (between ++ text) c'
      if after.isEmpty || c'.head = '#' || (!inFlow && (c'.column : Int) < indent) then (r, breaks)
      else scan inFlow indent fuel r after breaks

/-- Reads a plain scalar. The flag tells that a line break was passed behind its last chunk, after
which a key may follow. -/
def read (inFlow : Bool) (parent : Int) (c : Cursor) : String × Bool × Cursor :=
  let (r, broken) := scan inFlow (parent + 1) (c.rest.length + 1) ⟨[], c⟩ [] false
  (String.ofList r.reversed.reverse, broken, r.cursor)

end Plain

end Chip8.Yaml
