/-!
A place in a text. The cursor knows the characters still to come, how many lie behind it, and its
line and column. Past the end it shows the character NUL, which no readable text holds.
-/

namespace Chip8.Yaml

structure Cursor where
  rest : List Char
  index : Nat
  line : Nat
  column : Nat
  deriving DecidableEq, Repr

def isBreak (c : Char) : Bool :=
  c = '\n' || c = '\r' || c = '\x85' || c = '\u2028' || c = '\u2029'

def isEnd (c : Char) : Bool := c = '\x00'

def isBreakOrEnd (c : Char) : Bool := isBreak c || isEnd c

def isGap (c : Char) : Bool := c = ' ' || isBreakOrEnd c

def isBlank (c : Char) : Bool := c = '\t' || isGap c

def isWordChar (c : Char) : Bool := c.isAlphanum || c = '-' || c = '_'

def isHexDigit (c : Char) : Bool :=
  c.isDigit || ('a' ≤ c && c ≤ 'f') || ('A' ≤ c && c ≤ 'F')

/-- The mark that may stand before the first character of a text. It takes no column. -/
def byteOrderMark : Char := '\uFEFF'

namespace Cursor

def start (text : List Char) : Cursor := ⟨text, 0, 0, 0⟩

def peek (c : Cursor) (k : Nat) : Char := c.rest.getD k '\x00'

def head (c : Cursor) : Char := c.peek 0

/-- One character further. Of the pair that ends a line the second character ends it. -/
def next (c : Cursor) : Cursor :=
  match c.rest with
  | [] => c
  | ch :: rest =>
    if isBreak ch && !(ch = '\r' && rest.head? == some '\n') then ⟨rest, c.index + 1, c.line + 1, 0⟩
    else if ch = byteOrderMark then ⟨rest, c.index + 1, c.line, c.column⟩
    else ⟨rest, c.index + 1, c.line, c.column + 1⟩

def forward (c : Cursor) : Nat → Cursor
  | 0 => c
  | k + 1 => c.next.forward k

def takeWhile (c : Cursor) (p : Char → Bool) : List Char × Cursor :=
  let taken := c.rest.takeWhile p
  (taken, c.forward taken.length)

def skipWhile (c : Cursor) (p : Char → Bool) : Cursor := (c.takeWhile p).2

def skipSpaces (c : Cursor) : Cursor := c.skipWhile (· = ' ')

def lineBreak? (c : Cursor) : Option (Char × Cursor) :=
  let ch := c.head
  if ch = '\r' && c.peek 1 = '\n' then some ('\n', c.next.next)
  else if ch = '\r' || ch = '\n' || ch = '\x85' then some ('\n', c.next)
  else if ch = '\u2028' || ch = '\u2029' then some (ch, c.next)
  else none

def skipComment (c : Cursor) : Cursor :=
  if c.head = '#' then c.skipWhile (!isBreakOrEnd ·) else c

/-- Whether a line of three marks, which separates documents, begins here. -/
def atSeparator (c : Cursor) : Bool :=
  (c.rest.take 3 = ['-', '-', '-'] || c.rest.take 3 = ['.', '.', '.']) && isBlank (c.peek 3)

end Cursor

end Chip8.Yaml
