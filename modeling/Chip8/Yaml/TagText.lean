import Chip8.Numeral
import Chip8.Yaml.Cursor
import Chip8.Yaml.Failure
import Chip8.Yaml.Token

/-!
The tokens that begin with a mark and a name: directives, anchors, aliases and tags. A tag is
either written out between angle brackets or shortened by a handle; bytes in it may be written
with percent signs and must then spell UTF-8.
-/

namespace Chip8.Yaml

private def isTagChar (c : Char) : Bool :=
  c.isAlphanum || "-;/?:@&=+$,_.!~*'()[]%".toList.contains c

private def percentBytes : Nat → Cursor → Except Failure (List UInt8 × Cursor)
  | 0, c => .ok ([], c)
  | fuel + 1, c =>
    if c.head = '%' then
      let digits := c.next.rest.take 2
      if digits.length = 2 ∧ digits.all isHexDigit then do
        let byte := UInt8.ofNat (Numeral.value 16 (digits.filterMap Hex.value?))
        let (more, c) ← percentBytes fuel (c.forward 3)
        return (byte :: more, c)
      else .error .malformed
    else .ok ([], c)

private def addressText : Nat → Cursor → Except Failure (List Char × Cursor)
  | 0, c => .ok ([], c)
  | fuel + 1, c =>
    if c.head = '%' then do
      let (bytes, c) ← percentBytes (c.rest.length + 1) c
      match String.fromUTF8? ⟨bytes.toArray⟩ with
      | none => .error .malformed
      | some text =>
        let (more, c) ← addressText fuel c
        return (text.toList ++ more, c)
    else if isTagChar c.head && !isEnd c.head then do
      let (more, c') ← addressText fuel c.next
      return (c.head :: more, c')
    else .ok ([], c)

private def address (c : Cursor) : Except Failure (String × Cursor) := do
  let (text, c) ← addressText (c.rest.length + 1) c
  if text.isEmpty then .error .malformed else return (String.ofList text, c)

private def handle (c : Cursor) : Except Failure (String × Cursor) :=
  if c.head ≠ '!' then .error .malformed
  else if c.peek 1 = ' ' then .ok ("!", c.next)
  else
    let (word, c) := c.next.takeWhile isWordChar
    if c.head = '!' then .ok ("!" ++ String.ofList word ++ "!", c.next) else .error .malformed

def readTag (c : Cursor) : Except Failure (Token × Cursor) := do
  let following := c.peek 1
  let (token, c) ←
    if following = '<' then do
      let (text, c) ← address (c.forward 2)
      if c.head = '>' then pure (Token.tag none text, c.next) else .error .malformed
    else if isBlank following then
      pure (Token.tag none "!", c.next)
    else
      let word := c.next.rest.takeWhile (!isGap ·)
      if word.contains '!' then do
        let (name, c) ← handle c
        let (text, c) ← address c
        pure (Token.tag (some name) text, c)
      else do
        let (text, c) ← address c.next
        pure (Token.tag (some "!") text, c)
  if isGap c.head then return (token, c) else .error .malformed

def readName (c : Cursor) : Except Failure (String × Cursor) :=
  let (word, c) := c.next.takeWhile isWordChar
  if !word.isEmpty && (isBlank c.head || "?:,]\x7d%@`".toList.contains c.head) then
    .ok (String.ofList word, c)
  else .error .malformed

private def number (c : Cursor) : Except Failure (Nat × Cursor) :=
  let (digits, c) := c.takeWhile Char.isDigit
  if digits.isEmpty then .error .malformed
  else .ok (Numeral.value 10 (digits.filterMap Hex.value?), c)

private def versionDirective (c : Cursor) : Except Failure (Token × Cursor) := do
  let (major, c) ← number c.skipSpaces
  if c.head ≠ '.' then .error .malformed
  else
    let (_, c) ← number c.next
    if isGap c.head then return (.versionDirective major, c) else .error .malformed

private def tagDirective (c : Cursor) : Except Failure (Token × Cursor) := do
  let (name, c) ← handle c.skipSpaces
  if c.head ≠ ' ' then .error .malformed
  else
    let (text, c) ← address c.skipSpaces
    if isGap c.head then return (.tagDirective name text, c) else .error .malformed

def readDirective (c : Cursor) : Except Failure (Token × Cursor) := do
  let (word, c) := c.next.takeWhile isWordChar
  if word.isEmpty || !isGap c.head then .error .malformed
  else
    let (token, c) ← match String.ofList word with
      | "YAML" => versionDirective c
      | "TAG" => tagDirective c
      | _ => pure (Token.otherDirective, c.skipWhile (!isBreakOrEnd ·))
    let c := c.skipSpaces.skipComment
    if isBreakOrEnd c.head then return (token, (c.lineBreak?.map (·.2)).getD c)
    else .error .malformed

end Chip8.Yaml
