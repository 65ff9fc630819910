/-!
Texts that refer to other settings. A reference is a name between `$\x7b` and `\x7d`, where dots in
front lead from a setting to what contains it; the name may itself hold references. A backslash
before a reference makes it plain text, and two backslashes there stand for one.
-/

namespace Chip8.Config

inductive Piece where
  | text (s : String)
  /-- The setting of a name, reached over so many dots. -/
  | reference (dots : Nat) (name : List Piece)
  deriving Repr

namespace Template

/-- Whether a text has references at all, be they escaped. -/
def hasReference (text : String) : Bool :=
  go text.toList
where
  go : List Char → Bool
    | '$' :: '\x7b' :: _ => true
    | _ :: rest => go rest
    | [] => false

def isNameChar (c : Char) : Bool :=
  !("\\\x7b\x7d()[]:. \t'\"".toList.contains c)

private def skipBlanks (text : List Char) : List Char :=
  text.dropWhile fun c => c = ' ' || c = '\t'

private def addChar (c : Char) : List Piece → List Piece
  | .text s :: rest => .text (String.ofList [c] ++ s) :: rest
  | pieces => .text (String.ofList [c]) :: pieces

private def addText (cs : List Char) (pieces : List Piece) : List Piece :=
  cs.foldr addChar pieces

mutual

private def name : Nat → List Char → Option (List Piece × List Char)
  | 0, _ => none
  | fuel + 1, text =>
    match text with
    | '$' :: '\x7b' :: rest => do
      let (inner, rest) ← reference fuel rest
      let (more, rest) ← name fuel rest
      return (inner :: more, rest)
    | c :: rest =>
      if isNameChar c then do
        let (more, rest) ← name fuel rest
        return (addChar c more, rest)
      else some ([], text)
    | [] => some ([], [])

/-- A reference, behind its opening brace. The name may stand in brackets. -/
private def reference : Nat → List Char → Option (Piece × List Char)
  | 0, _ => none
  | fuel + 1, text => do
    let text := skipBlanks text
    let dots := (text.takeWhile (· = '.')).length
    let body := text.drop dots
    let (pieces, rest) ← match body with
      | '[' :: inner => do
        let (pieces, rest) ← name fuel inner
        match rest with
        | ']' :: rest => some (pieces, rest)
        | _ => none
      | _ => name fuel body
    match skipBlanks rest with
    | '\x7d' :: rest => if pieces.isEmpty then none else some (.reference dots pieces, rest)
    | _ => none

end

private def pieces : Nat → List Char → Option (List Piece)
  | 0, _ => none
  | fuel + 1, text =>
    match text with
    | [] => some []
    | '$' :: '\x7b' :: rest => do
      let (r, rest) ← reference (fuel + 1) rest
      return r :: (← pieces fuel rest)
    | '\\' :: _ =>
      let slashes := (text.takeWhile (· = '\\')).length
      match text.drop slashes with
      | '$' :: '\x7b' :: rest =>
        let kept := List.replicate (slashes / 2) '\\'
        if slashes % 2 = 1 then do
          return addText (kept ++ ['$', '\x7b']) (← pieces fuel rest)
        else do
          let (r, rest) ← reference (fuel + 1) rest
          return addText kept (r :: (← pieces fuel rest))
      | rest => do
        return addText (List.replicate slashes '\\') (← pieces fuel rest)
    | c :: rest => do
      return addChar c (← pieces fuel rest)

def ofText? (text : String) : Option (List Piece) :=
  pieces (text.length + 1) text.toList

end Template

end Chip8.Config
