import Chip8.Numeral

/-!
The words of a command line. Options may stand anywhere and may be shortened as long as they stay
unambiguous. They are read in two rounds: the first takes the options out and leaves the rest, the
second gives the rest to the program name and the overrides. A `--` ends the options; where nothing
but options stands before it, it is used up in the first round.
-/

namespace Chip8.CommandLine

inductive Stop where
  | help
  | misuse
  deriving DecidableEq, Repr

structure Arguments where
  rom : String
  config : Option String
  headless : Bool
  cycles : Option Int
  screenshot : Option String
  progress : Bool
  noThrottle : Bool
  overrides : List String
  deriving DecidableEq, Repr

namespace Arguments

inductive Switch where
  | help | config | headless | cycles | screenshot | progress | noThrottle
  deriving DecidableEq, Repr

def longNames : List (String × Switch) :=
  [("--help", .help), ("--config", .config), ("--headless", .headless), ("--cycles", .cycles),
   ("--screenshot", .screenshot), ("--progress", .progress), ("--no-throttle", .noThrottle)]

/-- The word after which no word is a switch. -/
def separator : String := "--"

inductive Word where
  | plain
  | switch (s : Switch) (value : Option String)
  /-- The short form `-h` with more characters behind it. -/
  | shortHelp (more : String)
  | unknown
  deriving DecidableEq, Repr

def isNegativeNumber (word : String) : Bool :=
  match word.toList with
  | '-' :: text =>
    let isDigit (c : Char) : Bool := (Text.decimalValue? c).isSome
    -- a line feed at the end does no harm
    let text := if text.getLast? = some '\n' then text.dropLast else text
    let whole := text.takeWhile isDigit
    match text.drop whole.length with
    | [] => !whole.isEmpty
    | '.' :: places => !places.isEmpty && places.all isDigit
    | _ => false
  | _ => false

private def splitValue (word : String) : String × Option String :=
  let text := word.toList
  let name := text.takeWhile (· ≠ '=')
  match text.drop name.length with
  | [] => (word, none)
  | _ :: value => (String.ofList name, some (String.ofList value))

/-- Sorts a word other than the separator. A long name may be shortened as long as only one begins
so. -/
def Word.ofString (word : String) : Except Stop Word :=
  let (name, value) := splitValue word
  if !word.startsWith "-" || word = "-" then .ok .plain
  else if word = "-h" then .ok (.switch .help none)
  else if word.startsWith "--" then
    match longNames.filter fun n => n.1.startsWith name with
    | [(_, s)] => .ok (.switch s value)
    | [] => .ok (if word.toList.contains ' ' then .plain else .unknown)
    | _ => .error .misuse
  else if word.startsWith "-h" then .ok (.shortHelp (String.ofList (word.toList.drop 2)))
  else .ok (if isNegativeNumber word || word.toList.contains ' ' then .plain else .unknown)

private def checkWords (words : List String) : Except Stop Unit :=
  (words.takeWhile (· ≠ separator)).forM fun w => (Word.ofString w).map fun _ => ()

/-- What comes of `-h` with more characters behind it. They may repeat it; a value or a minus sign
cannot follow. -/
private def ofShortHelp (more : String) : Stop :=
  match more.toList.dropWhile (· = 'h') with
  | '=' :: _ | '-' :: _ => .misuse
  | _ => .help

private def blank : Arguments :=
  ⟨"", none, false, none, none, false, false, []⟩

private def setFlag (a : Arguments) : Switch → Except Stop Arguments
  | .help => .error .help
  | .headless => .ok { a with headless := true }
  | .progress => .ok { a with progress := true }
  | .noThrottle => .ok { a with noThrottle := true }
  | .config | .cycles | .screenshot => .error .misuse

private def takesValue : Switch → Bool
  | .config | .cycles | .screenshot => true
  | _ => false

private def setValue (a : Arguments) (s : Switch) (value : String) : Except Stop Arguments :=
  match s with
  | .config => .ok { a with config := some value }
  | .screenshot => .ok { a with screenshot := some value }
  | .cycles =>
    match Numeral.integer? 10 value.toList with
    | some n => .ok { a with cycles := some n }
    | none => .error .misuse
  | _ => .error .misuse

/-- A round: the arguments with the switches set, the words left over, and whether an unknown
switch or a word out of place is among them. -/
private structure Round where
  arguments : Arguments
  left : List String
  begun : Bool
  /-- The first run of plain words is over. -/
  closed : Bool
  faulty : Bool

private def Round.plain (r : Round) (word : String) : Round :=
  { r with left := r.left ++ [word], begun := true, faulty := r.faulty || r.closed }

private def Round.switched (r : Round) (a : Arguments) : Round :=
  { r with arguments := a, closed := r.begun }

/-- Reads words up to the separator; the second part is what stands behind it, if it came. -/
private def readWords (r : Round) : List String → Except Stop (Round × Option (List String))
  | [] => .ok (r, none)
  | word :: rest =>
    if word = separator then .ok (r, some rest)
    else do
      match ← Word.ofString word with
      | .plain => readWords (r.plain word) rest
      | .unknown => readWords { r with left := r.left ++ [word], faulty := true } rest
      | .shortHelp more => .error (ofShortHelp more)
      | .switch s (some v) =>
        if takesValue s then do readWords (r.switched (← setValue r.arguments s v)) rest
        else .error .misuse
      | .switch s none =>
        if takesValue s then
          match rest with
          | v :: rest => do
            if v = separator || (← Word.ofString v) ≠ .plain then .error .misuse
            else readWords (r.switched (← setValue r.arguments s v)) rest
          | [] => .error .misuse
        else do readWords (r.switched (← setFlag r.arguments s)) rest

/-- The program name and the overrides among plain words, given which of them is the separator. -/
private def assign (a : Arguments) (before : List String) (behind : Option (List String)) :
    Except Stop Arguments :=
  match before, behind with
  | rom :: more, none => .ok { a with rom := rom, overrides := more }
  | [rom], some words => .ok { a with rom := rom, overrides := words.erase separator }
  | rom :: more, some words => .ok { a with rom := rom, overrides := more ++ words }
  | [], some (rom :: words) => .ok { a with rom := rom, overrides := words.erase separator }
  | [], _ => .error .misuse

def parse (words : List String) : Except Stop Arguments := do
  checkWords words
  let (first, behind) ← readWords ⟨blank, [], false, false, false⟩ words
  let left := match behind with
    | some rest => if first.begun then first.left ++ separator :: rest else first.left ++ rest
    | none => first.left
  checkWords left
  let (second, behind) ← readWords ⟨first.arguments, [], false, false, false⟩ left
  if second.faulty || (second.closed && behind.isSome) then .error .misuse
  else assign second.arguments second.left behind

end Arguments

end Chip8.CommandLine
