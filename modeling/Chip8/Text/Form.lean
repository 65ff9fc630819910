/-!
Forms of text. A form reads a part from the front of a text and gives every rest that it may leave,
so that forms can be put one behind another. A text has a form when nothing need be left of it.
-/

namespace Chip8.Text

abbrev Form := List Char → List (List Char)

namespace Form

def char (p : Char → Bool) : Form
  | [] => []
  | c :: rest => if p c then [rest] else []

def empty : Form := fun text => [text]

def seq (a b : Form) : Form := fun text => (a text).flatMap b

def optional (a : Form) : Form := fun text => a text ++ [text]

/-- Every number of characters for which the condition holds, the most first. -/
def many (p : Char → Bool) : Form
  | [] => [[]]
  | c :: rest => if p c then many p rest ++ [c :: rest] else [c :: rest]

def oneOrMore (p : Char → Bool) : Form := seq (char p) (many p)

def is (c : Char) : Form := char (· = c)

def oneOf (cs : String) : Form := char fun c => cs.toList.contains c

def all (forms : List Form) : Form := forms.foldr seq empty

def word (text : String) : Form := all (text.toList.map is)

/-- One or more repetitions of a form that takes at least one character. -/
def repeated (a : Form) : Nat → Form
  | 0 => fun _ => []
  | fuel + 1 => fun text => (a text).flatMap fun rest => repeated a fuel rest ++ [rest]

def fits (a : Form) (text : List Char) : Bool := (a text).any List.isEmpty

end Form

end Chip8.Text
