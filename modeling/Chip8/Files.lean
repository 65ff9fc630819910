import Chip8.Text.Quoted

/-!
The files a run can see: those of its working directory. A path is followed name by name, and what
stands in the way is told in the words of the operating system.
-/

namespace Chip8

inductive FileError where
  | missing (path : String)
  | notDirectory (path : String)
  | isDirectory (path : String)
  | nameTooLong (path : String)
  /-- No path has a null character in it. -/
  | nullCharacter
  deriving DecidableEq, Repr

def FileError.message : FileError → String
  | missing path => "[Errno 2] No such file or directory: " ++ Text.quoted path
  | notDirectory path => "[Errno 20] Not a directory: " ++ Text.quoted path
  | isDirectory path => "[Errno 21] Is a directory: " ++ Text.quoted path
  | nameTooLong path => "[Errno 36] File name too long: " ++ Text.quoted path
  | nullCharacter => "embedded null byte"

structure Files where
  entries : List (String × List UInt8)
  deriving DecidableEq, Repr

namespace Files

def empty : Files := ⟨[]⟩

/-- Where a path leads: a list of names inside the working directory, or out of it. -/
inductive Place where
  | inside (names : List String)
  | outside (levels : Nat)
  deriving DecidableEq, Repr

inductive Kind where
  | file (content : List UInt8)
  | directory
  deriving DecidableEq, Repr

private def joined (names : List String) : String := "/".intercalate names

/-- What lies at a place, if anything does. Directories outside the working directory exist as far
up as one goes. -/
def lookup (files : Files) : Place → Option Kind
  | .outside _ => some .directory
  | .inside [] => some .directory
  | .inside names =>
    match files.entries.lookup (joined names) with
    | some content => some (.file content)
    | none =>
      if files.entries.any fun e => e.1.startsWith (joined names ++ "/") then some .directory
      else none

/-- One name further. A name outside the working directory leads nowhere. -/
private def enter (place : Place) (name : String) : Option Place :=
  match place with
  | .inside names =>
    if name = ".." then
      if names.isEmpty then some (.outside 1) else some (.inside names.dropLast)
    else some (.inside (names ++ [name]))
  | .outside levels => if name = ".." then some (.outside (levels + 1)) else none

private def follow (files : Files) (path : String) (place : Place) :
    List String → Except FileError Place
  | [] => .ok place
  | name :: rest =>
    match files.lookup place with
    | none => .error (.missing path)
    | some (.file _) => .error (.notDirectory path)
    | some .directory =>
      if name = "" ∨ name = "." then follow files path place rest
      else if name.utf8ByteSize > 255 then .error (.nameTooLong path)
      else match enter place name with
        | some next => follow files path next rest
        | none => .error (.missing path)

/-- The place a path names. Nothing needs to be there, but the way must exist. -/
def resolve (files : Files) (path : String) : Except FileError Place :=
  if path.toList.contains '\x00' then .error .nullCharacter
  else if path = "" then .error (.missing path)
  else if path.utf8ByteSize ≥ 4096 then .error (.nameTooLong path)
  else if path.startsWith "/" then
    follow files path (.outside 0) (path.splitOn "/")
  else
    follow files path (.inside []) (path.splitOn "/")

def read (files : Files) (path : String) : Except FileError (List UInt8) := do
  match files.lookup (← files.resolve path) with
  | some (.file content) => .ok content
  | some .directory => .error (.isDirectory path)
  | none => .error (.missing path)

/-- The name under which a file can be written, if the path allows it. -/
def target (files : Files) (path : String) : Except FileError String := do
  match ← files.resolve path with
  | .outside _ => .error (.isDirectory path)
  | .inside names =>
    match files.lookup (.inside names) with
    | some .directory => .error (.isDirectory path)
    | _ => .ok (joined names)

/-- The extension of a file name with its point, in lower case. Points at the start of the name do
not begin an extension. -/
def extension (path : String) : String :=
  let name := (path.toList.reverse.takeWhile (· ≠ '/')).reverse
  let body := name.dropWhile (· = '.')
  if body.contains '.' then
    let tail := (body.reverse.takeWhile (· ≠ '.')).reverse
    String.ofList ('.' :: tail.map Char.toLower)
  else ""

end Files

end Chip8
