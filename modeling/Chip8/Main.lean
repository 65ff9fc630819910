import Chip8.CommandLine

/-!
The program: it reads the files that its command line names, runs it, prints what the run says and
writes the pictures it saves. There is no window to open.
-/

namespace Chip8.Main

def fileError (path : String) : IO.Error → FileError
  | .inappropriateType .. => .isDirectory path
  | _ => .missing path

def readFile (path : String) : IO (Except FileError (List UInt8)) := do
  try
    let content ← IO.FS.readBinFile path
    return .ok content.toList
  catch e => return .error (fileError path e)

def named (words : List String) : List String :=
  match CommandLine.Arguments.parse words with
  | .ok args => args.rom :: args.config.toList
  | .error _ => []

def world (words : List String) : IO CommandLine.World := do
  let contents ← (named words).mapM fun path => return (path, ← readFile path)
  return {
    read := fun path => (contents.lookup path).getD (.error (.missing path))
    target := .ok
    window := none
    clock := [] }

def write (name : String) (picture : Picture) : IO Unit :=
  match ImageFormat.ofExtension? (Files.extension name) with
  | some format => IO.FS.writeBinFile name ⟨(format.encode picture).toArray⟩
  | none => return ()

def run (words : List String) : IO UInt32 := do
  let outcome := CommandLine.run (← world words) words
  outcome.output.forM fun line => IO.println line
  outcome.pictures.forM fun p => write p.1 p.2
  match outcome.status with
  | .ok status => return UInt32.ofNat status
  | .error _ => return 1

end Chip8.Main

def main (words : List String) : IO UInt32 := Chip8.Main.run words
