import Chip8.Files
import Chip8.ImageFormat

/-!
The renderer of a run without a window. It counts the frames presented and keeps the latest one,
which can be saved as a picture.
-/

namespace Chip8

inductive DisplayError where
  | noFrame
  | unknownFormat (file extension : String)
  | unwritable (file : String) (reason : FileError)
  | noWindow
  deriving DecidableEq, Repr

def DisplayError.message : DisplayError → String
  | noFrame => "No frame has been presented yet"
  | unknownFormat file extension =>
    "Could not save screenshot " ++ file ++ ": unknown file extension: " ++ extension
  | unwritable file reason => "Could not save screenshot " ++ file ++ ": " ++ reason.message
  | noWindow => "Could not create window"

structure Recorder where
  frames : Nat
  last : Option Framebuffer
  palette : Option Palette
  outlines : Bool
  deriving DecidableEq, Repr

namespace Recorder

def empty : Recorder := ⟨0, none, none, false⟩

def present (recorder : Recorder) (screen : Framebuffer) (palette : Palette) (outlines : Bool) :
    Recorder :=
  ⟨recorder.frames + 1, some screen, some palette, outlines⟩

/-- The picture of the latest frame and the name of the file it goes to. What can be written to a
path is told by `target`. -/
def save (recorder : Recorder) (target : String → Except FileError String) (file : String)
    (scale : Int) : Except DisplayError (String × Picture) :=
  match recorder.last, recorder.palette with
  | some screen, some palette =>
    match ImageFormat.ofExtension? (Files.extension file), target file with
    | none, _ => .error (.unknownFormat file (Files.extension file))
    | some _, .error reason => .error (.unwritable file reason)
    | some _, .ok name => .ok (name, Picture.ofScreen screen scale palette recorder.outlines)
  | _, _ => .error .noFrame

end Recorder

end Chip8
