/-!
The tokens of a document. Indentation shows as start and end tokens of blocks, and a key that is
written without a mark of its own has a `key` token in front of it all the same.
-/

namespace Chip8.Yaml

inductive Token where
  | versionDirective (major : Nat)
  | tagDirective (handle address : String)
  | otherDirective
  | documentStart
  | documentEnd
  | streamEnd
  | blockSequenceStart
  | blockMappingStart
  | blockEnd
  | flowSequenceStart
  | flowSequenceEnd
  | flowMappingStart
  | flowMappingEnd
  | blockEntry
  | flowEntry
  | key
  | value
  | alias (name : String)
  | anchor (name : String)
  /-- A tag, with the handle that shortens it if it has one. -/
  | tag (handle : Option String) (suffix : String)
  /-- The text of a scalar; `plain` when it stands without quotes and block marks. -/
  | scalar (text : String) (plain : Bool)
  deriving DecidableEq, Repr

end Chip8.Yaml
