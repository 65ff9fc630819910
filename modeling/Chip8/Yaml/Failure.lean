/-!
Why a text is no value. Almost every fault is `malformed`; the others are those that tags on
scalars and escapes bring with them, and they are told apart because callers treat them unlike.
-/

namespace Chip8.Yaml

inductive Failure where
  | malformed
  /-- An escape names a code point beyond the last. -/
  | codePoint
  /-- An escape names a number too large for any code point. -/
  | codePointSize
  /-- A scalar tagged as a number has no digits where digits belong. -/
  | number
  | emptyNumber
  /-- A scalar tagged as a truth value is none. -/
  | truth
  /-- A scalar tagged as a date has not the form of one. -/
  | dateForm
  /-- A scalar tagged as a date names a day that does not exist. -/
  | dateRange
  | textAsMapping
  | sequenceAsMapping
  /-- A collection that contains itself. -/
  | recursion
  deriving DecidableEq, Repr

end Chip8.Yaml
