import Chip8.Config.Field
import Chip8.Files

/-!
Reading a configuration: the defaults, then a file, then overrides of the form `key=value`, each
over what came before. Every value is fitted to its field when it is read, also one that a later
source replaces. The overrides are one source: among them only the last value of a key counts.

Two things are idealised. A file is decoded and cut into tokens as a whole before its structure is
looked at; a reader that takes a file piece by piece may stop at a malformed beginning and never
meet the bytes further on that are no text. And nesting is followed down to a fixed depth, where
such a reader ends with its room for recursion.
-/

namespace Chip8

namespace Config

inductive LoadError where
  | invalid (reason : ConfigError)
  | notUtf8
  /-- The file holds a list, or a list and a mapping were to be merged. -/
  | listForMapping
  /-- The text that is all of the file reads as something else than settings. -/
  | notSettings
  | tooLarge
  /-- An override has a key without any name in it. -/
  | emptyKey
  | badPath
  /-- A document is refused for what a tag or an escape in it says. -/
  | document (reason : Yaml.Failure)
  deriving DecidableEq, Repr

namespace LoadError

def unreadable : LoadError := invalid .unreadable

def ofFailure (f : Yaml.Failure) : LoadError :=
  if f = .malformed then unreadable else document f

def ofMisfit : Misfit → LoadError
  | .wrongKind => unreadable
  | .tooLarge => tooLarge

end LoadError

def read (text : String) : Except LoadError Yaml.Value :=
  (Yaml.Value.ofText text).mapError .ofFailure

mutual

/-- Whether a value can stand among settings: references are well formed, and keys have names. -/
def canHold : Nat → Yaml.Value → Bool
  | 0, _ => false
  | fuel + 1, v =>
    match v with
    | .other => false
    | .text s => !Template.hasReference s || (Template.ofText? s).isSome
    | .sequence items => items.all (canHold fuel)
    | .mapping entries => entries.all (canHoldEntry fuel)
    | _ => true

def canHoldEntry : Nat → Yaml.Value × Yaml.Value → Bool
  | 0, _ => false
  | fuel + 1, (key, v) =>
    (match key with | .null => false | _ => true) && canHold fuel v

end

def checkHolds (v : Yaml.Value) : Except LoadError Unit :=
  if canHold (2 * Yaml.Value.deepest) v then .ok () else .error .unreadable

def assign (draft : Draft) (key : Yaml.Value) (v : Yaml.Value) : Except LoadError Draft :=
  match key with
  | .text name =>
    match Field.ofName? name with
    | some field => (draft.assign field v).mapError .ofMisfit
    | none => .error .unreadable
  | _ => .error .unreadable

def mergeEntries (draft : Draft) (v : Yaml.Value) : Except LoadError Draft := do
  checkHolds v
  match v with
  | .mapping entries => entries.foldlM (fun d e => assign d e.1 e.2) draft
  | .null => return draft
  | _ => .error .listForMapping

/-- Merges what a file holds. A file that is one text is read once more, and if that is a text
again it is a key without a value. -/
def mergeFile (draft : Draft) (v : Yaml.Value) : Except LoadError Draft := do
  match v with
  | .null | .mapping _ | .sequence _ => mergeEntries draft v
  | .text s =>
    match ← read s with
    | .text key => mergeEntries draft (.mapping [(.text key, .null)])
    | .null => return draft
    | .mapping entries => mergeEntries draft (.mapping entries)
    | .sequence items => mergeEntries draft (.sequence items)
    | _ => .error .notSettings
  | _ => .error .unreadable

private def unifyBreaks : List Char → List Char
  | '\r' :: '\n' :: rest => '\n' :: unifyBreaks rest
  | '\r' :: rest => '\n' :: unifyBreaks rest
  | c :: rest => c :: unifyBreaks rest
  | [] => []

def decode (content : List UInt8) : Except LoadError String :=
  match String.fromUTF8? ⟨content.toArray⟩ with
  | some text => .ok (String.ofList (unifyBreaks text.toList))
  | none => .error .notUtf8

/-! Keys of overrides -/

/-- The parts of a key path behind its first: after a dot, or in brackets. What belongs to neither
is passed over. -/
private def laterParts : Nat → List Char → List String
  | 0, _ => []
  | fuel + 1, text =>
    match text with
    | '.' :: rest =>
      let word := rest.takeWhile fun c => c ≠ '.' && c ≠ '['
      String.ofList word :: laterParts fuel (rest.drop word.length)
    | '[' :: rest =>
      let word := rest.takeWhile fun c => c ≠ ']' && c ≠ '\n'
      match rest.drop word.length with
      | ']' :: more => String.ofList word :: laterParts fuel more
      | _ => laterParts fuel rest
    | _ :: rest => laterParts fuel rest
    | [] => []

def keyPath (key : String) : List String :=
  let text := key.toList
  let dots := text.takeWhile (· = '.')
  let word := (text.drop dots.length).takeWhile fun c => c ≠ '.' && c ≠ '['
  let rest := text.drop (dots.length + word.length)
  let first := List.replicate dots.length "" ++ [String.ofList word]
  if rest.isEmpty then first
  else
    let first := if rest.head? = some '[' ∧ word.isEmpty then first.dropLast else first
    first ++ laterParts (rest.length + 1) rest

/-- A value given by overrides. Of a collection only its sort matters, as no field takes one. -/
inductive Given where
  | scalar (v : Yaml.Value)
  | mapping
  | sequence
  deriving Repr

def givenOf : Yaml.Value → Given
  | .mapping _ => .mapping
  | .sequence _ => .sequence
  | v => .scalar v

def put (layer : List (String × Given)) (key : String) (g : Given) :
    List (String × Given) :=
  if layer.any (·.1 = key) then layer.map fun e => if e.1 = key then (key, g) else e
  else layer ++ [(key, g)]

/-- Adds a value at a key path to what earlier overrides gave. A longer path makes its first name a
mapping, unless it is a collection already. -/
def addGiven (layer : List (String × Given)) (path : List String) (v : Yaml.Value) :
    Except LoadError (List (String × Given)) :=
  match path with
  | [] => .error .emptyKey
  | [key] => do
    match layer.lookup key, givenOf v with
    | some .mapping, .sequence | some .sequence, .mapping => .error .listForMapping
    | _, g => do
      checkHolds v
      return put layer key g
  | key :: _ =>
    match layer.lookup key with
    | some .mapping | some .sequence => (checkHolds v).map fun _ => layer
    | some (.scalar (.text s)) =>
      if s = Draft.missing then .error .unreadable
      else (checkHolds v).map fun _ => put layer key .mapping
    | _ => (checkHolds v).map fun _ => put layer key .mapping

def split (override : String) : String × Option String :=
  let text := override.toList
  let key := text.takeWhile (· ≠ '=')
  match text.drop key.length with
  | [] => (String.ofList key, none)
  | _ :: rest => (String.ofList key, some (String.ofList rest))

def addOverride (layer : List (String × Given)) (override : String) :
    Except LoadError (List (String × Given)) := do
  let (key, text) := split override
  let v ← match text with
    | some t => read t
    | none => pure .null
  addGiven layer (keyPath key) v

def mergeOverrides (draft : Draft) (overrides : List String) : Except LoadError Draft := do
  let layer ← overrides.foldlM addOverride []
  layer.foldlM (fun d e =>
    match e.2 with
    | .scalar v => assign d (.text e.1) v
    | _ => .error .unreadable) draft

/-- What a file's content, if there is a file, and the overrides say, with references still open. -/
def gather (file : Option (List UInt8)) (overrides : List String) : Except LoadError Draft := do
  let draft := Draft.ofConfig Config.default
  let draft ← match file with
    | some content => do mergeFile draft (← read (← decode content))
    | none => pure draft
  mergeOverrides draft overrides

/-- The configuration of a file's content and of overrides. It is not yet checked for ranges. -/
def merge (file : Option (List UInt8)) (overrides : List String) : Except LoadError Config := do
  (← gather file overrides).resolve.mapError .ofMisfit

/-- Reads and validates a configuration. A file that cannot be read makes it invalid. -/
def load (file : Option (Except FileError (List UInt8))) (overrides : List String) :
    Except LoadError Config := do
  let content ← match file with
    | some (.ok content) => pure (some content)
    | some (.error .nullCharacter) => .error .badPath
    | some (.error _) => .error .unreadable
    | none => pure none
  let config ← merge content overrides
  config.validate.mapError .invalid

end Config

end Chip8
