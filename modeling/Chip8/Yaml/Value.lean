import Chip8.Numeral
import Chip8.Yaml.Node

/-!
From nodes to values. A tag says how the text of a scalar is read; in a mapping, entries under the
merge mark are replaced by those of the mappings they name, which entries of the mapping's own
override.
-/

namespace Chip8.Yaml

inductive Value where
  | null
  | bool (b : Bool)
  | int (n : Int)
  | float (f : Float)
  | text (s : String)
  /-- Bytes. What they are is of no use to anyone here. -/
  | bytes
  /-- A date or a set, of which nothing is kept either. -/
  | other
  | sequence (items : List Value)
  | mapping (entries : List (Value × Value))
  deriving Repr

namespace Scalar

private def withoutUnderscores (text : String) : List Char :=
  text.toList.filter (· ≠ '_')

private def signed (text : List Char) : Except Failure (Bool × List Char) :=
  if text.isEmpty then .error .emptyNumber else .ok (Numeral.splitSign text)

private def parts (text : List Char) : List (List Char) :=
  (String.ofList text).splitOn ":" |>.map String.toList

private def whole (base : Nat) (text : List Char) : Except Failure Int :=
  match Numeral.integer? base text with
  | some n => .ok n
  | none => .error .number

private def decimal (text : List Char) : Except Failure Float :=
  match Numeral.decimal? text with
  | some f => .ok f
  | none => .error .number

def int (text : String) : Except Failure Int := do
  let (negative, body) ← signed (withoutUnderscores text)
  let n ← match body with
    | [] => .error .emptyNumber
    | ['0'] => .ok 0
    | '0' :: 'b' :: rest => whole 2 rest
    | '0' :: 'x' :: rest => whole 16 rest
    | '0' :: _ => whole 8 body
    | _ =>
      if body.contains ':' then do
        let digits ← (parts body).mapM (whole 10)
        pure (digits.foldl (fun n d => n * 60 + d) 0)
      else whole 10 body
  return if negative then -n else n

/-- A decimal, an infinity, no number, or places of sixty. The places are added from the last. -/
def float (text : String) : Except Failure Float := do
  let (negative, body) ← signed ((withoutUnderscores text).map Char.toLower)
  let f ←
    if body = ['.', 'i', 'n', 'f'] then pure (Numeral.nearest false (Nat.pow 2 1024) 1)
    else if body = ['.', 'n', 'a', 'n'] then pure (0.0 / 0.0)
    else if body.contains ':' then do
      let digits ← (parts body).mapM decimal
      let step (acc : Float × Nat) (d : Float) : Float × Nat :=
        (acc.1 + d * Numeral.nearest false acc.2 1, acc.2 * 60)
      pure (digits.reverse.foldl step (0.0, 1)).1
    else decimal body
  return if negative then -f else f

def bool (text : String) : Except Failure Bool :=
  let word := String.ofList (text.toList.map Char.toLower)
  if word ∈ ["yes", "true", "on"] then .ok true
  else if word ∈ ["no", "false", "off"] then .ok false
  else .error .truth

open Text Text.Form in
private def dateForm : Form :=
  let digit := char Char.isDigit
  let upTo2 := seq digit (optional digit)
  let blank := fun c => c = ' ' || c = '\t'
  let zone := seq (many blank) (fun t =>
    is 'Z' t ++ all [oneOf "+-", upTo2, optional (all [is ':', digit, digit])] t)
  let time := all [fun t => oneOf "Tt" t ++ oneOrMore blank t, upTo2, is ':', digit, digit, is ':',
    digit, digit, optional (seq (is '.') (many Char.isDigit)), optional zone]
  all [digit, digit, digit, digit, is '-', upTo2, is '-', upTo2, optional time]

private def daysIn (year month : Nat) : Nat :=
  if month = 2 then
    if year % 4 = 0 ∧ (year % 100 ≠ 0 ∨ year % 400 = 0) then 29 else 28
  else if month ∈ [4, 6, 9, 11] then 30
  else 31

def checkDate (text : String) : Except Failure Unit :=
  let t := text.toList
  if !dateForm.fits t then .error .dateForm
  else
    let number (ds : List Char) : Nat := Numeral.value 10 (ds.filterMap Hex.value?)
    let year := number (t.take 4)
    let rest := t.drop 5
    let month := number (rest.takeWhile Char.isDigit)
    let day := number (((rest.dropWhile Char.isDigit).drop 1).takeWhile Char.isDigit)
    if 1 ≤ year ∧ 1 ≤ month ∧ month ≤ 12 ∧ 1 ≤ day ∧ day ≤ daysIn year month then .ok ()
    else .error .dateRange

end Scalar

namespace Value

def isKey : Value → Bool
  | sequence _ | mapping _ | other => false
  | _ => true

private def sameKey : Value → Value → Bool
  | text a, text b => a = b
  | _, _ => false

private def insert (entries : List (Value × Value)) (key value : Value) : List (Value × Value) :=
  if entries.any (sameKey key ·.1) then
    entries.map fun e => if sameKey key e.1 then (e.1, value) else e
  else entries ++ [(key, value)]

/-- The text of a scalar node. A mapping with an entry under the value mark stands for the text of
that entry. -/
private def scalarText : Nat → Node → Except Failure String
  | 0, _ => .error .malformed
  | fuel + 1, n =>
    match n with
    | .scalar _ t => .ok t
    | .mapping _ entries =>
      match entries.find? fun e => match e.1 with | .scalar .value _ => true | _ => false with
      | some e => scalarText fuel e.2
      | none => .error .malformed
    | .sequence .. => .error .malformed
    | .cycle => .error .recursion

private def keyTexts (entries : List (Node × Node)) : List String :=
  entries.filterMap fun e => match e.1 with | .scalar .text t => some t | _ => none

private def hasRepeats : List String → Bool
  | [] => false
  | t :: rest => rest.contains t || hasRepeats rest

private def isMerge : Node → Bool
  | .scalar .merge _ => true
  | _ => false

private def asPlainKey : Node → Node
  | .scalar .value t => .scalar .text t
  | n => n

private def merged : Nat → List (Node × Node) → Except Failure (List (Node × Node))
  | 0, _ => .error .recursion
  | fuel + 1, entries => do
    let sources ← (entries.filter fun e => isMerge e.1).mapM fun e =>
      match e.2 with
      | .mapping _ inner => merged fuel inner
      | .sequence _ items => do
        let lists ← items.mapM fun item =>
          match item with
          | .mapping _ inner => merged fuel inner
          | _ => .error .malformed
        return lists.reverse.flatten
      | .cycle => .error .recursion
      | .scalar .. => .error .malformed
    let own := (entries.filter fun e => !isMerge e.1).map fun e => (asPlainKey e.1, e.2)
    return sources.flatten ++ own

mutual

private def ofNode : Nat → Node → Except Failure Value
  | 0, _ => .error .recursion
  | fuel + 1, n => do
    let tag := match n with
      | .scalar tag _ | .sequence tag _ | .mapping tag _ => tag
      | .cycle => .unknown
    match n, tag with
    | .cycle, _ => .error .recursion
    | _, .null => (scalarText fuel n).map fun _ => null
    | _, .bool => (Scalar.bool (← scalarText fuel n)).map bool
    | _, .int => (Scalar.int (← scalarText fuel n)).map int
    | _, .float => (Scalar.float (← scalarText fuel n)).map float
    | _, .text => (scalarText fuel n).map text
    | _, .binary => (scalarText fuel n).map fun _ => bytes
    | _, .date => (Scalar.checkDate (← scalarText fuel n)).map fun _ => other
    | .sequence _ items, .sequence => (items.mapM (ofNode fuel)).map sequence
    | .sequence _ items, .pairs | .sequence _ items, .orderedPairs =>
      (items.mapM (pair fuel)).map sequence
    | .mapping _ entries, .mapping => (ofEntries fuel entries).map mapping
    | .mapping _ entries, .set => (ofEntries fuel entries).map fun _ => other
    | .scalar _ t, .mapping | .scalar _ t, .set =>
      .error (if t = "" then .malformed else .textAsMapping)
    | .sequence _ items, .mapping | .sequence _ items, .set =>
      .error (if items.isEmpty then .malformed else .sequenceAsMapping)
    | _, _ => .error .malformed

private def pair : Nat → Node → Except Failure Value
  | 0, _ => .error .recursion
  | fuel + 1, n =>
    match n with
    | .mapping _ [(k, v)] => do
      return sequence [← ofNode fuel k, ← ofNode fuel v]
    | _ => .error .malformed

private def ofEntries : Nat → List (Node × Node) → Except Failure (List (Value × Value))
  | 0, _ => .error .recursion
  | fuel + 1, entries =>
    if hasRepeats (keyTexts entries) then .error .malformed
    else do
      (← merged fuel entries).foldlM (fun done e => do
        let key ← ofNode fuel e.1
        if key.isKey then return insert done key (← ofNode fuel e.2)
        else .error .malformed) []

end

/-- Depth of nesting that readers follow. It stands in for the room that a host has for recursion,
which may end earlier. -/
def deepest : Nat := 1000

def ofText (text : String) : Except Failure Value := do
  match ← Node.ofText? text with
  | none => return null
  | some n => ofNode deepest n

end Value

end Chip8.Yaml
