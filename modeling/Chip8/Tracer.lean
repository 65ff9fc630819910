import Chip8.Console
import Chip8.Disassembly
import Chip8.Execution

/-!
The instruction tracer. It sees each word just before the word is carried out, writes it at debug
level, and counts the words outside the instruction table, with a warning at the first of each.
`executeTraced` and `stepTraced` are the executor with a tracer in front. What comes of a word is the
same with and without one, and what the tracer notes is the same whatever comes of the word.
-/

namespace Chip8

/-- How often each unsupported word was met, in the order of first meetings. -/
structure Tally where
  counts : List (Int × Nat)
  deriving DecidableEq, Repr

namespace Tally

def empty : Tally := ⟨[]⟩

def words (tally : Tally) : List Int := tally.counts.map Prod.fst

def count (tally : Tally) (raw : Int) : Nat := (tally.counts.lookup raw).getD 0

private def bump (raw : Int) : List (Int × Nat) → List (Int × Nat)
  | [] => [(raw, 1)]
  | (key, n) :: rest => if key = raw then (key, n + 1) :: rest else (key, n) :: bump raw rest

def add (tally : Tally) (raw : Int) : Tally := ⟨bump raw tally.counts⟩

private theorem map_fst_bump (raw : Int) (counts : List (Int × Nat)) :
    (bump raw counts).map Prod.fst =
      if raw ∈ counts.map Prod.fst then counts.map Prod.fst else counts.map Prod.fst ++ [raw] := by
  induction counts with
  | nil => rfl
  | cons entry rest ih =>
    obtain ⟨key, n⟩ := entry
    unfold bump
    by_cases same : key = raw
    · simp [same]
    · by_cases later : raw ∈ rest.map Prod.fst
      · rw [if_pos later] at ih
        rw [if_neg same, List.map_cons, ih, List.map_cons, if_pos (List.mem_cons_of_mem _ later)]
      · rw [if_neg later] at ih
        rw [if_neg same, List.map_cons, ih, List.map_cons,
          if_neg (List.not_mem_cons_of_ne_of_not_mem (Ne.symm same) later), List.cons_append]

theorem words_add (tally : Tally) (raw : Int) :
    (tally.add raw).words = if raw ∈ tally.words then tally.words else tally.words ++ [raw] :=
  map_fst_bump ..

@[simp] theorem count_empty (raw : Int) : empty.count raw = 0 := rfl

private theorem lookup_bump (raw other : Int) (counts : List (Int × Nat)) :
    ((bump raw counts).lookup other).getD 0 =
      (counts.lookup other).getD 0 + if other = raw then 1 else 0 := by
  induction counts with
  | nil =>
    by_cases h : other = raw
    · simp [bump, h]
    · simp [bump, List.lookup_cons, h, beq_false_of_ne h]
  | cons entry rest ih =>
    obtain ⟨key, n⟩ := entry
    unfold bump
    by_cases hk : key = raw
    · by_cases ho : other = raw
      · simp [hk, ho]
      · simp [hk, ho, List.lookup_cons, beq_false_of_ne ho]
    · by_cases ho : other = key
      · simp [hk, ho]
      · simp only [hk, if_false, List.lookup_cons, beq_false_of_ne ho]
        exact ih

theorem count_add (tally : Tally) (raw other : Int) :
    (tally.add raw).count other = tally.count other + if other = raw then 1 else 0 :=
  lookup_bump ..

end Tally

namespace Tracer

/-- The address a word was fetched from, as far as the program counter after it tells. -/
def address (m : Machine) : Int := (m.pc.toNat : Int) - 2

def warning (m : Machine) (w : Word) : String :=
  "Unsupported opcode 0x" ++ Hex.padded 4 w.raw ++ " at 0x" ++ Hex.padded 4 (address m) ++
    " ignored"

def entry (m : Machine) (w : Word) : String :=
  "Address: 0x" ++ Hex.padded 4 (address m) ++ ", Opcode: 0x" ++ Hex.padded 4 w.raw ++
    " Desc: " ++ w.disassemble

def observe (tally : Tally) (console : Console) (m : Machine) (w : Word) : Tally × Console :=
  let (tally, console) :=
    if w.supported then (tally, console)
    else
      (tally.add w.raw,
        if tally.count w.raw = 0 then console.log .warning (warning m w) else console)
  (tally, console.log .debug (entry m w))

end Tracer

/-- What a run reports on the side: the log, and a tally when a tracer is at work. -/
structure Diagnostics where
  console : Console
  tally : Option Tally
  deriving Repr

namespace Diagnostics

def observe (d : Diagnostics) (m : Machine) (w : Word) : Diagnostics :=
  match d.tally with
  | none => d
  | some tally =>
    let r := Tracer.observe tally d.console m w
    ⟨r.2, some r.1⟩

def observeStep (d : Diagnostics) (m : Machine) : Diagnostics :=
  match m.fetch with
  | .ok (next, w) => d.observe next w
  | .error _ => d

def log (d : Diagnostics) (level : Level) (message : String) : Diagnostics :=
  { d with console := d.console.log level message }

end Diagnostics

/-- A computation that reports to the diagnostics. What it reports before a fault is not undone. -/
abbrev Traced (α : Type) := ExceptT Fault (StateM Diagnostics) α

def Traced.under {α : Type} (x : Traced α) (d : Diagnostics) : Except Fault α × Diagnostics :=
  (x.run.run d).run

theorem Traced.under_map {α β : Type} (x : Traced α) (f : α → β) (d : Diagnostics) :
    (x >>= fun a => pure (f a)).under d = ((x.under d).1.map f, (x.under d).2) := by
  unfold Traced.under ExceptT.run StateT.run Id.run
  simp only [bind, ExceptT.bind, ExceptT.mk, StateT.bind, ExceptT.bindCont]
  cases x d with
  | mk result later => cases result <;> rfl

namespace Machine

/-- Carries out one word in front of a tracer, which sees it before anything is checked. -/
def executeTraced (m : Machine) (w : Word) (strict : Bool) : Traced Machine := do
  modify fun d => d.observe m w
  match Instruction.ofWord? w with
  | none => if strict then throw (.unsupported m.pc w) else return m
  | some i =>
    m.check w i
    return m.apply i

def stepTraced (m : Machine) (strict : Bool) : Traced (Machine × Word) := do
  let (next, w) ← m.fetch
  let done ← next.executeTraced w strict
  return (done, w)

theorem executeTraced_under (m : Machine) (w : Word) (strict : Bool) (d : Diagnostics) :
    (m.executeTraced w strict).under d = (m.execute w strict, d.observe m w) := by
  unfold executeTraced execute
  cases Instruction.ofWord? w with
  | none => cases strict <;> rfl
  | some i =>
    dsimp only
    cases m.check w i <;> rfl

theorem stepTraced_under (m : Machine) (strict : Bool) (d : Diagnostics) :
    (m.stepTraced strict).under d = (m.step strict, d.observeStep m) := by
  unfold stepTraced step Diagnostics.observeStep
  cases m.fetch with
  | error fault => rfl
  | ok fetched =>
    obtain ⟨next, w⟩ := fetched
    change (next.executeTraced w strict >>= fun done => pure (done, w)).under d =
      (next.execute w strict >>= fun done => pure (done, w), d.observe next w)
    rw [Traced.under_map, executeTraced_under]
    cases next.execute w strict <;> rfl

end Machine

end Chip8
