import Chip8.Proofs.StepOutcome

/-!
Operations on a machine from outside, and what a list of them comes to. A trace keeps the words
carried out, the machine after the last operation that succeeded, and the fault that ended it. The
alternative in which a faulting step is passed over is `settleAll`.
-/

namespace Chip8

inductive Operation where
  | step (strict : Bool)
  | tick
  | keys (keypad : Keypad)
  deriving DecidableEq, Repr

def Operation.isStep : Operation → Bool
  | .step _ => true
  | _ => false

structure Trace where
  words : List Word
  machine : Machine
  fault : Option Fault
  deriving DecidableEq, Repr

def Trace.after (earlier : List Word) (t : Trace) : Trace :=
  { t with words := earlier ++ t.words }

@[simp] theorem Trace.after_nil (t : Trace) : t.after [] = t := rfl

@[simp] theorem Trace.after_after (a b : List Word) (t : Trace) :
    (t.after b).after a = t.after (a ++ b) := by
  simp [Trace.after, List.append_assoc]

@[simp] theorem Trace.after_words (a : List Word) (t : Trace) :
    (t.after a).words = a ++ t.words := rfl

@[simp] theorem Trace.after_machine (a : List Word) (t : Trace) :
    (t.after a).machine = t.machine := rfl

@[simp] theorem Trace.after_fault (a : List Word) (t : Trace) : (t.after a).fault = t.fault := rfl

namespace Machine

/-- The machine after one operation, and the words it carried out, at most one. -/
def operate (m : Machine) : Operation → Except Fault (Machine × List Word)
  | .step strict => (m.step strict).map fun r => (r.1, [r.2])
  | .tick =>
    let delay := if m.delay = 0 then 0 else m.delay - 1
    let sound := if m.sound = 0 then 0 else m.sound - 1
    .ok ({ m with delay := delay, sound := sound }, [])
  | .keys keypad => .ok ({ m with keypad := keypad }, [])

def trace (m : Machine) : List Operation → Trace
  | [] => ⟨[], m, none⟩
  | op :: rest =>
    match m.operate op with
    | .ok (next, words) => (next.trace rest).after words
    | .error fault => ⟨[], m, some fault⟩

def steps (m : Machine) (strictness : List Bool) : Trace := m.trace (strictness.map .step)

/-- The machine after one operation; a step that faults leaves it as it was. -/
def settle (m : Machine) (op : Operation) : Machine :=
  match m.operate op with
  | .ok (next, _) => next
  | .error _ => m

def settleAll (m : Machine) (ops : List Operation) : Machine := ops.foldl settle m

theorem operate_step_eq_ok_iff {m next : Machine} {strict : Bool} {words : List Word} :
    m.operate (.step strict) = .ok (next, words) ↔
      m.obstacle? strict = none ∧ next = m.successor ∧ words = [m.wordAtPc] := by
  rw [operate, step_eq]
  cases m.obstacle? strict with
  | none => simp [Except.map, eq_comm]
  | some fault => simp [Except.map]

@[simp] theorem trace_nil (m : Machine) : m.trace [] = ⟨[], m, none⟩ := rfl

@[simp] theorem trace_tick (m : Machine) (ops : List Operation) :
    m.trace (.tick :: ops) = m.tick.trace ops := rfl

@[simp] theorem trace_keys (m : Machine) (keypad : Keypad) (ops : List Operation) :
    m.trace (.keys keypad :: ops) = (m.withKeys keypad).trace ops := rfl

theorem trace_step (m : Machine) (strict : Bool) (ops : List Operation) :
    m.trace (.step strict :: ops) = match m.obstacle? strict with
      | some fault => ⟨[], m, some fault⟩
      | none => (m.successor.trace ops).after [m.wordAtPc] := by
  rw [trace, operate, step_eq]
  cases m.obstacle? strict <;> rfl

theorem trace_append (m : Machine) (first second : List Operation) :
    m.trace (first ++ second) = match (m.trace first).fault with
      | some _ => m.trace first
      | none => ((m.trace first).machine.trace second).after (m.trace first).words := by
  induction first generalizing m with
  | nil => rfl
  | cons op rest ih =>
    rw [List.cons_append, trace, trace]
    cases m.operate op with
    | error fault => rfl
    | ok r =>
      obtain ⟨next, words⟩ := r
      simp only [ih, Trace.after_fault]
      cases (next.trace rest).fault with
      | none => simp
      | some fault => rfl

theorem trace_append_of_fault {m : Machine} {first : List Operation} {fault : Fault}
    (h : (m.trace first).fault = some fault) (second : List Operation) :
    m.trace (first ++ second) = m.trace first := by
  rw [trace_append, h]

theorem trace_append_of_ok {m : Machine} {first : List Operation}
    (h : (m.trace first).fault = none) (second : List Operation) :
    m.trace (first ++ second) =
      ((m.trace first).machine.trace second).after (m.trace first).words := by
  rw [trace_append, h]

theorem fault_of_trace_append {m : Machine} {first second : List Operation}
    (h : (m.trace (first ++ second)).fault = none) : (m.trace first).fault = none := by
  cases early : (m.trace first).fault with
  | none => rfl
  | some fault => rw [trace_append_of_fault early, early] at h; exact h

theorem steps_cons (m : Machine) (strict : Bool) (rest : List Bool) :
    m.steps (strict :: rest) = match m.obstacle? strict with
      | some fault => ⟨[], m, some fault⟩
      | none => (m.successor.steps rest).after [m.wordAtPc] :=
  trace_step m strict (rest.map .step)

theorem steps_cons_ok {m : Machine} {strict : Bool} {rest : List Bool}
    (ok : (m.steps (strict :: rest)).fault = none) :
    m.obstacle? strict = none ∧ (m.successor.steps rest).fault = none ∧
      m.steps (strict :: rest) = (m.successor.steps rest).after [m.wordAtPc] := by
  rw [steps_cons] at ok ⊢
  cases free : m.obstacle? strict with
  | none =>
    rw [free] at ok
    exact ⟨rfl, ok, rfl⟩
  | some fault => simp [free] at ok

theorem steps_append_ok {m : Machine} {first second : List Bool}
    (ok : (m.steps (first ++ second)).fault = none) :
    (m.steps first).fault = none ∧
      m.steps (first ++ second) =
        ((m.steps first).machine.steps second).after (m.steps first).words := by
  simp only [steps, List.map_append] at ok ⊢
  have early := fault_of_trace_append ok
  exact ⟨early, trace_append_of_ok early _⟩

/-- The machines from which a run of steps carries out its words. -/
def visited (m : Machine) : List Bool → List Machine
  | [] => []
  | strict :: rest =>
    match m.step strict with
    | .ok (next, _) => m :: next.visited rest
    | .error _ => []

theorem visited_cons (m : Machine) (strict : Bool) (rest : List Bool) :
    m.visited (strict :: rest) = match m.obstacle? strict with
      | some _ => []
      | none => m :: m.successor.visited rest := by
  rw [visited, step_eq]
  cases m.obstacle? strict <;> rfl

theorem words_steps (m : Machine) (strictness : List Bool) :
    (m.steps strictness).words = (m.visited strictness).map wordAtPc := by
  induction strictness generalizing m with
  | nil => rfl
  | cons strict rest ih =>
    rw [steps_cons, visited_cons]
    cases m.obstacle? strict with
    | some fault => rfl
    | none => simp [ih]

theorem steps_invariant {P : Machine → Prop} {m : Machine} {strictness : List Bool} (start : P m)
    (preserved : ∀ now ∈ m.visited strictness, P now → P now.successor) :
    P (m.steps strictness).machine := by
  induction strictness generalizing m with
  | nil => exact start
  | cons strict rest ih =>
    rw [visited_cons] at preserved
    rw [steps_cons]
    cases free : m.obstacle? strict with
    | some fault => exact start
    | none =>
      rw [free] at preserved
      obtain ⟨now, later⟩ := List.forall_mem_cons.mp preserved
      exact ih (now start) later

theorem length_words_trace {m : Machine} (ops : List Operation)
    (ok : (m.trace ops).fault = none) :
    (m.trace ops).words.length = ops.countP Operation.isStep := by
  induction ops generalizing m with
  | nil => rfl
  | cons op rest ih =>
    cases op with
    | tick => exact ih ok
    | keys keypad => exact ih ok
    | step strict =>
      rw [trace_step] at ok ⊢
      cases blocked : m.obstacle? strict with
      | some fault => simp [blocked] at ok
      | none =>
        rw [blocked] at ok
        rw [List.countP_cons_of_pos rfl]
        simp [ih ok]

theorem settleAll_invariant {P : Machine → Prop}
    (preserved : ∀ m op next words, P m → m.operate op = .ok (next, words) → P next)
    (m : Machine) (ops : List Operation) (start : P m) : P (m.settleAll ops) := by
  induction ops generalizing m with
  | nil => exact start
  | cons op rest ih =>
    apply ih (m.settle op)
    rw [settle]
    split
    case h_1 next words done => exact preserved m op next words start done
    case h_2 => exact start

end Machine

end Chip8
