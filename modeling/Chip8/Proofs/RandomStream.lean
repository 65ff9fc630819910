import Chip8.Proofs.OperationTrace

/-!
The random numbers of a run. Only CXNN reaches for the generator: it keeps one half of the split
generator and takes its byte from the other half. So the generator tells how many of these words
were carried out and nothing else of a run, and the byte that the next of them gets is fixed by
the generator at the start and by their number.
-/

namespace Chip8

namespace Generator

/-- The generator that is kept after so many draws. -/
def after (g : Generator) : Nat → Generator
  | 0 => g
  | k + 1 => (g.after k).split.1

/-- The byte of the draw that comes after so many others. -/
def byteAfter (g : Generator) (k : Nat) : UInt8 := (g.after k).split.2.byte

theorem after_add (g : Generator) (k n : Nat) : (g.after k).after n = g.after (k + n) := by
  induction n with
  | zero => rfl
  | succ n ih => rw [after, ih, ← Nat.add_assoc, after]

end Generator

namespace Word

/-- The words CXNN. -/
def isRandom (w : Word) : Bool := w.opcode = 0xC

theorem ofWord?_of_isRandom {w : Word} (h : w.isRandom = true) :
    Instruction.ofWord? w = some (.random w.x w.nn) := by
  have class12 : w.opcode = 0xC := by simpa [isRandom] using h
  exact (Instruction.Reads.random class12).ofWord?

theorem isRandom_eq (w : Word) :
    w.isRandom = match Instruction.ofWord? w with
      | some (.random ..) => true
      | _ => false := by
  split
  case h_1 h =>
    have class12 : w.opcode = 0xC := Instruction.opcode_of_ofWord? h
    simp [isRandom, class12]
  case h_2 other =>
    rw [Bool.eq_false_iff]
    intro h
    exact other w.x w.nn (ofWord?_of_isRandom h)

end Word

namespace Machine

theorem successor_random (m : Machine) :
    m.successor.random = if m.wordAtPc.isRandom then m.random.split.1 else m.random := by
  rw [Word.isRandom_eq]
  rcases m.successor_cases with ⟨form, same⟩ | ⟨i, form, applied⟩
  · rw [form, same]
    rfl
  · rw [form, applied, apply_random]
    cases i <;> rfl

theorem successor_v_of_isRandom {m : Machine} (h : m.wordAtPc.isRandom = true) :
    m.successor.v =
      m.v.set m.wordAtPc.x (m.random.split.2.byte &&& m.wordAtPc.nn) := by
  rw [successor, Word.ofWord?_of_isRandom h]
  rfl

/-- The words that a list of operations carries out, when a faulting step is passed over. -/
def carriedOut (m : Machine) : List Operation → List Word
  | [] => []
  | op :: rest =>
    match m.operate op with
    | .ok (next, words) => words ++ next.carriedOut rest
    | .error _ => m.carriedOut rest

def draws (m : Machine) (ops : List Operation) : Nat := (m.carriedOut ops).countP Word.isRandom

theorem operate_random {m next : Machine} {op : Operation} {words : List Word}
    (done : m.operate op = .ok (next, words)) :
    next.random = m.random.after (words.countP Word.isRandom) := by
  cases op with
  | tick | keys keypad =>
    cases done
    rfl
  | step strict =>
    obtain ⟨-, rfl, rfl⟩ := operate_step_eq_ok_iff.mp done
    rw [successor_random]
    cases random : m.wordAtPc.isRandom <;> simp [random, Generator.after]

theorem settleAll_random (m : Machine) (ops : List Operation) :
    (m.settleAll ops).random = m.random.after (m.draws ops) := by
  induction ops generalizing m with
  | nil => rfl
  | cons op rest ih =>
    have first : m.settleAll (op :: rest) = (m.settle op).settleAll rest := rfl
    rw [first, draws, carriedOut, settle]
    cases done : m.operate op with
    | error fault => exact ih m
    | ok r =>
      rw [ih, operate_random done, Generator.after_add, List.countP_append]
      rfl

theorem step_random {m next : Machine} {ops : List Operation} {strict : Bool} {w : Word}
    (done : (m.settleAll ops).step strict = .ok (next, w)) (random : w.isRandom = true) :
    next.v = (m.settleAll ops).v.set w.x (m.random.byteAfter (m.draws ops) &&& w.nn) := by
  obtain ⟨-, rfl, rfl⟩ := step_eq_ok_iff.mp done
  rw [successor_v_of_isRandom random, settleAll_random]
  rfl

/-- Whatever is done to a machine, its generator tells only the number of CXNN words carried out,
and the byte that each of these gets is a function of the generator at the start and of its place
among them. So another machine that starts from the same generator gets the same bytes, whatever
else it carries out. -/
theorem random_stream (m : Machine) (ops : List Operation) :
    let now := m.settleAll ops
    now.random = m.random.after (m.draws ops) ∧
    (∀ strict next w, now.step strict = .ok (next, w) →
      next.random = (if w.isRandom then now.random.split.1 else now.random) ∧
      (w.isRandom = true →
        next.v = now.v.set w.x (m.random.byteAfter (m.draws ops) &&& w.nn))) ∧
    ∀ (other : Machine) (ops' : List Operation),
      other.random = m.random → other.draws ops' = m.draws ops →
        (other.settleAll ops').random = now.random ∧
        ∀ strict next w, (other.settleAll ops').step strict = .ok (next, w) →
          w.isRandom = true →
            next.v.get w.x = m.random.byteAfter (m.draws ops) &&& w.nn := by
  intro now
  refine ⟨m.settleAll_random ops, ?_, ?_⟩
  · intro strict next w done
    refine ⟨?_, step_random done⟩
    obtain ⟨-, rfl, rfl⟩ := step_eq_ok_iff.mp done
    exact successor_random _
  · intro other ops' seed count
    refine ⟨?_, ?_⟩
    · rw [settleAll_random, settleAll_random, seed, count]
    · intro strict next w done random
      rw [step_random done random, seed, count, get_set, if_pos rfl]

/-- Two programs from one generator, each with one draw behind it. The second has also been refused
a word in a strict step. Its next draw is masked differently and gets the same byte. -/
theorem random_stream_of_two_programs :
    let first := Memory.writeBlock (Vector.replicate 4096 0) 0 [0xC1, 0xFF, 0xC2, 0x3C]
    let second := Memory.writeBlock (Vector.replicate 4096 0) 0
      [0x65, 0x07, 0xCA, 0x00, 0x81, 0x2F, 0xCF, 0xFF]
    let m := { create ⟨0, 7⟩ 1 1 .modern with memory := first, pc := 0 }
    let other := { create ⟨0, 7⟩ 4 4 .legacy with memory := second, pc := 0 }
    let ops := [Operation.step true, .tick]
    let ops' := [Operation.step true, .step true, .step true, .keys Keypad.idle, .step false]
    other.random = m.random ∧ m.draws ops = 1 ∧ other.draws ops' = 1 ∧
      ∃ next next', (m.settleAll ops).step true = .ok (next, ⟨0xC23C⟩) ∧
        (other.settleAll ops').step false = .ok (next', ⟨0xCFFF⟩) ∧
        next.v.get 2 = m.random.byteAfter 1 &&& 0x3C ∧
        next'.v.get 15 = m.random.byteAfter 1 &&& 0xFF := by
  intro first second m other ops ops'
  have one : m.draws ops = 1 := by decide +kernel
  have one' : other.draws ops' = 1 := by decide +kernel
  have done : (m.settleAll ops).step true = .ok ((m.settleAll ops).successor, ⟨0xC23C⟩) :=
    step_eq_ok_iff.mpr ⟨by decide +kernel, rfl, by decide +kernel⟩
  have done' : (other.settleAll ops').step false =
      .ok ((other.settleAll ops').successor, ⟨0xCFFF⟩) :=
    step_eq_ok_iff.mpr ⟨by decide +kernel, rfl, by decide +kernel⟩
  obtain ⟨-, steps, others⟩ := random_stream m ops
  have drawn := (steps true _ _ done).2 (by decide)
  have drawn' := (others other ops' rfl (one'.trans one.symm)).2 false _ _ done' (by decide)
  rw [one] at drawn drawn'
  refine ⟨rfl, one, one', _, _, done, done', ?_, drawn'⟩
  rw [drawn]
  exact (get_set _ 2 2 _).trans (if_pos rfl)

end Machine

end Chip8
