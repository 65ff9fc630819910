import Chip8.Proofs.RegisterArithmetic
import Chip8.Proofs.TraceText

/-!
What a trace line says about the machine. Two words of the table with one text are the same
instruction, unless both are shifts of one kind into one register; so they come to the same on
every machine, except on a legacy machine where the registers they shift hold different values.
There the text, which names the destination alone, does not tell what is done.
-/

namespace Chip8

namespace Alu

def isShift : Alu → Bool
  | shiftRight | shiftLeft => true
  | _ => false

def bitOut : Alu → UInt8 → UInt8
  | shiftRight, value => value &&& 1
  | shiftLeft, value => value >>> 7
  | _, _ => 0

variable {op : Alu}

theorem eval_shift_modern (shift : op.isShift = true) (vx vy vz vf : UInt8) :
    op.eval .modern vx vy vf = op.eval .modern vx vz vf := by
  cases op <;> first | rfl | cases shift

theorem eval_shift_flag (shift : op.isShift = true) (vx vy vf : UInt8) :
    (op.eval .legacy vx vy vf).2 = op.bitOut vy := by
  cases op <;> first | rfl | cases shift

theorem shift_right_injective {a b : UInt8} (rest : a >>> 1 = b >>> 1) (out : a &&& 1 = b &&& 1) :
    a = b := by
  apply UInt8.toNat_inj.mp
  rw [← shift_right_parts a, ← shift_right_parts b, rest, out]

theorem shift_left_injective {a b : UInt8} (rest : a <<< 1 = b <<< 1) (out : a >>> 7 = b >>> 7) :
    a = b := by
  have parts := shift_left_parts a
  have parts' := shift_left_parts b
  rw [rest, out] at parts
  apply UInt8.toNat_inj.mp
  omega

/-- The value that is shifted can be put together again from the result and the flag. -/
theorem eval_shift_injective (shift : op.isShift = true) {vx vy vz vf : UInt8}
    (same : op.eval .legacy vx vy vf = op.eval .legacy vx vz vf) : vy = vz := by
  obtain ⟨result, flag⟩ := Prod.mk.inj same
  cases op with
  | shiftRight => exact shift_right_injective result flag
  | shiftLeft => exact shift_left_injective result flag
  | _ => cases shift

end Alu

namespace Instruction

theorem eq_or_shift_of_shown {i j : Instruction} (same : i.shown = j.shown) :
    i = j ∨ ∃ op x y z, op.isShift = true ∧ i = alu op x y ∧ j = alu op x z := by
  unfold shown at same
  split at same <;> split at same
  all_goals grind [Alu.isShift]

end Instruction

namespace Machine

/-- What comes of a word: the next machine, or the kind of the fault. -/
def outcome (m : Machine) (w : Word) (strict : Bool) : Except String Machine :=
  (m.execute w strict).mapError Fault.kind

variable {m : Machine} {w v : Word} {i : Instruction}

theorem outcome_eq_of_form (first : Instruction.ofWord? w = some i)
    (second : Instruction.ofWord? v = some i) (strict : Bool) :
    m.outcome w strict = m.outcome v strict := by
  have checked : (m.check w i).mapError Fault.kind = (m.check v i).mapError Fault.kind := by
    cases i with
    | call target =>
      change (m.stack.checkPush m.pc (some w)).mapError Fault.kind =
        (m.stack.checkPush m.pc (some v)).mapError Fault.kind
      unfold CallStack.checkPush
      split <;> rfl
    | ret =>
      change (m.stack.checkPop m.pc (some w)).mapError Fault.kind =
        (m.stack.checkPop m.pc (some v)).mapError Fault.kind
      unfold CallStack.checkPop
      split <;> rfl
    | _ => rfl
  rw [outcome, outcome, execute, execute, first, second]
  cases one : m.check w i <;> cases other : m.check v i <;> rw [one, other] at checked
  all_goals simp_all [Except.map, Except.mapError]

theorem outcome_alu {op : Alu} {x y : Register}
    (form : Instruction.ofWord? w = some (.alu op x y)) (strict : Bool) :
    m.outcome w strict = .ok (m.apply (.alu op x y)) := by
  rw [outcome, execute_of_unchecked form rfl]
  rfl

theorem apply_alu_of_flag {op : Alu} {y z : Register}
    (same : (op.eval m.mode (m.v.get 15) (m.v.get y) (m.v.get 15)).2 =
      (op.eval m.mode (m.v.get 15) (m.v.get z) (m.v.get 15)).2) :
    m.apply (.alu op 15 y) = m.apply (.alu op 15 z) := by
  simp [apply, setV, same]

/-- Two words for shifts of one kind into one register, on a legacy machine that shifts registers
with different contents for them. Into VF the difference must be in the bit that is moved out. -/
inductive ShiftsApart (m : Machine) (w v : Word) : Prop where
  | intro (op : Alu) (x y z : Register) (legacy : m.mode = .legacy) (shift : op.isShift = true)
    (first : Instruction.ofWord? w = some (.alu op x y))
    (second : Instruction.ofWord? v = some (.alu op x z))
    (contents : m.v.get y ≠ m.v.get z)
    (flag : x = 15 → op.bitOut (m.v.get y) ≠ op.bitOut (m.v.get z))

theorem apply_shift_eq {op : Alu} {x y z : Register} (shift : op.isShift = true)
    (first : Instruction.ofWord? w = some (.alu op x y))
    (second : Instruction.ofWord? v = some (.alu op x z)) (together : ¬m.ShiftsApart w v) :
    m.apply (.alu op x y) = m.apply (.alu op x z) := by
  cases mode : m.mode with
  | modern =>
    have same := Alu.eval_shift_modern shift (m.v.get x) (m.v.get y) (m.v.get z) (m.v.get 15)
    rw [← mode] at same
    simp only [apply, same]
  | legacy =>
    by_cases contents : m.v.get y = m.v.get z
    · simp only [apply, contents]
    · have flag : x = 15 ∧ op.bitOut (m.v.get y) = op.bitOut (m.v.get z) := by
        by_contra differs
        have apart : x = 15 → op.bitOut (m.v.get y) ≠ op.bitOut (m.v.get z) :=
          fun vf same => differs ⟨vf, same⟩
        exact together ⟨op, x, y, z, mode, shift, first, second, contents, apart⟩
      obtain ⟨rfl, out⟩ := flag
      apply apply_alu_of_flag
      rw [mode, Alu.eval_shift_flag shift, Alu.eval_shift_flag shift, out]

theorem ShiftsApart.outcome_ne (apart : m.ShiftsApart w v) (strict : Bool) :
    m.outcome w strict ≠ m.outcome v strict := by
  obtain ⟨op, x, y, z, legacy, shift, first, second, contents, flag⟩ := apart
  intro same
  rw [outcome_alu first, outcome_alu second] at same
  have machines := Except.ok.inj same
  have flags := congrArg (·.v.get 15) machines
  rw [apply_alu_flag, apply_alu_flag, legacy] at flags
  by_cases vf : x = 15
  · rw [Alu.eval_shift_flag shift, Alu.eval_shift_flag shift] at flags
    exact flag vf flags
  · have results := congrArg (·.v.get x) machines
    rw [apply_alu_result m op vf, apply_alu_result m op vf, legacy] at results
    exact contents (Alu.eval_shift_injective shift (Prod.ext results flags))

theorem ShiftsApart.disassemble_eq (apart : m.ShiftsApart w v) :
    w.disassemble = v.disassemble := by
  obtain ⟨op, x, y, z, -, shift, first, second, -, -⟩ := apart
  rw [Word.disassemble, Word.disassemble, first, second]
  cases op <;> first | rfl | cases shift

theorem ShiftsApart.supported (apart : m.ShiftsApart w v) :
    w.supported = true ∧ v.supported = true := by
  obtain ⟨op, x, y, z, -, -, first, second, -, -⟩ := apart
  exact ⟨Option.isSome_of_mem first, Option.isSome_of_mem second⟩

theorem outcome_eq_of_disassemble (known : w.supported = true) (known' : v.supported = true)
    (text : w.disassemble = v.disassemble) (together : ¬m.ShiftsApart w v) (strict : Bool) :
    m.outcome w strict = m.outcome v strict := by
  obtain ⟨i, first⟩ := Option.isSome_iff_exists.mp known
  obtain ⟨j, second⟩ := Option.isSome_iff_exists.mp known'
  rw [Word.disassemble, Word.disassemble, first, second] at text
  rcases Instruction.eq_or_shift_of_shown (Instruction.shown_eq_of_describe text) with
    rfl | ⟨op, x, y, z, shift, rfl, rfl⟩
  · exact outcome_eq_of_form first second strict
  · rw [outcome_alu first, outcome_alu second, apply_shift_eq shift first second together]

theorem disassemble_eq_unimplemented_iff (w : Word) :
    w.disassemble = "Unimplemented opcode" ↔ Instruction.ofWord? w = none := by
  rw [Word.disassemble]
  cases Instruction.ofWord? w with
  | none => simp
  | some i => simp [i.describe_ne_unimplemented]

theorem kind_of_check {fault : Fault} (failed : m.check w i = .error fault) :
    fault.kind = "stack overflow" ∨ fault.kind = "stack underflow" := by
  cases i with
  | call target =>
    have failed : m.stack.checkPush m.pc (some w) = .error fault := failed
    unfold CallStack.checkPush at failed
    split at failed <;> cases failed
    exact .inl rfl
  | ret =>
    have failed : m.stack.checkPop m.pc (some w) = .error fault := failed
    unfold CallStack.checkPop at failed
    split at failed <;> cases failed
    exact .inr rfl
  | _ => cases failed

theorem outcome_unsupported_iff (m : Machine) (w : Word) :
    m.outcome w true = .error "unsupported instruction" ↔ Instruction.ofWord? w = none := by
  rw [outcome, execute]
  cases Instruction.ofWord? w with
  | none => simp [Except.mapError, Fault.kind]
  | some i =>
    cases checked : m.check w i with
    | ok => simp [checked, Except.map, Except.mapError]
    | error fault => rcases kind_of_check checked with kind | kind <;>
        simp [checked, Except.map, Except.mapError, kind]

/-- Two words of the table with one text have one outcome unless they are shifts apart, and then
the outcomes differ although the text does not. A word has no text of its own exactly if it is
refused when strict. -/
theorem trace_line_tells_outcome (m : Machine) :
    (∀ w v : Word, w.supported = true → v.supported = true → w.disassemble = v.disassemble →
      ∀ strict, m.outcome w strict = m.outcome v strict ↔ ¬m.ShiftsApart w v) ∧
    (∀ w v : Word, m.ShiftsApart w v →
      w.supported = true ∧ v.supported = true ∧ w.disassemble = v.disassemble) ∧
    (∀ w : Word, w.disassemble = "Unimplemented opcode" ↔
      m.outcome w true = .error "unsupported instruction") := by
  refine ⟨?_, ?_, ?_⟩
  · intro w v known known' text strict
    constructor
    · intro same apart
      exact apart.outcome_ne strict same
    · intro together
      exact outcome_eq_of_disassemble known known' text together strict
  · intro w v apart
    exact ⟨apart.supported.1, apart.supported.2, apart.disassemble_eq⟩
  · intro w
    rw [disassemble_eq_unimplemented_iff, outcome_unsupported_iff]

/-- On a modern machine the two shifts of V1 are the same; both returns underflow, although one is
outside the table of single words; the last word has no text of its own. -/
theorem trace_line_tells_outcome_shifts_and_returns :
    let m := (create ⟨0, 0⟩ 4 2 .modern).setV 2 4
    m.outcome ⟨0x8126⟩ true = m.outcome ⟨0x8136⟩ true ∧
      m.outcome ⟨0x00EE⟩ false = m.outcome ⟨0x0FEE⟩ false ∧
      m.outcome ⟨0x00EE⟩ false = .error "stack underflow" ∧
      m.outcome ⟨0x8128⟩ true = .error "unsupported instruction" := by
  intro m
  obtain ⟨same, -, unknown⟩ := trace_line_tells_outcome m
  have together (w v : Word) : ¬m.ShiftsApart w v := by
    rintro ⟨-, -, -, -, legacy, -, -, -, -, -⟩
    cases legacy
  exact ⟨(same _ _ (by decide) (by decide) (by decide +kernel) true).mpr (together _ _),
    (same _ _ (by decide) (by decide) (by decide +kernel) false).mpr (together _ _), by rfl,
    (unknown _).mp (by decide +kernel)⟩

/-- On a legacy machine two shifts have the same text and shift different registers into V1. -/
theorem shifts_share_a_line :
    let m := ((create ⟨0, 0⟩ 4 2 .legacy).setV 2 4).setV 3 9
    (⟨0x8126⟩ : Word).supported = true ∧ (⟨0x8136⟩ : Word).supported = true ∧
      (⟨0x8126⟩ : Word).disassemble = "V1 >>= 1, VF = shifted bit" ∧
      (⟨0x8136⟩ : Word).disassemble = "V1 >>= 1, VF = shifted bit" ∧
      m.outcome ⟨0x8126⟩ false ≠ m.outcome ⟨0x8136⟩ false := by
  intro m
  refine ⟨by decide, by decide, by decide +kernel, by decide +kernel, ?_⟩
  apply ShiftsApart.outcome_ne
  exact ⟨.shiftRight, 1, 2, 3, rfl, rfl, by decide, by decide, by decide, by decide⟩

end Machine

end Chip8
