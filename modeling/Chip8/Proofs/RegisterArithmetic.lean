import Chip8.Proofs.ComponentEffects
import Chip8.Proofs.InstructionTable

/-!
The words 8XYN as arithmetic on the numbers in two registers. Apart from the copy, each of them
leaves a byte in VX and a bit in VF that solve one equation with the operands, and the equation
has one solution; the flag is written last, so with X = F only the bit is left. The copy has no
flag to leave and writes the old VF back. That undoes a copy into VF.
-/

namespace Chip8

namespace Alu

/-- The equation for the last digit of a word 8XYN. The operands are `a` and `b`, and `s` is the
one that a shift moves. -/
def Equation (n : Fin 16) (a b s result flag : Nat) : Prop :=
  match n.val with
  | 0x1 => result = a ||| b ∧ flag = 0
  | 0x2 => result = a &&& b ∧ flag = 0
  | 0x3 => result = a ^^^ b ∧ flag = 0
  | 0x4 => result + 256 * flag = a + b
  | 0x5 => result + b = a + 256 * (1 - flag)
  | 0x6 => 2 * result + flag = s
  | 0x7 => result + a = b + 256 * (1 - flag)
  | 0xE => result + 256 * flag = 2 * s
  | _ => False

structure Solves (n : Fin 16) (a b s result flag : Nat) : Prop where
  result_le : result ≤ 255
  flag_le : flag ≤ 1
  equation : Equation n a b s result flag

theorem Solves.unique {n : Fin 16} {a b s result flag result' flag' : Nat}
    (h : Solves n a b s result flag) (h' : Solves n a b s result' flag') :
    result' = result ∧ flag' = flag := by
  obtain ⟨byte, bit, equation⟩ := h
  obtain ⟨byte', bit', equation'⟩ := h'
  unfold Equation at equation equation'
  split at equation
  case h_9 => exact equation.elim
  all_goals
    rename_i digit
    simp only [digit] at equation'
    omega

theorem add_carry (a b : UInt8) :
    (a + b).toNat + 256 * (if a.toNat + b.toNat > 255 then 1 else 0 : UInt8).toNat =
      a.toNat + b.toNat := by
  have small := a.toNat_lt
  have small' := b.toNat_lt
  rw [UInt8.toNat_add]
  split
  · change _ + 256 * 1 = _
    omega
  · change _ + 256 * 0 = _
    omega

theorem sub_borrow (a b : UInt8) :
    (a - b).toNat + b.toNat = a.toNat + 256 * (1 - (if a ≥ b then 1 else 0 : UInt8).toNat) := by
  have small := a.toNat_lt
  have small' := b.toNat_lt
  rw [UInt8.toNat_sub]
  split
  case isTrue order =>
    have order : b.toNat ≤ a.toNat := UInt8.le_iff_toNat_le.mp order
    change _ = _ + 256 * (1 - 1)
    omega
  case isFalse order =>
    have order : ¬b.toNat ≤ a.toNat := fun le => order (UInt8.le_iff_toNat_le.mpr le)
    change _ = _ + 256 * (1 - 0)
    omega

theorem toNat_low_bit (a : UInt8) : (a &&& 1).toNat = a.toNat % 2 := by
  change a.toNat &&& 1 = a.toNat % 2
  exact Nat.and_one_is_mod _

theorem toNat_high_bit (a : UInt8) : (a >>> 7).toNat = a.toNat / 128 := by
  change a.toNat >>> 7 = a.toNat / 128
  rw [Nat.shiftRight_eq_div_pow]

theorem shift_right_parts (a : UInt8) : 2 * (a >>> 1).toNat + (a &&& 1).toNat = a.toNat := by
  have half : (a >>> 1).toNat = a.toNat >>> 1 := rfl
  rw [half, Nat.shiftRight_eq_div_pow, toNat_low_bit]
  omega

theorem shift_left_parts (a : UInt8) :
    (a <<< 1).toNat + 256 * (a >>> 7).toNat = 2 * a.toNat := by
  have double : (a <<< 1).toNat = a.toNat <<< 1 % 256 := rfl
  rw [double, Nat.shiftLeft_eq, toNat_high_bit]
  omega

variable {op : Alu}

theorem toNat_eval_flag_le (arith : op ≠ .copy) (mode : Mode) (vx vy vf : UInt8) :
    (op.eval mode vx vy vf).2.toNat ≤ 1 := by
  cases op with
  | copy => contradiction
  | or | and | xor => exact Nat.zero_le 1
  | add | sub | subFrom =>
    simp only [eval]
    split <;> decide
  | shiftRight =>
    simp only [eval, toNat_low_bit]
    omega
  | shiftLeft =>
    have small := (if mode = .modern then vx else vy).toNat_lt
    simp only [eval, toNat_high_bit]
    omega

theorem equation_eval (arith : op ≠ .copy) (mode : Mode) (vx vy vf : UInt8) :
    Equation op.nibble vx.toNat vy.toNat (if mode = .modern then vx.toNat else vy.toNat)
      (op.eval mode vx vy vf).1.toNat (op.eval mode vx vy vf).2.toNat := by
  rw [← apply_ite UInt8.toNat]
  cases op with
  | copy => contradiction
  | or => exact ⟨UInt8.toNat_or _ _, rfl⟩
  | and => exact ⟨UInt8.toNat_and _ _, rfl⟩
  | xor => exact ⟨UInt8.toNat_xor _ _, rfl⟩
  | add => exact add_carry vx vy
  | sub => exact sub_borrow vx vy
  | subFrom => exact sub_borrow vy vx
  | shiftRight => exact shift_right_parts _
  | shiftLeft => exact shift_left_parts _

theorem solves_eval {n : Fin 16} (named : ofNibble? n = some op) (arith : op ≠ .copy)
    (mode : Mode) (vx vy vf : UInt8) :
    Solves n vx.toNat vy.toNat (if mode = .modern then vx.toNat else vy.toNat)
      (op.eval mode vx vy vf).1.toNat (op.eval mode vx vy vf).2.toNat := by
  rw [← nibble_of_ofNibble? named]
  exact ⟨Nat.le_of_lt_succ (UInt8.toNat_lt _), toNat_eval_flag_le arith .., equation_eval arith ..⟩

theorem exists_of_digit {n : Fin 16}
    (digit : n ∈ ([0x1, 0x2, 0x3, 0x4, 0x5, 0x6, 0x7, 0xE] : List (Fin 16))) :
    ∃ op, ofNibble? n = some op ∧ op ≠ .copy := by
  have named : (ofNibble? n).isSome = true ∧ ofNibble? n ≠ some .copy := by
    revert n
    decide
  obtain ⟨op, found⟩ := Option.isSome_iff_exists.mp named.1
  refine ⟨op, found, ?_⟩
  rintro rfl
  exact named.2 found

end Alu

namespace Machine

variable {w : Word}

theorem execute_alu {op : Alu} (class8 : w.opcode = 8) (named : Alu.ofNibble? w.n = some op)
    (m : Machine) (strict : Bool) : m.execute w strict = .ok (m.apply (.alu op w.x w.y)) :=
  execute_of_unchecked (Instruction.Reads.alu class8 named).ofWord? rfl

/-- A word 8XYN other than the copy leaves the solution of its equation in VX and VF, or for X = F
the flag of the solution. -/
theorem arithmetic_solves (m : Machine) (class8 : w.opcode = 8)
    (digit : w.n ∈ ([0x1, 0x2, 0x3, 0x4, 0x5, 0x6, 0x7, 0xE] : List (Fin 16))) (strict : Bool) :
    let a := (m.v.get w.x).toNat
    let b := (m.v.get w.y).toNat
    let s := if m.mode = .modern then a else b
    ∃ next result flag, m.execute w strict = .ok next ∧
      Alu.Solves w.n a b s result flag ∧
      (∀ result' flag', Alu.Solves w.n a b s result' flag' → result' = result ∧ flag' = flag) ∧
      (w.x ≠ 15 → (next.v.get w.x).toNat = result) ∧
      (next.v.get 15).toNat = flag ∧
      (∀ k, k ≠ w.x → k ≠ 15 → next.v.get k = m.v.get k) ∧
      next = { m with v := next.v } := by
  intro a b s
  obtain ⟨op, named, arith⟩ := Alu.exists_of_digit digit
  have solves := Alu.solves_eval named arith m.mode (m.v.get w.x) (m.v.get w.y) (m.v.get 15)
  refine ⟨_, _, _, execute_alu class8 named m strict, solves, ?_, ?_, ?_, ?_, rfl⟩
  · intro result' flag' other
    exact solves.unique other
  · intro plain
    rw [apply_alu_result m op plain]
  · rw [apply_alu_flag]
  · intro k result flag
    exact apply_alu_of_ne m op result flag w.y

/-- On a legacy machine the shift 8F26 takes V2 and leaves in VF only the bit moved out of it; the
subtraction 82F5 borrows, from operands of which one is the flag itself. -/
theorem arithmetic_solves_with_flag_register :
    let m := ((create ⟨0, 0⟩ 4 2 .legacy).setV 2 0x05).setV 15 0x90
    (∃ next, m.execute ⟨0x8F26⟩ true = .ok next ∧ (next.v.get 15).toNat = 1) ∧
      ∃ next, m.execute ⟨0x82F5⟩ false = .ok next ∧
        (next.v.get 2).toNat = 0x75 ∧ (next.v.get 15).toNat = 0 := by
  intro m
  constructor
  · obtain ⟨next, result, flag, done, -, only, -, left, -, -⟩ :=
      arithmetic_solves m (w := ⟨0x8F26⟩) (by decide) (by decide) true
    have solution := only 0x02 1 ⟨by decide, by decide, (rfl : 2 * 0x02 + 1 = 0x05)⟩
    refine ⟨next, done, ?_⟩
    rw [left, ← solution.2]
  · obtain ⟨next, result, flag, done, -, only, reached, left, -, -⟩ :=
      arithmetic_solves m (w := ⟨0x82F5⟩) (by decide) (by decide) false
    have solution := only 0x75 0 ⟨by decide, by decide, (rfl : 0x75 + 0x90 = 0x05 + 256 * (1 - 0))⟩
    refine ⟨next, done, ?_, ?_⟩
    · exact (reached (by decide)).trans solution.1.symm
    · rw [left, ← solution.2]

theorem get_apply_copy (m : Machine) (x y k : Register) :
    (m.apply (.alu .copy x y)).v.get k = if k = x ∧ x ≠ 15 then m.v.get y else m.v.get k := by
  by_cases flag : k = 15
  · subst flag
    rw [apply_alu_flag, if_neg]
    · rfl
    · rintro ⟨rfl, plain⟩
      exact plain rfl
  · by_cases result : k = x
    · subst result
      rw [apply_alu_result m .copy flag, if_pos ⟨rfl, flag⟩]
      rfl
    · rw [apply_alu_of_ne m .copy result flag, if_neg]
      exact fun both => result both.1

/-- A copy reaches every register but VF, which keeps what it holds. -/
theorem register_copy (m : Machine) (class8 : w.opcode = 8) (digit : w.n = 0) (strict : Bool) :
    ∃ next, m.execute w strict = .ok next ∧
      (w.x ≠ 15 → next.v.get w.x = m.v.get w.y) ∧
      (w.x = 15 → next.v.get 15 = m.v.get 15) ∧
      (∀ k, k ≠ w.x → next.v.get k = m.v.get k) ∧
      next = { m with v := next.v } := by
  have named : Alu.ofNibble? w.n = some .copy := by rw [digit]; rfl
  refine ⟨_, execute_alu class8 named m strict, ?_, ?_, ?_, rfl⟩
  · intro plain
    rw [get_apply_copy, if_pos ⟨rfl, plain⟩]
  · intro flag
    rw [get_apply_copy, if_neg fun both => both.2 flag]
  · intro k other
    rw [get_apply_copy, if_neg fun both => other both.1]

/-- From VF the value arrives, and VF is left as it is. -/
theorem register_copy_from_flag :
    let m := (create ⟨0, 0⟩ 4 2 .legacy).setV 15 7
    ∃ next, m.execute ⟨0x81F0⟩ true = .ok next ∧ next.v.get 1 = 7 ∧ next.v.get 15 = 7 := by
  intro m
  obtain ⟨next, done, copied, -, others, -⟩ :=
    register_copy m (w := ⟨0x81F0⟩) (by decide) (by decide) true
  exact ⟨next, done, copied (by decide), others 15 (by decide)⟩

/-- Into VF the value does not arrive. -/
theorem copy_into_flag_is_lost :
    let m := (create ⟨0, 0⟩ 4 2 .modern).setV 1 5
    ∃ next, m.execute ⟨0x8F10⟩ false = .ok next ∧ m.v.get 1 = 5 ∧ next.v.get 15 ≠ 5 := by
  intro m
  have named : Alu.ofNibble? (⟨0x8F10⟩ : Word).n = some .copy := rfl
  refine ⟨_, execute_alu (by decide) named m false, by decide, ?_⟩
  rw [apply_alu_flag]
  decide

end Machine

end Chip8
