import Chip8.Proofs.CallStackSlots
import Chip8.Proofs.OperationTrace

/-!
Calls and returns nest. No instruction but these two touches the stack, a call writes only the
slot named by the depth and a return clears only the slot below it. So a run that stays above some
depth leaves every slot under that depth alone, and the return that goes back to a depth finds the
address that the call from that depth put there.
-/

namespace Chip8.Machine

open CallStack (SameBelow)

theorem successor_clean {m : Machine} {strict : Bool} (h : m.stack.Clean)
    (free : m.obstacle? strict = none) : m.successor.stack.Clean := by
  obtain ⟨-, room, used, -⟩ := (obstacle?_eq_none_iff m strict).mp free
  rcases m.successor_stack_cases with ⟨call, pushed⟩ | ⟨ret, popped⟩ | ⟨-, -, same⟩
  · rw [pushed]
    exact h.push (room call) _
  · rw [popped]
    exact h.pop (used ret)
  · rwa [same]

theorem steps_clean {m : Machine} (h : m.stack.Clean) (strictness : List Bool)
    (ok : (m.steps strictness).fault = none) : (m.steps strictness).machine.stack.Clean := by
  induction strictness generalizing m with
  | nil => exact h
  | cons strict rest ih =>
    obtain ⟨free, later, split⟩ := steps_cons_ok ok
    rw [split]
    exact ih (successor_clean h free) later

theorem depth_successor (m : Machine) :
    m.successor.stack.depth =
      m.stack.depth + [m.wordAtPc].countP Word.isCall - [m.wordAtPc].countP Word.isReturn := by
  rcases m.successor_stack_cases with ⟨call, pushed⟩ | ⟨ret, popped⟩ | ⟨call, ret, same⟩
  · simp [pushed, call, Word.isReturn_eq_false_of_isCall call]
  · simp [popped, ret, Word.isCall_eq_false_of_isReturn ret]
  · simp [same, call, ret]

theorem depth_steps (m : Machine) (strictness : List Bool)
    (ok : (m.steps strictness).fault = none) :
    (m.steps strictness).machine.stack.depth =
      m.stack.depth + (m.steps strictness).words.countP Word.isCall -
        (m.steps strictness).words.countP Word.isReturn := by
  induction strictness generalizing m with
  | nil => simp [steps]
  | cons strict rest ih =>
    obtain ⟨-, later, split⟩ := steps_cons_ok ok
    have now := m.depth_successor
    have rest_ := ih m.successor later
    rw [split]
    simp only [Trace.after_machine, Trace.after_words, List.countP_append]
    omega

theorem step_call {m : Machine} (inside : m.canFetch = true) (call : m.wordAtPc.isCall = true)
    (strict : Bool) :
    m.step strict = if 12 ≤ m.stack.depth then
        .error (.stackOverflow (m.pc + 2) (some m.wordAtPc))
      else .ok (m.successor, m.wordAtPc) := by
  have ret := Word.isReturn_eq_false_of_isCall call
  have supported := Word.supported_of_isCall call
  rw [step_eq, obstacle?]
  by_cases full : 12 ≤ m.stack.depth <;> simp [inside, call, ret, supported, full]

theorem step_return {m : Machine} (inside : m.canFetch = true)
    (ret : m.wordAtPc.isReturn = true) (strict : Bool) :
    m.step strict = if m.stack.depth ≤ 0 then
        .error (.stackUnderflow (m.pc + 2) (some m.wordAtPc))
      else .ok (m.successor, m.wordAtPc) := by
  have call := Word.isCall_eq_false_of_isReturn ret
  have supported := Word.supported_of_isReturn ret
  rw [step_eq, obstacle?]
  by_cases empty : m.stack.depth ≤ 0 <;> simp [inside, call, ret, supported, empty]

theorem successor_sameBelow {m : Machine} {strict : Bool} {d : Int} (h : m.stack.Clean)
    (free : m.obstacle? strict = none) (before : d ≤ m.stack.depth)
    (after : d ≤ m.successor.stack.depth) : SameBelow d m.stack m.successor.stack := by
  obtain ⟨-, room, used, -⟩ := (obstacle?_eq_none_iff m strict).mp free
  rcases m.successor_stack_cases with ⟨call, pushed⟩ | ⟨ret, popped⟩ | ⟨-, -, same⟩
  · rw [pushed]
    exact CallStack.sameBelow_push h (room call) _ before
  · rw [popped] at after ⊢
    exact CallStack.sameBelow_pop h (used ret) after
  · rw [same]
    exact .refl d m.stack

theorem steps_sameBelow {m : Machine} {d : Int} (h : m.stack.Clean) (strictness : List Bool)
    (ok : (m.steps strictness).fault = none)
    (above : ∀ k ≤ strictness.length, d ≤ (m.steps (strictness.take k)).machine.stack.depth) :
    SameBelow d m.stack (m.steps strictness).machine.stack := by
  induction strictness generalizing m with
  | nil => exact .refl d m.stack
  | cons strict rest ih =>
    obtain ⟨free, later, split⟩ := steps_cons_ok ok
    have shifted : ∀ k, m.steps ((strict :: rest).take (k + 1)) =
        (m.successor.steps (rest.take k)).after [m.wordAtPc] := by
      intro k
      rw [List.take_succ_cons, steps_cons, free]
    have now : d ≤ m.stack.depth := above 0 (Nat.zero_le _)
    have next : ∀ k ≤ rest.length,
        d ≤ (m.successor.steps (rest.take k)).machine.stack.depth := by
      intro k hk
      have := above (k + 1) (by simpa using hk)
      rwa [shifted] at this
    rw [split]
    exact (successor_sameBelow h free now (next 0 (Nat.zero_le _))).trans
      (ih (successor_clean h free) later next)

theorem length_words_steps {m : Machine} (strictness : List Bool)
    (ok : (m.steps strictness).fault = none) :
    (m.steps strictness).words.length = strictness.length := by
  have every : Operation.isStep ∘ Operation.step = fun _ => true := rfl
  rw [steps, length_words_trace _ ok, List.countP_map, every, List.countP_true]

theorem returnAddress_toNat (pc : UInt16) :
    ((pc + 2) &&& 0xFFF).toNat = (pc.toNat + 2) % 4096 := by
  rw [UInt16.toNat_and, toNat_add_two]
  change (pc.toNat + 2) % 65536 &&& (2 ^ 12 - 1) = (pc.toNat + 2) % 4096
  rw [Nat.and_two_pow_sub_one_eq_mod]
  omega

theorem steps_call_body_return {m : Machine} {first last : Bool} {body : List Bool}
    (h : m.stack.Clean) (ok : (m.steps (first :: (body ++ [last]))).fault = none)
    (call : m.wordAtPc.isCall = true)
    (ret : (m.successor.steps body).machine.wordAtPc.isReturn = true)
    (above : ∀ k ≤ body.length,
      m.stack.depth + 1 ≤ (m.successor.steps (body.take k)).machine.stack.depth)
    (back : (m.steps (first :: (body ++ [last]))).machine.stack.depth = m.stack.depth) :
    (m.steps (first :: (body ++ [last]))).machine.stack = m.stack ∧
      (m.steps (first :: (body ++ [last]))).machine.pc = (m.pc + 2) &&& 0xFFF := by
  obtain ⟨free, later, split⟩ := steps_cons_ok ok
  obtain ⟨inner, split'⟩ := steps_append_ok later
  have ends : (m.steps (first :: (body ++ [last]))).machine =
      (m.successor.steps body).machine.successor := by
    rw [split, split'] at ok
    obtain ⟨-, -, split''⟩ := steps_cons_ok ok
    rw [split, split', Trace.after_machine, Trace.after_machine, split'']
    rfl
  have pushed : m.successor.stack = m.stack.push (m.pc + 2) := by
    rw [successor_of_isCall call, apply_stack]
    rfl
  have clean := steps_clean (successor_clean h free) body inner
  have kept := steps_sameBelow (successor_clean h free) body inner above
  obtain ⟨-, room, -, -⟩ := (obstacle?_eq_none_iff m first).mp free
  rw [ends, successor_of_isReturn ret, apply_stack] at back ⊢
  rw [apply_pc]
  have depth : (m.successor.steps body).machine.stack.depth = m.stack.depth + 1 := by
    have popped : (m.successor.steps body).machine.stack.depth - 1 = m.stack.depth := back
    omega
  rw [pushed] at kept
  exact CallStack.pop_eq_of_sameBelow h (room call) clean depth kept

/-- A run whose words begin with a call and end with a return is such a call, body and return. -/
theorem steps_split_of_words {m : Machine} {strictness : List Bool} {call ret : Word}
    {body : List Word} (ok : (m.steps strictness).fault = none)
    (words : (m.steps strictness).words = call :: (body ++ [ret])) :
    ∃ first middle last, strictness = first :: (middle ++ [last]) ∧ m.wordAtPc = call ∧
      (m.successor.steps middle).machine.wordAtPc = ret := by
  have length := length_words_steps strictness ok
  rw [words] at length
  match strictness with
  | [] => simp at length
  | first :: rest =>
    obtain ⟨-, later, split⟩ := steps_cons_ok ok
    rw [split, Trace.after_words, List.singleton_append, List.cons.injEq] at words
    obtain ⟨begins, words⟩ := words
    rcases List.eq_nil_or_concat rest with rfl | ⟨middle, last, concat⟩
    · simp at length
    · rw [List.concat_eq_append] at concat
      subst concat
      obtain ⟨-, split'⟩ := steps_append_ok later
      rw [split'] at later
      obtain ⟨-, -, split''⟩ := steps_cons_ok later
      rw [split', split''] at words
      have ends := List.append_inj_right' words rfl
      exact ⟨first, middle, last, rfl, begins, (List.cons.inj ends).1⟩

/-- Depths count calls less returns, overflow and underflow happen exactly at the two ends, and a
call with all it does is undone by the return that brings the depth back: the whole stack is as
before and the machine goes on after the call. -/
theorem calls_nest {m : Machine} (h : m.stack.Clean) (strictness : List Bool)
    (ok : (m.steps strictness).fault = none) :
    let run := m.steps strictness
    run.machine.stack.depth =
        m.stack.depth + run.words.countP Word.isCall - run.words.countP Word.isReturn ∧
      (∀ strict, run.machine.canFetch = true → run.machine.wordAtPc.isCall = true →
        run.machine.step strict = if run.machine.stack.depth = 12 then
            .error (.stackOverflow (run.machine.pc + 2) (some run.machine.wordAtPc))
          else .ok (run.machine.successor, run.machine.wordAtPc)) ∧
      (∀ strict, run.machine.canFetch = true → run.machine.wordAtPc.isReturn = true →
        run.machine.step strict = if run.machine.stack.depth = 0 then
            .error (.stackUnderflow (run.machine.pc + 2) (some run.machine.wordAtPc))
          else .ok (run.machine.successor, run.machine.wordAtPc)) ∧
      ∀ call body ret, run.words = call :: (body ++ [ret]) →
        call.isCall = true → ret.isReturn = true →
        (∀ k, 0 < k → k < strictness.length →
          m.stack.depth + 1 ≤ (m.steps (strictness.take k)).machine.stack.depth) →
        run.machine.stack.depth = m.stack.depth →
        run.machine.stack = m.stack ∧ run.machine.pc.toNat = (m.pc.toNat + 2) % 4096 := by
  have clean := steps_clean h strictness ok
  have low := clean.depth_nonneg
  have high := clean.depth_le
  refine ⟨depth_steps m strictness ok, ?_, ?_, ?_⟩
  · intro strict inside call
    rw [step_call inside call]
    have full : 12 ≤ (m.steps strictness).machine.stack.depth ↔
        (m.steps strictness).machine.stack.depth = 12 := by omega
    simp only [full]
  · intro strict inside ret
    rw [step_return inside ret]
    have empty : (m.steps strictness).machine.stack.depth ≤ 0 ↔
        (m.steps strictness).machine.stack.depth = 0 := by omega
    simp only [empty]
  · intro call body ret words isCall isReturn above back
    obtain ⟨first, middle, last, rfl, rfl, rfl⟩ := steps_split_of_words ok words
    obtain ⟨free, -, -⟩ := steps_cons_ok ok
    have inside : ∀ k ≤ middle.length,
        m.stack.depth + 1 ≤ (m.successor.steps (middle.take k)).machine.stack.depth := by
      intro k hk
      have bound := above (k + 1) (Nat.succ_pos k) (by simp; omega)
      rw [List.take_succ_cons, List.take_append_of_le_length hk, steps_cons, free] at bound
      exact bound
    obtain ⟨stack, pc⟩ := steps_call_body_return h ok isCall isReturn inside back
    exact ⟨stack, by rw [pc, returnAddress_toNat]⟩

theorem calls_nest_two_deep :
    let memory := Memory.writeBlock (Vector.replicate 4096 0) 0
      [0x20, 0x06, 0, 0, 0, 0, 0x20, 0x0A, 0x00, 0xEE, 0x00, 0xEE]
    let m := { create ⟨0, 0⟩ 1 1 .modern with memory := memory, pc := 0 }
    let run := m.steps [true, true, false, false]
    m.stack.Clean ∧ run.fault = none ∧
      run.words = [⟨0x2006⟩, ⟨0x200A⟩, ⟨0x00EE⟩, ⟨0x00EE⟩] ∧
      run.machine.stack = m.stack ∧ run.machine.pc.toNat = 2 := by
  intro memory m run
  have ok : run.fault = none := by decide +kernel
  have words : run.words = [⟨0x2006⟩, ⟨0x200A⟩, ⟨0x00EE⟩, ⟨0x00EE⟩] := by decide +kernel
  have above : ∀ k : Fin 4, 0 < k.val →
      m.stack.depth + 1 ≤ (m.steps ([true, true, false, false].take k)).machine.stack.depth := by
    decide +kernel
  have back : run.machine.stack.depth = m.stack.depth := by decide +kernel
  obtain ⟨stack, pc⟩ := (calls_nest CallStack.clean_empty [true, true, false, false] ok).2.2.2
    ⟨0x2006⟩ [⟨0x200A⟩, ⟨0x00EE⟩] ⟨0x00EE⟩ words (by decide) (by decide)
    (fun k positive bound => above ⟨k, bound⟩ positive) back
  exact ⟨CallStack.clean_empty, ok, words, stack, pc⟩

end Chip8.Machine
