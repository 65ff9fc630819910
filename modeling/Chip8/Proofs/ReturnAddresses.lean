import Mathlib.Data.List.GetD
import Chip8.Proofs.ReachableState

/-!
Return addresses. The calls that a run has not yet returned from are read off the words it carried
out and the addresses of these. The stack holds one return address for each of them, the address
of the word after the call, cut to twelve bits. So a return goes on after the latest open call; but
after a call in the last word of memory it goes on at address zero, where a machine that falls
through from that word finds nothing to fetch.
-/

namespace Chip8

def returnAddress (call : UInt16) : UInt16 := (call + 2) &&& 0xFFF

/-- The addresses of the open calls, the latest last, after one more word from an address. -/
def callsAfter (calls : List UInt16) (fetched : UInt16 × Word) : List UInt16 :=
  if fetched.2.isCall then calls ++ [fetched.1]
  else if fetched.2.isReturn then calls.dropLast
  else calls

/-- The addresses of the calls not yet returned from, the latest last, when words were carried out
from the given addresses. -/
def openCalls (fetched : List (UInt16 × Word)) : List UInt16 := fetched.foldl callsAfter []

theorem returnAddress_eq {call : UInt16} (inside : call.toNat ≤ 0xFFE) :
    returnAddress call = if call = 0xFFE then 0 else call + 2 := by
  split
  case isTrue last =>
    rw [last]
    rfl
  case isFalse other =>
    have below : call.toNat ≠ 0xFFE := fun last => other (UInt16.toNat_inj.mp last)
    apply UInt16.toNat_inj.mp
    rw [returnAddress, Machine.returnAddress_toNat, toNat_add_two]
    omega

theorem returnAddress_lt_iff {call : UInt16} (inside : call.toNat ≤ 0xFFE) :
    (returnAddress call).toNat < 0xFFF ↔ call ≠ 0xFFD := by
  rw [returnAddress, Machine.returnAddress_toNat, ne_eq, ← UInt16.toNat_inj]
  change (call.toNat + 2) % 4096 < 4095 ↔ ¬call.toNat = 4093
  omega

namespace CallStack

@[simp] theorem depth_ofList (addresses : List UInt16) :
    (ofList addresses).depth = addresses.length := rfl

@[simp] theorem slots_ofList (addresses : List UInt16) (i : Nat) (hi : i < 12) :
    (ofList addresses).slots[i] = addresses.getD i 0 := by
  simp [ofList]

theorem getD_concat_of_ne {addresses : List UInt16} {i : Nat} (other : addresses.length ≠ i)
    (a : UInt16) : (addresses ++ [a]).getD i 0 = addresses.getD i 0 := by
  rcases Nat.lt_or_gt_of_ne other with beyond | below
  · rw [List.getD_eq_default _ _ (by simp; omega), List.getD_eq_default _ _ (by omega)]
  · exact List.getD_append _ _ _ _ below

theorem push_ofList {addresses : List UInt16} (room : addresses.length < 12) (a : UInt16) :
    (ofList addresses).push a = ofList (addresses ++ [a &&& 0xFFF]) := by
  apply eq_of_slots
  · simp
  · intro i hi
    rw [slots_push _ _ (by simp) (by simp; omega), slots_ofList, slots_ofList, depth_ofList]
    by_cases here : addresses.length = i
    · rw [if_pos (by omega), ← here]
      simp
    · rw [if_neg (by omega), getD_concat_of_ne here]

theorem pop_ofList {addresses : List UInt16} (few : addresses.length < 12) (a : UInt16) :
    (ofList (addresses ++ [a])).pop = ofList addresses := by
  apply eq_of_slots
  · simp
  · intro i hi
    rw [slots_pop _ (by simp) (by simp; omega), slots_ofList, slots_ofList, depth_ofList]
    by_cases here : addresses.length = i
    · simp [← here]
    · rw [if_neg (by simp; omega), getD_concat_of_ne here]

theorem top_ofList {addresses : List UInt16} (few : addresses.length < 12) (a : UInt16) :
    (ofList (addresses ++ [a])).top = a := by
  rw [top_eq _ addresses.length few (by simp), slots_ofList]
  simp

/-- The stack holds the return addresses of calls at the given addresses, the latest last. -/
structure Records (calls : List UInt16) (s : CallStack) : Prop where
  eq_ofList : s = ofList (calls.map returnAddress)
  length_le : calls.length ≤ 12
  inside : ∀ call ∈ calls, call.toNat ≤ 0xFFE

theorem records_empty : empty.Records [] where
  eq_ofList := by
    apply eq_of_slots
    · rfl
    · intro i hi
      simp [empty]
  length_le := by simp
  inside := by simp

variable {calls : List UInt16} {s : CallStack}

theorem Records.depth_eq (h : Records calls s) : s.depth = calls.length := by
  simp [h.eq_ofList]

theorem Records.push (h : Records calls s) (room : s.depth < 12) {call : UInt16}
    (inside : call.toNat ≤ 0xFFE) : Records (calls ++ [call]) (s.push (call + 2)) where
  eq_ofList := by
    have few : (calls.map returnAddress).length < 12 := by
      rw [List.length_map]
      have depth := h.depth_eq
      omega
    rw [h.eq_ofList, push_ofList few, List.map_append]
    rfl
  length_le := by
    have depth := h.depth_eq
    rw [List.length_append, List.length_singleton]
    omega
  inside := by
    intro other member
    rcases List.mem_append.mp member with old | new
    · exact h.inside other old
    · rw [List.mem_singleton.mp new]
      exact inside

theorem Records.pop (h : Records calls s) (used : 0 < s.depth) :
    ∃ call, calls.getLast? = some call ∧ call.toNat ≤ 0xFFE ∧ s.top = returnAddress call ∧
      Records calls.dropLast s.pop := by
  rcases List.eq_nil_or_concat calls with rfl | ⟨earlier, call, rfl⟩
  · simp [h.depth_eq] at used
  · have few : earlier.length < 12 := by
      have bound := h.length_le
      rw [List.length_concat] at bound
      omega
    have mapped : s = ofList (earlier.map returnAddress ++ [returnAddress call]) := by
      simpa using h.eq_ofList
    refine ⟨call, by simp, h.inside call (by simp), ?_, ?_⟩
    · rw [mapped, top_ofList (by simpa using few)]
    · rw [mapped, pop_ofList (by simpa using few), List.concat_eq_append, List.dropLast_concat]
      exact ⟨rfl, by omega, fun other member => h.inside other (by simp [member])⟩

end CallStack

namespace Machine

open CallStack (Records)

/-- The words that a trace carries out, each with the address it was fetched from. -/
def fetches (m : Machine) : List Operation → List (UInt16 × Word)
  | [] => []
  | op :: rest =>
    match m.operate op with
    | .ok (next, words) => words.map (m.pc, ·) ++ next.fetches rest
    | .error _ => []

theorem fetches_step (m : Machine) (strict : Bool) (ops : List Operation) :
    m.fetches (.step strict :: ops) = match m.obstacle? strict with
      | some _ => []
      | none => (m.pc, m.wordAtPc) :: m.successor.fetches ops := by
  rw [fetches, operate, step_eq]
  cases m.obstacle? strict <;> rfl

theorem records_successor {m : Machine} {calls : List UInt16} {strict : Bool}
    (h : Records calls m.stack) (free : m.obstacle? strict = none) :
    Records (callsAfter calls (m.pc, m.wordAtPc)) m.successor.stack := by
  obtain ⟨fetches, room, used, -⟩ := (obstacle?_eq_none_iff m strict).mp free
  rcases m.successor_stack_cases with ⟨call, pushed⟩ | ⟨ret, popped⟩ | ⟨call, ret, same⟩
  · simp only [callsAfter, call, if_true, pushed]
    exact h.push (room call) (pc_le_of_canFetch fetches)
  · have call := Word.isCall_eq_false_of_isReturn ret
    obtain ⟨-, -, -, -, left⟩ := h.pop (used ret)
    simpa [callsAfter, call, ret, popped] using left
  · simpa [callsAfter, call, ret, same] using h

/-- At every point of a run the stack tells the open calls. -/
theorem records_trace {m : Machine} {calls : List UInt16} (h : Records calls m.stack)
    (ops : List Operation) :
    Records ((m.fetches ops).foldl callsAfter calls) (m.trace ops).machine.stack := by
  induction ops generalizing m calls with
  | nil => exact h
  | cons op rest ih =>
    cases op with
    | tick => exact ih (m := m.tick) h
    | keys keypad => exact ih (m := m.withKeys keypad) h
    | step strict =>
      rw [fetches_step, trace_step]
      cases free : m.obstacle? strict with
      | some fault => exact h
      | none => exact ih (records_successor h free)

theorem step_return_of_records {m next : Machine} {calls : List UInt16} {strict : Bool} {w : Word}
    (h : Records calls m.stack) (done : m.step strict = .ok (next, w))
    (ret : w.isReturn = true) :
    ∃ call, calls.getLast? = some call ∧ call.toNat ≤ 0xFFE ∧ next.pc = returnAddress call := by
  obtain ⟨free, rfl, rfl⟩ := step_eq_ok_iff.mp done
  obtain ⟨-, -, used, -⟩ := (obstacle?_eq_none_iff m strict).mp free
  obtain ⟨call, last, inside, top, -⟩ := h.pop (used ret)
  refine ⟨call, last, inside, ?_⟩
  rw [successor_of_isReturn ret, apply_pc]
  exact top

/-- In a run from a loaded machine a return goes on after the latest open call, unless that call is
in the last word of memory: then it goes on at address zero. The word there can be fetched; the
fetch after a return only fails when the call was one byte lower. -/
theorem return_resumes_after_call (random : Generator) (width height : Nat) (mode : Mode)
    (image : List UInt8) (fits : image.length ≤ 3584) :
    ∃ loaded, (create random width height mode).loadProgram image = .ok loaded ∧
      ∀ (ops : List Operation) (strict : Bool) (next : Machine) (w : Word),
        (loaded.trace ops).machine.step strict = .ok (next, w) → w.isReturn = true →
          ∃ call, (openCalls (loaded.fetches ops)).getLast? = some call ∧ call.toNat ≤ 0xFFE ∧
            next.pc = (if call = 0xFFE then 0 else call + 2) ∧
            (next.canFetch = true ↔ call ≠ 0xFFD) := by
  refine ⟨_, loadProgram_of_fits fits _, ?_⟩
  intro ops strict next w done ret
  obtain ⟨call, last, inside, pc⟩ :=
    step_return_of_records (records_trace CallStack.records_empty ops) done ret
  refine ⟨call, last, inside, ?_, ?_⟩
  · rw [pc, returnAddress_eq inside]
  · rw [canFetch_iff, pc, returnAddress_lt_iff inside]

/-- Two calls deep, the return goes on after the second one. -/
theorem return_resumes_after_call_two_deep :
    let image : List UInt8 := [0x22, 0x04, 0x00, 0x00, 0x22, 0x08, 0x00, 0xEE, 0x00, 0xEE]
    let ops := [Operation.step true, .tick, .step false]
    image.length ≤ 3584 ∧
      ∃ loaded, (create ⟨0, 0⟩ 64 32 .modern).loadProgram image = .ok loaded ∧
        openCalls (loaded.fetches ops) = [0x200, 0x204] ∧
        ∃ next, (loaded.trace ops).machine.step true = .ok (next, ⟨0x00EE⟩) ∧
          next.pc = 0x206 ∧ next.canFetch = true := by
  intro image ops
  have fits : image.length ≤ 3584 := by decide
  obtain ⟨loaded, load, resumes⟩ := return_resumes_after_call ⟨0, 0⟩ 64 32 .modern image fits
  have named := Except.ok.inj (load.symm.trans (loadProgram_of_fits fits _))
  have deep : openCalls (loaded.fetches ops) = [0x200, 0x204] := by
    rw [named]
    decide +kernel
  have done : (loaded.trace ops).machine.step true =
      .ok ((loaded.trace ops).machine.successor, ⟨0x00EE⟩) := by
    rw [named]
    exact step_eq_ok_iff.mpr ⟨by decide +kernel, rfl, by decide +kernel⟩
  obtain ⟨call, last, -, pc, inside⟩ := resumes ops true _ _ done (by decide)
  rw [deep] at last
  cases last
  exact ⟨fits, loaded, load, deep, _, done, pc, inside.mpr (by decide)⟩

/-- The program writes a call to the last word of memory and jumps there. After the return from that
call the machine is not past the end of memory but at address zero, and goes on from there. With
another word in that place it falls through, and there is nothing to fetch. -/
theorem return_to_last_word_starts_over :
    let image : List UInt8 :=
      [0x60, 0x22, 0x61, 0x0A, 0xAF, 0xFE, 0xF1, 0x55, 0x1F, 0xFE, 0x00, 0xEE]
    let start := create ⟨0, 0⟩ 4 2 .modern
    let loaded := { start with memory := start.memory.writeBlock Memory.programStart image }
    let called := loaded.fetches (List.replicate 6 (.step false))
    let done := loaded.trace (List.replicate 7 (.step false))
    start.loadProgram image = .ok loaded ∧
      openCalls called = [0xFFE] ∧
      done.words = called.map Prod.snd ++ [⟨0x00EE⟩] ∧
      done.machine.pc ≠ 0xFFE + 2 ∧ done.machine.pc = 0 ∧ done.machine.canFetch = true ∧
      ({ loaded with pc := 0xFFE }.trace (List.replicate 2 (.step false))).fault =
        some (.outsideMemory 0x1000) := by
  -- the machines are left written out, as a name for one would make the kernel run it again
  refine ⟨loadProgram_of_fits (by decide) _, ?_⟩
  decide +kernel

end Machine

end Chip8
