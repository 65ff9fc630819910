import Chip8.CallStack

/-!
The call stack slot by slot, at the depths that the checks admit. A push writes the slot named by
the depth and a pop clears the one below it, so that the slots from the depth on stay zero. That
is what makes a pop the exact inverse of the push before it.
-/

namespace Chip8.CallStack

structure Clean (s : CallStack) : Prop where
  depth_nonneg : 0 ≤ s.depth
  depth_le : s.depth ≤ 12
  free : ∀ (i : Nat) (hi : i < 12), s.depth ≤ i → s.slots[i] = 0

theorem clean_empty : empty.Clean where
  depth_nonneg := by decide
  depth_le := by decide
  free i hi _ := by simp [empty]

@[simp] theorem depth_push (s : CallStack) (a : UInt16) : (s.push a).depth = s.depth + 1 := rfl

@[simp] theorem depth_pop (s : CallStack) : s.pop.depth = s.depth - 1 := rfl

theorem slot_of_nonneg {depth : Int} (h : 0 ≤ depth) : slot depth = depth := by
  rw [slot, if_neg (by omega)]

theorem slots_push (s : CallStack) (a : UInt16) (low : 0 ≤ s.depth) (room : s.depth < 12)
    (i : Nat) (hi : i < 12) :
    (s.push a).slots[i] = if s.depth = i then a &&& 0xFFF else s.slots[i] := by
  have inside : 0 ≤ slot s.depth ∧ slot s.depth < 12 := by
    rw [slot_of_nonneg low]
    exact ⟨low, room⟩
  simp only [push, write, inside, and_self, dite_true, Vector.getElem_set]
  have same : (slot s.depth).toNat = i ↔ s.depth = i := by
    rw [slot_of_nonneg low]
    omega
  simp only [same]

theorem slots_pop (s : CallStack) (used : 0 < s.depth) (high : s.depth ≤ 12)
    (i : Nat) (hi : i < 12) :
    s.pop.slots[i] = if s.depth = i + 1 then 0 else s.slots[i] := by
  have below : slot (s.depth - 1) = s.depth - 1 := slot_of_nonneg (by omega)
  have inside : 0 ≤ slot (s.depth - 1) ∧ slot (s.depth - 1) < 12 := by
    rw [below]
    omega
  simp only [pop, write, inside, and_self, dite_true, Vector.getElem_set]
  have same : (slot (s.depth - 1)).toNat = i ↔ s.depth = i + 1 := by
    rw [below]
    omega
  simp only [same]

theorem top_eq (s : CallStack) (d : Nat) (hd : d < 12) (h : s.depth = d + 1) :
    s.top = s.slots[d] := by
  have below : slot (s.depth - 1) = d := by
    rw [slot_of_nonneg (by omega)]
    omega
  have nearest : (Fin.ofNat 12 (min (slot (s.depth - 1)).toNat 11)).val = d := by
    rw [below, Fin.val_ofNat]
    omega
  simp only [top, read, Fin.getElem_fin, nearest]

theorem eq_of_slots {s t : CallStack} (depth : s.depth = t.depth)
    (slots : ∀ (i : Nat) (hi : i < 12), s.slots[i] = t.slots[i]) : s = t := by
  obtain ⟨a, d⟩ := s
  obtain ⟨b, e⟩ := t
  simp only at depth slots
  subst depth
  rw [Vector.ext slots]

theorem Clean.push {s : CallStack} (h : s.Clean) (room : s.depth < 12) (a : UInt16) :
    (s.push a).Clean where
  depth_nonneg := by
    have := h.depth_nonneg
    simp only [depth_push]
    omega
  depth_le := by
    simp only [depth_push]
    omega
  free i hi above := by
    simp only [depth_push] at above
    rw [slots_push s a h.depth_nonneg room, if_neg (by omega)]
    exact h.free i hi (by omega)

theorem Clean.pop {s : CallStack} (h : s.Clean) (used : 0 < s.depth) : s.pop.Clean where
  depth_nonneg := by
    simp only [depth_pop]
    omega
  depth_le := by
    have := h.depth_le
    simp only [depth_pop]
    omega
  free i hi above := by
    simp only [depth_pop] at above
    rw [slots_pop s used h.depth_le]
    split
    · rfl
    · exact h.free i hi (by omega)

def SameBelow (d : Int) (s t : CallStack) : Prop :=
  ∀ (i : Nat) (hi : i < 12), i < d → t.slots[i] = s.slots[i]

theorem SameBelow.refl (d : Int) (s : CallStack) : SameBelow d s s := fun _ _ _ => rfl

theorem SameBelow.trans {d : Int} {s t u : CallStack} (first : SameBelow d s t)
    (second : SameBelow d t u) : SameBelow d s u := by
  intro i hi below
  rw [second i hi below, first i hi below]

theorem sameBelow_push {s : CallStack} (h : s.Clean) (room : s.depth < 12) (a : UInt16) {d : Int}
    (above : d ≤ s.depth) : SameBelow d s (s.push a) := by
  intro i hi below
  rw [slots_push s a h.depth_nonneg room, if_neg (by omega)]

theorem sameBelow_pop {s : CallStack} (h : s.Clean) (used : 0 < s.depth) {d : Int}
    (above : d ≤ s.depth - 1) : SameBelow d s s.pop := by
  intro i hi below
  rw [slots_pop s used h.depth_le, if_neg (by omega)]

theorem pop_eq_of_sameBelow {s t : CallStack} {a : UInt16} (hs : s.Clean) (room : s.depth < 12)
    (ht : t.Clean) (depth : t.depth = s.depth + 1)
    (same : SameBelow (s.depth + 1) (s.push a) t) : t.pop = s ∧ t.top = a &&& 0xFFF := by
  have low := hs.depth_nonneg
  constructor
  · apply eq_of_slots
    · rw [depth_pop, depth]
      omega
    · intro i hi
      rw [slots_pop t (by omega) ht.depth_le]
      by_cases here : s.depth = i
      · rw [if_pos (by omega), hs.free i hi (by omega)]
      · rw [if_neg (by omega)]
        by_cases below : i < s.depth
        · rw [same i hi (by omega), slots_push s a low room, if_neg here]
        · rw [ht.free i hi (by omega), hs.free i hi (by omega)]
  · have top := top_eq t s.depth.toNat (by omega) (by omega)
    rw [top, same _ _ (by omega), slots_push s a low room, if_pos (by omega)]

end Chip8.CallStack
