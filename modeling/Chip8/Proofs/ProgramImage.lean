import Chip8.Proofs.ReachableState

/-!
Program images as words. The loader copies an image that fits to program memory and touches nothing
else; an image of words, high bytes first, then lies there word by word, and fetches from its start
read the words back in order. The largest image ends where memory does: its last word is the last
that can be fetched, and one byte more is refused by the loader.
-/

namespace Chip8

namespace Word

def ofCode (code : UInt16) : Word := ⟨code.toNat⟩

def bytes (code : UInt16) : List UInt8 :=
  [UInt8.ofNat (code.toNat / 256), UInt8.ofNat code.toNat]

theorem length_bytes (code : UInt16) : (bytes code).length = 2 := rfl

theorem ofBytes_bytes (code : UInt16) :
    ofBytes (UInt8.ofNat (code.toNat / 256)) (UInt8.ofNat code.toNat) = ofCode code := by
  have small := code.toNat_lt
  simp only [ofBytes, ofCode, UInt8.toNat_ofNat', mk.injEq]
  omega

theorem length_flatMap_bytes (codes : List UInt16) :
    (codes.flatMap bytes).length = 2 * codes.length := by
  induction codes with
  | nil => rfl
  | cons code rest ih =>
    rw [List.flatMap_cons, List.length_append, length_bytes, ih, List.length_cons, Nat.mul_succ,
      Nat.add_comm]

end Word

namespace Memory

/-- The words of these codes lie one after another from an address on. -/
def Spells (memory : Memory) (start : Nat) : List UInt16 → Prop
  | [] => True
  | code :: rest =>
    Word.ofBytes (memory.read start) (memory.read (start + 1)) = .ofCode code ∧
      memory.Spells (start + 2) rest

theorem read_writeBlock_of_lt (memory : Memory) {start a : Nat} {bytes : List UInt8}
    (below : a < start) (fits : start + bytes.length ≤ 4096) :
    (memory.writeBlock start bytes).read a = memory.read a := by
  apply read_writeBlock_of_forall_ne
  intro k bound
  omega

theorem ofBytes_writeBlock (memory : Memory) (start : Nat) (code : UInt16) :
    let after := memory.writeBlock start (Word.bytes code)
    Word.ofBytes (after.read start) (after.read (start + 1)) = .ofCode code := by
  intro after
  have short : (Word.bytes code).length ≤ 4096 := by simp [Word.length_bytes]
  have high := read_writeBlock memory start (Word.bytes code) short 0 (by simp [Word.length_bytes])
  have low := read_writeBlock memory start (Word.bytes code) short 1 (by simp [Word.length_bytes])
  rw [Nat.add_zero] at high
  rw [high, low]
  exact Word.ofBytes_bytes code

theorem spells_writeBlock (memory : Memory) {start : Nat} {codes : List UInt16}
    (fits : start + 2 * codes.length ≤ 4096) :
    (memory.writeBlock start (codes.flatMap Word.bytes)).Spells start codes := by
  induction codes generalizing memory start with
  | nil => trivial
  | cons code rest ih =>
    rw [List.length_cons] at fits
    rw [List.flatMap_cons, writeBlock_append, Word.length_bytes]
    refine ⟨?_, ih _ (by omega)⟩
    -- the rest lies above both bytes of the first word
    have above : start + 2 + (rest.flatMap Word.bytes).length ≤ 4096 := by
      rw [Word.length_flatMap_bytes]
      omega
    rw [read_writeBlock_of_lt _ (by omega) above, read_writeBlock_of_lt _ (by omega) above]
    exact memory.ofBytes_writeBlock start code

end Memory

namespace Machine

variable {m : Machine} {image : List UInt8} {code : UInt16} {codes : List UInt16}

/-- So many fetches in a row, and the words they read. -/
def fetchAll (m : Machine) : Nat → Except Fault (Machine × List Word)
  | 0 => .ok (m, [])
  | k + 1 => do
    let (next, w) ← m.fetch
    let (last, rest) ← next.fetchAll k
    return (last, w :: rest)

theorem loadProgram_eq_error_iff {e : TooBig} :
    m.loadProgram image = .error e ↔ 3584 < image.length ∧ e = ⟨image.length, 3584⟩ := by
  by_cases fits : image.length ≤ 3584
  · rw [loadProgram_of_fits fits]
    simp only [reduceCtorEq, false_iff]
    omega
  · have big : m.loadProgram image = .error ⟨image.length, 3584⟩ :=
      if_pos (Nat.lt_of_not_le fits)
    rw [big, Except.error.injEq, eq_comm]
    simp only [Nat.lt_of_not_le fits, true_and]

theorem fetch_eq_error_iff {fault : Fault} :
    m.fetch = .error fault ↔ 0xFFF ≤ m.pc.toNat ∧ fault = .outsideMemory m.pc := by
  have fetches := m.canFetch_iff
  rw [fetch]
  cases inside : m.canFetch with
  | true =>
    have below := fetches.mp inside
    simp only [if_true, reduceCtorEq, false_iff]
    omega
  | false =>
    have outside : 0xFFF ≤ m.pc.toNat := by
      rw [inside] at fetches
      simpa using fetches
    simp [outside, eq_comm]

theorem fetch_of_spells (lies : m.memory.Spells m.pc.toNat (code :: codes))
    (inside : m.pc.toNat + 2 ≤ 4096) : m.fetch = .ok (m.advance, .ofCode code) := by
  have fetches : m.canFetch = true := m.canFetch_iff.mpr (by omega)
  rw [fetch, if_pos fetches, wordAtPc, lies.1]

theorem fetchAll_of_spells (lies : m.memory.Spells m.pc.toNat codes)
    (fits : m.pc.toNat + 2 * codes.length ≤ 4096) {k : Nat} (within : k ≤ codes.length) :
    m.fetchAll k =
      .ok ({ m with pc := UInt16.ofNat (m.pc.toNat + 2 * k) }, (codes.take k).map .ofCode) := by
  induction k generalizing m codes with
  | zero => simp [fetchAll]
  | succ k ih =>
    cases codes with
    | nil => simp at within
    | cons code rest =>
      rw [List.length_cons] at fits within
      have first := fetch_of_spells lies (by omega)
      have fetches : m.canFetch = true := m.canFetch_iff.mpr (by omega)
      have moved : m.advance.pc.toNat = m.pc.toNat + 2 := advance_pc fetches
      have liesLater : m.advance.memory.Spells m.advance.pc.toNat rest := by
        rw [moved]
        exact lies.2
      have later := ih liesLater (by omega) (by omega)
      have target : m.advance.pc.toNat + 2 * k = m.pc.toNat + 2 * (k + 1) := by omega
      rw [fetchAll, first]
      change (m.advance.fetchAll k).bind _ = _
      rw [later, target]
      rfl

theorem loadProgram_words (m : Machine) (fits : codes.length ≤ 1792) :
    ∃ memory : Memory, m.loadProgram (codes.flatMap Word.bytes) = .ok { m with memory := memory } ∧
      memory.Spells 0x200 codes := by
  have short : (codes.flatMap Word.bytes).length ≤ 3584 := by
    rw [Word.length_flatMap_bytes]
    omega
  refine ⟨_, loadProgram_of_fits short m, m.memory.spells_writeBlock ?_⟩
  simp only [Memory.programStart]
  omega

/-- The loader refuses exactly the images beyond its room and says how large both are. It copies
every other image to program memory and changes nothing else, and the words of an image are fetched
from there in order, up to the end of memory. -/
theorem load_and_fetch (m : Machine) :
    (∀ image e, m.loadProgram image = .error e ↔
      3584 < image.length ∧ e = ⟨image.length, 3584⟩) ∧
    (∀ image, image.length ≤ 3584 → ∃ memory,
      m.loadProgram image = .ok { m with memory := memory } ∧
        (∀ (k : Nat) (_ : k < image.length), memory.read (0x200 + k) = image[k]) ∧
        ∀ a < 4096, a < 0x200 ∨ 0x200 + image.length ≤ a → memory.read a = m.memory.read a) ∧
    ∀ codes : List UInt16, codes.length ≤ 1792 → m.pc = 0x200 → ∃ loaded,
      m.loadProgram (codes.flatMap Word.bytes) = .ok loaded ∧
        let reached k := { loaded with pc := UInt16.ofNat (0x200 + 2 * k) }
        (∀ k ≤ codes.length,
          loaded.fetchAll k = .ok (reached k, (codes.take k).map .ofCode)) ∧
        ((reached codes.length).fetch = .error (.outsideMemory 0x1000) ↔ codes.length = 1792) := by
  refine ⟨fun image e => loadProgram_eq_error_iff, ?_, ?_⟩
  · intro image fits
    refine ⟨_, loadProgram_of_fits fits m, ?_, ?_⟩
    · exact Memory.read_writeBlock _ _ _ (by omega)
    · intro a inside outside
      apply Memory.read_writeBlock_of_forall_ne
      intro k bound
      simp only [Memory.programStart]
      omega
  · intro codes fits start
    obtain ⟨memory, loads, lies⟩ := m.loadProgram_words fits
    have entry : m.pc.toNat = 0x200 := by
      rw [start]
      rfl
    refine ⟨_, loads, ?_⟩
    intro reached
    constructor
    · intro k within
      rw [← entry] at lies
      have ran := fetchAll_of_spells (m := { m with memory := memory }) lies
        (by simp only [entry]; omega) within
      simp only [entry] at ran
      exact ran
    · have place : (reached codes.length).pc.toNat = 0x200 + 2 * codes.length := by
        simp only [reached, UInt16.toNat_ofNat']
        omega
      rw [fetch_eq_error_iff, place, Fault.outsideMemory.injEq, ← UInt16.toNat_inj, place]
      change _ ∧ 4096 = _ ↔ _
      omega

/-- The largest image, as bytes and as words, and one byte more. -/
theorem load_and_fetch_full_image :
    let m := create ⟨0, 0⟩ 1 1 .modern
    let codes : List UInt16 := List.replicate 1791 0x6A05 ++ [0x12AB]
    m.loadProgram (List.replicate 3585 0xAB) = .error ⟨3585, 3584⟩ ∧
      (∃ memory, m.loadProgram (List.replicate 3584 0xAB) = .ok { m with memory := memory } ∧
        memory.read 0xFFF = 0xAB ∧ memory.read 0 = m.memory.read 0) ∧
      codes.length ≤ 1792 ∧ m.pc = 0x200 ∧
      ∃ loaded : Machine, m.loadProgram (codes.flatMap Word.bytes) = .ok loaded ∧
        loaded.fetchAll 1792 =
          .ok ({ loaded with pc := 0x1000 }, List.replicate 1791 ⟨0x6A05⟩ ++ [⟨0x12AB⟩]) ∧
        { loaded with pc := 0x1000 }.fetch = .error (.outsideMemory 0x1000) := by
  intro m codes
  obtain ⟨refused, copied, words⟩ := load_and_fetch m
  have count : codes.length = 1792 := by
    rw [List.length_append, List.length_replicate]
    rfl
  have full : (List.replicate 3584 (0xAB : UInt8)).length = 3584 := List.length_replicate
  have more : (List.replicate 3585 (0xAB : UInt8)).length = 3585 := List.length_replicate
  refine ⟨?_, ?_, Nat.le_of_eq count, rfl, ?_⟩
  · rw [refused, more]
    exact ⟨by decide, rfl⟩
  · obtain ⟨memory, loads, inside, outside⟩ := copied _ (Nat.le_of_eq full)
    refine ⟨memory, loads, ?_, outside 0 (by decide) (.inl (by decide))⟩
    have last := inside 3583 (by rw [full]; decide)
    rwa [List.getElem_replicate] at last
  · obtain ⟨loaded, loads, fetched, next⟩ := words codes (Nat.le_of_eq count) rfl
    have read := fetched codes.length (Nat.le_refl _)
    rw [List.take_length, List.map_append, List.map_replicate, count] at read
    rw [count] at next
    exact ⟨loaded, loads, read, next.mpr rfl⟩

end Machine

end Chip8
