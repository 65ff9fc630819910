import Chip8.Word

/-!
The 4096 bytes of memory. Addresses are taken modulo the size, so blocks that run past the end go
on at address zero. The digit glyphs lie at the start and programs from `programStart` on.
-/

namespace Chip8

abbrev Memory := Vector UInt8 4096

namespace Memory

def size : Nat := 4096

def programStart : Nat := 0x200

def programRoom : Nat := size - programStart

/-- The glyphs of the sixteen digits, five rows each. -/
def font : List UInt8 :=
  [0xF0, 0x90, 0x90, 0x90, 0xF0,
   0x20, 0x60, 0x20, 0x20, 0x70,
   0xF0, 0x10, 0xF0, 0x80, 0xF0,
   0xF0, 0x10, 0xF0, 0x10, 0xF0,
   0x90, 0x90, 0xF0, 0x10, 0x10,
   0xF0, 0x80, 0xF0, 0x10, 0xF0,
   0xF0, 0x80, 0xF0, 0x90, 0xF0,
   0xF0, 0x10, 0x20, 0x40, 0x40,
   0xF0, 0x90, 0xF0, 0x90, 0xF0,
   0xF0, 0x90, 0xF0, 0x10, 0xF0,
   0xF0, 0x90, 0xF0, 0x90, 0x90,
   0xE0, 0x90, 0xE0, 0x90, 0xE0,
   0xF0, 0x80, 0x80, 0x80, 0xF0,
   0xE0, 0x90, 0x90, 0x90, 0xE0,
   0xF0, 0x80, 0xF0, 0x80, 0xF0,
   0xF0, 0x80, 0xF0, 0x80, 0x80]

def read (memory : Memory) (address : Nat) : UInt8 := memory[Fin.ofNat 4096 address]

def write (memory : Memory) (address : Nat) (byte : UInt8) : Memory :=
  memory.set (address % 4096) byte (Nat.mod_lt _ (by decide))

def writeBlock (memory : Memory) (start : Nat) : List UInt8 → Memory
  | [] => memory
  | byte :: rest => (memory.write start byte).writeBlock (start + 1) rest

def readBlock (memory : Memory) (start count : Nat) : List UInt8 :=
  (List.range count).map fun k => memory.read (start + k)

def initial : Memory := writeBlock (Vector.replicate 4096 0) 0 font

theorem read_mod (memory : Memory) (address : Nat) :
    memory.read (address % 4096) = memory.read address := by
  simp [read, Fin.ofNat]

theorem read_congr {a b : Nat} (same : a % 4096 = b % 4096) (memory : Memory) :
    memory.read a = memory.read b := by
  rw [← read_mod, same, read_mod]

theorem read_write (memory : Memory) (a b : Nat) (byte : UInt8) :
    (memory.write a byte).read b = if a % 4096 = b % 4096 then byte else memory.read b := by
  simp [read, write, Vector.getElem_set]

theorem writeBlock_append (memory : Memory) (start : Nat) (first second : List UInt8) :
    memory.writeBlock start (first ++ second) =
      (memory.writeBlock start first).writeBlock (start + first.length) second := by
  induction first generalizing memory start with
  | nil => rfl
  | cons byte rest ih =>
    rw [List.cons_append, writeBlock, writeBlock, ih, List.length_cons, Nat.add_assoc,
      Nat.add_comm 1]

theorem writeBlock_congr {start start' : Nat} (same : start % 4096 = start' % 4096)
    (memory : Memory) (bytes : List UInt8) :
    memory.writeBlock start bytes = memory.writeBlock start' bytes := by
  induction bytes generalizing memory start start' with
  | nil => rfl
  | cons byte rest ih =>
    have first : memory.write start byte = memory.write start' byte := by simp only [write, same]
    rw [writeBlock, writeBlock, first]
    exact ih (by omega) _

theorem read_writeBlock_of_forall_ne (memory : Memory) (start : Nat) (bytes : List UInt8) (a : Nat)
    (h : ∀ k < bytes.length, (start + k) % 4096 ≠ a % 4096) :
    (memory.writeBlock start bytes).read a = memory.read a := by
  induction bytes generalizing memory start with
  | nil => rfl
  | cons byte rest ih =>
    rw [writeBlock, ih]
    · rw [read_write, if_neg]
      simpa using h 0 (by simp)
    · intro k hk
      have := h (k + 1) (by simpa using hk)
      rwa [show start + 1 + k = start + (k + 1) by omega]

theorem read_writeBlock (memory : Memory) (start : Nat) (bytes : List UInt8)
    (hl : bytes.length ≤ 4096) (k : Nat) (hk : k < bytes.length) :
    (memory.writeBlock start bytes).read (start + k) = bytes[k] := by
  induction bytes generalizing memory start k with
  | nil => simp at hk
  | cons byte rest ih =>
    simp only [List.length_cons] at hl hk
    rw [writeBlock]
    cases k with
    | zero =>
      rw [read_writeBlock_of_forall_ne, read_write]
      · simp
      · intro j hj
        omega
    | succ k =>
      have := ih (memory.write start byte) (start + 1) (by omega) k (by omega)
      rwa [show start + 1 + k = start + (k + 1) by omega] at this

end Memory

end Chip8
