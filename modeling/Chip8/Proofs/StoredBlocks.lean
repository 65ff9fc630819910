import Chip8.Proofs.ComponentEffects
import Chip8.Proofs.InstructionTable

/-!
Blocks of registers that are stored one after another and loaded again in the same order. On a
legacy machine each transfer moves the index past its block, so the blocks lie end to end, around
the end of memory where they reach it, and the loads meet them at the same places. As long as all
of them fit into memory together, no store disturbs an earlier block, and each load brings back the
registers of its block and leaves those above alone.
-/

namespace Chip8

/-- The registers up to `last`, which are stored from one register file and later loaded over
another. -/
structure Block where
  last : Register
  stored : Vector UInt8 16
  before : Vector UInt8 16
  deriving DecidableEq, Repr

namespace Block

def size (b : Block) : Nat := b.last.val + 1

def bytes (b : Block) : List UInt8 := b.stored.toList.take b.size

/-- The registers after the load: those of the block as stored, the ones above as before. -/
def ReadBack (b : Block) (v : Vector UInt8 16) : Prop :=
  (∀ k ≤ b.last, v.get k = b.stored.get k) ∧ ∀ k, b.last < k → v.get k = b.before.get k

def totalSize : List Block → Nat
  | [] => 0
  | b :: rest => b.size + totalSize rest

theorem length_bytes (b : Block) : b.bytes.length = b.size := Machine.length_block ..

theorem length_flatMap_bytes (blocks : List Block) :
    (blocks.flatMap bytes).length = totalSize blocks := by
  induction blocks with
  | nil => rfl
  | cons b rest ih => rw [List.flatMap_cons, List.length_append, length_bytes, ih, totalSize]

theorem getElem?_flatMap_bytes {b : Block} {k : Register} (inside : k ≤ b.last)
    (earlier later : List Block) :
    ((earlier ++ b :: later).flatMap bytes)[totalSize earlier + k.val]? =
      some (b.stored.get k) := by
  have bound : k.val < b.bytes.length := by
    rw [length_bytes]
    exact Nat.lt_succ_of_le inside
  rw [List.flatMap_append, ← length_flatMap_bytes, List.getElem?_append_right (Nat.le_add_right ..),
    Nat.add_sub_cancel_left, List.flatMap_cons, List.getElem?_append_left bound,
    bytes, size, Machine.getElem?_block b.stored inside]

end Block

namespace Word

/-- FX55. -/
def storing (last : Register) : Word := ⟨0xF055 + 256 * last.val⟩

/-- FX65. -/
def loading (last : Register) : Word := ⟨0xF065 + 256 * last.val⟩

theorem ofWord?_storing (last : Register) :
    Instruction.ofWord? (storing last) = some (.store last) := by
  revert last
  decide

theorem ofWord?_loading (last : Register) :
    Instruction.ofWord? (loading last) = some (.load last) := by
  revert last
  decide

end Word

theorem toNat_add_ofNat (a : UInt16) (n : Nat) :
    (a + UInt16.ofNat n).toNat = (a.toNat + n) % 65536 := by
  rw [UInt16.toNat_add, UInt16.toNat_ofNat']
  omega

namespace Machine

open Block (totalSize)

def withRegisters (m : Machine) (v : Vector UInt8 16) : Machine := { m with v := v }

/-- Stores the blocks in order, with the registers set to those of each block before it. -/
def storeAll (m : Machine) (strict : Bool) (blocks : List Block) : Except Fault Machine :=
  blocks.foldlM (fun now b => (now.withRegisters b.stored).execute (.storing b.last) strict) m

def loadAll (m : Machine) (strict : Bool) (blocks : List Block) : Except Fault Machine :=
  blocks.foldlM (fun now b => (now.withRegisters b.before).execute (.loading b.last) strict) m

def store (m : Machine) (b : Block) : Machine := (m.withRegisters b.stored).apply (.store b.last)

def load (m : Machine) (b : Block) : Machine := (m.withRegisters b.before).apply (.load b.last)

theorem execute_storing (m : Machine) (b : Block) (strict : Bool) :
    (m.withRegisters b.stored).execute (.storing b.last) strict = .ok (m.store b) :=
  execute_of_unchecked (Word.ofWord?_storing b.last) rfl

theorem execute_loading (m : Machine) (b : Block) (strict : Bool) :
    (m.withRegisters b.before).execute (.loading b.last) strict = .ok (m.load b) :=
  execute_of_unchecked (Word.ofWord?_loading b.last) rfl

theorem storeAll_eq (m : Machine) (strict : Bool) (blocks : List Block) :
    m.storeAll strict blocks = .ok (blocks.foldl store m) := by
  induction blocks generalizing m with
  | nil => rfl
  | cons b rest ih =>
    rw [storeAll, List.foldlM_cons, execute_storing, List.foldl_cons]
    exact ih (m.store b)

theorem loadAll_eq (m : Machine) (strict : Bool) (blocks : List Block) :
    m.loadAll strict blocks = .ok (blocks.foldl load m) := by
  induction blocks generalizing m with
  | nil => rfl
  | cons b rest ih =>
    rw [loadAll, List.foldlM_cons, execute_loading, List.foldl_cons]
    exact ih (m.load b)

theorem memory_store (m : Machine) (b : Block) :
    (m.store b).memory = m.memory.writeBlock m.index.toNat b.bytes := rfl

theorem memory_load (m : Machine) (b : Block) : (m.load b).memory = m.memory := by
  rw [load, apply_memory]
  rfl

theorem mode_store (m : Machine) (b : Block) : (m.store b).mode = m.mode := apply_mode ..

theorem mode_load (m : Machine) (b : Block) : (m.load b).mode = m.mode := apply_mode ..

theorem index_store (m : Machine) (b : Block) : (m.store b).index = m.indexAfterBlock b.last := by
  rw [store, apply_index]
  rfl

theorem index_load (m : Machine) (b : Block) : (m.load b).index = m.indexAfterBlock b.last := by
  rw [load, apply_index]
  rfl

theorem get_load (m : Machine) (b : Block) (k : Register) :
    (m.load b).v.get k =
      if k ≤ b.last then m.memory.read (m.index.toNat + k.val) else b.before.get k :=
  get_apply_load ..

variable {m : Machine}

theorem toNat_indexAfterBlock (legacy : m.mode = .legacy) (b : Block) :
    (m.indexAfterBlock b.last).toNat = (m.index.toNat + b.size) % 65536 := by
  rw [indexAfterBlock, legacy]
  exact toNat_add_ofNat m.index b.size

theorem mode_stores (m : Machine) (blocks : List Block) :
    (blocks.foldl store m).mode = m.mode := by
  induction blocks generalizing m with
  | nil => rfl
  | cons b rest ih => rw [List.foldl_cons, ih, mode_store]

theorem index_stores (legacy : m.mode = .legacy) (blocks : List Block) :
    (blocks.foldl store m).index.toNat = (m.index.toNat + totalSize blocks) % 65536 := by
  induction blocks generalizing m with
  | nil =>
    have small := m.index.toNat_lt
    simp [totalSize]
  | cons b rest ih =>
    rw [List.foldl_cons, ih ((m.mode_store b).trans legacy), index_store,
      toNat_indexAfterBlock legacy, totalSize]
    omega

/-- The stores come to one long one, since the blocks lie end to end. -/
theorem memory_stores (legacy : m.mode = .legacy) (blocks : List Block) :
    (blocks.foldl store m).memory =
      m.memory.writeBlock m.index.toNat (blocks.flatMap Block.bytes) := by
  induction blocks generalizing m with
  | nil => rfl
  | cons b rest ih =>
    have next : (m.store b).index.toNat % 4096 = (m.index.toNat + b.bytes.length) % 4096 := by
      rw [index_store, toNat_indexAfterBlock legacy, Block.length_bytes]
      omega
    rw [List.foldl_cons, ih ((m.mode_store b).trans legacy), Memory.writeBlock_congr next,
      memory_store, List.flatMap_cons, Memory.writeBlock_append]

theorem index_loads (legacy : m.mode = .legacy) (blocks : List Block) :
    (blocks.foldl load m).index.toNat = (m.index.toNat + totalSize blocks) % 65536 := by
  induction blocks generalizing m with
  | nil => simp [totalSize]
  | cons b rest ih =>
    rw [List.foldl_cons, ih ((m.mode_load b).trans legacy), index_load,
      toNat_indexAfterBlock legacy, totalSize]
    omega

theorem memory_loads (m : Machine) (blocks : List Block) :
    (blocks.foldl load m).memory = m.memory := by
  induction blocks generalizing m with
  | nil => rfl
  | cons b rest ih => rw [List.foldl_cons, ih, memory_load]

theorem readBack_load {b : Block}
    (lies : ∀ k ≤ b.last, m.memory.read (m.index.toNat + k.val) = b.stored.get k) :
    b.ReadBack (m.load b).v := by
  constructor
  · intro k inside
    rw [get_load, if_pos inside, lies k inside]
  · intro k above
    rw [get_load, if_neg (Fin.not_le.mpr above)]

theorem read_stores (legacy : m.mode = .legacy) {earlier later : List Block} {b : Block}
    (fits : totalSize (earlier ++ b :: later) ≤ 4096) {k : Register} (inside : k ≤ b.last) :
    ((earlier ++ b :: later).foldl store m).memory.read
      (m.index.toNat + (totalSize earlier + k.val)) = b.stored.get k := by
  obtain ⟨bound, place⟩ :=
    List.getElem?_eq_some_iff.mp (Block.getElem?_flatMap_bytes inside earlier later)
  have short : ((earlier ++ b :: later).flatMap Block.bytes).length ≤ 4096 := by
    rwa [Block.length_flatMap_bytes]
  rw [memory_stores legacy, Memory.read_writeBlock _ _ _ short _ bound, place]

def rewound (m : Machine) (index : UInt16) : Machine := { m with index := index }

theorem readBack_stores (legacy : m.mode = .legacy) {earlier later : List Block} {b : Block}
    (fits : totalSize (earlier ++ b :: later) ≤ 4096) :
    b.ReadBack ((earlier ++ [b]).foldl load
      (((earlier ++ b :: later).foldl store m).rewound m.index)).v := by
  have still : (((earlier ++ b :: later).foldl store m).rewound m.index).mode = .legacy :=
    (m.mode_stores _).trans legacy
  rw [List.foldl_append]
  apply readBack_load
  intro k inside
  rw [memory_loads, index_loads still, ← read_stores legacy fits inside]
  apply Memory.read_congr
  change ((m.index.toNat + totalSize earlier) % 65536 + k.val) % 4096 = _
  omega

/-- Blocks that fit into memory together are read back as they were stored, each by its own load
and without a change to memory; the index runs over all of them. A modern machine does the same
for one block and leaves the index where it is. -/
theorem blocks_read_back (m : Machine) (strict : Bool) :
    (m.mode = .legacy → ∀ blocks, totalSize blocks ≤ 4096 →
      ∃ stored, m.storeAll strict blocks = .ok stored ∧
        stored.index.toNat = (m.index.toNat + totalSize blocks) % 65536 ∧
        (∀ earlier b later, blocks = earlier ++ b :: later →
          ∃ now, (stored.rewound m.index).loadAll strict (earlier ++ [b]) = .ok now ∧
            b.ReadBack now.v ∧ now.memory = stored.memory) ∧
        ∃ last, (stored.rewound m.index).loadAll strict blocks = .ok last ∧
          last.memory = stored.memory ∧
          last.index.toNat = (m.index.toNat + totalSize blocks) % 65536) ∧
    (m.mode = .modern → ∀ b : Block,
      ∃ stored now, m.storeAll strict [b] = .ok stored ∧ stored.loadAll strict [b] = .ok now ∧
        b.ReadBack now.v ∧ now.memory = stored.memory ∧
        stored.index = m.index ∧ now.index = m.index) := by
  constructor
  · intro legacy blocks fits
    have still : ((blocks.foldl store m).rewound m.index).mode = .legacy :=
      (m.mode_stores _).trans legacy
    refine ⟨_, m.storeAll_eq strict blocks, index_stores legacy blocks, ?_, _,
      loadAll_eq _ strict blocks, memory_loads .., index_loads still blocks⟩
    rintro earlier b later rfl
    exact ⟨_, loadAll_eq _ strict _, readBack_stores legacy fits, memory_loads ..⟩
  · intro modern b
    have stays (k : Machine) (mode : k.mode = .modern) : k.indexAfterBlock b.last = k.index := by
      rw [indexAfterBlock, mode]
    have stored : (m.store b).index = m.index := (m.index_store b).trans (stays m modern)
    have loaded : ((m.store b).load b).index = (m.store b).index :=
      (index_load _ b).trans (stays _ ((m.mode_store b).trans modern))
    refine ⟨_, _, m.storeAll_eq strict [b], loadAll_eq _ strict [b], ?_, memory_load .., stored,
      loaded.trans stored⟩
    apply readBack_load
    intro k inside
    rw [List.foldl_cons, List.foldl_nil, stored]
    exact read_apply_store (m.withRegisters b.stored) inside

/-- A full block and one of two registers around the last index and the end of memory, and a block
on a modern machine. -/
theorem blocks_read_back_around_the_end :
    let counting : Vector UInt8 16 := Vector.ofFn fun k => UInt8.ofNat (k.val + 1)
    let whole : Block := ⟨15, counting, Vector.replicate 16 0⟩
    let short : Block := ⟨1, Vector.replicate 16 7, counting⟩
    let m := { create ⟨0, 0⟩ 1 1 .legacy with index := 0xFFF8 }
    let m' := { create ⟨0, 0⟩ 1 1 .modern with index := 0xFFF }
    m.mode = .legacy ∧ totalSize [whole, short] ≤ 4096 ∧
      (∃ stored now last, m.storeAll true [whole, short] = .ok stored ∧
        (stored.rewound m.index).loadAll true [whole] = .ok now ∧ now.v.get 15 = 16 ∧
        (stored.rewound m.index).loadAll true [whole, short] = .ok last ∧
        last.v.get 1 = 7 ∧ last.v.get 2 = 3 ∧ last.memory = stored.memory) ∧
      m'.mode = .modern ∧
      ∃ stored now, m'.storeAll false [short] = .ok stored ∧
        stored.loadAll false [short] = .ok now ∧ now.v.get 1 = 7 ∧ now.index = 0xFFF := by
  intro counting whole short m m'
  have fits : totalSize [whole, short] ≤ 4096 := by decide
  obtain ⟨stored, stores, -, each, -⟩ := (blocks_read_back m true).1 rfl [whole, short] fits
  obtain ⟨now, loads, ⟨first, -⟩, -⟩ := each [] whole [short] rfl
  obtain ⟨last, loads', ⟨below, above⟩, kept⟩ := each [whole] short [] rfl
  obtain ⟨alone, now', store, load, ⟨below', -⟩, -, -, unmoved⟩ :=
    (blocks_read_back m' false).2 rfl short
  exact ⟨rfl, fits, ⟨stored, now, last, stores, loads, first 15 (by decide), loads',
    below 1 (by decide), above 2 (by decide), kept⟩, rfl,
    alone, now', store, load, below' 1 (by decide), unmoved⟩

end Machine

end Chip8
