import Chip8.Proofs.ComponentEffects
import Chip8.Proofs.SpriteDrawing

/-!
Sprites and blocks of registers moved in lanes. A sprite has a window of eight columns and fifteen
rows, a block one of sixteen bytes, and every lane of a window reads and writes whatever the
operands are. Lanes beyond the height of the sprite or the edges of the screen are pointed at a
cell outside, where nothing is lit and writes are dropped; lanes above the last register of a block
write back what they found. Lanes that write to the same place agree on what they write, so their
order does not matter, and together they do what the instruction does.
-/

namespace Chip8

/-- Writes of which each either leaves a place alone or puts there what is wanted. -/
theorem foldl_eq_of_agree {State Value Lane : Type} (view : State → Value)
    {put : State → Lane → State} {order : List Lane} {start : State} {wanted : Value}
    (agree : ∀ lane s, view (put s lane) = wanted ∨ view (put s lane) = view s)
    (reached : view start = wanted ∨ ∃ lane ∈ order, ∀ s, view (put s lane) = wanted) :
    view (order.foldl put start) = wanted := by
  -- once there, what is wanted stays: no later write puts anything else in the place
  have kept (later : List Lane) (s : State) (done : view s = wanted) :
      view (later.foldl put s) = wanted := by
    induction later generalizing s with
    | nil => exact done
    | cons lane rest ih => exact ih _ ((agree lane s).elim id fun same => same.trans done)
  rcases reached with done | ⟨lane, member, writes⟩
  · exact kept order start done
  · obtain ⟨before, after, rfl⟩ := List.append_of_mem member
    rw [List.foldl_append, List.foldl_cons]
    exact kept after _ (writes _)

namespace Framebuffer

def setCell {width height : Nat} (rows : Vector (Vector Bool width) height) (cell : Nat × Nat)
    (pixel : Bool) : Vector (Vector Bool width) height :=
  rows.mapFinIdx fun r row _ =>
    if r = cell.2 then row.mapFinIdx fun c old _ => if c = cell.1 then pixel else old else row

/-- Every lane sets its cell, in the given order; a cell outside the screen is dropped. -/
def scatter {Lane : Type} (screen : Framebuffer) (order : List Lane) (cell : Lane → Nat × Nat)
    (pixel : Lane → Bool) : Framebuffer :=
  { screen with
    rows := order.foldl (fun rows lane => setCell rows (cell lane) (pixel lane)) screen.rows }

variable {width height x y : Nat}

theorem getElem_setCell (rows : Vector (Vector Bool width) height) (cell : Nat × Nat)
    (pixel : Bool) (column : x < width) (row : y < height) :
    (setCell rows cell pixel)[y][x] = if cell = (x, y) then pixel else rows[y][x] := by
  obtain ⟨cx, cy⟩ := cell
  by_cases sameRow : y = cy
  · by_cases sameColumn : x = cx
    · simp [setCell, sameRow, sameColumn]
    · simp [setCell, sameRow, sameColumn, Ne.symm sameColumn]
  · simp [setCell, sameRow, Ne.symm sameRow]

theorem lit_scatter {Lane : Type} {screen : Framebuffer} {order : List Lane}
    {cell : Lane → Nat × Nat} {pixel : Lane → Bool} {wanted : Bool}
    (inside : x < screen.width ∧ y < screen.height)
    (agree : ∀ lane, cell lane = (x, y) → pixel lane = wanted)
    (reached : screen.lit x y = wanted ∨ ∃ lane ∈ order, cell lane = (x, y)) :
    (screen.scatter order cell pixel).lit x y = wanted := by
  have lit (rows : Vector (Vector Bool screen.width) screen.height) :
      ({ screen with rows := rows } : Framebuffer).lit x y = rows[y][x] := by
    simp [Framebuffer.lit, inside]
  have written (lane : Lane) (here : cell lane = (x, y))
      (rows : Vector (Vector Bool screen.width) screen.height) :
      (setCell rows (cell lane) (pixel lane))[y][x] = wanted := by
    rw [getElem_setCell rows _ _ inside.1 inside.2, if_pos here, agree lane here]
  rw [scatter, lit]
  apply foldl_eq_of_agree fun rows : Vector (Vector Bool screen.width) screen.height => rows[y][x]
  · intro lane rows
    by_cases here : cell lane = (x, y)
    · exact .inl (written lane here rows)
    · exact .inr (by rw [getElem_setCell rows _ _ inside.1 inside.2, if_neg here])
  · rw [← lit]
    rcases reached with done | ⟨lane, member, here⟩
    · exact .inl done
    · exact .inr ⟨lane, member, written lane here⟩

end Framebuffer

theorem Memory.eq_of_read {a b : Memory} (same : ∀ address, a.read address = b.read address) :
    a = b := by
  apply Vector.ext
  intro i inside
  have byte := same i
  simpa [read, Nat.mod_eq_of_lt inside] using byte

namespace Machine

abbrev SpriteLane := Fin 8 × Fin 15

def visible (m : Machine) (w : Word) (lane : SpriteLane) : Bool :=
  decide (lane.2.val < w.n.val ∧ m.cornerX w + lane.1.val < m.screen.width ∧
    m.cornerY w + lane.2.val < m.screen.height)

/-- The cell that a lane reads and writes. Hidden lanes share one outside the screen. -/
def cell (m : Machine) (w : Word) (lane : SpriteLane) : Nat × Nat :=
  if m.visible w lane then (m.cornerX w + lane.1.val, m.cornerY w + lane.2.val)
  else (m.screen.width, m.screen.height)

def current (m : Machine) (w : Word) (lane : SpriteLane) : Bool :=
  m.screen.lit (m.cell w lane).1 (m.cell w lane).2

def spriteBit (m : Machine) (w : Word) (lane : SpriteLane) : Bool :=
  let byte := m.memory.read ((m.index.toNat + lane.2.val) % 4096)
  decide ((byte.toNat >>> (7 - lane.1.val)) &&& 1 = 1) && m.visible w lane

/-- A word DXYN by lanes, which write in the given order. -/
def drawnByLanes (m : Machine) (w : Word) (order : List SpriteLane) : Machine :=
  let collision := order.any fun lane => m.current w lane && m.spriteBit w lane
  { m.setV 15 (if collision then 1 else 0) with
    screen := m.screen.scatter order (m.cell w) fun lane => m.current w lane ^^ m.spriteBit w lane }

variable {m : Machine} {w : Word} {lane : SpriteLane} {x y : Nat}

theorem visible_of_cell (inside : x < m.screen.width ∧ y < m.screen.height)
    (here : m.cell w lane = (x, y)) :
    m.visible w lane = true ∧ x = m.cornerX w + lane.1.val ∧ y = m.cornerY w + lane.2.val := by
  rw [cell] at here
  split at here
  case isTrue seen =>
    cases here
    exact ⟨seen, rfl, rfl⟩
  case isFalse hidden =>
    -- hidden lanes meet outside the screen
    cases here
    omega

theorem spriteBit_of_cell (inside : x < m.screen.width ∧ y < m.screen.height)
    (here : m.cell w lane = (x, y)) : m.spriteBit w lane = m.covers w x y := by
  obtain ⟨seen, column, row⟩ := visible_of_cell inside here
  have height : lane.2.val < w.n.val := (of_decide_eq_true seen).1
  have reaches : m.cornerX w ≤ x ∧ x < m.cornerX w + 8 ∧
      m.cornerY w ≤ y ∧ y < m.cornerY w + w.n.val := by omega
  have left : x - m.cornerX w = lane.1.val := by omega
  have above : y - m.cornerY w = lane.2.val := by omega
  simp only [spriteBit, covers, seen, inside, reaches, left, above, Bool.and_true, Bool.true_and,
    decide_true, and_self, Nat.testBit_eq_decide_div_mod_eq, Nat.shiftRight_eq_div_pow,
    Nat.and_one_is_mod]

theorem exists_cell_of_covers (covered : m.covers w x y = true) :
    ∃ lane, m.cell w lane = (x, y) := by
  simp only [covers, Bool.and_eq_true, decide_eq_true_eq] at covered
  obtain ⟨⟨width, height⟩, ⟨left, right, above, below⟩, -⟩ := covered
  have short := w.n.isLt
  let lane : SpriteLane :=
    (⟨x - m.cornerX w, by omega⟩, ⟨y - m.cornerY w, by omega⟩)
  have column : m.cornerX w + lane.1.val = x := Nat.add_sub_of_le left
  have row : m.cornerY w + lane.2.val = y := Nat.add_sub_of_le above
  have seen : m.visible w lane = true := by
    rw [visible, column, row, decide_eq_true_eq]
    exact ⟨by change y - m.cornerY w < _; omega, width, height⟩
  exact ⟨lane, by rw [cell, if_pos seen, column, row]⟩

theorem inside_of_covers (covered : m.covers w x y = true) :
    x < m.screen.width ∧ y < m.screen.height := by
  simp only [covers, Bool.and_eq_true, decide_eq_true_eq] at covered
  exact covered.1

theorem any_lane_iff_hits {order : List SpriteLane} (complete : ∀ lane, lane ∈ order) :
    (order.any fun lane => m.current w lane && m.spriteBit w lane) = true ↔ m.Hits w := by
  simp only [List.any_eq_true, Bool.and_eq_true, Hits]
  constructor
  · rintro ⟨lane, -, lit, set⟩
    have seen : m.visible w lane = true := by
      rw [spriteBit, Bool.and_eq_true] at set
      exact set.2
    have inside : (m.cell w lane).1 < m.screen.width ∧ (m.cell w lane).2 < m.screen.height := by
      rw [cell, if_pos seen]
      exact (of_decide_eq_true seen).2
    exact ⟨_, _, (spriteBit_of_cell inside rfl).symm.trans set, lit⟩
  · rintro ⟨x, y, covered, lit⟩
    obtain ⟨lane, here⟩ := exists_cell_of_covers covered
    refine ⟨lane, complete lane, ?_, ?_⟩
    · rwa [current, here]
    · rwa [spriteBit_of_cell (inside_of_covers covered) here]

theorem xor_spriteBit_of_cell (inside : x < m.screen.width ∧ y < m.screen.height)
    (here : m.cell w lane = (x, y)) :
    (m.current w lane ^^ m.spriteBit w lane) = (m.drawn w).screen.lit x y := by
  rw [current, here, spriteBit_of_cell inside here, lit_drawn]

theorem screen_drawnByLanes (m : Machine) (w : Word) {order : List SpriteLane}
    (complete : ∀ lane, lane ∈ order) :
    (m.drawnByLanes w order).screen = (m.drawn w).screen := by
  apply Framebuffer.eq_of_lit
  · rfl
  · rfl
  intro x y
  by_cases inside : x < m.screen.width ∧ y < m.screen.height
  · apply Framebuffer.lit_scatter inside fun lane => xor_spriteBit_of_cell inside
    by_cases covered : m.covers w x y = true
    · obtain ⟨lane, here⟩ := exists_cell_of_covers covered
      exact .inr ⟨lane, complete lane, here⟩
    · left
      rw [lit_drawn, Bool.eq_false_iff.mpr covered, Bool.xor_false]
  · have dark (screen : Framebuffer) (width : screen.width = m.screen.width)
        (height : screen.height = m.screen.height) : screen.lit x y = false :=
      Framebuffer.lit_eq_false_of_outside (by rwa [width, height])
    rw [dark (m.drawnByLanes w order).screen rfl rfl, dark (m.drawn w).screen rfl rfl]

theorem registers_drawnByLanes (m : Machine) (w : Word) {order : List SpriteLane}
    (complete : ∀ lane, lane ∈ order) : (m.drawnByLanes w order).v = (m.drawn w).v := by
  have collision : (order.any fun lane => m.current w lane && m.spriteBit w lane) =
      m.screen.collides (m.sprite w.n.val) (m.cornerX w) (m.cornerY w) := by
    rw [Bool.eq_iff_iff, any_lane_iff_hits complete, collides_iff_hits]
  rw [drawnByLanes, collision]
  rfl

theorem drawnByLanes_eq (m : Machine) (w : Word) {order : List SpriteLane}
    (complete : ∀ lane, lane ∈ order) : m.drawnByLanes w order = m.drawn w := calc
  m.drawnByLanes w order =
    { m with v := (m.drawnByLanes w order).v, screen := (m.drawnByLanes w order).screen } := rfl
  _ = { m with v := (m.drawn w).v, screen := (m.drawn w).screen } := by
    rw [m.registers_drawnByLanes w complete, m.screen_drawnByLanes w complete]
  _ = m.drawn w := rfl

/-- The lanes of a word DXYN may write in any order. -/
theorem execute_draw_by_lanes {w : Word} (draw : w.opcode = 0xD) {order : List SpriteLane}
    (complete : ∀ lane, lane ∈ order) (m : Machine) (strict : Bool) :
    m.execute w strict = .ok (m.drawnByLanes w order) := by
  rw [drawnByLanes_eq m w complete]
  exact execute_draw draw m strict

def columnwise : List SpriteLane :=
  (List.finRange 8).flatMap fun column => (List.finRange 15).map fun row => (column, row)

theorem mem_columnwise (lane : SpriteLane) : lane ∈ columnwise := by
  obtain ⟨column, row⟩ := lane
  simp [columnwise]

example (m : Machine) : m.execute ⟨0xD125⟩ true = .ok (m.drawnByLanes ⟨0xD125⟩ columnwise) :=
  execute_draw_by_lanes (by decide) mem_columnwise m true

def laneAddress (m : Machine) (k : Register) : Nat := (m.index.toNat + k.val) % 4096

/-- Lanes above the last register write what is there already. -/
def laneByte (m : Machine) (last k : Register) : UInt8 :=
  if k ≤ last then m.v.get k else m.memory.read (m.laneAddress k)

def storedByLanes (m : Machine) (last : Register) (order : List Register) : Machine :=
  { m with
    memory := order.foldl
      (fun memory k => memory.write (m.laneAddress k) (m.laneByte last k)) m.memory
    index := m.indexAfterBlock last }

def loadedByLanes (m : Machine) (last : Register) : Machine :=
  let window : Vector UInt8 16 := Vector.ofFn fun k => m.memory.read (m.laneAddress k)
  { m with
    v := Vector.ofFn fun k => if k ≤ last then window.get k else m.v.get k
    index := m.indexAfterBlock last }

theorem read_apply_store_of_forall_ne (m : Machine) (last : Register) {address : Nat}
    (outside : ∀ k ≤ last, m.laneAddress k ≠ address % 4096) :
    (m.apply (.store last)).memory.read address = m.memory.read address := by
  rw [apply_memory]
  apply Memory.read_writeBlock_of_forall_ne
  intro j inside
  rw [length_block] at inside
  exact outside ⟨j, by omega⟩ (Nat.le_of_lt_succ inside)

theorem laneByte_eq_read (m : Machine) (last k : Register) :
    m.laneByte last k = (m.apply (.store last)).memory.read (m.laneAddress k) := by
  rw [laneByte]
  split
  case isTrue inside =>
    rw [laneAddress, Memory.read_mod, read_apply_store m inside]
  case isFalse above =>
    rw [read_apply_store_of_forall_ne]
    intro j inside
    have order : j.val < k.val := Nat.lt_of_le_of_lt inside (Nat.lt_of_not_le above)
    rw [laneAddress, laneAddress]
    omega

theorem memory_storedByLanes (m : Machine) (last : Register) {order : List Register}
    (complete : ∀ k, k ∈ order) :
    (m.storedByLanes last order).memory = (m.apply (.store last)).memory := by
  apply Memory.eq_of_read
  intro address
  have written (k : Register) (here : m.laneAddress k % 4096 = address % 4096) (memory : Memory) :
      (memory.write (m.laneAddress k) (m.laneByte last k)).read address =
        (m.apply (.store last)).memory.read address := by
    rw [Memory.read_write, if_pos here, laneByte_eq_read, Memory.read_congr here]
  apply foldl_eq_of_agree fun memory : Memory => memory.read address
  · intro k memory
    by_cases here : m.laneAddress k % 4096 = address % 4096
    · exact .inl (written k here memory)
    · exact .inr (by rw [Memory.read_write, if_neg here])
  · by_cases met : ∃ k, m.laneAddress k % 4096 = address % 4096
    · obtain ⟨k, here⟩ := met
      exact .inr ⟨k, complete k, written k here⟩
    · left
      rw [read_apply_store_of_forall_ne]
      intro k _ here
      exact met ⟨k, by rw [here, Nat.mod_mod]⟩

theorem storedByLanes_eq (m : Machine) (last : Register) {order : List Register}
    (complete : ∀ k, k ∈ order) : m.storedByLanes last order = m.apply (.store last) := calc
  m.storedByLanes last order =
    { m with
      memory := (m.storedByLanes last order).memory, index := m.indexAfterBlock last } := rfl
  _ = { m with memory := (m.apply (.store last)).memory, index := m.indexAfterBlock last } := by
    rw [m.memory_storedByLanes last complete]
  _ = m.apply (.store last) := rfl

theorem loadedByLanes_eq (m : Machine) (last : Register) :
    m.loadedByLanes last = m.apply (.load last) := by
  have window (k : Register) :
      (Vector.ofFn fun k => m.memory.read (m.laneAddress k)).get k =
        m.memory.read (m.index.toNat + k.val) := by
    change (Vector.ofFn _)[k.val] = _
    rw [Vector.getElem_ofFn]
    exact m.memory.read_mod _
  simp only [apply_load, loadedByLanes, window]

theorem execute_store_by_lanes {w : Word} (class15 : w.opcode = 0xF) (low : w.nn = 0x55)
    {order : List Register} (complete : ∀ k, k ∈ order) (m : Machine) (strict : Bool) :
    m.execute w strict = .ok (m.storedByLanes w.x order) := by
  rw [storedByLanes_eq m w.x complete]
  exact execute_of_unchecked (Instruction.Reads.store class15 low).ofWord? rfl

theorem execute_load_by_lanes {w : Word} (class15 : w.opcode = 0xF) (low : w.nn = 0x65)
    (m : Machine) (strict : Bool) : m.execute w strict = .ok (m.loadedByLanes w.x) := by
  rw [loadedByLanes_eq]
  exact execute_of_unchecked (Instruction.Reads.load class15 low).ofWord? rfl

end Machine

end Chip8
