import Chip8.Proofs.InstructionTable

/-!
Drawing told pixel by pixel. A word DXYN flips the pixels of the screen that its sprite covers and
tells in VF whether one of them was lit; nothing else changes. Which pixels are covered depends on
VF only if X or Y is F. So a list of other words covers the same pixels whatever was drawn before,
and a pixel of the last screen is told by how many of the words cover it.
-/

namespace Chip8

theorem Memory.getElem?_readBlock (memory : Memory) (start count k : Nat) :
    (memory.readBlock start count)[k]? =
      if k < count then some (memory.read (start + k)) else none := by
  by_cases inside : k < count <;> simp [readBlock, inside]

namespace Word

/-- A word DXYN whose X and Y are not F, so that no draw moves its corner. -/
def SteadyDraw (w : Word) : Prop := w.opcode = 0xD ∧ w.x ≠ 15 ∧ w.y ≠ 15

instance : DecidablePred SteadyDraw :=
  fun w => inferInstanceAs (Decidable (w.opcode = 0xD ∧ w.x ≠ 15 ∧ w.y ≠ 15))

end Word

namespace Machine

def cornerX (m : Machine) (w : Word) : Nat := (m.v.get w.x).toNat % m.screen.width

def cornerY (m : Machine) (w : Word) : Nat := (m.v.get w.y).toNat % m.screen.height

/-- Whether a word DXYN flips a pixel: the pixel is on the screen and within eight columns and N
rows of the corner, and its bit is set in the byte for the row. The bytes lie from the index on,
around the end of memory, and their most significant bit is leftmost. -/
def covers (m : Machine) (w : Word) (x y : Nat) : Bool :=
  decide (x < m.screen.width ∧ y < m.screen.height) &&
    (decide (m.cornerX w ≤ x ∧ x < m.cornerX w + 8 ∧
        m.cornerY w ≤ y ∧ y < m.cornerY w + w.n.val) &&
      (m.memory.read ((m.index.toNat + (y - m.cornerY w)) % 4096)).toNat.testBit
        (7 - (x - m.cornerX w)))

/-- A word DXYN turns a pixel off. -/
def Hits (m : Machine) (w : Word) : Prop :=
  ∃ x y, m.covers w x y = true ∧ m.screen.lit x y = true

def drawn (m : Machine) (w : Word) : Machine := m.apply (.draw w.x w.y w.n)

def drawnAll (m : Machine) (words : List Word) : Machine := words.foldl drawn m

def executeAll (m : Machine) (strict : Bool) (words : List Word) : Except Fault Machine :=
  words.foldlM (fun now w => now.execute w strict) m

/-- Nothing but VF and the pixels of the screen is different. -/
structure Redrawn (m next : Machine) : Prop where
  registers : ∀ k, k ≠ 15 → next.v.get k = m.v.get k
  width : next.screen.width = m.screen.width
  height : next.screen.height = m.screen.height
  others : next = { m with v := next.v, screen := next.screen }

theorem lit_sprite (m : Machine) (height c r : Nat) :
    (m.sprite height).lit c r = (decide (c < 8 ∧ r < height) &&
      (m.memory.read (m.index.toNat + r)).toNat.testBit (7 - c)) := by
  rw [sprite, Sprite.lit, Memory.getElem?_readBlock]
  by_cases inside : r < height <;> simp [inside]

theorem length_sprite (m : Machine) (height : Nat) : (m.sprite height).length = height := by
  simp [sprite, Memory.readBlock]

theorem covers_eq_sprite (m : Machine) (w : Word) (x y : Nat) :
    m.covers w x y = (decide (x < m.screen.width ∧ y < m.screen.height) &&
      (decide (m.cornerX w ≤ x ∧ m.cornerY w ≤ y) &&
        (m.sprite w.n.val).lit (x - m.cornerX w) (y - m.cornerY w))) := by
  rw [covers, lit_sprite, Memory.read_mod, ← Bool.and_assoc (decide (m.cornerX w ≤ x ∧ _)),
    ← Bool.decide_and]
  congr 3
  apply propext
  omega

theorem lit_drawn (m : Machine) (w : Word) (x y : Nat) :
    (m.drawn w).screen.lit x y = (m.screen.lit x y ^^ m.covers w x y) := by
  rw [covers_eq_sprite]
  exact Framebuffer.lit_draw ..

theorem collides_iff_hits (m : Machine) (w : Word) :
    m.screen.collides (m.sprite w.n.val) (m.cornerX w) (m.cornerY w) = true ↔ m.Hits w := by
  simp only [Framebuffer.collides, List.any_eq_true, List.mem_range, length_sprite,
    Bool.and_eq_true]
  constructor
  · rintro ⟨r, row, c, column, set, lit⟩
    refine ⟨_, _, ?_, lit⟩
    have inside : m.cornerX w + c < m.screen.width ∧ m.cornerY w + r < m.screen.height := by
      apply Decidable.byContradiction
      intro outside
      rw [Framebuffer.lit_eq_false_of_outside outside] at lit
      cases lit
    rw [covers_eq_sprite]
    simp [inside, set]
  · rintro ⟨x, y, covered, lit⟩
    rw [covers_eq_sprite] at covered
    simp only [Bool.and_eq_true, decide_eq_true_eq] at covered
    obtain ⟨-, ⟨right, below⟩, set⟩ := covered
    have cell := set
    rw [lit_sprite, Bool.and_eq_true, decide_eq_true_eq] at cell
    refine ⟨_, cell.1.2, _, cell.1.1, set, ?_⟩
    rwa [Nat.add_sub_of_le right, Nat.add_sub_of_le below]

theorem drawn_flag (m : Machine) (w : Word) :
    (m.drawn w).v.get 15 =
      if m.screen.collides (m.sprite w.n.val) (m.cornerX w) (m.cornerY w) then 1 else 0 :=
  (get_set _ 15 15 _).trans (if_pos rfl)

theorem drawn_flag_eq_one_iff (m : Machine) (w : Word) :
    (m.drawn w).v.get 15 = 1 ↔ m.Hits w := by
  rw [drawn_flag, ← collides_iff_hits]
  split <;> simp [*]

theorem drawn_flag_of_not_hits {w : Word} (m : Machine) (clean : ¬m.Hits w) :
    (m.drawn w).v.get 15 = 0 := by
  rw [← collides_iff_hits] at clean
  rw [drawn_flag, if_neg clean]

theorem redrawn_drawn (m : Machine) (w : Word) : m.Redrawn (m.drawn w) where
  registers k other := (get_set _ 15 k _).trans (if_neg other.symm)
  width := rfl
  height := rfl
  others := rfl

theorem execute_draw {w : Word} (draw : w.opcode = 0xD) (m : Machine) (strict : Bool) :
    m.execute w strict = .ok (m.drawn w) :=
  execute_of_unchecked (Instruction.Reads.draw draw).ofWord? rfl

/-- Every word DXYN is carried out. It flips the pixels that it covers, VF tells whether one of
them was lit, and all else stays. -/
theorem draw_pixel_by_pixel (m : Machine) {w : Word} (draw : w.opcode = 0xD) (strict : Bool) :
    ∃ next, m.execute w strict = .ok next ∧
      (∀ x y, next.screen.lit x y = (m.screen.lit x y ^^ m.covers w x y)) ∧
      (m.Hits w → next.v.get 15 = 1) ∧ (¬m.Hits w → next.v.get 15 = 0) ∧
      m.Redrawn next :=
  ⟨_, execute_draw draw m strict, m.lit_drawn w, (m.drawn_flag_eq_one_iff w).mpr,
    m.drawn_flag_of_not_hits, m.redrawn_drawn w⟩

/-- The screen is narrower than a sprite, the corner is taken from VF and wraps, and the second
row of the sprite lies beyond the end of memory, in the font. -/
theorem draw_pixel_by_pixel_around_the_edges :
    let m := { (create ⟨0, 0⟩ 3 2 .legacy).setV 15 5 with
      memory := Memory.initial.write 0xFFF 0x80
      index := 0xFFF
      screen := (Framebuffer.blank 3 2).light 2 0 }
    (⟨0xDF02⟩ : Word).opcode = 0xD ∧
      ∃ next, m.execute ⟨0xDF02⟩ true = .ok next ∧ next.v.get 15 = 1 ∧
        next.screen.lit 2 0 = false ∧ next.screen.lit 2 1 = true ∧ next.screen.lit 0 1 = false := by
  intro m
  have draw : (⟨0xDF02⟩ : Word).opcode = 0xD := by decide
  obtain ⟨next, done, pixels, hit, -, -⟩ := draw_pixel_by_pixel m draw true
  refine ⟨draw, next, done, hit ⟨2, 0, ?_, ?_⟩, ?_, ?_, ?_⟩
  · decide +kernel
  · decide +kernel
  · rw [pixels]
    decide +kernel
  · rw [pixels]
    decide +kernel
  · rw [pixels]
    decide +kernel

variable {m next : Machine} {words : List Word}

theorem Redrawn.refl (m : Machine) : m.Redrawn m := ⟨fun _ _ => rfl, rfl, rfl, rfl⟩

theorem Redrawn.trans {last : Machine} (first : m.Redrawn next) (second : next.Redrawn last) :
    m.Redrawn last where
  registers k other := (second.registers k other).trans (first.registers k other)
  width := second.width.trans first.width
  height := second.height.trans first.height
  others := by
    rw [second.others, first.others]

theorem Redrawn.covers_eq {w : Word} (h : m.Redrawn next) (x : w.x ≠ 15) (y : w.y ≠ 15) :
    next.covers w = m.covers w := by
  have column : next.cornerX w = m.cornerX w := by
    rw [cornerX, cornerX, h.registers _ x, h.width]
  have row : next.cornerY w = m.cornerY w := by
    rw [cornerY, cornerY, h.registers _ y, h.height]
  have memory : next.memory = m.memory := by rw [h.others]
  have index : next.index = m.index := by rw [h.others]
  funext px py
  rw [covers, covers, column, row, memory, index, h.width, h.height]

theorem redrawn_drawnAll (m : Machine) (words : List Word) : m.Redrawn (m.drawnAll words) := by
  induction words generalizing m with
  | nil => exact .refl m
  | cons w rest ih => exact (m.redrawn_drawn w).trans (ih (m.drawn w))

theorem executeAll_draws (draws : ∀ w ∈ words, w.opcode = 0xD) (m : Machine) (strict : Bool) :
    m.executeAll strict words = .ok (m.drawnAll words) := by
  induction words generalizing m with
  | nil => rfl
  | cons w rest ih =>
    obtain ⟨draw, others⟩ := List.forall_mem_cons.mp draws
    rw [executeAll, List.foldlM_cons, execute_draw draw]
    exact ih others (m.drawn w)

theorem odd_countP_cons (covered : Word → Bool) (w : Word) (rest : List Word) :
    decide ((w :: rest).countP covered % 2 = 1) =
      (covered w ^^ decide (rest.countP covered % 2 = 1)) := by
  rw [List.countP_cons]
  cases covered w with
  | false => simp
  | true =>
    rcases Nat.mod_two_eq_zero_or_one (rest.countP covered) with even | odd
    · simp [Nat.add_mod, even]
    · simp [Nat.add_mod, odd]

theorem lit_drawnAll (m : Machine) (steady : ∀ w ∈ words, w.SteadyDraw) (x y : Nat) :
    (m.drawnAll words).screen.lit x y =
      (m.screen.lit x y ^^ decide (words.countP (m.covers · x y) % 2 = 1)) := by
  induction words generalizing m with
  | nil => simp [drawnAll]
  | cons w rest ih =>
    obtain ⟨-, others⟩ := List.forall_mem_cons.mp steady
    have covered : rest.countP ((m.drawn w).covers · x y) = rest.countP (m.covers · x y) := by
      apply List.countP_congr
      intro v member
      obtain ⟨-, px, py⟩ := others v member
      rw [(m.redrawn_drawn w).covers_eq px py]
    change ((m.drawn w).drawnAll rest).screen.lit x y = _
    rw [ih (m.drawn w) others, covered, lit_drawn, odd_countP_cons, Bool.xor_assoc]

theorem screen_drawnAll_perm {other : List Word} (m : Machine)
    (steady : ∀ w ∈ words, w.SteadyDraw) (order : other.Perm words) :
    (m.drawnAll other).screen = (m.drawnAll words).screen := by
  have steady' : ∀ w ∈ other, w.SteadyDraw := fun w member => steady w (order.mem_iff.mp member)
  have redrawn := m.redrawn_drawnAll words
  have redrawn' := m.redrawn_drawnAll other
  apply Framebuffer.eq_of_lit
  · rw [redrawn'.width, redrawn.width]
  · rw [redrawn'.height, redrawn.height]
  · intro x y
    rw [lit_drawnAll m steady', lit_drawnAll m steady, order.countP_eq]

theorem screen_drawnAll_twice (m : Machine) (steady : ∀ w ∈ words, w.SteadyDraw) :
    (m.drawnAll (words ++ words)).screen = m.screen := by
  have steady' : ∀ w ∈ words ++ words, w.SteadyDraw := by
    intro w member
    exact steady w ((List.mem_append.mp member).elim id id)
  have redrawn := m.redrawn_drawnAll (words ++ words)
  apply Framebuffer.eq_of_lit redrawn.width redrawn.height
  intro x y
  have even (k : Nat) : (k + k) % 2 ≠ 1 := by omega
  rw [lit_drawnAll m steady', List.countP_append, decide_eq_false (even _), Bool.xor_false]

theorem hits_drawn_iff {w : Word} (m : Machine) (x : w.x ≠ 15) (y : w.y ≠ 15) :
    (m.drawn w).Hits w ↔ ∃ px py, m.covers w px py = true ∧ m.screen.lit px py = false := by
  simp only [Hits, (m.redrawn_drawn w).covers_eq x y, lit_drawn]
  constructor
  · rintro ⟨px, py, covered, lit⟩
    exact ⟨px, py, covered, by simpa [covered] using lit⟩
  · rintro ⟨px, py, covered, dark⟩
    exact ⟨px, py, covered, by simp [covered, dark]⟩

/-- Words DXYN whose X and Y are not F are carried out one after another. Each pixel is flipped as
often as there are words that cover it, so their order does not matter, and the list drawn twice
gives the first screen back. After one word drawn twice VF tells whether it had found a pixel
unlit. -/
theorem draws_in_any_order (m : Machine) (steady : ∀ w ∈ words, w.SteadyDraw) (strict : Bool) :
    ∃ next, m.executeAll strict words = .ok next ∧ m.Redrawn next ∧
      (∀ x y, next.screen.lit x y =
        (m.screen.lit x y ^^ decide (words.countP (m.covers · x y) % 2 = 1))) ∧
      (∀ other, other.Perm words →
        ∃ last, m.executeAll strict other = .ok last ∧ last.screen = next.screen) ∧
      (∃ last, m.executeAll strict (words ++ words) = .ok last ∧ m.Redrawn last ∧
        last.screen = m.screen) ∧
      ∀ w ∈ words, ∃ last, m.executeAll strict [w, w] = .ok last ∧
        (last.v.get 15 = 1 ↔ ∃ x y, m.covers w x y = true ∧ m.screen.lit x y = false) := by
  have draws : ∀ w ∈ words, w.opcode = 0xD := fun w member => (steady w member).1
  refine ⟨_, executeAll_draws draws m strict, m.redrawn_drawnAll words, lit_drawnAll m steady,
    ?_, ?_, ?_⟩
  · intro other order
    have draws' : ∀ w ∈ other, w.opcode = 0xD :=
      fun w member => draws w (order.mem_iff.mp member)
    exact ⟨_, executeAll_draws draws' m strict, screen_drawnAll_perm m steady order⟩
  · have draws' : ∀ w ∈ words ++ words, w.opcode = 0xD :=
      fun w member => draws w ((List.mem_append.mp member).elim id id)
    exact ⟨_, executeAll_draws draws' m strict, m.redrawn_drawnAll _,
      screen_drawnAll_twice m steady⟩
  · intro w member
    obtain ⟨draw, x, y⟩ := steady w member
    have draws' : ∀ v ∈ [w, w], v.opcode = 0xD := by simp [draw]
    refine ⟨_, executeAll_draws draws' m strict, ?_⟩
    rw [← hits_drawn_iff m x y]
    exact (m.drawn w).drawn_flag_eq_one_iff w

/-- Two sprites overlap in one lit pixel, which ends up dark in both orders; the second is clipped
at two edges. -/
theorem draws_in_any_order_overlapping :
    let m := (create ⟨0, 0⟩ 4 3 .modern).setV 1 1
    let words : List Word := [⟨0xD002⟩, ⟨0xD113⟩]
    (∀ w ∈ words, w.SteadyDraw) ∧
      ∃ next, m.executeAll true words = .ok next ∧
        next.screen.lit 2 1 = true ∧ next.screen.lit 3 1 = false ∧
        (∃ last, m.executeAll true words.reverse = .ok last ∧ last.screen = next.screen) ∧
        ∃ last, m.executeAll true [⟨0xD113⟩, ⟨0xD113⟩] = .ok last ∧ last.v.get 15 = 1 := by
  intro m words
  have steady : ∀ w ∈ words, w.SteadyDraw := by decide
  obtain ⟨next, done, -, pixels, order, -, twice⟩ := draws_in_any_order m steady true
  obtain ⟨last, redone, flag⟩ := twice ⟨0xD113⟩ (by decide)
  refine ⟨steady, next, done, ?_, ?_, order _ words.reverse_perm, last, redone, ?_⟩
  · rw [pixels]
    decide +kernel
  · rw [pixels]
    decide +kernel
  · exact flag.mpr ⟨1, 1, by decide +kernel, by decide +kernel⟩

end Machine

end Chip8
