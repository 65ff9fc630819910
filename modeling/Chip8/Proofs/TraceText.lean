import Chip8.Disassembly
import Chip8.Numeral
import Mathlib.Algebra.Group.Nat.Defs
import Mathlib.Data.List.Nodup

/-!
Trace lines read back. The figures of a text are its decimal digits and its capital letters up to F,
and what is left is its wording. Operands only add figures, so the wording tells the form of an
instruction, and no two forms are worded alike; the figures then tell the operands. The one thing
that a text does not show is the register that a shift may take its value from.
-/

namespace Chip8

namespace Hex

def places : Nat → Nat → List Nat
  | 0, _ => []
  | k + 1, n => places k (n / 16) ++ [n % 16]

variable {k n : Nat}

theorem places_zero (k : Nat) : places k 0 = List.replicate k 0 := by
  induction k with
  | zero => rfl
  | succ k ih => rw [places, ih, List.replicate_succ']

theorem lt_of_mem_places {d : Nat} (h : d ∈ places k n) : d < 16 := by
  induction k generalizing n with
  | zero => simp [places] at h
  | succ k ih =>
    rw [places, List.mem_append, List.mem_singleton] at h
    rcases h with early | rfl
    · exact ih early
    · exact Nat.mod_lt n (by decide)

theorem div_lt_pow_of_lt (room : n < 16 ^ (k + 1)) : n / 16 < 16 ^ k := by
  rw [Nat.pow_succ] at room
  omega

theorem value_places (room : n < 16 ^ k) : Numeral.value 16 (places k n) = n := by
  induction k generalizing n with
  | zero =>
    rw [Nat.pow_zero, Nat.lt_one_iff] at room
    rw [room]
    rfl
  | succ k ih =>
    have earlier := ih (div_lt_pow_of_lt room)
    rw [Numeral.value] at earlier ⊢
    rw [places, List.foldl_append, earlier]
    exact Nat.div_add_mod' n 16

theorem zeros_digits (pos : 0 < k) (room : n < 16 ^ k) :
    List.replicate (k - (digits n).length) '0' ++ digits n = (places k n).map digit := by
  induction k generalizing n with
  | zero => simp at pos
  | succ k ih =>
    rw [places, digits]
    by_cases single : n < 16
    · rw [if_pos single, Nat.div_eq_of_lt single, Nat.mod_eq_of_lt single, places_zero]
      simp [digit]
    · have more : 0 < k := by
        rcases Nat.eq_zero_or_pos k with rfl | more
        · omega
        · exact more
      rw [if_neg single, List.map_append, ← ih more (div_lt_pow_of_lt room)]
      simp

theorem toList_padded (pos : 0 < k) (room : n < 16 ^ k) :
    (padded k n).toList = (places k n).map digit := by
  rw [← zeros_digits pos room, padded, if_neg (by omega), Int.natAbs_natCast, String.toList_ofList]

end Hex

namespace Text

def figure? (c : Char) : Option Nat := if c.isLower then none else Hex.value? c

def figures (text : String) : List Nat := text.toList.filterMap figure?

def wording (text : String) : List Char := text.toList.filter fun c => (figure? c).isNone

variable {k n : Nat}

theorem figures_append (a b : String) : figures (a ++ b) = figures a ++ figures b := by
  simp [figures]

theorem wording_append (a b : String) : wording (a ++ b) = wording a ++ wording b := by
  simp [wording]

theorem figure?_digit {d : Nat} (h : d < 16) : figure? (Hex.digit d) = some d := by
  revert d
  decide

theorem filterMap_figure?_digits {ds : List Nat} (small : ∀ d ∈ ds, d < 16) :
    (ds.map Hex.digit).filterMap figure? = ds := by
  induction ds with
  | nil => rfl
  | cons d ds ih =>
    obtain ⟨first, rest⟩ := List.forall_mem_cons.mp small
    rw [List.map_cons, List.filterMap_cons_some (figure?_digit first), ih rest]

theorem figures_padded (pos : 0 < k) (room : n < 16 ^ k) :
    figures (Hex.padded k n) = Hex.places k n := by
  rw [figures, Hex.toList_padded pos room]
  exact filterMap_figure?_digits fun d h => Hex.lt_of_mem_places h

theorem wording_padded (pos : 0 < k) (room : n < 16 ^ k) : wording (Hex.padded k n) = [] := by
  rw [wording, Hex.toList_padded pos room, List.filter_eq_nil_iff]
  intro c h
  obtain ⟨d, place, rfl⟩ := List.mem_map.mp h
  simp [figure?_digit (Hex.lt_of_mem_places place)]

theorem figures_reg (x : Register) : figures (reg x) = [x.val] := by
  rw [reg, figures_append, figures_padded (by decide) x.isLt, Hex.places, Hex.places,
    Nat.mod_eq_of_lt x.isLt]
  rfl

theorem figures_byteText (b : UInt8) : figures (byteText b) = 0 :: Hex.places 2 b.toNat := by
  rw [byteText, figures_append, figures_padded (by decide) b.toNat_lt]
  rfl

theorem figures_addressText (a : Address) :
    figures (addressText a) = 0 :: Hex.places 3 a.val := by
  rw [addressText, figures_append, figures_padded (by decide) a.isLt]
  rfl

theorem figures_height (h : Fin 16) :
    figures (toString h.val) = if h.val < 10 then [h.val] else [1, h.val - 10] := by
  revert h
  decide +kernel

theorem wording_reg (x : Register) : wording (reg x) = ['V'] := by
  rw [reg, wording_append, wording_padded (by decide) x.isLt]
  rfl

theorem wording_byteText (b : UInt8) : wording (byteText b) = ['x'] := by
  rw [byteText, wording_append, wording_padded (by decide) b.toNat_lt]
  rfl

theorem wording_addressText (a : Address) : wording (addressText a) = ['x'] := by
  rw [addressText, wording_append, wording_padded (by decide) a.isLt]
  rfl

theorem wording_height (h : Fin 16) : wording (toString h.val) = [] := by
  revert h
  decide +kernel

end Text

open Text

def Condition.form : Condition → Condition
  | is .. => is 0 0
  | isNot .. => isNot 0 0
  | same .. => same 0 0
  | differ .. => differ 0 0
  | keyDown _ => keyDown 0
  | keyUp _ => keyUp 0

theorem Condition.wording_describe (c : Condition) :
    wording c.describe = wording c.form.describe := by
  cases c <;> simp only [describe, form, wording_append, wording_reg, wording_byteText]

theorem Alu.wording_describe (op : Alu) (x y : Register) :
    wording (op.describe x y) = wording (op.describe 0 0) := by
  cases op <;> simp only [describe, wording_append, wording_reg]

namespace Instruction

def form : Instruction → Instruction
  | clearScreen => clearScreen
  | ret => ret
  | jump _ => jump 0
  | call _ => call 0
  | skip condition => skip condition.form
  | set .. => set 0 0
  | addConstant .. => addConstant 0 0
  | alu op .. => alu op 0 0
  | setIndex _ => setIndex 0
  | jumpOffset _ => jumpOffset 0
  | random .. => random 0 0
  | draw .. => draw 0 0 0
  | readDelay _ => readDelay 0
  | waitKey _ => waitKey 0
  | setDelay _ => setDelay 0
  | setSound _ => setSound 0
  | addIndex _ => addIndex 0
  | glyph _ => glyph 0
  | decimal _ => decimal 0
  | store _ => store 0
  | load _ => load 0

def forms : List Instruction :=
  [clearScreen, ret, jump 0, call 0, skip (.is 0 0), skip (.isNot 0 0), skip (.same 0 0),
    skip (.differ 0 0), skip (.keyDown 0), skip (.keyUp 0), set 0 0, addConstant 0 0,
    alu .copy 0 0, alu .or 0 0, alu .and 0 0, alu .xor 0 0, alu .add 0 0, alu .sub 0 0,
    alu .shiftRight 0 0, alu .subFrom 0 0, alu .shiftLeft 0 0, setIndex 0, jumpOffset 0,
    random 0 0, draw 0 0 0, readDelay 0, waitKey 0, setDelay 0, setSound 0, addIndex 0, glyph 0,
    decimal 0, store 0, load 0]

def nibble (place : Nat) : Fin 16 := Fin.ofNat 16 place

def byte (places : List Nat) : UInt8 := UInt8.ofNat (Numeral.value 16 places)

def address (places : List Nat) : Address := Fin.ofNat 4096 (Numeral.value 16 places)

/-- The instruction of a form whose text has these figures. The figures that are passed over belong
to words, to the mark `0x`, to VF, or to the register that a block begins at. -/
def fill : Instruction → List Nat → Instruction
  | jump _, _ :: a => jump (address a)
  | call _, _ :: _ :: a => call (address a)
  | skip (.is ..), x :: _ :: v => skip (.is (nibble x) (byte v))
  | skip (.isNot ..), x :: _ :: v => skip (.isNot (nibble x) (byte v))
  | skip (.same ..), [x, y] => skip (.same (nibble x) (nibble y))
  | skip (.differ ..), [x, y] => skip (.differ (nibble x) (nibble y))
  | skip (.keyDown _), [x] => skip (.keyDown (nibble x))
  | skip (.keyUp _), [x] => skip (.keyUp (nibble x))
  | set .., x :: _ :: v => set (nibble x) (byte v)
  | addConstant .., x :: _ :: v => addConstant (nibble x) (byte v)
  | alu .shiftRight .., x :: _ => alu .shiftRight (nibble x) (nibble x)
  | alu .shiftLeft .., x :: _ => alu .shiftLeft (nibble x) (nibble x)
  | alu op .., x :: y :: _ => alu op (nibble x) (nibble y)
  | setIndex _, _ :: a => setIndex (address a)
  | jumpOffset _, _ :: a => jumpOffset (address a)
  | random .., x :: _ :: v => random (nibble x) (byte v)
  | draw .., [_, h, x, y, _] => draw (nibble x) (nibble y) (nibble h)
  | draw .., [_, t, h, x, y, _] => draw (nibble x) (nibble y) (nibble (10 * t + h))
  | readDelay _, [x] => readDelay (nibble x)
  | waitKey _, [x] => waitKey (nibble x)
  | setDelay _, [_, x] => setDelay (nibble x)
  | setSound _, [x] => setSound (nibble x)
  | addIndex _, [x] => addIndex (nibble x)
  | glyph _, [x] => glyph (nibble x)
  | decimal _, [_, _, _, x] => decimal (nibble x)
  | store _, [_, x] => store (nibble x)
  | load _, [_, x] => load (nibble x)
  | i, _ => i

def ofText? (text : String) : Option Instruction :=
  (forms.find? fun i => wording i.describe = wording text).map fun i => i.fill (figures text)

/-- As much of an instruction as its text shows: of a shift only the register it writes. -/
def shown : Instruction → Instruction
  | alu .shiftRight x _ => alu .shiftRight x x
  | alu .shiftLeft x _ => alu .shiftLeft x x
  | i => i

-- The equations of `describe` one by one are slow to come by; the one with the match is not.
theorem wording_describe (i : Instruction) : wording i.describe = wording i.form.describe := by
  cases i with
  | skip c => simp only [describe.eq_def, form, wording_append, c.wording_describe]
  | alu op x y => exact op.wording_describe x y
  | _ =>
    simp only [describe.eq_def, form, wording_append, wording_height, wording_reg,
      wording_byteText, wording_addressText]

theorem form_mem_forms (i : Instruction) : i.form ∈ forms := by
  cases i with
  | skip c => cases c <;> simp [form, Condition.form, forms]
  | alu op x y => cases op <;> simp [form, forms]
  | _ => simp [form, forms]

theorem nodup_wordings :
    (wording "Unimplemented opcode" :: forms.map fun i => wording i.describe).Nodup := by
  decide +kernel

theorem eq_form_of_wording {f i : Instruction} (mem : f ∈ forms)
    (same : wording f.describe = wording i.describe) : f = i.form := by
  have distinct := (List.nodup_cons.mp nodup_wordings).2
  apply List.inj_on_of_nodup_map distinct mem i.form_mem_forms
  exact same.trans i.wording_describe

theorem find_form (i : Instruction) :
    forms.find? (fun f => wording f.describe = wording i.describe) = some i.form := by
  cases found : forms.find? fun f => wording f.describe = wording i.describe with
  | none =>
    rw [List.find?_eq_none] at found
    have differs := found i.form i.form_mem_forms
    simp [← i.wording_describe] at differs
  | some f =>
    have same : wording f.describe = wording i.describe := by simpa using List.find?_some found
    rw [eq_form_of_wording (List.mem_of_find?_eq_some found) same]

theorem nibble_val (x : Fin 16) : nibble x.val = x := by
  simp [nibble]

theorem byte_places (b : UInt8) : byte (Hex.places 2 b.toNat) = b := by
  rw [byte, Hex.value_places b.toNat_lt, UInt8.ofNat_toNat]

theorem address_places (a : Address) : address (Hex.places 3 a.val) = a := by
  rw [address, Hex.value_places a.isLt]
  simp

theorem fill_skip (c : Condition) :
    (skip c.form).fill (figures ("Skip next if " ++ c.describe)) = skip c := by
  cases c <;>
    simp only [Condition.describe, figures_append, figures_reg, figures_byteText]
  case is x v => exact congrArg₂ (skip <| .is · ·) (nibble_val x) (byte_places v)
  case isNot x v => exact congrArg₂ (skip <| .isNot · ·) (nibble_val x) (byte_places v)
  case same x y => exact congrArg₂ (skip <| .same · ·) (nibble_val x) (nibble_val y)
  case differ x y => exact congrArg₂ (skip <| .differ · ·) (nibble_val x) (nibble_val y)
  case keyDown x => exact congrArg (skip <| .keyDown ·) (nibble_val x)
  case keyUp x => exact congrArg (skip <| .keyUp ·) (nibble_val x)

theorem fill_alu (op : Alu) (x y : Register) :
    (alu op 0 0).fill (figures (op.describe x y)) = (alu op x y).shown := by
  cases op <;> simp only [Alu.describe, figures_append, figures_reg]
  case shiftRight => exact congrArg₂ (alu .shiftRight) (nibble_val x) (nibble_val x)
  case shiftLeft => exact congrArg₂ (alu .shiftLeft) (nibble_val x) (nibble_val x)
  all_goals exact congrArg₂ (alu _) (nibble_val x) (nibble_val y)

theorem fill_draw (x y : Register) (height : Fin 16) :
    (draw 0 0 0).fill (figures (draw x y height).describe) = draw x y height := by
  simp only [describe.eq_def, figures_append, figures_height, figures_reg]
  by_cases single : height.val < 10
  · rw [if_pos single]
    change draw (nibble x.val) (nibble y.val) (nibble height.val) = draw x y height
    simp only [nibble_val]
  · have sum : 10 * 1 + (height.val - 10) = height.val := by omega
    rw [if_neg single]
    change draw (nibble x.val) (nibble y.val) (nibble (10 * 1 + (height.val - 10))) =
      draw x y height
    simp only [sum, nibble_val]

theorem fill_figures (i : Instruction) : i.form.fill (figures i.describe) = i.shown := by
  cases i
  case skip c => exact fill_skip c
  case alu op x y => exact fill_alu op x y
  case draw x y height => exact fill_draw x y height
  all_goals
    simp only [describe.eq_def, form, figures_append, figures_reg, figures_byteText,
      figures_addressText]
  case clearScreen | ret => rfl
  case jump t => exact congrArg jump (address_places t)
  case call t => exact congrArg call (address_places t)
  case setIndex t => exact congrArg setIndex (address_places t)
  case jumpOffset b => exact congrArg jumpOffset (address_places b)
  case set x v => exact congrArg₂ set (nibble_val x) (byte_places v)
  case addConstant x v => exact congrArg₂ addConstant (nibble_val x) (byte_places v)
  case random x v => exact congrArg₂ random (nibble_val x) (byte_places v)
  case readDelay x => exact congrArg readDelay (nibble_val x)
  case waitKey x => exact congrArg waitKey (nibble_val x)
  case setDelay x => exact congrArg setDelay (nibble_val x)
  case setSound x => exact congrArg setSound (nibble_val x)
  case addIndex x => exact congrArg addIndex (nibble_val x)
  case glyph x => exact congrArg glyph (nibble_val x)
  case decimal x => exact congrArg decimal (nibble_val x)
  case store x => exact congrArg store (nibble_val x)
  case load x => exact congrArg load (nibble_val x)

/-- A text tells its instruction, but for the register that a shift may take its value from. -/
theorem ofText?_describe (i : Instruction) : ofText? i.describe = some i.shown := by
  rw [ofText?, find_form, Option.map_some, fill_figures]

theorem shown_eq_of_describe {i j : Instruction} (same : i.describe = j.describe) :
    i.shown = j.shown := by
  have read := i.ofText?_describe
  rw [same, j.ofText?_describe] at read
  exact (Option.some.inj read).symm

theorem describe_ne_unimplemented (i : Instruction) : i.describe ≠ "Unimplemented opcode" := by
  intro same
  apply (List.nodup_cons.mp nodup_wordings).1
  rw [← same, i.wording_describe]
  exact List.mem_map_of_mem i.form_mem_forms

end Instruction

end Chip8
