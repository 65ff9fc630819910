import Chip8.Color
import Chip8.Proofs.NumeralForms
import Mathlib.Data.List.Basic

/-!
Which texts are colours. A colour is meant to be six or eight hexadecimal digits behind a hash or
none, and all of these are read as they should be. But the first six characters are read as any
whole number in base sixteen, and the last two of eight not at all, so that more texts are taken
for colours.
-/

namespace Chip8.Color

variable {text : String} {color : Color} {cs : List Char} {values : List Nat}

def pair (values : List Nat) (k : Nat) : UInt8 :=
  UInt8.ofNat (16 * values.getD k 0 + values.getD (k + 1) 0)

/-- The text is of the form `#RRGGBB` or `#RRGGBBAA`, the hash left out or not, and the colour is
that of its first three pairs. -/
def Documented (text : String) (color : Color) : Prop :=
  ∃ values : List Nat, (digits text).map Hex.value? = values.map some ∧
    (values.length = 6 ∨ values.length = 8) ∧
    color = ⟨pair values 0, pair values 2, pair values 4⟩

/-- There are six or eight characters, of which the first six spell a whole number. -/
def Accepted (text : String) (color : Color) : Prop :=
  ((digits text).length = 6 ∨ (digits text).length = 8) ∧
    ∃ negative ds, Numeral.Spells 16 ((digits text).take 6) negative ds ∧
      color = ofPacked (if negative then -(Numeral.value 16 ds : Int) else Numeral.value 16 ds)

theorem accepted_iff :
    Accepted text color ↔ ((digits text).length = 6 ∨ (digits text).length = 8) ∧
      ∃ n, Numeral.integer? 16 ((digits text).take 6) = some n ∧ color = ofPacked n := by
  constructor
  · rintro ⟨sized, negative, ds, spelled, rfl⟩
    exact ⟨sized, _, Numeral.integer?_eq_some_iff.mpr ⟨negative, ds, spelled, by simp, rfl⟩, rfl⟩
  · rintro ⟨sized, n, number, rfl⟩
    obtain ⟨negative, ds, spelled, -, rfl⟩ := Numeral.integer?_eq_some_iff.mp number
    exact ⟨sized, negative, ds, spelled, rfl⟩

theorem parse_cases (text : String) :
    (∃ color, Accepted text color ∧ parse text = .ok color) ∨
      (¬((digits text).length = 6 ∨ (digits text).length = 8) ∧
        parse text = .error (.wrongLength text)) ∨
      (((digits text).length = 6 ∨ (digits text).length = 8) ∧
        (∀ color, ¬Accepted text color) ∧ parse text = .error (.notHexadecimal text)) := by
  simp only [accepted_iff, parse]
  by_cases sized : (digits text).length = 6 ∨ (digits text).length = 8
  · rw [if_pos sized]
    cases number : Numeral.integer? 16 ((digits text).take 6) with
    | some n => exact .inl ⟨_, ⟨sized, n, rfl, rfl⟩, rfl⟩
    | none => exact .inr (.inr ⟨sized, by simp, rfl⟩)
  · exact .inr (.inl ⟨sized, if_neg sized⟩)

theorem Accepted.unique {color' : Color} (accepted : Accepted text color)
    (accepted' : Accepted text color') : color = color' := by
  obtain ⟨-, n, number, rfl⟩ := accepted_iff.mp accepted
  obtain ⟨-, n', number', rfl⟩ := accepted_iff.mp accepted'
  rw [number] at number'
  cases number'
  rfl

theorem parse_eq_ok_iff : parse text = .ok color ↔ Accepted text color := by
  rcases parse_cases text with ⟨color', accepted, done⟩ | ⟨sized, done⟩ | ⟨-, refused, done⟩
  · rw [done, Except.ok.injEq]
    constructor
    · rintro rfl
      exact accepted
    · exact accepted.unique
  · rw [done]
    exact ⟨nofun, fun accepted => absurd accepted.1 sized⟩
  · rw [done]
    exact ⟨nofun, fun accepted => absurd accepted (refused color)⟩

theorem plainChar_of_value? {c : Char} {d : Nat} (digit : Hex.value? c = some d) :
    Text.plainChar c = c := by
  have code := Numeral.code_of_value? digit
  rw [Text.plainChar, if_pos]
  omega

theorem digit?_of_value? {c : Char} {d : Nat} (digit : Hex.value? c = some d) :
    Numeral.digit? 16 c = some d := by
  have code := Numeral.code_of_value? digit
  have small : d < 16 := by omega
  rw [Numeral.digit?, digit, Option.filter_some, if_pos (decide_eq_true small)]

theorem digits_of_values (read : cs.map Hex.value? = values.map some) (some_digit : cs ≠ []) :
    Numeral.Digits 16 cs values := by
  induction cs generalizing values with
  | nil => exact absurd rfl some_digit
  | cons c rest ih =>
    obtain ⟨d, ds, rfl⟩ : ∃ d ds, values = d :: ds := by
      cases values with
      | nil => cases read
      | cons d ds => exact ⟨d, ds, rfl⟩
    obtain ⟨digit, later⟩ := List.cons.inj read
    cases rest with
    | nil =>
      cases ds with
      | nil => exact .last (digit?_of_value? digit)
      | cons => cases later
    | cons => exact .next (digit?_of_value? digit) (ih later (by simp))

theorem exists_value_of_mem (read : cs.map Hex.value? = values.map some) :
    ∀ c ∈ cs, ∃ d, Hex.value? c = some d := by
  intro c inside
  have listed : Hex.value? c ∈ values.map some := read ▸ List.mem_map_of_mem inside
  obtain ⟨d, -, value⟩ := List.mem_map.mp listed
  exact ⟨d, value.symm⟩

theorem spells_of_values (read : cs.map Hex.value? = values.map some) (some_digit : cs ≠ []) :
    Numeral.Spells 16 cs false values := by
  have plain : cs.map Text.plainChar = cs.map id := by
    apply List.map_congr_left
    intro c inside
    obtain ⟨d, digit⟩ := exists_value_of_mem read c inside
    exact plainChar_of_value? digit
  have whole : cs.map Text.plainChar = [] ++ ([] ++ ([] ++ cs) ++ []) := by
    rw [plain, List.map_id, List.nil_append, List.nil_append, List.nil_append, List.append_nil]
  exact .parts whole (by simp) .none .none (digits_of_values read some_digit) (by simp)

theorem lt_of_read (read : cs.map Hex.value? = values.map some) : ∀ d ∈ values, d < 16 := by
  intro d inside
  have listed : some d ∈ cs.map Hex.value? := read ▸ List.mem_map_of_mem inside
  obtain ⟨c, -, digit⟩ := List.mem_map.mp listed
  have code := Numeral.code_of_value? digit
  omega

theorem ofNat_eq_of_mod_eq {a b : Nat} (same : a % 256 = b % 256) :
    UInt8.ofNat a = UInt8.ofNat b := by
  rw [← UInt8.toNat_inj, UInt8.toNat_ofNat', UInt8.toNat_ofNat']
  exact same

theorem ofPacked_value (few : values.length = 6) (small : ∀ d ∈ values, d < 16) :
    ofPacked (Numeral.value 16 values) = ⟨pair values 0, pair values 2, pair values 4⟩ := by
  have front : (values.take 3).length = 3 := by rw [List.length_take, few]; rfl
  have back : (values.drop 3).length = 3 := by rw [List.length_drop, few]
  obtain ⟨a, b, c, front⟩ := List.length_eq_three.mp front
  obtain ⟨d, e, f, back⟩ := List.length_eq_three.mp back
  obtain rfl : values = [a, b, c, d, e, f] := by
    rw [← List.take_append_drop 3 values, front, back]
    rfl
  simp only [List.forall_mem_cons] at small
  have number : Numeral.value 16 [a, b, c, d, e, f] =
      1048576 * a + 65536 * b + 4096 * c + 256 * d + 16 * e + f := by
    simp only [Numeral.value, List.foldl_cons, List.foldl_nil]
    omega
  have low : ((Numeral.value 16 [a, b, c, d, e, f] : Int) % 16777216).toNat =
      1048576 * a + 65536 * b + 4096 * c + 256 * d + 16 * e + f := by
    omega
  simp only [ofPacked, low]
  congr 1
  · apply ofNat_eq_of_mod_eq
    change _ = (16 * a + b) % 256
    omega
  · apply ofNat_eq_of_mod_eq
    change _ = (16 * c + d) % 256
    omega
  · apply ofNat_eq_of_mod_eq
    change _ = (16 * e + f) % 256
    omega

theorem accepted_of_documented (documented : Documented text color) : Accepted text color := by
  obtain ⟨values, read, sized, rfl⟩ := documented
  have length : (digits text).length = values.length := by
    simpa using congrArg List.length read
  have first : ((digits text).take 6).map Hex.value? = (values.take 6).map some := by
    rw [List.map_take, read, List.map_take]
  have six : (values.take 6).length = 6 := by
    rw [List.length_take]
    omega
  have number := ofPacked_value six (lt_of_read first)
  have pairs : ∀ k ≤ 4, pair (values.take 6) k = pair values k := by
    intro k early
    simp only [pair, List.getD_eq_getElem?_getD, List.getElem?_take]
    rw [if_pos (by omega), if_pos (by omega)]
  rw [pairs 0 (by decide), pairs 2 (by decide), pairs 4 (by decide)] at number
  refine ⟨by rwa [length], false, values.take 6, ?_, number.symm⟩
  apply spells_of_values first
  apply List.ne_nil_of_length_pos
  rw [List.length_take]
  omega

theorem documented_iff :
    Documented text color ↔
      Accepted text color ∧ ∀ c ∈ digits text, (Hex.value? c).isSome = true := by
  constructor
  · intro documented
    refine ⟨accepted_of_documented documented, ?_⟩
    obtain ⟨values, read, -, -⟩ := documented
    intro c inside
    exact Option.isSome_iff_exists.mpr (exists_value_of_mem read c inside)
  · rintro ⟨accepted, plain⟩
    have read : (digits text).map Hex.value? =
        ((digits text).map fun c => (Hex.value? c).getD 0).map some := by
      rw [List.map_map]
      apply List.map_congr_left
      intro c inside
      obtain ⟨d, digit⟩ := Option.isSome_iff_exists.mp (plain c inside)
      simp [digit]
    have documented : Documented text _ := ⟨_, read, by simpa using accepted.1, rfl⟩
    rwa [accepted.unique (accepted_of_documented documented)]

/-- A text is taken for a colour exactly when it has six or eight characters behind the hash and
the first six spell a whole number in base sixteen, whose low 24 bits are the colour. Among these
the documented texts are those of hexadecimal digits alone. What is not a colour is an error. -/
theorem parse_outcome (text : String) :
    (∀ color, parse text = .ok color ↔ Accepted text color) ∧
    (∀ color, Documented text color ↔
      Accepted text color ∧ ∀ c ∈ digits text, (Hex.value? c).isSome = true) ∧
    ∀ error, parse text = .error error ↔
      ((∀ color, ¬Accepted text color) ∧
        error = if (digits text).length = 6 ∨ (digits text).length = 8 then .notHexadecimal text
          else .wrongLength text) := by
  refine ⟨fun color => parse_eq_ok_iff, fun color => documented_iff, fun error => ?_⟩
  rcases parse_cases text with ⟨color, accepted, done⟩ | ⟨sized, done⟩ | ⟨sized, refused, done⟩
  · rw [done]
    exact ⟨nofun, fun refused => absurd accepted (refused.1 color)⟩
  · have refused : ∀ color, ¬Accepted text color := fun color accepted => sized accepted.1
    rw [done, if_neg sized, Except.error.injEq]
    exact ⟨fun same => ⟨refused, same.symm⟩, fun refusal => refusal.2.symm⟩
  · rw [done, if_pos sized, Except.error.injEq]
    exact ⟨fun same => ⟨refused, same.symm⟩, fun refusal => refusal.2.symm⟩

/-- A sign in place of a digit, and letters beyond F in the last two of eight places. -/
theorem parse_accepts_undocumented :
    parse "#+12345" = .ok ⟨0x01, 0x23, 0x45⟩ ∧ (∀ color, ¬Documented "#+12345" color) ∧
      parse "#123456zz" = .ok ⟨0x12, 0x34, 0x56⟩ ∧ ∀ color, ¬Documented "#123456zz" color := by
  refine ⟨rfl, ?_, rfl, ?_⟩
  · intro color documented
    have plain := (documented_iff.mp documented).2 '+' (by decide)
    cases plain
  · intro color documented
    have plain := (documented_iff.mp documented).2 'z' (by decide)
    cases plain

end Chip8.Color
