import Chip8.Numeral
import Mathlib.Data.List.TakeWhile

/-!
What counts as a whole number. The reader of numbers strips and drops until digits are left; here
the same is said of the parts that a text is put together from: blanks, a sign, a mark of the
base, digits with underscores between them, and blanks again. Blanks and digits may be those of
any script, which is why the parts are those of the text in plain characters.
-/

namespace Chip8.Numeral

inductive Sign : List Char → Bool → Prop where
  | none : Sign [] false
  | plus : Sign ['+'] false
  | minus : Sign ['-'] true

inductive Mark (base : Nat) : List Char → Prop where
  | none : Mark base []
  | letter {c : Char} (named : mark? base = some c.toLower) : Mark base ['0', c]
  | spaced {c : Char} (named : mark? base = some c.toLower) : Mark base ['0', c, '_']

/-- Digits, most significant first, with one underscore at most between neighbours. -/
inductive Digits (base : Nat) : List Char → List Nat → Prop where
  | last {c : Char} {d : Nat} (digit : digit? base c = some d) : Digits base [c] [d]
  | next {c : Char} {d : Nat} {cs : List Char} {ds : List Nat} (digit : digit? base c = some d)
      (rest : Digits base cs ds) : Digits base (c :: cs) (d :: ds)
  | spaced {c : Char} {d : Nat} {cs : List Char} {ds : List Nat}
      (digit : digit? base c = some d) (rest : Digits base cs ds) :
      Digits base (c :: '_' :: cs) (d :: ds)

inductive Spells (base : Nat) (text : List Char) (negative : Bool) (digits : List Nat) : Prop where
  | parts {front sign mark body back : List Char}
      (whole : text.map Text.plainChar = front ++ (sign ++ (mark ++ body) ++ back))
      (front_blank : ∀ c ∈ front, Text.isAsciiBlank c = true) (signed : Sign sign negative)
      (marked : Mark base mark) (spelled : Digits base body digits)
      (back_blank : ∀ c ∈ back, Text.isAsciiBlank c = true) : Spells base text negative digits

variable {base : Nat} {c : Char} {d : Nat} {text cs : List Char} {ds : List Nat}

theorem code_of_value? (digit : Hex.value? c = some d) :
    (48 ≤ c.toNat ∧ c.toNat ≤ 57 ∧ d = c.toNat - 48) ∨
      (65 ≤ c.toNat ∧ c.toNat ≤ 70 ∧ d = c.toNat - 55) ∨
      (97 ≤ c.toNat ∧ c.toNat ≤ 102 ∧ d = c.toNat - 87) := by
  unfold Hex.value? at digit
  split at digit
  case isTrue decimal => exact .inl ⟨decimal.1, decimal.2, (Option.some.inj digit).symm⟩
  case isFalse =>
    split at digit
    case isTrue upper => exact .inr (.inl ⟨upper.1, upper.2, (Option.some.inj digit).symm⟩)
    case isFalse =>
      split at digit
      case isTrue lower => exact .inr (.inr ⟨lower.1, lower.2, (Option.some.inj digit).symm⟩)
      case isFalse => cases digit

theorem toNat_of_toLower {letter : Char} (lower : c.toLower = letter) :
    c.toNat = letter.toNat ∨ c.toNat + 32 = letter.toNat := by
  subst lower
  unfold Char.toLower
  split
  case isTrue upper =>
    have bound : c.val.toNat ≤ 90 := upper.2
    have sum : (c.val + 32).toNat = (c.val.toNat + 32) % 4294967296 := UInt32.toNat_add ..
    right
    change c.val.toNat + 32 = (c.val + 32).toNat
    omega
  case isFalse => exact .inl rfl

theorem value?_of_digit? (digit : digit? base c = some d) : Hex.value? c = some d ∧ d < base := by
  simpa [digit?, Option.filter_eq_some_iff] using digit

theorem isAsciiBlank_of_value? (digit : Hex.value? c = some d) :
    Text.isAsciiBlank c = false := by
  have code := code_of_value? digit
  have space : c ≠ ' ' := by
    rintro rfl
    simp at code
  simp [Text.isAsciiBlank, space]
  omega

theorem digit?_mark (named : mark? base = some c.toLower) : digit? base c = none := by
  rw [Option.eq_none_iff_forall_ne_some]
  intro d digit
  obtain ⟨value, below⟩ := value?_of_digit? digit
  have code := code_of_value? value
  unfold mark? at named
  split at named
  case h_1 | h_2 | h_3 =>
    have letter := toNat_of_toLower (Option.some.inj named).symm
    simp at letter
    omega
  case h_4 => cases named

theorem Digits.exists_cons (spelled : Digits base text ds) :
    ∃ c d cs, text = c :: cs ∧ digit? base c = some d := by
  cases spelled with
  | last digit | next digit | spaced digit => exact ⟨_, _, _, rfl, digit⟩

theorem Digits.exists_concat (spelled : Digits base text ds) :
    ∃ cs c d, text = cs ++ [c] ∧ digit? base c = some d := by
  induction spelled with
  | last digit => exact ⟨[], _, _, rfl, digit⟩
  | next digit rest ih =>
    obtain ⟨cs, c, d, rfl, last⟩ := ih
    exact ⟨_ :: cs, c, d, rfl, last⟩
  | spaced digit rest ih =>
    obtain ⟨cs, c, d, rfl, last⟩ := ih
    exact ⟨_ :: '_' :: cs, c, d, rfl, last⟩

theorem digits?_eq_some_iff : digits? base text = some ds ↔ Digits base text ds := by
  constructor
  · intro h
    induction text using digits?.induct generalizing ds with
    | case1 => cases h
    | case2 c =>
      obtain ⟨d, digit, rfl⟩ := Option.map_eq_some_iff.mp h
      exact .last digit
    | case3 c rest ih =>
      rw [digits?] at h
      simp only [Option.bind_eq_bind, Option.bind_eq_some_iff] at h
      obtain ⟨d, digit, ds', rest, done⟩ := h
      cases done
      exact .spaced digit (ih rest)
    | case4 c rest nonempty plain ih =>
      rw [digits?] at h
      · simp only [Option.bind_eq_bind, Option.bind_eq_some_iff] at h
        obtain ⟨d, digit, ds', rest, done⟩ := h
        cases done
        exact .next digit (ih rest)
      · exact nonempty
      · exact plain
  · intro spelled
    induction spelled with
    | last digit => rw [digits?, digit]; rfl
    | next digit rest ih =>
      obtain ⟨c', d', cs', rfl, first⟩ := rest.exists_cons
      rw [digits?, digit, ih]
      · rfl
      · rintro ⟨⟩
      · intro cs eq
        cases eq
        cases first
    | spaced digit rest ih =>
      rw [digits?, digit, ih]
      rfl

theorem trim_parts (text : List Char) :
    ∃ front back, text = front ++ (Text.trim text ++ back) ∧
      (∀ c ∈ front, Text.isAsciiBlank c = true) ∧ ∀ c ∈ back, Text.isAsciiBlank c = true := by
  let rest := text.dropWhile Text.isAsciiBlank
  refine ⟨text.takeWhile Text.isAsciiBlank,
    (rest.reverse.takeWhile Text.isAsciiBlank).reverse, ?_, ?_, ?_⟩
  · rw [Text.trim, ← List.reverse_append, List.takeWhile_append_dropWhile, List.reverse_reverse,
      List.takeWhile_append_dropWhile]
  · intro c inside
    exact List.mem_takeWhile_imp inside
  · intro c inside
    exact List.mem_takeWhile_imp (List.mem_reverse.mp inside)

theorem trim_of_parts {front back core tail init : List Char} {first last : Char}
    (front_blank : ∀ c ∈ front, Text.isAsciiBlank c = true)
    (back_blank : ∀ c ∈ back, Text.isAsciiBlank c = true) (begins : core = first :: tail)
    (firm_first : Text.isAsciiBlank first = false) (ends : core = init ++ [last])
    (firm_last : Text.isAsciiBlank last = false) :
    Text.trim (front ++ (core ++ back)) = core := by
  have fore : (core ++ back).dropWhile Text.isAsciiBlank = core ++ back := by
    rw [begins, List.cons_append, List.dropWhile_cons_of_neg (by simp [firm_first])]
  have rear : (core ++ back).reverse.dropWhile Text.isAsciiBlank = core.reverse := by
    rw [List.reverse_append, List.dropWhile_append_of_pos (by simpa using back_blank), ends,
      List.reverse_concat, List.dropWhile_cons_of_neg (by simp [firm_last])]
  rw [Text.trim, List.dropWhile_append_of_pos front_blank, fore, rear, List.reverse_reverse]

theorem splitSign_parts (text : List Char) :
    ∃ sign, text = sign ++ (splitSign text).2 ∧ Sign sign (splitSign text).1 := by
  unfold splitSign
  split
  · exact ⟨['-'], rfl, .minus⟩
  · exact ⟨['+'], rfl, .plus⟩
  · exact ⟨[], rfl, .none⟩

theorem splitSign_of_parts {sign : List Char} {negative : Bool} (signed : Sign sign negative)
    (begins : text = c :: cs) (digit : Hex.value? c = some d) :
    splitSign (sign ++ text) = (negative, text) := by
  cases signed with
  | none =>
    subst begins
    rw [List.nil_append]
    unfold splitSign
    split
    case h_1 minus =>
      cases minus
      cases digit
    case h_2 plus =>
      cases plus
      cases digit
    case h_3 => rfl
  | plus | minus => rfl

theorem dropMark_parts (base : Nat) (text : List Char) :
    ∃ mark, text = mark ++ dropMark base text ∧ Mark base mark := by
  unfold dropMark
  split
  · split
    case isTrue named =>
      split
      · exact ⟨['0', _, '_'], rfl, .spaced named⟩
      · exact ⟨['0', _], rfl, .letter named⟩
    case isFalse => exact ⟨[], rfl, .none⟩
  · exact ⟨[], rfl, .none⟩

theorem dropMark_of_digits (spelled : Digits base text ds) : dropMark base text = text := by
  unfold dropMark
  split
  case h_1 c rest =>
    rw [if_neg]
    intro named
    have noDigit := digit?_mark named
    cases spelled with
    | next _ rest =>
      obtain ⟨c', d, cs, same, digit⟩ := rest.exists_cons
      cases same
      rw [noDigit] at digit
      cases digit
    | spaced =>
      revert named
      unfold mark?
      split <;> decide
  case h_2 => rfl

theorem dropMark_of_parts {mark : List Char} (marked : Mark base mark)
    (spelled : Digits base text ds) : dropMark base (mark ++ text) = text := by
  cases marked with
  | none => exact dropMark_of_digits spelled
  | letter named =>
    obtain ⟨c, d, cs, rfl, digit⟩ := spelled.exists_cons
    have plain : c ≠ '_' := by
      rintro rfl
      cases digit
    simp only [List.cons_append, List.nil_append, dropMark, if_pos named]
    split
    case h_1 same => exact absurd (List.cons.inj same).1 plain
    case h_2 => rfl
  | spaced named => simp only [List.cons_append, List.nil_append, dropMark, if_pos named]

theorem integer?_eq (base : Nat) (text : List Char) :
    integer? base text =
      let signed := splitSign (Text.trim (text.map Text.plainChar))
      (digits? base (dropMark base signed.2)).bind fun digits =>
        if base = 10 ∧ digits.length > longestDecimal then none
        else some (if signed.1 then -(value base digits : Int) else value base digits) := by
  unfold integer?
  simp only [Option.bind_eq_bind]
  rfl

/-- Behind the sign a numeral begins with a digit, for a mark begins with one. -/
theorem exists_cons_of_parts {mark : List Char} (marked : Mark base mark)
    (spelled : Digits base text ds) :
    ∃ c cs d, mark ++ text = c :: cs ∧ Hex.value? c = some d := by
  cases marked with
  | none =>
    obtain ⟨c, d, cs, begins, digit⟩ := spelled.exists_cons
    exact ⟨c, cs, d, begins, (value?_of_digit? digit).1⟩
  | letter named | spaced named => exact ⟨'0', _, 0, rfl, rfl⟩

theorem trim_of_spelled {front sign mark back : List Char} {negative : Bool}
    (front_blank : ∀ c ∈ front, Text.isAsciiBlank c = true)
    (back_blank : ∀ c ∈ back, Text.isAsciiBlank c = true) (signed : Sign sign negative)
    (marked : Mark base mark) (spelled : Digits base text ds) :
    Text.trim (front ++ (sign ++ (mark ++ text) ++ back)) = sign ++ (mark ++ text) := by
  obtain ⟨cs, last, d, ends, digit⟩ := spelled.exists_concat
  have firm := isAsciiBlank_of_value? (value?_of_digit? digit).1
  have whole : sign ++ (mark ++ text) = sign ++ (mark ++ cs) ++ [last] := by
    rw [ends, List.append_assoc, List.append_assoc]
  cases signed with
  | none =>
    obtain ⟨c, tail, d', begins, first⟩ := exists_cons_of_parts marked spelled
    exact trim_of_parts front_blank back_blank begins (isAsciiBlank_of_value? first) whole firm
  | plus | minus => exact trim_of_parts front_blank back_blank rfl (by decide) whole firm

/-- The reader of whole numbers accepts exactly the texts that are put together from the parts of a
numeral, with a limit on the digits of decimal ones, and gives their value. -/
theorem integer?_eq_some_iff {n : Int} :
    integer? base text = some n ↔
      ∃ negative digits, Spells base text negative digits ∧
        ¬(base = 10 ∧ digits.length > longestDecimal) ∧
        n = if negative then -(value base digits : Int) else value base digits := by
  rw [integer?_eq]
  constructor
  · intro h
    obtain ⟨digits, read, done⟩ := Option.bind_eq_some_iff.mp h
    obtain ⟨few, result⟩ := Option.ite_none_left_eq_some.mp done
    obtain ⟨front, back, trimmed, front_blank, back_blank⟩ := trim_parts (text.map Text.plainChar)
    obtain ⟨sign, split, signed⟩ := splitSign_parts (Text.trim (text.map Text.plainChar))
    obtain ⟨mark, dropped, marked⟩ :=
      dropMark_parts base (splitSign (Text.trim (text.map Text.plainChar))).2
    refine ⟨_, digits, ⟨?_, front_blank, signed, marked, digits?_eq_some_iff.mp read, back_blank⟩,
      few, (Option.some.inj result).symm⟩
    rw [← dropped, ← split]
    exact trimmed
  · rintro ⟨negative, digits, ⟨whole, front_blank, signed, marked, spelled, back_blank⟩, few, rfl⟩
    obtain ⟨c, tail, d, begins, first⟩ := exists_cons_of_parts marked spelled
    have trimmed := trim_of_spelled front_blank back_blank signed marked spelled
    simp only [whole, trimmed, splitSign_of_parts signed begins first,
      dropMark_of_parts marked spelled, digits?_eq_some_iff.mpr spelled, Option.bind_some,
      if_neg few]

end Chip8.Numeral
