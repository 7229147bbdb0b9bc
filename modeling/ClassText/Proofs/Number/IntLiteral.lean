import ClassText.Proofs.Number.Integer
import Mathlib.Data.List.Induction

/-!
# Which texts are read as integers

`IntLiteral` is the grammar of integer literals: digits of either base, after a minus sign or
none, with the integer that each literal denotes. `read_eq_some_iff` says what the reader makes
of every text in every range. It takes a literal for what it denotes, if that fits, and departs
from the grammar in two ways: hexadecimal digits may follow a sign of their own, and a range
without negative numbers refuses a minus sign before decimal digits, save for a plain `-0`.
-/

namespace ClassText

-- ---------------------------------------------------------------------------
-- Digits
-- ---------------------------------------------------------------------------

/-- The character stands for a digit of that value, in either case if it is a letter. -/
def IsDigitOf (base : Nat) (c : Char) (d : Nat) : Prop :=
  d < base ∧ (c = Nat.digitChar d ∨ c = (Nat.digitChar d).toUpper)

/-- Runs of one or more digits, and the numbers that they denote. -/
inductive Numeral (base : Nat) : List Char → Nat → Prop
  | digit (hc : IsDigitOf base c d) : Numeral base [c] d
  | more (hds : Numeral base ds n) (hc : IsDigitOf base c d) :
      Numeral base (ds ++ [c]) (n * base + d)

theorem toNat_lt_of_isHexDigit (h : isHexDigit c = true) : c.toNat < 128 := by
  simp only [isHexDigit, Char.isDigit, Bool.or_eq_true, Bool.and_eq_true, decide_eq_true_eq] at h
  rcases h with (⟨-, h⟩ | ⟨-, h⟩) | ⟨-, h⟩
  all_goals exact Nat.lt_of_le_of_lt h (by decide)

theorem isHexDigit_of_isDigit (h : c.isDigit = true) : isHexDigit c = true := by
  simp [isHexDigit, h]

/-- A property of hexadecimal digits, checked character by character. -/
theorem forall_isHexDigit {P : Char → Prop}
    (hrows : ∀ n < 128, isHexDigit (Char.ofNat n) = true → P (Char.ofNat n))
    (h : isHexDigit c = true) : P c := by
  have hc := hrows c.toNat (toNat_lt_of_isHexDigit h)
  rw [Char.ofNat_toNat] at hc
  exact hc h

theorem isDigitOf_digitValue (h : isHexDigit c = true) : IsDigitOf 16 c (digitValue c) :=
  forall_isHexDigit (P := fun c => IsDigitOf 16 c (digitValue c))
    (by unfold IsDigitOf; decide) h

theorem isDigit_iff_digitValue_lt (h : isHexDigit c = true) :
    c.isDigit = true ↔ digitValue c < 10 :=
  forall_isHexDigit (P := fun c => c.isDigit = true ↔ digitValue c < 10) (by decide) h

theorem isDigitOf_sixteen : IsDigitOf 16 c d ↔ isHexDigit c = true ∧ digitValue c = d := by
  have hdigits : ∀ d < 16,
      (isHexDigit (Nat.digitChar d) = true ∧ digitValue (Nat.digitChar d) = d) ∧
        isHexDigit (Nat.digitChar d).toUpper = true ∧
          digitValue (Nat.digitChar d).toUpper = d := by decide
  constructor
  · rintro ⟨hd, rfl | rfl⟩
    · exact (hdigits d hd).1
    · exact (hdigits d hd).2
  · rintro ⟨hhex, rfl⟩
    exact isDigitOf_digitValue hhex

theorem isDigitOf_ten : IsDigitOf 10 c d ↔ c.isDigit = true ∧ digitValue c = d := by
  have hbase : IsDigitOf 10 c d ↔ IsDigitOf 16 c d ∧ d < 10 := by
    constructor
    · rintro ⟨hlt, hc⟩
      exact ⟨⟨by omega, hc⟩, hlt⟩
    · rintro ⟨⟨-, hc⟩, hlt⟩
      exact ⟨hlt, hc⟩
  rw [hbase, isDigitOf_sixteen]
  constructor
  · rintro ⟨⟨hhex, rfl⟩, hlt⟩
    exact ⟨(isDigit_iff_digitValue_lt hhex).mpr hlt, rfl⟩
  · rintro ⟨hdigit, rfl⟩
    have hhex := isHexDigit_of_isDigit hdigit
    exact ⟨⟨hhex, rfl⟩, (isDigit_iff_digitValue_lt hhex).mp hdigit⟩

theorem ofDigits_concat : ofDigits b (ds ++ [c]) = ofDigits b ds * b + digitValue c := by
  simp [ofDigits_append]

theorem numeral_iff (hdigit : ∀ c d, IsDigitOf b c d ↔ p c = true ∧ digitValue c = d) :
    Numeral b ds n ↔ allDigits p ds = true ∧ ofDigits b ds = n := by
  constructor
  · intro h
    induction h with
    | digit hc =>
      obtain ⟨hp, rfl⟩ := (hdigit _ _).mp hc
      exact ⟨by simp [allDigits, hp], by simp [ofDigits]⟩
    | more _ hc ih =>
      obtain ⟨hp, rfl⟩ := (hdigit _ _).mp hc
      obtain ⟨hds, rfl⟩ := ih
      simp only [allDigits, Bool.and_eq_true] at hds
      exact ⟨by simp [allDigits, hds.2, hp], ofDigits_concat⟩
  · rintro ⟨hds, rfl⟩
    induction ds using List.reverseRecOn with
    | nil => simp [allDigits] at hds
    | append_singleton ds c ih =>
      have hall : ds.all p = true ∧ p c = true := by simpa [allDigits] using hds
      have hc := (hdigit c _).mpr ⟨hall.2, rfl⟩
      cases ds with
      | nil => simpa [ofDigits] using Numeral.digit hc
      | cons d ds =>
        rw [ofDigits_concat]
        exact .more (ih (by simp [allDigits, hall.1])) hc

theorem numeral_ten_iff :
    Numeral 10 ds n ↔ allDigits Char.isDigit ds = true ∧ ofDigits 10 ds = n :=
  numeral_iff fun _ _ => isDigitOf_ten

theorem numeral_sixteen_iff :
    Numeral 16 ds n ↔ allDigits isHexDigit ds = true ∧ ofDigits 16 ds = n :=
  numeral_iff fun _ _ => isDigitOf_sixteen

-- ---------------------------------------------------------------------------
-- Literals
-- ---------------------------------------------------------------------------

/-- Integer literals, without the plus signs that may stand in front, and what they denote. -/
inductive IntLiteral : List Char → Int → Prop
  | decimal (hds : Numeral 10 ds n) : IntLiteral ds n
  | minusDecimal (hds : Numeral 10 ds n) : IntLiteral ('-' :: ds) (-n)
  | hex (hds : Numeral 16 ds n) : IntLiteral ('0' :: 'x' :: ds) n
  | minusHex (hds : Numeral 16 ds n) : IntLiteral ('-' :: '0' :: 'x' :: ds) (-n)

/-- No literals: hexadecimal digits have a sign of their own after `0x`. -/
inductive InnerSigned : List Char → Int → Prop
  | plus (hds : Numeral 16 ds n) : InnerSigned ('0' :: 'x' :: '+' :: ds) n
  | minus (hds : Numeral 16 ds n) : InnerSigned ('0' :: 'x' :: '-' :: ds) (-n)
  | minusPlus (hds : Numeral 16 ds n) : InnerSigned ('-' :: '0' :: 'x' :: '+' :: ds) (-n)

/-- A minus sign before decimal digits, other than `-0`. -/
def MinusDecimal (text : List Char) : Prop :=
  text ≠ ['-', '0'] ∧ ∃ ds n, text = '-' :: ds ∧ Numeral 10 ds n

@[simp] theorem not_numeral_ten_minus : ¬Numeral 10 ('-' :: ds) n := by
  simp [numeral_ten_iff, allDigits]

@[simp] theorem not_numeral_ten_mark : ¬Numeral 10 ('0' :: 'x' :: ds) n := by
  simp [numeral_ten_iff, allDigits]

@[simp] theorem not_numeral_sixteen_minus : ¬Numeral 16 ('-' :: ds) n := by
  simp [numeral_sixteen_iff, allDigits, isHexDigit]

@[simp] theorem not_numeral_sixteen_plus : ¬Numeral 16 ('+' :: ds) n := by
  simp [numeral_sixteen_iff, allDigits, isHexDigit]

/-- A text with the mark of hexadecimal digits is no decimal literal. -/
theorem intLiteral_hex_iff : IntLiteral ('0' :: 'x' :: ds) i ↔ ∃ n, Numeral 16 ds n ∧ i = n := by
  constructor
  · intro h
    cases h with
    | decimal hds => simp at hds
    | hex hds => exact ⟨_, hds, rfl⟩
  · rintro ⟨n, hds, rfl⟩
    exact .hex hds

theorem intLiteral_minusHex_iff :
    IntLiteral ('-' :: '0' :: 'x' :: ds) i ↔ ∃ n, Numeral 16 ds n ∧ i = -n := by
  constructor
  · intro h
    cases h with
    | decimal hds => simp at hds
    | minusDecimal hds => simp at hds
    | minusHex hds => exact ⟨_, hds, rfl⟩
  · rintro ⟨n, hds, rfl⟩
    exact .minusHex hds

theorem intLiteral_decimal_iff (hhex : ∀ ds, text ≠ '0' :: 'x' :: ds)
    (hminus : ∀ ds, text ≠ '-' :: '0' :: 'x' :: ds) : IntLiteral text i ↔
      (∃ n, Numeral 10 text n ∧ i = n) ∨
        ∃ ds n, text = '-' :: ds ∧ Numeral 10 ds n ∧ i = -n := by
  constructor
  · intro h
    cases h with
    | decimal hds => exact .inl ⟨_, hds, rfl⟩
    | minusDecimal hds => exact .inr ⟨_, _, rfl, hds, rfl⟩
    | hex => exact (hhex _ rfl).elim
    | minusHex => exact (hminus _ rfl).elim
  · rintro (⟨n, hds, rfl⟩ | ⟨ds, n, rfl, hds, rfl⟩)
    · exact .decimal hds
    · exact .minusDecimal hds

namespace IntRange

variable {range : IntRange}

theorem fit_eq_some_iff :
    range.fit i = some j ↔ i = j ∧ range.low ≤ j ∧ j ≤ range.high := by
  unfold fit
  split
  · rename_i hfit
    constructor
    · rintro ⟨⟩
      exact ⟨rfl, hfit⟩
    · rintro ⟨rfl, -⟩
      rfl
  · rename_i hfit
    constructor
    · rintro ⟨⟩
    · rintro ⟨rfl, h⟩
      exact absurd h hfit

theorem readMagnitude_eq_some_iff : readMagnitude text = some n ↔
    Numeral 16 text n ∨ ∃ ds, text = '+' :: ds ∧ Numeral 16 ds n := by
  have hread (ds) : (if allDigits isHexDigit ds then some (ofDigits 16 ds) else none) = some n ↔
      Numeral 16 ds n := by
    simp [numeral_sixteen_iff]
  unfold readMagnitude
  split
  · rename_i ds
    rw [hread]
    constructor
    · intro h
      exact .inr ⟨ds, rfl, h⟩
    · rintro (h | ⟨_, ⟨⟩, h⟩)
      · simp at h
      · exact h
  · rename_i hplus
    rw [hread]
    constructor
    · exact .inl
    · rintro (h | ⟨ds, rfl, -⟩)
      · exact h
      · exact (hplus ds rfl).elim

theorem readHex_eq_some_iff : readHex text = some i ↔
    (∃ n, Numeral 16 text n ∧ i = n) ∨ InnerSigned ('0' :: 'x' :: text) i := by
  unfold readHex
  split
  · rename_i ds
    have hread : (if allDigits isHexDigit ds then some (-(ofDigits 16 ds : Int)) else none) =
        some i ↔ ∃ n, Numeral 16 ds n ∧ -(n : Int) = i := by
      simp [numeral_sixteen_iff]
    rw [hread]
    constructor
    · rintro ⟨n, hds, rfl⟩
      exact .inr (.minus hds)
    · rintro (⟨n, hds, -⟩ | h)
      · simp at hds
      · cases h with
        | minus hds => exact ⟨_, hds, rfl⟩
  · rename_i hminus
    simp only [Option.map_eq_some_iff, Option.bind_eq_bind, Option.bind_eq_some_iff,
      Option.pure_def, Option.some.injEq, exists_eq_right, readMagnitude_eq_some_iff]
    constructor
    · rintro ⟨n, hds | ⟨ds, rfl, hds⟩, rfl⟩
      · exact .inl ⟨n, hds, rfl⟩
      · exact .inr (.plus hds)
    · rintro (⟨n, hds, rfl⟩ | h)
      · exact ⟨n, .inl hds, rfl⟩
      · cases h with
        | plus hds => exact ⟨_, .inr ⟨_, rfl, hds⟩, rfl⟩
        | minus => exact (hminus _ rfl).elim

theorem readDecimal_eq_some_iff : range.readDecimal text = some i ↔
    (range.low ≤ i ∧ i ≤ range.high) ∧ ((∃ n, Numeral 10 text n ∧ i = n) ∨
      range.low < 0 ∧ ∃ ds n, text = '-' :: ds ∧ Numeral 10 ds n ∧ i = -n) := by
  unfold readDecimal
  split
  · rename_i ds
    rw [Option.ite_none_right_eq_some, fit_eq_some_iff]
    constructor
    · rintro ⟨⟨hlow, hds⟩, rfl, hfit⟩
      exact ⟨hfit, .inr ⟨hlow, ds, _, rfl, numeral_ten_iff.mpr ⟨hds, rfl⟩, rfl⟩⟩
    · rintro ⟨hfit, ⟨n, hds, -⟩ | ⟨hlow, _, n, ⟨⟩, hds, rfl⟩⟩
      · simp at hds
      · obtain ⟨hall, rfl⟩ := numeral_ten_iff.mp hds
        exact ⟨⟨hlow, hall⟩, rfl, hfit⟩
  · rename_i hminus
    rw [Option.ite_none_right_eq_some, fit_eq_some_iff]
    constructor
    · rintro ⟨hds, rfl, hfit⟩
      exact ⟨hfit, .inl ⟨_, numeral_ten_iff.mpr ⟨hds, rfl⟩, rfl⟩⟩
    · rintro ⟨hfit, ⟨n, hds, rfl⟩ | ⟨-, ds, n, rfl, -⟩⟩
      · obtain ⟨hall, rfl⟩ := numeral_ten_iff.mp hds
        exact ⟨hall, rfl, hfit⟩
      · exact (hminus ds rfl).elim

/-- What the reader takes for the value of a text without plus signs in front, fit or not. -/
def Reads (range : IntRange) (text : List Char) (i : Int) : Prop :=
  IntLiteral text i ∧ (range.low < 0 ∨ ¬MinusDecimal text) ∨ InnerSigned text i

theorem reads_minusZero : range.Reads ['-', '0'] i ↔ i = 0 := by
  have hzero : Numeral 10 ['0'] 0 := numeral_ten_iff.mpr (by decide)
  constructor
  · rintro (⟨h, -⟩ | h)
    · cases h with
      | decimal hds => simp at hds
      | minusDecimal hds =>
        obtain ⟨-, rfl⟩ := numeral_ten_iff.mp hds
        rfl
    · cases h
  · rintro rfl
    exact .inl ⟨.minusDecimal hzero, .inr fun h => h.1 rfl⟩

theorem reads_minusHex : range.Reads ('-' :: '0' :: 'x' :: ds) i ↔
    ∃ n, (Numeral 16 ds n ∨ ∃ es, ds = '+' :: es ∧ Numeral 16 es n) ∧ i = -n := by
  unfold Reads
  rw [intLiteral_minusHex_iff]
  constructor
  · rintro (⟨⟨n, hds, rfl⟩, -⟩ | h)
    · exact ⟨n, .inl hds, rfl⟩
    · cases h with
      | minusPlus hds => exact ⟨_, .inr ⟨_, rfl, hds⟩, rfl⟩
  · rintro ⟨n, hds | ⟨es, rfl, hes⟩, rfl⟩
    · refine .inl ⟨⟨n, hds, rfl⟩, .inr ?_⟩
      rintro ⟨-, _, m, ⟨⟩, hdecimal⟩
      simp at hdecimal
    · exact .inr (.minusPlus hes)

theorem reads_hex : range.Reads ('0' :: 'x' :: ds) i ↔
    (∃ n, Numeral 16 ds n ∧ i = n) ∨ InnerSigned ('0' :: 'x' :: ds) i := by
  unfold Reads
  rw [intLiteral_hex_iff]
  constructor
  · rintro (⟨h, -⟩ | h)
    · exact .inl h
    · exact .inr h
  · rintro (h | h)
    · refine .inl ⟨h, .inr ?_⟩
      rintro ⟨-, _, m, ⟨⟩, -⟩
    · exact .inr h

theorem reads_decimal (hzero : text ≠ ['-', '0']) (hhex : ∀ ds, text ≠ '0' :: 'x' :: ds)
    (hminus : ∀ ds, text ≠ '-' :: '0' :: 'x' :: ds) : range.Reads text i ↔
      (∃ n, Numeral 10 text n ∧ i = n) ∨
        range.low < 0 ∧ ∃ ds n, text = '-' :: ds ∧ Numeral 10 ds n ∧ i = -n := by
  unfold Reads
  rw [intLiteral_decimal_iff hhex hminus]
  constructor
  · rintro (⟨h | ⟨ds, n, rfl, hds, rfl⟩, hlow⟩ | h)
    · exact .inl h
    · have hlow := hlow.resolve_right fun h => h ⟨hzero, ds, n, rfl, hds⟩
      exact .inr ⟨hlow, ds, n, rfl, hds, rfl⟩
    · cases h with
      | plus => exact (hhex _ rfl).elim
      | minus => exact (hhex _ rfl).elim
      | minusPlus => exact (hminus _ rfl).elim
  · rintro (⟨n, hds, rfl⟩ | ⟨hlow, h⟩)
    · refine .inl ⟨.inl ⟨n, hds, rfl⟩, .inr ?_⟩
      rintro ⟨-, es, m, rfl, -⟩
      simp at hds
    · exact .inl ⟨.inr h, .inl hlow⟩

theorem readUnsigned_eq_some_iff : range.readUnsigned text = some i ↔
    (range.low ≤ i ∧ i ≤ range.high) ∧ range.Reads text i := by
  unfold readUnsigned
  split
  · have hzero : range.readDecimal ['0'] = range.fit 0 := rfl
    rw [reads_minusZero, hzero, fit_eq_some_iff]
    constructor
    · rintro ⟨rfl, hfit⟩
      exact ⟨hfit, rfl⟩
    · rintro ⟨hfit, rfl⟩
      exact ⟨rfl, hfit⟩
  · rw [reads_minusHex]
    simp only [Option.bind_eq_some_iff, readMagnitude_eq_some_iff, fit_eq_some_iff]
    constructor
    · rintro ⟨n, hds, rfl, hfit⟩
      exact ⟨hfit, n, hds, rfl⟩
    · rintro ⟨hfit, n, hds, rfl⟩
      exact ⟨n, hds, rfl, hfit⟩
  · rw [reads_hex]
    simp only [Option.bind_eq_some_iff, readHex_eq_some_iff, fit_eq_some_iff]
    constructor
    · rintro ⟨j, hds, rfl, hfit⟩
      exact ⟨hfit, hds⟩
    · rintro ⟨hfit, hds⟩
      exact ⟨i, hds, rfl, hfit⟩
  · rename_i hzero hminus hhex
    rw [reads_decimal hzero hhex hminus, readDecimal_eq_some_iff]

/-- A text is read as an integer of the range if and only if it is a literal that denotes it,
behind any plus signs, and is not refused for its minus sign; or if it has a sign too many. -/
theorem read_eq_some_iff {range : IntRange} {text : List Char} {i : Int} :
    range.read text = some i ↔ (range.low ≤ i ∧ i ≤ range.high) ∧
      (IntLiteral (text.dropWhile (· == '+')) i ∧
          (range.low < 0 ∨ ¬MinusDecimal (text.dropWhile (· == '+'))) ∨
        InnerSigned (text.dropWhile (· == '+')) i) := by
  rw [read, readUnsigned_eq_some_iff, Reads]

/-- A text that is no literal is read as an integer, and a literal of an integer in the range
of slots is not read there. -/
theorem read_ne_literal :
    (int.read ['0', 'x', '-', '1'] = some (-1) ∧ ∀ i, ¬IntLiteral ['0', 'x', '-', '1'] i) ∧
      IntLiteral ['-', '0', '0'] 0 ∧ (slot.low ≤ 0 ∧ 0 ≤ slot.high) ∧
        slot.read ['-', '0', '0'] = none := by
  have hzeros : Numeral 10 ['0', '0'] 0 := numeral_ten_iff.mpr (by decide)
  refine ⟨⟨by decide, fun i h => ?_⟩, .minusDecimal hzeros, by decide, by decide⟩
  obtain ⟨n, hds, -⟩ := intLiteral_hex_iff.mp h
  simp at hds

end IntRange

end ClassText
