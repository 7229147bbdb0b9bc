import ClassText.Instruction.Text
import ClassText.Proofs.Number.FloatLiteral
import ClassText.Proofs.Number.Nearest

/-!
# Written floating-point operands are read back

`read_operandText`: the operand text of a finite number is read as that number, down to
the sign of zero. The text may set the digits of the shortest decimal otherwise than the
decimal does, so what is shown of it is that it spells a decimal of the same value.
-/

namespace ClassText

-- ---------------------------------------------------------------------------
-- Texts that spell decimals
-- ---------------------------------------------------------------------------

inductive SpellsExponent : List Char → Int → Prop
  | none : SpellsExponent [] 0
  | some (e : Int) : SpellsExponent ('e' :: intText e) e

/-- Digits on either side of a point, and perhaps an exponent. -/
inductive Spells : List Char → Decimal → Prop
  | intro (whole fraction : List Char) (hwhole : whole ≠ [])
    (hdigits : ∀ c ∈ whole ++ fraction, c.isDigit = true) (htail : SpellsExponent tail e)
    (hn : n = ofDigits 10 (whole ++ fraction)) (hk : k = e - fraction.length) :
    Spells (whole ++ '.' :: (fraction ++ tail)) ⟨n, k⟩

namespace FloatLiteral

theorem numeral_natText : Numeral 10 (natText n) n :=
  numeral_ten_iff.mpr ⟨allDigits_natText, ofDigits_natText⟩

theorem exponent_intText : Exponent (intText e) e := by
  unfold intText
  split
  · have h : Exponent ('-' :: natText e.natAbs) (-(e.natAbs : Int)) := .minus numeral_natText
    rwa [show -(e.natAbs : Int) = e by omega] at h
  · have h : Exponent (natText e.natAbs) (e.natAbs : Int) := .bare numeral_natText
    rwa [show (e.natAbs : Int) = e by omega] at h

/-- A spelled decimal is one of the grammar of literals. -/
theorem unsignedDecimal_of_spells (h : Spells text d) : UnsignedDecimal text d := by
  obtain ⟨whole, fraction, hwhole, hdigits, htail, rfl, rfl⟩ := h
  have hall : allDigits Char.isDigit (whole ++ fraction) = true := by
    rw [allDigits, Bool.and_eq_true, List.all_eq_true]
    exact ⟨by simp [hwhole], hdigits⟩
  have hds : Pointed 10 (whole ++ '.' :: fraction) (ofDigits 10 (whole ++ fraction))
      fraction.length := .split (numeral_ten_iff.mpr ⟨hall, rfl⟩)
  cases htail with
  | none =>
    rw [List.append_nil, Int.zero_sub]
    exact .plain hds
  | some e => simpa using UnsignedDecimal.scaled hds (.inl rfl) exponent_intText

theorem readDecimal_of_spells (h : Spells text d) : readDecimal text = some d :=
  readDecimal_eq_some_iff.mpr (unsignedDecimal_of_spells h)

end FloatLiteral

-- ---------------------------------------------------------------------------
-- The characters of such texts
-- ---------------------------------------------------------------------------

def isDecimalChar (c : Char) : Bool :=
  c.isDigit || c == '.' || c == 'e' || c == '-'

theorem isDecimalChar_of_isDigit (h : c.isDigit = true) : isDecimalChar c = true := by
  simp [isDecimalChar, h]

theorem isDecimalChar_of_mem_intText (h : c ∈ intText e) : isDecimalChar c = true := by
  rcases isDigit_or_of_mem_intText h with h | rfl
  · exact isDecimalChar_of_isDigit h
  · decide

theorem Spells.isDecimalChar (h : Spells text d) (hc : c ∈ text) : isDecimalChar c = true := by
  obtain ⟨whole, fraction, -, hdigits, htail, -, -⟩ := h
  simp only [List.mem_append, List.mem_cons] at hc hdigits
  rcases hc with hc | rfl | hc | hc
  · exact isDecimalChar_of_isDigit (hdigits c (.inl hc))
  · decide
  · exact isDecimalChar_of_isDigit (hdigits c (.inr hc))
  · cases htail with
    | none => simp at hc
    | some =>
      rcases List.mem_cons.mp hc with rfl | hc
      · decide
      · exact isDecimalChar_of_mem_intText hc

theorem Spells.point_mem (h : Spells text d) : '.' ∈ text := by
  obtain ⟨whole, fraction⟩ := h
  simp

theorem Spells.head (h : Spells text d) : ∃ c cs, text = c :: cs ∧ c.isDigit = true := by
  obtain ⟨whole, fraction, hwhole, hdigits⟩ := h
  obtain ⟨c, cs, rfl⟩ := List.exists_cons_of_ne_nil hwhole
  exact ⟨c, _, rfl, hdigits c (by simp)⟩

-- ---------------------------------------------------------------------------
-- Layouts
-- ---------------------------------------------------------------------------

theorem dropEndWhile_append (p : α → Bool) (xs : List α) :
    dropEndWhile p xs ++ (xs.reverse.takeWhile p).reverse = xs := by
  rw [dropEndWhile, ← List.reverse_append, List.takeWhile_append_dropWhile, List.reverse_reverse]

/-- The digits of a positive number up to its last one that is not zero. -/
theorem dropEndWhile_natText (hn : n ≠ 0) :
    ∃ k, natText n = dropEndWhile (· == '0') (natText n) ++ List.replicate k '0' ∧
      dropEndWhile (· == '0') (natText n) ≠ [] := by
  have hsplit := dropEndWhile_append (· == '0') (natText n)
  have hzeros : ∀ c ∈ ((natText n).reverse.takeWhile (· == '0')).reverse, c = '0' := fun c hc => by
    simpa using List.all_eq_true.mp List.all_takeWhile c (List.mem_reverse.mp hc)
  rw [List.eq_replicate_of_mem hzeros] at hsplit
  refine ⟨_, hsplit.symm, fun hnil => hn ?_⟩
  rw [hnil] at hsplit
  rw [← ofDigits_natText (n := n), ← hsplit, ofDigits_append_zeros, ofDigits_nil, Nat.zero_mul]

namespace FloatLayout

theorem spells_positional (hne : ds ≠ []) (hds : ∀ c ∈ ds, c.isDigit = true) (power : Int) :
    ∃ j : Nat,
      Spells (positional ds power) ⟨ofDigits 10 ds * 10 ^ j, power + 1 - ds.length - j⟩ := by
  have hz : ∀ k, ∀ c ∈ List.replicate k '0', c.isDigit = true := fun k c => isDigit_of_mem_zeros
  unfold positional
  split
  · -- zeros and then all digits stand after the point
    have hzeros : ['0'] ++ (List.replicate (power.natAbs - 1) '0' ++ ds) =
        List.replicate (power.natAbs - 1 + 1) '0' ++ ds := by simp [List.replicate_succ]
    have h := Spells.intro (n := ofDigits 10 ds * 10 ^ 0) (k := power + 1 - ds.length - (0 : Nat))
      ['0'] (List.replicate (power.natAbs - 1) '0' ++ ds) (by simp)
      (by rw [hzeros]; exact fun c hc => (List.mem_append.mp hc).elim (hz _ c) (hds c)) .none
      (by rw [hzeros, ofDigits_zeros_append]; simp)
      (by simp only [List.length_append, List.length_replicate]; omega)
    exact ⟨0, by simpa using h⟩
  · dsimp only
    split
    · -- the digits and then zeros stand before the point
      rename_i hlen
      have hzeros : ds ++ List.replicate (power.natAbs + 1 - ds.length) '0' ++ ['0'] =
          ds ++ List.replicate (power.natAbs + 1 - ds.length + 1) '0' := by
        simp [List.replicate_succ']
      have h := Spells.intro (n := ofDigits 10 ds * 10 ^ (power.natAbs + 1 - ds.length + 1))
        (k := power + 1 - ds.length - (power.natAbs + 1 - ds.length + 1 : Nat))
        (ds ++ List.replicate (power.natAbs + 1 - ds.length) '0') ['0'] (by simp [hne])
        (by rw [hzeros]; exact fun c hc => (List.mem_append.mp hc).elim (hds c) (hz _ c)) .none
        (by rw [hzeros, ofDigits_append_zeros])
        (by simp only [List.length_cons, List.length_nil]; omega)
      rw [List.take_of_length_le hlen]
      exact ⟨_, h⟩
    · -- the point stands among the digits
      rename_i hlen
      have h := Spells.intro (n := ofDigits 10 ds * 10 ^ 0) (k := power + 1 - ds.length - (0 : Nat))
        (ds.take (power.natAbs + 1)) (ds.drop (power.natAbs + 1))
        (by simp [hne]) (by simpa [List.take_append_drop] using hds) .none
        (by rw [List.take_append_drop]; simp)
        (by rw [List.length_drop]; omega)
      exact ⟨0, by simpa [show power.natAbs + 1 - ds.length = 0 by omega] using h⟩

theorem spells_exponential (hne : ds ≠ []) (hds : ∀ c ∈ ds, c.isDigit = true) (power : Int) :
    ∃ j : Nat, Spells (exponential true ds power)
      ⟨ofDigits 10 ds * 10 ^ j, power + 1 - ds.length - j⟩ := by
  obtain ⟨c, cs, rfl⟩ := List.exists_cons_of_ne_nil hne
  cases cs with
  | nil =>
    have hzero : ofDigits 10 ([c] ++ List.replicate 1 '0') = ofDigits 10 [c] * 10 ^ 1 :=
      ofDigits_append_zeros
    have h := Spells.intro (n := ofDigits 10 [c] * 10 ^ 1) (k := power + 1 - [c].length - (1 : Nat))
      [c] ['0'] (by simp) (by simpa using hds) (.some power) hzero.symm (by simp)
    exact ⟨1, by simpa [exponential] using h⟩
  | cons d ds =>
    have h := Spells.intro (n := ofDigits 10 (c :: d :: ds) * 10 ^ 0)
      (k := power + 1 - (c :: d :: ds).length - (0 : Nat)) [c] (d :: ds) (by simp)
      (by simpa using hds) (.some power) (by simp) (by simp only [List.length_cons]; omega)
    exact ⟨0, by simpa [exponential] using h⟩

/-- Every layout sets digits that have the value of the decimal, wherever zeros are put behind
them. -/
theorem decimalText_digits (layout : FloatLayout) (d : Decimal) :
    ∃ ds power, ds ≠ [] ∧ (∀ c ∈ ds, c.isDigit = true) ∧
      layout.decimalText d =
        (if layout.positionalFrom ≤ power ∧ power ≤ layout.positionalTo then positional ds power
          else exponential layout.alwaysPointed ds power) ∧
      ∀ (j : Nat) (f : BinaryFormat),
        f.ofDecimal ⟨ofDigits 10 ds * 10 ^ j, power + 1 - ds.length - j⟩ = f.ofDecimal d := by
  obtain ⟨n, k⟩ := d
  by_cases hn : n = 0
  · refine ⟨['0'], 0, by simp, by simp, by simp [decimalText, hn], fun j f => ?_⟩
    simp [BinaryFormat.ofDecimal, hn, show ofDigits 10 ['0'] = 0 from rfl]
  · obtain ⟨z, hz, hne⟩ := dropEndWhile_natText hn
    have hds : ∀ c ∈ dropEndWhile (· == '0') (natText n), c.isDigit = true := fun c hc =>
      isDigit_of_mem_natText (n := n) (by rw [hz]; exact List.mem_append_left _ hc)
    refine ⟨_, k + ((natText n).length - 1 : Nat), hne, hds, by simp [decimalText, hn],
      fun j f => ?_⟩
    generalize dropEndWhile (· == '0') (natText n) = ds at hz hne hds
    have hvalue : n = ofDigits 10 ds * 10 ^ z := by
      rw [← ofDigits_append_zeros, ← hz, ofDigits_natText]
    have hlen : (natText n).length = ds.length + z := by rw [hz]; simp
    have hpos : 0 < ds.length := List.length_pos_iff.mpr hne
    rw [BinaryFormat.ofDecimal_scale,
      show k + ((natText n).length - 1 : Nat) + 1 - (ds.length : Int) = k + z by omega, hvalue,
      show k = k + z - z by omega, BinaryFormat.ofDecimal_scale]
    congr 2
    omega

/-- The text of a decimal spells one with the same value. -/
theorem spells_decimalText (layout : FloatLayout) (hpoint : layout.alwaysPointed = true)
    (d : Decimal) :
    ∃ s, Spells (layout.decimalText d) s ∧ ∀ f : BinaryFormat, f.ofDecimal s = f.ofDecimal d := by
  obtain ⟨ds, power, hne, hds, htext, hvalue⟩ := decimalText_digits layout d
  rw [htext]
  split
  · obtain ⟨j, hj⟩ := spells_positional hne hds power
    exact ⟨_, hj, hvalue j⟩
  · rw [hpoint]
    obtain ⟨j, hj⟩ := spells_exponential hne hds power
    exact ⟨_, hj, hvalue j⟩

theorem isDecimalChar_of_mem_positional (hds : ∀ d ∈ ds, d.isDigit = true)
    (h : c ∈ positional ds power) : isDecimalChar c = true := by
  have hdigit : ∀ d ∈ ds, isDecimalChar d = true := fun d hd => isDecimalChar_of_isDigit (hds d hd)
  have hzeros : ∀ k, ∀ d ∈ List.replicate k '0', isDecimalChar d = true := fun k d hd =>
    isDecimalChar_of_isDigit (isDigit_of_mem_zeros hd)
  unfold positional at h
  split at h
  · rcases List.mem_cons.mp h with rfl | h
    · decide
    rcases List.mem_cons.mp h with rfl | h
    · decide
    rcases List.mem_append.mp h with h | h
    · exact hzeros _ c h
    · exact hdigit c h
  · rcases List.mem_append.mp h with h | h
    · rcases List.mem_append.mp h with h | h
      · exact hdigit c (List.mem_of_mem_take h)
      · exact hzeros _ c h
    rcases List.mem_cons.mp h with rfl | h
    · decide
    split at h
    · rw [List.mem_singleton.mp h]
      decide
    · exact hdigit c (List.mem_of_mem_drop h)

theorem isDecimalChar_of_mem_exponential (hds : ∀ d ∈ ds, d.isDigit = true)
    (h : c ∈ exponential pointed ds power) : isDecimalChar c = true := by
  have hdigit : ∀ d ∈ ds, isDecimalChar d = true := fun d hd => isDecimalChar_of_isDigit (hds d hd)
  simp only [exponential] at h
  rcases List.mem_append.mp h with h | h
  · rcases List.mem_append.mp h with h | h
    · exact hdigit c (List.mem_of_mem_take h)
    split at h
    · split at h
      · rcases List.mem_cons.mp h with rfl | h
        · decide
        · rw [List.mem_singleton.mp h]
          decide
      · cases h
    · rename_i hmore
      rcases List.mem_cons.mp h with rfl | h
      · decide
      · exact hdigit c (List.mem_of_mem_drop h)
  · rcases List.mem_cons.mp h with rfl | h
    · decide
    · exact isDecimalChar_of_mem_intText h

theorem isDecimalChar_of_mem_decimalText (layout : FloatLayout)
    (h : c ∈ layout.decimalText d) : isDecimalChar c = true := by
  obtain ⟨ds, power, -, hds, htext, -⟩ := decimalText_digits layout d
  rw [htext] at h
  split at h
  · exact isDecimalChar_of_mem_positional hds h
  · exact isDecimalChar_of_mem_exponential hds h

theorem isDecimalChar_of_mem_text (layout : FloatLayout) (f : BinaryFormat)
    (h : c ∈ layout.text f negative magnitude) : isDecimalChar c = true := by
  simp only [FloatLayout.text] at h
  split at h
  · rcases List.mem_cons.mp h with rfl | h
    · decide
    · exact isDecimalChar_of_mem_decimalText layout h
  · exact isDecimalChar_of_mem_decimalText layout h

end FloatLayout

-- ---------------------------------------------------------------------------
-- Operands
-- ---------------------------------------------------------------------------

/-- A text that spells a decimal, after a minus sign or not, is read as the nearest number. -/
theorem FloatLiteral.read_of_spells (h : Spells text d) (negative : Bool) :
    read (if negative then '-' :: text else text) =
      some (Single.ofMagnitude negative (BinaryFormat.single.ofDecimal d)) := by
  have hds := unsignedDecimal_of_spells h
  obtain ⟨c, cs, rfl, hc⟩ := h.head
  have hplus : c ≠ '+' := by rintro rfl; simp at hc
  cases negative with
  | false => exact read_decimalLiteral (by simp [hplus]) (.bare hds)
  | true => exact read_decimalLiteral (by simp) (.minus hds)

namespace Single

variable {x : Single}

theorem ofMagnitude_magnitude (x : Single) : ofMagnitude x.isNegative x.magnitude = x := by
  obtain ⟨bits⟩ := x
  have hlt := bits.toNat_lt
  have hsign : BinaryFormat.single.signBit = 2 ^ 31 := by decide
  simp only [ofMagnitude, isNegative, magnitude, hsign, mk.injEq, decide_eq_true_eq]
  rw [← UInt32.toNat_inj, UInt32.toNat_ofNat']
  split <;> omega

theorem magnitude_lt_infinity (h : x.isFinite = true) :
    x.magnitude < BinaryFormat.single.infinity := by
  simpa [isFinite] using h

/-- The operand of a finite number, and a decimal that is nearest to it. -/
theorem operandText_spells (h : x.isFinite = true) :
    ∃ text d, Spells text d ∧ BinaryFormat.single.ofDecimal d = x.magnitude ∧
      x.operandText.toList = if x.isNegative then '-' :: text else text := by
  obtain ⟨d, hd, hvalue⟩ := FloatLayout.spells_decimalText operandLayout rfl
    (BinaryFormat.single.shortest x.magnitude)
  refine ⟨_, d, hd, ?_, ?_⟩
  · rw [hvalue, BinaryFormat.ofDecimal_shortest (magnitude_lt_infinity h)]
  · simp [operandText, h, FloatLayout.text]

theorem read_operandText (h : x.isFinite = true) :
    FloatLiteral.read x.operandText.toList = some x := by
  obtain ⟨text, d, hd, hvalue, htext⟩ := operandText_spells h
  rw [htext, FloatLiteral.read_of_spells hd, hvalue, ofMagnitude_magnitude]

theorem operandText_chars (h : x.isFinite = true) :
    '.' ∈ x.operandText.toList ∧ ∀ c ∈ x.operandText.toList, isDecimalChar c = true := by
  obtain ⟨text, d, hd, -, htext⟩ := operandText_spells h
  rw [htext]
  refine ⟨?_, fun c hc => ?_⟩
  · have := hd.point_mem
    split <;> simp [this]
  · split at hc
    · rcases List.mem_cons.mp hc with rfl | hc
      · decide
      · exact hd.isDecimalChar hc
    · exact hd.isDecimalChar hc

end Single

end ClassText
