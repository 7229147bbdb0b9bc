import ClassText.Number.Binary
import ClassText.Number.IntLiteral

/-!
# Written integers are read back

`read_intText`: every range reads the decimal text of each of its integers as that
integer. On the way, what decimal digits denote when zeros stand before or after them.
-/

namespace ClassText

-- ---------------------------------------------------------------------------
-- Digits
-- ---------------------------------------------------------------------------

theorem isDigit_of_mem_natText (h : c ∈ natText n) : c.isDigit = true :=
  Nat.isDigit_of_mem_toDigits (by decide) (by decide) h

theorem natText_ne_nil : natText n ≠ [] := Nat.toDigits_ne_nil

theorem allDigits_natText : allDigits Char.isDigit (natText n) = true := by
  simp only [allDigits, Bool.and_eq_true, Bool.not_eq_true', List.isEmpty_eq_false_iff,
    List.all_eq_true]
  exact ⟨natText_ne_nil, fun c hc => isDigit_of_mem_natText hc⟩

@[simp] theorem ofDigits_nil : ofDigits b [] = 0 := rfl

theorem ofDigits_append :
    ofDigits b (ds ++ es) = es.foldl (fun n c => n * b + digitValue c) (ofDigits b ds) := by
  simp [ofDigits]

/-- The values of decimal digits are those that core's digit functions go by. -/
theorem foldl_digitValue (h : ∀ c ∈ ds, c.isDigit = true) :
    ds.foldl (fun n c => n * b + digitValue c) n = Nat.ofDigitChars b ds n := by
  induction ds generalizing n with
  | nil => rfl
  | cons c ds ih =>
    have hc : c.isDigit = true := h c (by simp)
    rw [List.foldl_cons, ih fun d hd => h d (List.mem_cons_of_mem _ hd), Nat.ofDigitChars_cons,
      Nat.mul_comm]
    simp only [digitValue, hc, if_true]

theorem ofDigits_eq_ofDigitChars (h : ∀ c ∈ ds, c.isDigit = true) :
    ofDigits b ds = Nat.ofDigitChars b ds 0 := foldl_digitValue h

theorem ofDigits_natText : ofDigits 10 (natText n) = n := by
  rw [ofDigits_eq_ofDigitChars fun c hc => isDigit_of_mem_natText hc]
  exact Nat.ofDigitChars_ten_toDigits

theorem isDigit_of_mem_zeros (h : c ∈ List.replicate k '0') : c.isDigit = true := by
  rw [List.eq_of_mem_replicate h]
  decide

theorem ofDigits_append_zeros :
    ofDigits 10 (ds ++ List.replicate k '0') = ofDigits 10 ds * 10 ^ k := by
  rw [ofDigits_append, foldl_digitValue fun c => isDigit_of_mem_zeros,
    Nat.ofDigitChars_replicate_zero, Nat.mul_comm]

theorem ofDigits_zeros_append :
    ofDigits 10 (List.replicate k '0' ++ ds) = ofDigits 10 ds := by
  have hz : ofDigits 10 ([] ++ List.replicate k '0') = ofDigits 10 [] * 10 ^ k :=
    ofDigits_append_zeros
  rw [List.nil_append, ofDigits_nil, Nat.zero_mul] at hz
  rw [ofDigits_append, hz]
  rfl

-- ---------------------------------------------------------------------------
-- Integers
-- ---------------------------------------------------------------------------

theorem isDigit_or_of_mem_intText (h : c ∈ intText i) : c.isDigit = true ∨ c = '-' := by
  unfold intText at h
  split at h
  · rcases List.mem_cons.mp h with rfl | h
    · exact .inr rfl
    · exact .inl (isDigit_of_mem_natText h)
  · exact .inl (isDigit_of_mem_natText h)

theorem not_mem_intText (hd : c.isDigit = false) (hc : c ≠ '-') : c ∉ intText i := by
  intro h
  rcases isDigit_or_of_mem_intText h with h | h
  · simp [hd] at h
  · exact hc h

namespace IntRange

/-- Digits without a sign are read as decimal ones; a hexadecimal literal has an `x`. -/
theorem readUnsigned_natText (range : IntRange) (n : Nat) :
    range.readUnsigned (natText n) = range.fit n := by
  have hd : ∀ c ∈ natText n, c.isDigit = true := fun c hc => isDigit_of_mem_natText hc
  unfold readUnsigned
  split
  · rename_i h; simp [h] at hd
  · rename_i h; simp [h] at hd
  · rename_i h; simp [h] at hd
  · unfold readDecimal
    split
    · rename_i h; simp [h] at hd
    · rw [allDigits_natText, if_pos rfl, ofDigits_natText]

theorem readUnsigned_minus (range : IntRange) (hlow : range.low < 0) (hn : n ≠ 0) :
    range.readUnsigned ('-' :: natText n) = range.fit (-n) := by
  have hd : ∀ c ∈ natText n, c.isDigit = true := fun c hc => isDigit_of_mem_natText hc
  unfold readUnsigned
  split
  · rename_i h
    have h : natText n = ['0'] := by simpa using h
    have hn' := ofDigits_natText (n := n)
    rw [h] at hn'
    exact absurd hn'.symm hn
  · rename_i h
    simp only [List.cons.injEq, true_and] at h
    simp [h] at hd
  · rename_i h; simp at h
  · simp only [readDecimal, hlow, allDigits_natText, and_self, if_true, ofDigits_natText]

theorem dropPlus_intText : (intText i).dropWhile (· == '+') = intText i := by
  cases ht : intText i with
  | nil => rfl
  | cons c cs =>
    have hc : c ≠ '+' := by
      rintro rfl
      exact not_mem_intText (by decide) (by decide) (ht ▸ List.mem_cons_self)
    simp [hc]

theorem read_intText (range : IntRange) (hlow : range.low ≤ i) (hhigh : i ≤ range.high) :
    range.read (intText i) = some i := by
  have hfit : range.fit i = some i := by simp [fit, hlow, hhigh]
  rw [read, dropPlus_intText, intText]
  split
  · rename_i hi
    rw [readUnsigned_minus range (by omega) (by omega),
      show (-(i.natAbs : Int)) = i by omega, hfit]
  · rw [readUnsigned_natText, show ((i.natAbs : Nat) : Int) = i by omega, hfit]

end IntRange

end ClassText
