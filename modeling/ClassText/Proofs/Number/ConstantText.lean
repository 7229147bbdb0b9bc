import ClassText.Pool.Text
import ClassText.Proofs.Number.FloatText

/-!
# Different numbers of a pool have different texts

`intText_inj` says it of integers. `Single.constantText_inj` and `Double.constantText_inj` say it
of floating-point numbers, down to the sign of zero, except that all bit patterns that are no
number have one text: the text of a finite number is read as the decimal it was written from,
and that decimal is nearest to no other number.
-/

namespace ClassText

theorem intText_inj {i j : Int} : intText i = intText j ↔ i = j := by
  constructor
  · intro h
    have hleft := IntRange.read_intText ⟨min i j, max i j⟩ (i := i) (by simp only; omega)
      (by simp only; omega)
    have hright := IntRange.read_intText ⟨min i j, max i j⟩ (i := j) (by simp only; omega)
      (by simp only; omega)
    rw [h, hright] at hleft
    exact (Option.some.inj hleft).symm
  · rintro rfl
    rfl

-- ---------------------------------------------------------------------------
-- Finite numbers
-- ---------------------------------------------------------------------------

namespace FloatLayout

theorem readDecimal_exponential (hne : ds ≠ []) (hds : ∀ c ∈ ds, c.isDigit = true) (power : Int) :
    ∃ j : Nat, FloatLiteral.readDecimal (exponential pointed ds power) =
      some ⟨ofDigits 10 ds * 10 ^ j, power + 1 - ds.length - j⟩ := by
  have hspelled : exponential pointed ds power = exponential true ds power →
      ∃ j : Nat, FloatLiteral.readDecimal (exponential pointed ds power) =
        some ⟨ofDigits 10 ds * 10 ^ j, power + 1 - ds.length - j⟩ := by
    intro htext
    obtain ⟨j, hj⟩ := spells_exponential hne hds power
    exact ⟨j, htext ▸ FloatLiteral.readDecimal_of_spells hj⟩
  cases pointed with
  | true => exact hspelled rfl
  | false =>
    obtain ⟨c, cs, rfl⟩ := List.exists_cons_of_ne_nil hne
    cases cs with
    | nil =>
      -- a single digit stands before the exponent without a point
      have hall : allDigits Char.isDigit [c] = true := by simpa [allDigits] using hds
      have hpointed : FloatLiteral.Pointed 10 [c] (ofDigits 10 [c]) 0 :=
        .whole (numeral_ten_iff.mpr ⟨hall, rfl⟩)
      have htext : exponential false [c] power = [c] ++ 'e' :: intText power := rfl
      refine ⟨0, ?_⟩
      rw [htext, FloatLiteral.readDecimal_eq_some_iff]
      simpa using FloatLiteral.UnsignedDecimal.scaled hpointed (.inl rfl)
        FloatLiteral.exponent_intText
    | cons d cs => exact hspelled rfl

theorem head_exponential (hne : ds ≠ []) (hds : ∀ c ∈ ds, c.isDigit = true) (power : Int) :
    ∃ c cs, exponential pointed ds power = c :: cs ∧ c.isDigit = true := by
  obtain ⟨c, cs, rfl⟩ := List.exists_cons_of_ne_nil hne
  exact ⟨c, _, rfl, hds c List.mem_cons_self⟩

/-- The text of a decimal in a pool starts with a digit, and is read as a decimal of the same
value. -/
theorem readDecimal_constantText (d : Decimal) :
    (∃ c cs, constantLayout.decimalText d = c :: cs ∧ c.isDigit = true) ∧
      ∃ s, FloatLiteral.readDecimal (constantLayout.decimalText d) = some s ∧
        ∀ f : BinaryFormat, f.ofDecimal s = f.ofDecimal d := by
  obtain ⟨ds, power, hne, hds, htext, hvalue⟩ := decimalText_digits constantLayout d
  have hexponent : ¬(constantLayout.positionalFrom ≤ power ∧
      power ≤ constantLayout.positionalTo) := by
    simp only [constantLayout]
    omega
  rw [if_neg hexponent] at htext
  obtain ⟨j, hj⟩ : ∃ j : Nat,
      FloatLiteral.readDecimal (exponential constantLayout.alwaysPointed ds power) = _ :=
    readDecimal_exponential hne hds power
  rw [htext]
  exact ⟨head_exponential hne hds power, _, hj, hvalue j⟩

theorem decimalText_shortest_inj {f : BinaryFormat} (hm : m < f.infinity) (hn : n < f.infinity)
    (h : constantLayout.decimalText (f.shortest m) = constantLayout.decimalText (f.shortest n)) :
    m = n := by
  obtain ⟨-, s, hs, hvalue⟩ := readDecimal_constantText (f.shortest m)
  obtain ⟨-, t, ht, hvalue'⟩ := readDecimal_constantText (f.shortest n)
  rw [h, ht] at hs
  obtain rfl : t = s := Option.some.inj hs
  calc m = f.ofDecimal (f.shortest m) := (BinaryFormat.ofDecimal_shortest hm).symm
    _ = f.ofDecimal (f.shortest n) := by rw [← hvalue, hvalue']
    _ = n := BinaryFormat.ofDecimal_shortest hn

/-- Texts of finite numbers start with a digit, after a minus sign or not. -/
theorem text_eq (f : BinaryFormat) (negative : Bool) (magnitude : Nat) :
    ∃ c cs, c.isDigit = true ∧ c :: cs = constantLayout.decimalText (f.shortest magnitude) ∧
      constantLayout.text f negative magnitude = if negative then '-' :: c :: cs else c :: cs := by
  obtain ⟨⟨c, cs, htext, hc⟩, -⟩ := readDecimal_constantText (f.shortest magnitude)
  exact ⟨c, cs, hc, htext.symm, by rw [FloatLayout.text, htext]⟩

theorem text_inj {f : BinaryFormat} (hm : m < f.infinity) (hn : n < f.infinity)
    (h : constantLayout.text f a m = constantLayout.text f b n) : a = b ∧ m = n := by
  obtain ⟨c, cs, hc, hleft, htext⟩ := text_eq f a m
  obtain ⟨d, ds, hd, hright, htext'⟩ := text_eq f b n
  have hminus : ('-' : Char).isDigit = false := by decide
  rw [htext, htext'] at h
  cases a with
  | false =>
    cases b with
    | false =>
      simp only [Bool.false_eq_true, if_false] at h
      exact ⟨rfl, decimalText_shortest_inj hm hn (hleft ▸ hright ▸ h)⟩
    | true =>
      simp only [Bool.false_eq_true, if_false, if_true, List.cons.injEq] at h
      rw [h.1, hminus] at hc
      cases hc
  | true =>
    cases b with
    | false =>
      simp only [Bool.false_eq_true, if_false, if_true, List.cons.injEq] at h
      rw [← h.1, hminus] at hd
      cases hd
    | true =>
      simp only [if_true, List.cons.injEq, true_and] at h
      exact ⟨rfl, decimalText_shortest_inj hm hn (by rw [← hleft, ← hright, h.1, h.2])⟩

end FloatLayout

-- ---------------------------------------------------------------------------
-- All numbers
-- ---------------------------------------------------------------------------

/-- The text of a number in a pool, up to the letter for its format. -/
def numberText (f : BinaryFormat) (negative : Bool) (magnitude : Nat) : String :=
  if magnitude < f.infinity then String.ofList (constantLayout.text f negative magnitude)
  else specialText (f.infinity < magnitude) negative

theorem specialText_eq : ∀ isNaN negative, ∃ sign letter rest,
    (specialText isNaN negative).toList = sign :: letter :: rest ∧
      sign.isDigit = false ∧ letter.isDigit = false
  | true, _ => ⟨'+', 'N', "aN".toList, by simp [specialText], by decide, by decide⟩
  | false, true => ⟨'-', 'I', "nfinity".toList, by simp [specialText], by decide, by decide⟩
  | false, false => ⟨'+', 'I', "nfinity".toList, by simp [specialText], by decide, by decide⟩

/-- A finite number has a digit where the others have a sign or a letter. -/
theorem specialText_ne (f : BinaryFormat) (isNaN a b : Bool) (m : Nat) :
    specialText isNaN a ≠ String.ofList (constantLayout.text f b m) := by
  obtain ⟨sign, letter, rest, hspecial, hsign, hletter⟩ := specialText_eq isNaN a
  obtain ⟨c, cs, hc, -, htext⟩ := FloatLayout.text_eq f b m
  intro h
  rw [← String.toList_inj, String.toList_ofList, hspecial, htext] at h
  cases b with
  | false =>
    cases h
    rw [hc] at hsign
    cases hsign
  | true =>
    cases h
    rw [hc] at hletter
    cases hletter

theorem specialText_inj : ∀ p q a b, specialText p a = specialText q b →
    p = true ∧ q = true ∨ p = false ∧ q = false ∧ a = b := by
  decide

theorem numberText_inj {f : BinaryFormat} (h : numberText f a m = numberText f b n) :
    a = b ∧ m = n ∨ f.infinity < m ∧ f.infinity < n := by
  unfold numberText at h
  split at h
  · rename_i hm
    split at h
    · rename_i hn
      exact .inl (FloatLayout.text_inj hm hn (String.ofList_injective h))
    · exact absurd h.symm (specialText_ne _ _ _ _ _)
  · rename_i hm
    split at h
    · exact absurd h (specialText_ne _ _ _ _ _)
    · rename_i hn
      rcases specialText_inj _ _ _ _ h with ⟨hleft, hright⟩ | ⟨hleft, hright, hsign⟩
      · exact .inr ⟨of_decide_eq_true hleft, of_decide_eq_true hright⟩
      · have hm' := of_decide_eq_false hleft
        have hn' := of_decide_eq_false hright
        exact .inl ⟨hsign, by omega⟩

namespace Single

variable {x y : Single}

theorem constantText_eq (x : Single) :
    x.constantText = numberText BinaryFormat.single x.isNegative x.magnitude ++ "f" := by
  simp only [constantText, numberText, isFinite, isNaN, decide_eq_true_eq]

theorem constantText_inj (h : x.constantText = y.constantText) :
    x = y ∨ x.isNaN = true ∧ y.isNaN = true := by
  rw [constantText_eq, constantText_eq, String.append_left_inj] at h
  rcases numberText_inj h with ⟨hsign, hmagnitude⟩ | ⟨hx, hy⟩
  · left
    rw [← ofMagnitude_magnitude x, ← ofMagnitude_magnitude y, hsign, hmagnitude]
  · exact .inr ⟨decide_eq_true hx, decide_eq_true hy⟩

end Single

namespace Double

variable {x y : Double}

theorem ext_magnitude (hsign : x.isNegative = y.isNegative)
    (hmagnitude : x.magnitude = y.magnitude) : x = y := by
  obtain ⟨a⟩ := x
  obtain ⟨b⟩ := y
  have ha := a.toNat_lt
  have hb := b.toNat_lt
  have hbit : BinaryFormat.double.signBit = 2 ^ 63 := by decide
  simp only [isNegative, magnitude, hbit, mk.injEq, decide_eq_decide] at hsign hmagnitude ⊢
  rw [← UInt64.toNat_inj]
  omega

theorem constantText_inj (h : x.constantText = y.constantText) :
    x = y ∨ x.isNaN = true ∧ y.isNaN = true := by
  have htext : ∀ z : Double,
      z.constantText = numberText BinaryFormat.double z.isNegative z.magnitude := by
    intro z
    simp only [constantText, numberText, isFinite, isNaN, decide_eq_true_eq]
  rw [htext, htext] at h
  rcases numberText_inj h with ⟨hsign, hmagnitude⟩ | ⟨hx, hy⟩
  · exact .inl (ext_magnitude hsign hmagnitude)
  · exact .inr ⟨decide_eq_true hx, decide_eq_true hy⟩

end Double

end ClassText
