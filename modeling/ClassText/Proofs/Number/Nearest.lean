import ClassText.Number.Decimal

/-!
# Rounding decimals

`ofDecimal_scale`: the number nearest to a decimal depends on its value alone, not on how
the value is split into a coefficient and an exponent. `ofDecimal_shortest`: the shortest
decimal of a finite magnitude is read as that magnitude.
-/

namespace ClassText

def Decimal.numerator (d : Decimal) : Nat := d.coefficient * 10 ^ d.exponent.toNat

def Decimal.denominator (d : Decimal) : Nat := 10 ^ (-d.exponent).toNat

theorem Decimal.denominator_pos : 0 < Decimal.denominator d := Nat.pow_pos (by decide)

namespace BinaryFormat

variable {f : BinaryFormat}

-- ---------------------------------------------------------------------------
-- Fractions of one value
-- ---------------------------------------------------------------------------

theorem divNearest_mul_right (hk : 0 < k) : divNearest (a * k) (b * k) = divNearest a b := by
  have hlt : 2 * (a % b * k) < b * k ↔ 2 * (a % b) < b := by
    rw [← Nat.mul_assoc]
    exact Nat.mul_lt_mul_right hk
  have heq : 2 * (a % b * k) = b * k ↔ 2 * (a % b) = b := by
    rw [← Nat.mul_assoc]
    exact Nat.mul_left_inj (by omega)
  simp only [divNearest, Nat.mul_mod_mul_right, Nat.mul_div_mul_right _ _ hk, hlt, heq]

theorem divNearest_mul_self (hb : 0 < b) : divNearest (q * b) b = q := by
  simp [divNearest, Nat.mul_div_cancel _ hb, hb]

theorem nearest_mul_right (hk : 0 < k) : f.nearest (a * k) (b * k) = f.nearest a b := by
  have hscaled : a * k * 2 ^ f.unitPlaces = a * 2 ^ f.unitPlaces * k := Nat.mul_right_comm ..
  simp only [nearest, hscaled, Nat.mul_div_mul_right _ _ hk, Nat.mul_right_comm b k,
    divNearest_mul_right hk]

theorem nearest_congr (hb : 0 < b) (hd : 0 < d) (h : a * d = c * b) :
    f.nearest a b = f.nearest c d :=
  calc f.nearest a b = f.nearest (a * d) (b * d) := (nearest_mul_right hd).symm
    _ = f.nearest (c * b) (d * b) := by rw [h, Nat.mul_comm b]
    _ = f.nearest c d := nearest_mul_right hb

-- ---------------------------------------------------------------------------
-- Numbers of the format
-- ---------------------------------------------------------------------------

/-- The significand of a normal number fills the fraction field and the leading digit. -/
theorem log2_units (h : 2 ^ f.fractionBits ≤ m) :
    (f.units m).log2 = f.fractionBits + f.scale m := by
  have hr : m % 2 ^ f.fractionBits < 2 ^ f.fractionBits := Nat.mod_lt _ (Nat.two_pow_pos _)
  have hs : f.significand m = 2 ^ f.fractionBits + m % 2 ^ f.fractionBits := by
    rw [significand, if_neg (by omega)]
  have hpos : f.units m ≠ 0 := by
    have := Nat.two_pow_pos f.fractionBits
    exact Nat.mul_ne_zero (by omega) (by simp)
  rw [Nat.log2_eq_iff hpos, units, hs]
  constructor
  · rw [Nat.pow_add]
    exact Nat.mul_le_mul_right _ (by omega)
  · rw [show f.fractionBits + f.scale m + 1 = f.fractionBits + 1 + f.scale m by omega, Nat.pow_add]
    refine Nat.mul_lt_mul_of_pos_right ?_ (Nat.two_pow_pos _)
    rw [Nat.pow_succ]
    omega

/-- Scaling back by the places that the units of a magnitude have beyond the fraction field. -/
theorem nearest_units (hm : m < f.infinity) : f.nearest (f.units m) (2 ^ f.unitPlaces) = m := by
  have hU : 0 < 2 ^ f.unitPlaces := Nat.two_pow_pos _
  have hswap : ∀ k, divNearest (f.units m * 2 ^ f.unitPlaces) (2 ^ f.unitPlaces * k) =
      divNearest (f.units m) k := fun k => by
    rw [Nat.mul_comm _ k, divNearest_mul_right hU]
  simp only [nearest, Nat.mul_div_cancel _ hU, hswap]
  by_cases hn : m < 2 ^ f.fractionBits
  · have hscale : f.scale m = 0 := by simp [scale, Nat.div_eq_of_lt hn]
    have hunits : f.units m = m := by simp [units, hscale, significand, hn]
    have hshift : m.log2 - f.fractionBits = 0 := by
      by_cases h0 : m = 0
      · simp [h0]
      · have := (Nat.log2_lt h0).mpr hn
        omega
    have hexact := divNearest_mul_self (q := m) (b := 1) (by decide)
    rw [Nat.mul_one] at hexact
    rw [hunits, hshift, Nat.pow_zero, hexact]
    omega
  · have hshift : (f.units m).log2 - f.fractionBits = f.scale m := by
      rw [log2_units (by omega)]
      omega
    have hvalue : f.scale m * 2 ^ f.fractionBits + f.significand m = m := by
      have hdiv := Nat.div_add_mod m (2 ^ f.fractionBits)
      have hone : 1 ≤ m / 2 ^ f.fractionBits :=
        (Nat.le_div_iff_mul_le (Nat.two_pow_pos _)).mpr (by omega)
      have hsplit : (m / 2 ^ f.fractionBits - 1) * 2 ^ f.fractionBits + 2 ^ f.fractionBits =
          2 ^ f.fractionBits * (m / 2 ^ f.fractionBits) := by
        rw [← Nat.succ_mul, Nat.succ_eq_add_one, Nat.sub_add_cancel hone, Nat.mul_comm]
      rw [scale, significand, if_neg hn]
      omega
    rw [hshift, units, divNearest_mul_self (Nat.two_pow_pos _), hvalue]
    omega

-- ---------------------------------------------------------------------------
-- Decimals far outside the range
-- ---------------------------------------------------------------------------

theorem fractionBits_le_unitPlaces : f.fractionBits ≤ f.unitPlaces := by
  rw [unitPlaces]
  omega

theorem nearest_eq_infinity (h : f.fractionBits + 2 ^ f.exponentBits ≤
    (a * 2 ^ f.unitPlaces / b).log2) : f.nearest a b = f.infinity := by
  refine Nat.min_eq_right (Nat.le_add_right_of_le ?_)
  rw [infinity]
  exact Nat.mul_le_mul_right _ (by omega)

theorem nearest_of_large {c e : Nat} (hc : c ≠ 0) (he : 2 ^ f.exponentBits < e) :
    f.nearest (c * 10 ^ e) 1 = f.infinity := by
  refine nearest_eq_infinity ?_
  have hpos : 0 < c * 10 ^ e * 2 ^ f.unitPlaces :=
    Nat.mul_pos (Nat.mul_pos (by omega) (Nat.pow_pos (by decide))) (Nat.two_pow_pos _)
  rw [Nat.div_one, Nat.le_log2 (by omega)]
  have hbits := fractionBits_le_unitPlaces (f := f)
  calc 2 ^ (f.fractionBits + 2 ^ f.exponentBits)
    _ ≤ 2 ^ (e + f.unitPlaces) := Nat.pow_le_pow_right (by decide) (by omega)
    _ = 1 * 2 ^ e * 2 ^ f.unitPlaces := by rw [Nat.pow_add, Nat.one_mul]
    _ ≤ c * 10 ^ e * 2 ^ f.unitPlaces :=
      Nat.mul_le_mul_right _ (Nat.mul_le_mul (by omega) (Nat.pow_le_pow_left (by decide) e))

theorem nearest_eq_zero (h : 2 * (a * 2 ^ f.unitPlaces) < b) : f.nearest a b = 0 := by
  have hlt : a * 2 ^ f.unitPlaces < b := by omega
  have hmod : a * 2 ^ f.unitPlaces % b = a * 2 ^ f.unitPlaces := Nat.mod_eq_of_lt hlt
  simp [nearest, Nat.div_eq_of_lt hlt, divNearest, hmod, h]

theorem nearest_of_small (h : c.log2 + f.unitPlaces + 2 < e) : f.nearest c (10 ^ e) = 0 := by
  refine nearest_eq_zero ?_
  calc 2 * (c * 2 ^ f.unitPlaces)
    _ < 2 * (2 ^ (c.log2 + 1) * 2 ^ f.unitPlaces) :=
      Nat.mul_lt_mul_of_pos_left
        (Nat.mul_lt_mul_of_pos_right Nat.lt_log2_self (Nat.two_pow_pos _)) (by decide)
    _ = 2 ^ (c.log2 + f.unitPlaces + 2) := by
      rw [← Nat.pow_add, ← Nat.pow_succ']
      congr 1
      omega
    _ ≤ 2 ^ e := Nat.pow_le_pow_right (by decide) (by omega)
    _ ≤ 10 ^ e := Nat.pow_le_pow_left (by decide) e

-- ---------------------------------------------------------------------------
-- Reading decimals
-- ---------------------------------------------------------------------------

/-- The cases that are settled without powers of ten agree with the general rule. -/
theorem ofDecimal_eq_nearest (d : Decimal) :
    f.ofDecimal d = f.nearest d.numerator d.denominator := by
  obtain ⟨c, e⟩ := d
  simp only [ofDecimal, Decimal.numerator, Decimal.denominator]
  split
  · rename_i hc
    rw [nearest_eq_zero]
    rw [hc, Nat.zero_mul, Nat.zero_mul, Nat.mul_zero]
    exact Nat.pow_pos (by decide)
  split
  · rename_i hc he
    have hpos : 0 < e := Int.lt_of_le_of_lt (Int.natCast_nonneg _) he
    obtain ⟨n, rfl⟩ := Int.eq_ofNat_of_zero_le (Int.le_of_lt hpos)
    have hn : 2 ^ f.exponentBits < n := Int.ofNat_lt.mp he
    rw [show (-(n : Int)).toNat = 0 by omega, Nat.pow_zero, Int.toNat_natCast,
      nearest_of_large hc hn]
  split
  · rename_i hc _ he
    rw [show e.toNat = 0 by omega, Nat.pow_zero, Nat.mul_one, nearest_of_small (by omega)]
  · cases e with
    | ofNat n =>
      rw [show (-(Int.ofNat n)).toNat = 0 by simp, Nat.pow_zero]
      rfl
    | negSucc n =>
      rw [show (Int.negSucc n).toNat = 0 by rfl, Nat.pow_zero, Nat.mul_one]
      rfl

theorem ofDecimal_scale {c j : Nat} {e : Int} :
    f.ofDecimal ⟨c * 10 ^ j, e - j⟩ = f.ofDecimal ⟨c, e⟩ := by
  rw [ofDecimal_eq_nearest, ofDecimal_eq_nearest]
  refine nearest_congr Decimal.denominator_pos Decimal.denominator_pos ?_
  simp only [Decimal.numerator, Decimal.denominator, Nat.mul_assoc, ← Nat.pow_add]
  rw [show j + (e - j).toNat + (-e).toNat = e.toNat + (-(e - j)).toNat by omega]

theorem ofDecimal_toDecimal (hm : m < f.infinity) : f.ofDecimal (f.toDecimal m) = m := by
  rw [ofDecimal_eq_nearest]
  refine Eq.trans (nearest_congr Decimal.denominator_pos (Nat.two_pow_pos f.unitPlaces) ?_)
    (nearest_units hm)
  simp only [toDecimal, Decimal.numerator, Decimal.denominator, Int.neg_neg, Int.toNat_natCast,
    show (-(f.unitPlaces : Int)).toNat = 0 by omega, Nat.pow_zero, Nat.mul_one]
  rw [Nat.mul_assoc, ← Nat.mul_pow]

/-- Digits are dropped only if the shorter decimal is read as the same magnitude. -/
theorem ofDecimal_shorten (h : f.shorten? m d places = some s) : f.ofDecimal s = m := by
  unfold shorten? at h
  dsimp only at h
  split at h <;> simpa using List.find?_some h

theorem ofDecimal_shortestFrom (h : f.ofDecimal d = m) :
    f.ofDecimal (f.shortestFrom m d places) = m := by
  induction places with
  | zero => exact h
  | succ places ih =>
    rw [shortestFrom]
    cases hs : f.shorten? m d (places + 1) with
    | none => exact ih
    | some s => exact ofDecimal_shorten hs

theorem ofDecimal_shortest (hm : m < f.infinity) : f.ofDecimal (f.shortest m) = m :=
  ofDecimal_shortestFrom (ofDecimal_toDecimal hm)

end BinaryFormat

end ClassText
