import ClassText.Proofs.Number.FloatLiteral

/-!
# Type letters behind floating-point literals

`read_typeLetter_iff`: a type letter behind a text changes nothing, save that a hexadecimal
literal with a capital `P` before its exponent is refused with one. The letters are hexadecimal
digits too, so what is read rests on where a hexadecimal literal ends: in a decimal digit of its
exponent. That a reader of hexadecimal literals asks for one is all that has to be known of it.
-/

namespace ClassText.FloatLiteral

variable {hex : List Char → Option Single} {ds es text body : List Char} {mark letter c : Char}

-- ---------------------------------------------------------------------------
-- Hexadecimal literals
-- ---------------------------------------------------------------------------

def EndsInDigit (text : List Char) : Prop :=
  ∃ c, text.getLast? = some c ∧ c.isDigit = true

theorem EndsInDigit.append (h : EndsInDigit es) (ds : List Char) : EndsInDigit (ds ++ es) := by
  obtain ⟨c, hlast, hc⟩ := h
  exact ⟨c, by rw [List.getLast?_append, hlast, Option.some_or], hc⟩

theorem endsInDigit_numeral (h : Numeral 10 ds n) : EndsInDigit ds := by
  cases h with
  | digit hc => exact ⟨_, rfl, (isDigitOf_ten.mp hc).1⟩
  | more _ hc => exact ⟨_, List.getLast?_concat, (isDigitOf_ten.mp hc).1⟩

theorem endsInDigit_exponent (h : Exponent ds e) : EndsInDigit ds := by
  cases h with
  | bare hds => exact endsInDigit_numeral hds
  | plus hds => exact (endsInDigit_numeral hds).append ['+']
  | minus hds => exact (endsInDigit_numeral hds).append ['-']

theorem endsInDigit_scaled (h : Scaled mark ds) : EndsInDigit ds := by
  obtain ⟨-, he⟩ := h
  exact ((endsInDigit_exponent he).append [mark]).append _

/-- Whatever digits it has, a hexadecimal literal ends in a decimal one. -/
theorem endsInDigit_hexLiteral (h : HexLiteral mark text) : EndsInDigit text := by
  cases h with
  | bare hds => exact (endsInDigit_scaled hds).append ['0', 'x']
  | minus hds => exact (endsInDigit_scaled hds).append ['-', '0', 'x']

theorem mark_mem_scaled (h : Scaled mark ds) : mark ∈ ds := by
  obtain ⟨-, -⟩ := h
  simp

theorem mark_mem_hexLiteral (h : HexLiteral mark text) : mark ∈ text := by
  cases h with
  | bare hds => simp [mark_mem_scaled hds]
  | minus hds => simp [mark_mem_scaled hds]

/-- Hexadecimal digits hold no other mark of an exponent. -/
theorem lower_not_mem_scaled (h : Scaled 'P' ds) : 'p' ∉ ds := by
  intro hc
  obtain ⟨hds, he⟩ := h
  rcases List.mem_append.mp hc with hc | hc
  · rcases mem_pointed hds hc with hc | ⟨d, hd⟩
    · exact absurd hc (by decide)
    · exact absurd (isDigitOf_sixteen.mp hd).1 (by decide)
  rcases List.mem_cons.mp hc with hc | hc
  · exact absurd hc (by decide)
  rcases mem_exponent he hc with hc | hc | hc <;> exact absurd hc (by decide)

theorem lower_not_mem_hexLiteral (h : HexLiteral 'P' text) : 'p' ∉ text := by
  cases h with
  | bare hds => simp [lower_not_mem_scaled hds]
  | minus hds => simp [lower_not_mem_scaled hds]

theorem isHex_of_hexLiteral (h : HexLiteral mark text) : isHex text = true := by
  cases h <;> rfl

-- ---------------------------------------------------------------------------
-- Texts with a type letter
-- ---------------------------------------------------------------------------

theorem ne_of_isTypeLetter (hletter : isTypeLetter letter = true) (hc : isTypeLetter c = false) :
    letter ≠ c := by
  rintro rfl
  rw [hletter] at hc
  cases hc

theorem isHex_concat (hletter : isTypeLetter letter = true) :
    isHex (text ++ [letter]) = isHex text := by
  have hx : letter ≠ 'x' := ne_of_isTypeLetter hletter rfl
  have hends (mark : List Char) : mark ++ ['x'] ≠ text ++ [letter] := by
    intro h
    have hlast := congrArg List.getLast? h
    rw [List.getLast?_concat, List.getLast?_concat] at hlast
    exact hx (Option.some.inj hlast).symm
  rw [Bool.eq_iff_iff, isHex_iff, isHex_iff, List.prefix_concat_iff, List.prefix_concat_iff]
  simp only [show ['0', 'x'] ≠ text ++ [letter] from hends ['0'],
    show ['-', '0', 'x'] ≠ text ++ [letter] from hends ['-', '0'], false_or]

/-- A letter is dropped, unless it stands behind hexadecimal digits without a lower-case mark. -/
theorem dropTypeLetter_concat (hletter : isTypeLetter letter = true) :
    dropTypeLetter (text ++ [letter]) =
      if isHex text = false ∨ 'p' ∈ text then text else text ++ [letter] := by
  have hp : letter ≠ 'p' := ne_of_isTypeLetter hletter rfl
  simp [dropTypeLetter, isHex_concat hletter, hletter, hp.symm]

theorem dropPlus_concat (hletter : isTypeLetter letter = true) :
    (text ++ [letter]).dropWhile (· == '+') = text.dropWhile (· == '+') ++ [letter] := by
  have hplus : letter ≠ '+' := ne_of_isTypeLetter hletter rfl
  rw [List.dropWhile_append]
  split
  · rename_i hnil
    simp [List.isEmpty_iff.mp hnil, hplus]
  · rfl

theorem getLast?_dropPlus (h : c ∈ (text.dropWhile (· == '+')).getLast?) : c ∈ text.getLast? := by
  obtain ⟨before, htext⟩ := List.dropWhile_suffix (l := text) (· == '+')
  rw [← htext, List.getLast?_append, Option.mem_def.mp h]
  rfl

theorem read_concat_of_dropped (hletter : isTypeLetter letter = true)
    (hbody : text.dropWhile (· == '+') = body) (hdrop : dropTypeLetter body = body)
    (h : isHex body = false ∨ 'p' ∈ body) :
    readWith hex (text ++ [letter]) = readWith hex text := by
  simp only [readWith, dropPlus_concat hletter, hbody, isHex_concat hletter,
    dropTypeLetter_concat hletter, h, if_true, hdrop]

/-- Where a letter counts as a digit, it stands where the exponent has to end. -/
theorem read_concat_of_kept (hexponent : NeedsExponent hex) (hletter : isTypeLetter letter = true)
    (hbody : text.dropWhile (· == '+') = body) (hhex : isHex body = true) (hp : 'p' ∉ body) :
    readWith hex (text ++ [letter]) = none := by
  have hlettered : (text ++ [letter]).dropWhile (· == '+') = body ++ [letter] := by
    rw [dropPlus_concat hletter, hbody]
  have hkept : dropTypeLetter (body ++ [letter]) = body ++ [letter] := by
    rw [dropTypeLetter_concat hletter, if_neg (by simp [hhex, hp])]
  have hno (mark) : ¬HexLiteral mark (body ++ [letter]) := by
    intro h
    obtain ⟨c, hlast, hc⟩ := endsInDigit_hexLiteral h
    rw [List.getLast?_concat] at hlast
    obtain rfl := Option.some.inj hlast
    rw [isTypeLetter_of_isDigit hc] at hletter
    cases hletter
  rw [Option.eq_none_iff_forall_ne_some]
  intro x h
  rw [← isHex_concat hletter] at hhex
  rcases hexLiteral_of_read hexponent hlettered hhex hkept h with h | h
  · exact hno _ h
  · exact hno _ h

/-- A type letter behind a text that ends in none changes neither whether the text is read nor as
which number, unless it is a hexadecimal literal with a capital `P`, which then is refused. A
decimal literal is always read, as the nearest number, and nothing but decimal literals and
hexadecimal ones is read as a finite number. This does not depend on the numbers that the reader
of hexadecimal literals makes of them. -/
theorem read_typeLetter_iff {hex : List Char → Option Single} {text : List Char} {letter : Char}
    (hexponent : NeedsExponent hex) (hlast : ∀ c ∈ text.getLast?, isTypeLetter c = false)
    (hletter : isTypeLetter letter = true) :
    (∀ x, readWith hex (text ++ [letter]) = some x ↔
        readWith hex text = some x ∧ ¬HexLiteral 'P' (text.dropWhile (· == '+'))) ∧
      (∀ negative d, DecimalLiteral (text.dropWhile (· == '+')) negative d →
        readWith hex text = some (Single.ofMagnitude negative (BinaryFormat.single.ofDecimal d))) ∧
      ∀ x, readWith hex text = some x → x.isFinite = true →
        (∃ negative d, DecimalLiteral (text.dropWhile (· == '+')) negative d) ∨
          HexLiteral 'p' (text.dropWhile (· == '+')) ∨
            HexLiteral 'P' (text.dropWhile (· == '+')) := by
  generalize hbody : text.dropWhile (· == '+') = body
  have hdrop : dropTypeLetter body = body :=
    dropTypeLetter_eq_self fun c hc => hlast c (getLast?_dropPlus (hbody ▸ hc))
  refine ⟨fun x => ?_, fun negative d => read_decimalLiteral hbody, fun x h hfinite => ?_⟩
  · by_cases hdropped : isHex body = false ∨ 'p' ∈ body
    · -- the letter is dropped; a capital mark and a lower-case one do not meet in one literal
      have hupper : ¬HexLiteral 'P' body := by
        intro h
        rcases hdropped with hhex | hp
        · simp [isHex_of_hexLiteral h] at hhex
        · exact lower_not_mem_hexLiteral h hp
      rw [read_concat_of_dropped hletter hbody hdrop hdropped]
      exact (and_iff_left hupper).symm
    · -- the letter stays, and what was read without it had a capital mark
      rw [not_or, Bool.not_eq_false] at hdropped
      obtain ⟨hhex, hp⟩ := hdropped
      rw [read_concat_of_kept hexponent hletter hbody hhex hp]
      constructor
      · rintro ⟨⟩
      · rintro ⟨h, hupper⟩
        rcases hexLiteral_of_read hexponent hbody hhex hdrop h with h | h
        · exact absurd (mark_mem_hexLiteral h) hp
        · exact absurd h hupper
  · cases hhex : isHex body with
    | true => exact .inr (hexLiteral_of_read hexponent hbody hhex hdrop h)
    | false => exact .inl (decimalLiteral_of_read hbody hhex hdrop h hfinite)

/-- The hexadecimal digits of the literal are letters of types too. -/
theorem read_typeLetter_iff_hex :
    NeedsExponent readHex ∧
      (∀ c ∈ ['+', '-', '0', 'x', '1', '.', 'f', 'd', 'p', '1'].getLast?, isTypeLetter c = false) ∧
        isTypeLetter 'D' = true ∧
          read ['+', '-', '0', 'x', '1', '.', 'f', 'd', 'p', '1', 'D'] = some ⟨0xC07E8000⟩ := by
  have hlast : ∀ c ∈ ['+', '-', '0', 'x', '1', '.', 'f', 'd', 'p', '1'].getLast?,
      isTypeLetter c = false := by simp [isTypeLetter]
  have hread : read ['+', '-', '0', 'x', '1', '.', 'f', 'd', 'p', '1'] = some ⟨0xC07E8000⟩ := by
    decide +kernel
  have hupper : ¬HexLiteral 'P' ['-', '0', 'x', '1', '.', 'f', 'd', 'p', '1'] := fun h =>
    absurd (mark_mem_hexLiteral h) (by decide)
  have hletter : isTypeLetter 'D' = true := rfl
  exact ⟨needsExponent_readHex, hlast, hletter,
    ((read_typeLetter_iff needsExponent_readHex hlast hletter).1 _).mpr ⟨hread, hupper⟩⟩

/-- With a capital `P` a hexadecimal literal is read, but not with a type letter. -/
theorem read_typeLetter_ne :
    HexLiteral 'P' ['0', 'x', '1', '.', '8', 'P', '1'] ∧
      (read ['0', 'x', '1', '.', '8', 'P', '1'] = some ⟨0x40400000⟩ ∧
        (⟨0x40400000⟩ : Single).isFinite = true) ∧
          (isTypeLetter '1' = false ∧ isTypeLetter 'f' = true) ∧
            read ['0', 'x', '1', '.', '8', 'P', '1', 'f'] = none := by
  have hds : Pointed 16 (['1'] ++ '.' :: ['8']) 0x18 1 :=
    .split (numeral_sixteen_iff.mpr (by decide))
  have he : Exponent ['1'] 1 := .bare (n := 1) (numeral_ten_iff.mpr (by decide))
  exact ⟨.bare ⟨hds, he⟩, by decide +kernel, by decide, by decide +kernel⟩

end ClassText.FloatLiteral
