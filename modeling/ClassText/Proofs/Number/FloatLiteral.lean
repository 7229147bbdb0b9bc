import ClassText.Number.FloatLiteral
import ClassText.Proofs.Number.IntLiteral

/-!
# Which texts are read as finite numbers

`DecimalLiteral` and `HexLiteral` are the grammar of floating-point literals, without a type
letter and without the plus signs that may stand in front. `readDecimal_eq_some_iff`: what the
reader takes for decimals are the unsigned decimals of the grammar, with the values that they
have there. `read_decimalLiteral`: every decimal literal is read, as the nearest number. The
other way round `decimalLiteral_of_read` and `hexLiteral_of_read` say that nothing but a literal
is read as a finite number. All of this holds of any reader for hexadecimal literals, as long as
it reads none without an exponent (`NeedsExponent`); `readHex` is one of them.
-/

namespace ClassText.FloatLiteral

-- ---------------------------------------------------------------------------
-- Literals
-- ---------------------------------------------------------------------------

/-- Digits with a point among them or none: the number that they denote without the point, and
how many of them stand behind it. -/
inductive Pointed (base : Nat) : List Char → Nat → Nat → Prop
  | whole (hds : Numeral base ds n) : Pointed base ds n 0
  | split (hds : Numeral base (whole ++ fraction) n) :
      Pointed base (whole ++ '.' :: fraction) n fraction.length

/-- Decimal digits, behind a sign or none. -/
inductive Exponent : List Char → Int → Prop
  | bare (hds : Numeral 10 ds n) : Exponent ds n
  | plus (hds : Numeral 10 ds n) : Exponent ('+' :: ds) n
  | minus (hds : Numeral 10 ds n) : Exponent ('-' :: ds) (-n)

/-- Decimals without a sign, and what they denote. -/
inductive UnsignedDecimal : List Char → Decimal → Prop
  | plain (hds : Pointed 10 ds n k) : UnsignedDecimal ds ⟨n, -k⟩
  | scaled (hds : Pointed 10 ds n k) (hmark : mark = 'e' ∨ mark = 'E') (he : Exponent es e) :
      UnsignedDecimal (ds ++ mark :: es) ⟨n, e - k⟩

/-- Hexadecimal digits and a binary exponent behind a mark. -/
inductive Scaled (mark : Char) : List Char → Prop
  | intro (hds : Pointed 16 ds n k) (he : Exponent es e) : Scaled mark (ds ++ mark :: es)

/-- Decimal literals, without the plus signs that may stand in front. -/
inductive DecimalLiteral : List Char → Bool → Decimal → Prop
  | bare (hds : UnsignedDecimal ds d) : DecimalLiteral ds false d
  | minus (hds : UnsignedDecimal ds d) : DecimalLiteral ('-' :: ds) true d

/-- Hexadecimal literals, without the plus signs that may stand in front, by the mark before
their exponent. -/
inductive HexLiteral (mark : Char) : List Char → Prop
  | bare (hds : Scaled mark ds) : HexLiteral mark ('0' :: 'x' :: ds)
  | minus (hds : Scaled mark ds) : HexLiteral mark ('-' :: '0' :: 'x' :: ds)

/-- All that is relied on in a reader of hexadecimal literals: what it reads of the texts that it
is handed is digits and a binary exponent, behind a `p` in either case. -/
def NeedsExponent (hex : List Char → Option Single) : Prop :=
  ∀ text x, isHex text = true → hex text = some x → HexLiteral 'p' text ∨ HexLiteral 'P' text

-- ---------------------------------------------------------------------------
-- Digits and exponents
-- ---------------------------------------------------------------------------

variable {hex : List Char → Option Single} {b n k : Nat} {e : Int} {p : Char → Bool} {c mark : Char}
  {text ds rest body whole fraction : List Char}

theorem readExponent_eq_some_iff : readExponent text = some e ↔ Exponent text e := by
  simp only [readExponent, Option.ite_none_right_eq_some, Option.some.injEq]
  unfold splitSign
  constructor
  · split
    · rintro ⟨hds, rfl⟩
      exact .minus (numeral_ten_iff.mpr ⟨hds, rfl⟩)
    · rintro ⟨hds, rfl⟩
      exact .plus (numeral_ten_iff.mpr ⟨hds, rfl⟩)
    · rintro ⟨hds, rfl⟩
      exact .bare (numeral_ten_iff.mpr ⟨hds, rfl⟩)
  · intro h
    cases h with
    | minus hds =>
      obtain ⟨hall, rfl⟩ := numeral_ten_iff.mp hds
      exact ⟨hall, rfl⟩
    | plus hds =>
      obtain ⟨hall, rfl⟩ := numeral_ten_iff.mp hds
      exact ⟨hall, rfl⟩
    | bare hds =>
      obtain ⟨hall, rfl⟩ := numeral_ten_iff.mp hds
      split
      · simp at hds
      · simp [allDigits] at hall
      · exact ⟨hall, rfl⟩

/-- A run of digits ends where the rest does not go on with one. -/
theorem takeWhile_stop (hrest : ∀ c ∈ rest.head?, p c = false) :
    rest.takeWhile p = [] ∧ rest.dropWhile p = rest := by
  cases rest with
  | nil => exact ⟨rfl, rfl⟩
  | cons c rest =>
    have hc : p c = false := hrest c rfl
    simp [hc]

/-- Digits are split off whole, if what follows them is neither a digit nor a point. -/
theorem splitPoint_pointed
    (hdigits : ∀ {ds n}, Numeral b ds n ↔ allDigits p ds = true ∧ ofDigits b ds = n)
    (hpoint : p '.' = false) (hds : Pointed b ds n k)
    (hrest : ∀ c ∈ rest.head?, p c = false ∧ c ≠ '.') :
    ∃ whole fraction, splitPoint p (ds ++ rest) = (whole, fraction, rest) ∧
      Numeral b (whole ++ fraction) n ∧ fraction.length = k := by
  have hall {ds n} (h : Numeral b ds n) : ∀ c ∈ ds, p c = true := by
    have h := (hdigits.mp h).1
    rw [allDigits, Bool.and_eq_true] at h
    exact List.all_eq_true.mp h.2
  obtain ⟨htake, hdrop⟩ := takeWhile_stop fun c hc => (hrest c hc).1
  cases hds with
  | whole hds =>
    refine ⟨ds, [], ?_, by simpa using hds, rfl⟩
    unfold splitPoint
    rw [List.takeWhile_append_of_pos (hall hds), List.dropWhile_append_of_pos (hall hds), htake,
      hdrop, List.append_nil]
    -- without a point among the digits, one in the rest would be taken for theirs
    split
    · exact absurd rfl (hrest '.' rfl).2
    · rfl
  | @split whole fraction _ hds =>
    refine ⟨whole, fraction, ?_, hds, rfl⟩
    have hwhole : ∀ c ∈ whole, p c = true := fun c hc => hall hds c (List.mem_append_left _ hc)
    have hfraction : ∀ c ∈ fraction, p c = true := fun c hc =>
      hall hds c (List.mem_append_right _ hc)
    simp [splitPoint, List.takeWhile_append_of_pos hwhole, List.dropWhile_append_of_pos hwhole,
      List.takeWhile_append_of_pos hfraction, List.dropWhile_append_of_pos hfraction, hpoint,
      htake, hdrop]

theorem pointed_of_splitPoint
    (hdigits : ∀ {ds n}, Numeral b ds n ↔ allDigits p ds = true ∧ ofDigits b ds = n)
    (h : splitPoint p text = (whole, fraction, rest)) (hne : whole ++ fraction ≠ []) :
    ∃ ds, text = ds ++ rest ∧ Pointed b ds (ofDigits b (whole ++ fraction)) fraction.length := by
  have htext : text.takeWhile p ++ text.dropWhile p = text := List.takeWhile_append_dropWhile
  have hnumeral (hall : (whole ++ fraction).all p = true) :
      Numeral b (whole ++ fraction) (ofDigits b (whole ++ fraction)) :=
    hdigits.mpr ⟨by simp [allDigits, hall, hne], rfl⟩
  unfold splitPoint at h
  dsimp only at h
  split at h
  · rename_i tail hdrop
    obtain ⟨rfl, rfl, rfl⟩ := h
    refine ⟨text.takeWhile p ++ '.' :: tail.takeWhile p, ?_, .split (hnumeral (by simp))⟩
    rw [List.append_assoc, List.cons_append, List.takeWhile_append_dropWhile, ← hdrop, htext]
  · obtain ⟨rfl, rfl, rfl⟩ := h
    refine ⟨text.takeWhile p, htext.symm, ?_⟩
    rw [List.append_nil] at hnumeral ⊢
    exact .whole (hnumeral (by simp))

/-- A text is read as a decimal if and only if it is one in the grammar. -/
theorem readDecimal_eq_some_iff : readDecimal text = some d ↔ UnsignedDecimal text d := by
  constructor
  · intro h
    rcases hsplit : splitPoint Char.isDigit text with ⟨whole, fraction, rest⟩
    simp only [readDecimal, hsplit, Option.ite_none_left_eq_some, List.isEmpty_iff,
      Option.map_eq_some_iff] at h
    obtain ⟨hne, e, he, rfl⟩ := h
    obtain ⟨ds, rfl, hds⟩ := pointed_of_splitPoint numeral_ten_iff hsplit hne
    cases rest with
    | nil =>
      obtain rfl : 0 = e := Option.some.inj he
      rw [List.append_nil, Int.zero_sub]
      exact .plain hds
    | cons mark es =>
      rw [Option.ite_none_right_eq_some] at he
      exact .scaled hds he.1 (readExponent_eq_some_iff.mp he.2)
  · intro h
    cases h with
    | @plain ds n k hds =>
      have hstop : ∀ c ∈ ([] : List Char).head?, c.isDigit = false ∧ c ≠ '.' := by simp
      obtain ⟨whole, fraction, hsplit, hnumeral, rfl⟩ :=
        splitPoint_pointed numeral_ten_iff (by decide) hds hstop
      rw [List.append_nil] at hsplit
      obtain ⟨hall, rfl⟩ := numeral_ten_iff.mp hnumeral
      rw [allDigits, Bool.and_eq_true, Bool.not_eq_true'] at hall
      simp [readDecimal, hsplit, hall.1]
    | @scaled ds n k mark es e hds hmark he =>
      have hstop : ∀ c ∈ (mark :: es).head?, c.isDigit = false ∧ c ≠ '.' := by
        rintro c ⟨⟩
        rcases hmark with rfl | rfl <;> decide
      obtain ⟨whole, fraction, hsplit, hnumeral, rfl⟩ :=
        splitPoint_pointed numeral_ten_iff (by decide) hds hstop
      obtain ⟨hall, rfl⟩ := numeral_ten_iff.mp hnumeral
      rw [allDigits, Bool.and_eq_true, Bool.not_eq_true'] at hall
      simp [readDecimal, hsplit, hall.1, hmark, readExponent_eq_some_iff.mpr he]

theorem scaled_of_readHexMagnitude (h : readHexMagnitude text = some m) :
    Scaled 'p' text ∨ Scaled 'P' text := by
  rcases hsplit : splitPoint isHexDigit text with ⟨whole, fraction, rest⟩
  simp only [readHexMagnitude, hsplit] at h
  cases rest with
  | nil => simp at h
  | cons mark es =>
    simp only [Option.ite_none_right_eq_some, Option.bind_eq_some_iff] at h
    obtain ⟨⟨hmark, hne, -⟩, e, he, -⟩ := h
    obtain ⟨ds, rfl, hds⟩ := pointed_of_splitPoint numeral_sixteen_iff hsplit hne
    have he := readExponent_eq_some_iff.mp he
    rcases hmark with rfl | rfl
    · exact .inl ⟨hds, he⟩
    · exact .inr ⟨hds, he⟩

-- ---------------------------------------------------------------------------
-- The characters of literals
-- ---------------------------------------------------------------------------

theorem exists_digit_of_mem (h : Numeral b ds n) (hc : c ∈ ds) : ∃ d, IsDigitOf b c d := by
  induction h with
  | digit hd =>
    rw [List.mem_singleton] at hc
    exact ⟨_, hc ▸ hd⟩
  | more _ hd ih =>
    rcases List.mem_append.mp hc with hc | hc
    · exact ih hc
    · rw [List.mem_singleton] at hc
      exact ⟨_, hc ▸ hd⟩

theorem ne_nil_of_numeral (h : Numeral b ds n) : ds ≠ [] := by
  cases h <;> simp

theorem isDigit_of_mem_numeral (h : Numeral 10 ds n) (hc : c ∈ ds) : c.isDigit = true := by
  obtain ⟨d, hd⟩ := exists_digit_of_mem h hc
  exact (isDigitOf_ten.mp hd).1

theorem mem_pointed (h : Pointed b ds n k) (hc : c ∈ ds) : c = '.' ∨ ∃ d, IsDigitOf b c d := by
  cases h with
  | whole hds => exact .inr (exists_digit_of_mem hds hc)
  | split hds =>
    rcases List.mem_append.mp hc with hc | hc
    · exact .inr (exists_digit_of_mem hds (List.mem_append_left _ hc))
    rcases List.mem_cons.mp hc with rfl | hc
    · exact .inl rfl
    · exact .inr (exists_digit_of_mem hds (List.mem_append_right _ hc))

theorem mem_exponent (h : Exponent ds e) (hc : c ∈ ds) : c = '+' ∨ c = '-' ∨ c.isDigit = true := by
  cases h with
  | bare hds => exact .inr (.inr (isDigit_of_mem_numeral hds hc))
  | plus hds =>
    rcases List.mem_cons.mp hc with rfl | hc
    · exact .inl rfl
    · exact .inr (.inr (isDigit_of_mem_numeral hds hc))
  | minus hds =>
    rcases List.mem_cons.mp hc with rfl | hc
    · exact .inr (.inl rfl)
    · exact .inr (.inr (isDigit_of_mem_numeral hds hc))

theorem mem_unsignedDecimal (h : UnsignedDecimal ds d) (hc : c ∈ ds) :
    c.isDigit = true ∨ c ∈ ['.', 'e', 'E', '+', '-'] := by
  have hpointed {ds n k} (hds : Pointed 10 ds n k) (hc : c ∈ ds) :
      c.isDigit = true ∨ c ∈ ['.', 'e', 'E', '+', '-'] := by
    rcases mem_pointed hds hc with rfl | ⟨d, hd⟩
    · exact .inr (by decide)
    · exact .inl (isDigitOf_ten.mp hd).1
  cases h with
  | plain hds => exact hpointed hds hc
  | scaled hds hmark he =>
    rcases List.mem_append.mp hc with hc | hc
    · exact hpointed hds hc
    rcases List.mem_cons.mp hc with rfl | hc
    · rcases hmark with rfl | rfl <;> exact .inr (by decide)
    rcases mem_exponent he hc with rfl | rfl | hc
    · exact .inr (by decide)
    · exact .inr (by decide)
    · exact .inl hc

theorem mem_decimalLiteral (h : DecimalLiteral text negative d) (hc : c ∈ text) :
    c.isDigit = true ∨ c ∈ ['.', 'e', 'E', '+', '-'] := by
  cases h with
  | bare hds => exact mem_unsignedDecimal hds hc
  | minus hds =>
    rcases List.mem_cons.mp hc with rfl | hc
    · exact .inr (by decide)
    · exact mem_unsignedDecimal hds hc

theorem head_pointed (h : Pointed 10 ds n k) :
    ∃ c cs, ds = c :: cs ∧ (c.isDigit = true ∨ c = '.') := by
  cases h with
  | whole hds =>
    obtain ⟨c, cs, rfl⟩ := List.exists_cons_of_ne_nil (ne_nil_of_numeral hds)
    exact ⟨c, cs, rfl, .inl (isDigit_of_mem_numeral hds List.mem_cons_self)⟩
  | @split whole fraction _ hds =>
    cases whole with
    | nil => exact ⟨'.', fraction, rfl, .inr rfl⟩
    | cons c cs => exact ⟨c, _, rfl, .inl (isDigit_of_mem_numeral hds List.mem_cons_self)⟩

/-- A decimal starts with a digit or its point. -/
theorem head_unsignedDecimal (h : UnsignedDecimal ds d) :
    ∃ c cs, ds = c :: cs ∧ (c.isDigit = true ∨ c = '.') := by
  cases h with
  | plain hds => exact head_pointed hds
  | scaled hds =>
    obtain ⟨c, cs, rfl, hc⟩ := head_pointed hds
    exact ⟨c, _, rfl, hc⟩

theorem splitSign_unsignedDecimal (h : UnsignedDecimal ds d) : splitSign ds = (false, ds) := by
  obtain ⟨c, cs, rfl, hc⟩ := head_unsignedDecimal h
  unfold splitSign
  split
  · rename_i heq
    obtain ⟨rfl, -⟩ := heq
    simp at hc
  · rename_i heq
    obtain ⟨rfl, -⟩ := heq
    simp at hc
  · rfl

-- ---------------------------------------------------------------------------
-- Whole texts
-- ---------------------------------------------------------------------------

theorem isHex_iff : isHex text = true ↔ ['0', 'x'] <+: text ∨ ['-', '0', 'x'] <+: text := by
  unfold isHex
  split
  · simp
  · simp
  · rename_i hhex hminus
    constructor
    · rintro ⟨⟩
    · rintro (⟨ds, rfl⟩ | ⟨ds, rfl⟩)
      · exact (hhex ds rfl).elim
      · exact (hminus ds rfl).elim

theorem isTypeLetter_of_isDigit (hc : c.isDigit = true) : isTypeLetter c = false :=
  forall_isHexDigit (P := fun c => c.isDigit = true → isTypeLetter c = false) (by decide)
    (isHexDigit_of_isDigit hc) hc

theorem dropTypeLetter_eq_self (hlast : ∀ c ∈ text.getLast?, isTypeLetter c = false) :
    dropTypeLetter text = text := by
  have hno : (text.getLast?.map isTypeLetter).getD false = false := by
    cases h : text.getLast? with
    | none => rfl
    | some c => exact hlast c h
  simp [dropTypeLetter, hno]

theorem needsExponent_readHex : NeedsExponent readHex := by
  intro text x hhex h
  obtain ⟨m, hm, -⟩ := Option.map_eq_some_iff.mp h
  rcases isHex_iff.mp hhex with ⟨ds, rfl⟩ | ⟨ds, rfl⟩
  · exact (scaled_of_readHexMagnitude hm).imp .bare .bare
  · exact (scaled_of_readHexMagnitude hm).imp .minus .minus

/-- A hexadecimal literal is read only with an exponent. -/
theorem hexLiteral_of_read (hexponent : NeedsExponent hex)
    (hbody : text.dropWhile (· == '+') = body) (hhex : isHex body = true)
    (hdrop : dropTypeLetter body = body) (h : readWith hex text = some x) :
    HexLiteral 'p' body ∨ HexLiteral 'P' body := by
  simp only [readWith, hbody, hdrop, hhex, if_true] at h
  exact hexponent body x hhex h

theorem isFinite_ofMagnitude_infinity (negative : Bool) :
    (Single.ofMagnitude negative BinaryFormat.single.infinity).isFinite = false := by
  cases negative <;> decide

theorem isFinite_ofMagnitude_nan (negative : Bool) :
    (Single.ofMagnitude negative (BinaryFormat.single.infinity +
      2 ^ (BinaryFormat.single.fractionBits - 1))).isFinite = false := by
  cases negative <;> decide

/-- The words for infinities and for what is no number are read as nothing finite. -/
theorem unsignedDecimal_of_readMagnitude (h : readMagnitude text = some m)
    (hfinite : (Single.ofMagnitude negative m).isFinite = true) :
    ∃ d, UnsignedDecimal text d := by
  unfold readMagnitude at h
  dsimp only at h
  split at h
  · obtain rfl := Option.some.inj h
    rw [isFinite_ofMagnitude_infinity] at hfinite
    cases hfinite
  split at h
  · obtain rfl := Option.some.inj h
    rw [isFinite_ofMagnitude_nan] at hfinite
    cases hfinite
  · obtain ⟨d, hd, -⟩ := Option.map_eq_some_iff.mp h
    exact ⟨d, readDecimal_eq_some_iff.mp hd⟩

theorem decimalLiteral_of_read (hbody : text.dropWhile (· == '+') = body)
    (hhex : isHex body = false) (hdrop : dropTypeLetter body = body)
    (h : readWith hex text = some x) (hfinite : x.isFinite = true) :
    ∃ negative d, DecimalLiteral body negative d := by
  have hplus (ds) : body ≠ '+' :: ds := by
    rintro rfl
    have hhead := List.head?_dropWhile_not (· == '+') text
    simp [hbody] at hhead
  simp only [readWith, readPlain, hbody, hdrop, hhex, Bool.false_eq_true, if_false,
    Option.map_eq_some_iff] at h
  obtain ⟨m, hm, rfl⟩ := h
  unfold splitSign at hm hfinite
  split at hm
  · obtain ⟨d, hd⟩ := unsignedDecimal_of_readMagnitude hm hfinite
    exact ⟨true, d, .minus hd⟩
  · exact (hplus _ rfl).elim
  · obtain ⟨d, hd⟩ := unsignedDecimal_of_readMagnitude hm hfinite
    exact ⟨false, d, .bare hd⟩

theorem isWord_unsignedDecimal (h : UnsignedDecimal ds d) (hword : 'n' ∈ word.toList) :
    isWord word ds = false := by
  have hdigit {c : Char} (hc : c.isDigit = true) : c.toLower ≠ 'n' :=
    forall_isHexDigit (P := fun c => c.toLower ≠ 'n') (by decide) (isHexDigit_of_isDigit hc)
  simp only [isWord, beq_eq_false_iff_ne]
  intro heq
  obtain ⟨c, hc, hlower⟩ := List.mem_map.mp (heq ▸ hword)
  rcases mem_unsignedDecimal h hc with hc | hc
  · exact hdigit hc hlower
  · have hmarks : ∀ c ∈ ['.', 'e', 'E', '+', '-'], c.toLower ≠ 'n' := by simp
    exact hmarks c hc hlower

theorem readMagnitude_unsignedDecimal (h : UnsignedDecimal ds d) :
    readMagnitude ds = some (BinaryFormat.single.ofDecimal d) := by
  have hword (word : String) (hn : 'n' ∈ word.toList) : isWord word ds = false :=
    isWord_unsignedDecimal h hn
  simp only [readMagnitude, hword "inf" (by decide), hword "infinity" (by decide),
    hword "nan" (by decide), readDecimal_eq_some_iff.mpr h, Bool.or_self, Bool.false_eq_true,
    if_false, Option.map_some]

theorem isHex_decimalLiteral (h : DecimalLiteral text negative d) : isHex text = false := by
  have hx : 'x' ∉ text := fun hx => absurd (mem_decimalLiteral h hx) (by decide)
  rw [Bool.eq_false_iff]
  intro hhex
  rcases isHex_iff.mp hhex with hmark | hmark
  · exact hx (hmark.subset (by simp))
  · exact hx (hmark.subset (by simp))

theorem dropTypeLetter_decimalLiteral (h : DecimalLiteral text negative d) :
    dropTypeLetter text = text := by
  refine dropTypeLetter_eq_self fun c hc => ?_
  rcases mem_decimalLiteral h (List.mem_of_mem_getLast? hc) with hc | hc
  · exact isTypeLetter_of_isDigit hc
  · have hmarks : ∀ c ∈ ['.', 'e', 'E', '+', '-'], isTypeLetter c = false := by
      simp [isTypeLetter]
    exact hmarks c hc

/-- A decimal literal is read as the number nearest to its decimal, with the sign it has. -/
theorem read_decimalLiteral (hbody : text.dropWhile (· == '+') = body)
    (h : DecimalLiteral body negative d) :
    readWith hex text = some (Single.ofMagnitude negative (BinaryFormat.single.ofDecimal d)) := by
  have hsplit : ∃ ds, splitSign body = (negative, ds) ∧ UnsignedDecimal ds d := by
    cases h with
    | bare hds => exact ⟨_, splitSign_unsignedDecimal hds, hds⟩
    | minus hds => exact ⟨_, rfl, hds⟩
  obtain ⟨ds, hsplit, hds⟩ := hsplit
  simp only [readWith, readPlain, hbody, isHex_decimalLiteral h, dropTypeLetter_decimalLiteral h,
    hsplit, readMagnitude_unsignedDecimal hds, Bool.false_eq_true, if_false, Option.map_some]

end ClassText.FloatLiteral
