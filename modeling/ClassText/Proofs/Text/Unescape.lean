import ClassText.Proofs.Number.IntLiteral
import ClassText.Proofs.Text.Printable

/-!
# Strings in a class listing are read back

`unescape_escape`: a string in a class listing is read as the string that it was written for.
A bare word stands for itself. Between quotes each escape stands for one UTF-16 unit, and the
units make up characters again.

`read_encode` says the same in front of any text that does not continue a word, so a written
string also shows where it ends.
-/

namespace ClassText.Escape

-- ---------------------------------------------------------------------------
-- UTF-16
-- ---------------------------------------------------------------------------

def isHighSurrogate (unit : Nat) : Bool := 0xD800 ≤ unit && unit < 0xDC00

def isLowSurrogate (unit : Nat) : Bool := 0xDC00 ≤ unit && unit < 0xE000

/-- The characters that UTF-16 units make up, unless a surrogate stands outside of a pair. -/
def ofUnits : List Nat → Option (List Char)
  | [] => some []
  | unit :: rest =>
    if isHighSurrogate unit then
      match rest with
      | low :: rest =>
        if isLowSurrogate low then
          (ofUnits rest).map
            (Char.ofNat (0x10000 + (unit - 0xD800) * 0x400 + (low - 0xDC00)) :: ·)
        else none
      | [] => none
    else if isLowSurrogate unit then none
    else (ofUnits rest).map (Char.ofNat unit :: ·)

theorem toNat_bounds (c : Char) :
    c.toNat < 0xD800 ∨ 0xE000 ≤ c.toNat ∧ c.toNat < 0x110000 := by
  have hvalid : c.toNat.isValidChar := c.valid
  unfold Nat.isValidChar at hvalid
  omega

theorem lt_of_mem_units (h : unit ∈ units c) : unit < 0x10000 := by
  have hc := toNat_bounds c
  simp only [units] at h
  split at h
  · simp only [List.mem_singleton] at h
    omega
  · simp only [List.mem_cons, List.not_mem_nil, or_false] at h
    rcases h with hhigh | hlow
    · omega
    · omega

theorem ofUnits_pair (hhigh : isHighSurrogate high = true) (hlow : isLowSurrogate low = true) :
    ofUnits (high :: low :: us) = (ofUnits us).map
      (Char.ofNat (0x10000 + (high - 0xD800) * 0x400 + (low - 0xDC00)) :: ·) := by
  rw [ofUnits, if_pos hhigh]
  exact if_pos hlow

theorem ofUnits_single (hhigh : isHighSurrogate unit = false) (hlow : isLowSurrogate unit = false) :
    ofUnits (unit :: us) = (ofUnits us).map (Char.ofNat unit :: ·) := by
  rw [ofUnits.eq_def]
  simp only [hhigh, hlow, Bool.false_eq_true, if_false]

theorem ofUnits_units (c : Char) (us : List Nat) :
    ofUnits (units c ++ us) = (ofUnits us).map (c :: ·) := by
  have hc := toNat_bounds c
  simp only [units]
  split
  · rename_i hsmall
    have hhigh : isHighSurrogate c.toNat = false := by
      simp only [isHighSurrogate, Bool.and_eq_false_iff, decide_eq_false_iff_not]
      omega
    have hlow : isLowSurrogate c.toNat = false := by
      simp only [isLowSurrogate, Bool.and_eq_false_iff, decide_eq_false_iff_not]
      omega
    rw [List.singleton_append, ofUnits_single hhigh hlow, Char.ofNat_toNat]
  · rename_i hlarge
    -- the two surrogates carry ten bits each
    obtain ⟨n, hn⟩ : ∃ n, c.toNat = 0x10000 + n := ⟨c.toNat - 0x10000, by omega⟩
    have hhigh : isHighSurrogate (0xD800 + (c.toNat - 0x10000) / 0x400) = true := by
      simp only [isHighSurrogate, Bool.and_eq_true, decide_eq_true_eq]
      omega
    have hlow : isLowSurrogate (0xDC00 + (c.toNat - 0x10000) % 0x400) = true := by
      simp only [isLowSurrogate, Bool.and_eq_true, decide_eq_true_eq]
      omega
    have hjoined : 0x10000 + (0xD800 + (c.toNat - 0x10000) / 0x400 - 0xD800) * 0x400 +
        (0xDC00 + (c.toNat - 0x10000) % 0x400 - 0xDC00) = c.toNat := by
      omega
    rw [List.cons_append, List.singleton_append, ofUnits_pair hhigh hlow, hjoined, Char.ofNat_toNat]

theorem ofUnits_flatMap (cs : List Char) : ofUnits (cs.flatMap units) = some cs := by
  induction cs with
  | nil => rfl
  | cons c cs ih => rw [List.flatMap_cons, ofUnits_units, ih, Option.map_some]

-- ---------------------------------------------------------------------------
-- Between quotes
-- ---------------------------------------------------------------------------

/-- Reads up to the closing quote: the units of what stands before it, and what stands after
it. -/
def readQuoted : List Char → Option (List Nat × List Char)
  | [] => none
  | '"' :: rest => some ([], rest)
  | '\\' :: '"' :: rest => (readQuoted rest).map fun (us, rest) => ('"'.toNat :: us, rest)
  | '\\' :: '\\' :: rest => (readQuoted rest).map fun (us, rest) => ('\\'.toNat :: us, rest)
  | '\\' :: 'u' :: a :: b :: c :: d :: rest =>
    if [a, b, c, d].all isHexDigit then
      (readQuoted rest).map fun (us, rest) => (ofDigits 16 [a, b, c, d] :: us, rest)
    else none
  | '\\' :: _ => none
  | c :: rest => (readQuoted rest).map fun (us, rest) => (units c ++ us, rest)

theorem hexDigit_spec : ∀ n < 16, isHexDigit (hexDigit n) = true ∧ digitValue (hexDigit n) = n := by
  decide

theorem readQuoted_unitEscape (h : unit < 0x10000) (rest : List Char) :
    readQuoted (unitEscape unit ++ rest) =
      (readQuoted rest).map fun (us, rest) => (unit :: us, rest) := by
  have hdigit : ∀ n, isHexDigit (hexDigit (n % 16)) = true ∧
      digitValue (hexDigit (n % 16)) = n % 16 := fun n =>
    hexDigit_spec _ (Nat.mod_lt n (by decide))
  have hall : [hexDigit (unit / 0x1000 % 16), hexDigit (unit / 0x100 % 16),
      hexDigit (unit / 0x10 % 16), hexDigit (unit % 16)].all isHexDigit = true := by
    simp only [List.all_cons, List.all_nil, hdigit, Bool.and_self]
  have hvalue : ofDigits 16 [hexDigit (unit / 0x1000 % 16), hexDigit (unit / 0x100 % 16),
      hexDigit (unit / 0x10 % 16), hexDigit (unit % 16)] = unit := by
    simp only [ofDigits, List.foldl_cons, List.foldl_nil, hdigit]
    omega
  simp only [unitEscape, List.cons_append, List.nil_append, readQuoted, hall, if_true, hvalue]

theorem readQuoted_unitEscapes {us : List Nat} (h : ∀ unit ∈ us, unit < 0x10000)
    (rest : List Char) : readQuoted (us.flatMap unitEscape ++ rest) =
      (readQuoted rest).map fun (vs, rest) => (us ++ vs, rest) := by
  induction us with
  | nil => simp
  | cons unit us ih =>
    obtain ⟨hunit, hus⟩ := List.forall_mem_cons.mp h
    rw [List.flatMap_cons, List.append_assoc, readQuoted_unitEscape hunit, ih hus, Option.map_map]
    rfl

/-- A character is cut into its units, and each of them is read back as one. -/
theorem readQuoted_escapeChar (c : Char) (rest : List Char) :
    readQuoted (escapeChar c ++ rest) =
      (readQuoted rest).map fun (us, rest) => (units c ++ us, rest) := by
  unfold escapeChar
  split
  · rename_i hc
    subst hc
    rfl
  split
  · rename_i hc
    subst hc
    rfl
  split
  · rename_i hquote hslash _
    simp [readQuoted, hslash]
  · exact readQuoted_unitEscapes (fun _ => lt_of_mem_units) rest

theorem readQuoted_flatMap (cs rest : List Char) :
    readQuoted (cs.flatMap escapeChar ++ '"' :: rest) = some (cs.flatMap units, rest) := by
  induction cs with
  | nil => rfl
  | cons c cs ih =>
    rw [List.flatMap_cons, List.append_assoc, readQuoted_escapeChar, ih, Option.map_some,
      List.flatMap_cons]

-- ---------------------------------------------------------------------------
-- Written strings
-- ---------------------------------------------------------------------------

/-- Reads a written string from the start of a text. -/
def read : List Char → Option (List Char × List Char)
  | '"' :: rest => (readQuoted rest).bind fun (us, rest) => (ofUnits us).map (·, rest)
  | text =>
    let word := text.takeWhile isWordChar
    if isWord word then some (word, text.dropWhile isWordChar) else none

/-- Reads a whole text as one written string. -/
def decode (text : List Char) : Option (List Char) :=
  match read text with
  | some (cs, []) => some cs
  | _ => none

theorem all_of_isWord (h : isWord cs = true) : cs.all isWordChar = true := by
  unfold isWord at h
  split at h
  · rename_i c rest
    simp only [Bool.and_eq_true, Bool.or_eq_true] at h
    obtain ⟨hc, hrest⟩ := h
    have hbracket : isWordChar '[' = true := by decide
    have hfirst : isWordChar c = true := by
      rcases hc with hupper | hopen
      · simp [isWordChar, isLetter, hupper]
      · rw [beq_iff_eq.mp hopen]
        exact hbracket
    rw [List.all_cons, List.all_cons, hbracket, hfirst, hrest]
    rfl
  · rename_i c rest _
    simp only [Bool.and_eq_true, Bool.or_eq_true] at h
    obtain ⟨hc, hrest⟩ := h
    have hmarks : "_$(<".toList.all isWordChar = true := by decide
    have hfirst : isWordChar c = true := by
      rcases hc with hletter | hmark
      · simp [isWordChar, hletter]
      · exact List.all_eq_true.mp hmarks c (List.contains_iff_mem.mp hmark)
    rw [List.all_cons, hfirst, hrest]
    rfl
  · cases h

/-- A text that does not continue a word. -/
def EndsWord (rest : List Char) : Prop := ∀ c ∈ rest.head?, isWordChar c = false

theorem takeWhile_of_endsWord (hrest : EndsWord rest) :
    rest.takeWhile isWordChar = [] ∧ rest.dropWhile isWordChar = rest := by
  cases rest with
  | nil => exact ⟨rfl, rfl⟩
  | cons c rest =>
    have hc : isWordChar c = false := hrest c rfl
    simp [hc]

theorem read_word (h : isWord cs = true) (hrest : EndsWord rest) :
    read (cs ++ rest) = some (cs, rest) := by
  have hchars : ∀ c ∈ cs, isWordChar c = true := List.all_eq_true.mp (all_of_isWord h)
  obtain ⟨htake, hdrop⟩ := takeWhile_of_endsWord hrest
  unfold read
  split
  · rename_i after htext
    -- a word is not empty, and no quote is one of its characters
    cases cs with
    | nil => cases h
    | cons c cs =>
      rw [List.cons_append, List.cons.injEq] at htext
      have hquote := hchars c List.mem_cons_self
      rw [htext.1] at hquote
      cases hquote
  · simp only [List.takeWhile_append_of_pos hchars, List.dropWhile_append_of_pos hchars, htake,
      hdrop, List.append_nil, h, if_true]

theorem read_encode (cs : List Char) (hrest : EndsWord rest) :
    read (encode cs ++ rest) = some (cs, rest) := by
  unfold encode
  split
  · rename_i hword
    exact read_word hword hrest
  · rw [List.cons_append, List.cons_append, List.append_assoc, List.singleton_append, read,
      readQuoted_flatMap, Option.bind_some]
    simp only [ofUnits_flatMap, Option.map_some]

theorem decode_encode (cs : List Char) : decode (encode cs) = some cs := by
  have hnil : EndsWord [] := by
    intro c hc
    cases hc
  have hread := read_encode cs hnil
  rw [List.append_nil] at hread
  rw [decode, hread]

end ClassText.Escape

namespace ClassText

/-- The string that a string in a class listing stands for. -/
def unescape (text : String) : Option String :=
  (Escape.decode text.toList).map String.ofList

theorem unescape_escape (text : String) : unescape (escape text) = some text := by
  rw [unescape, escape, String.toList_ofList, Escape.decode_encode, Option.map_some,
    String.ofList_toList]

theorem escape_inj : escape a = escape b ↔ a = b := by
  constructor
  · intro h
    have hread := unescape_escape b
    rw [← h, unescape_escape] at hread
    exact Option.some.inj hread
  · rintro rfl
    rfl

end ClassText
