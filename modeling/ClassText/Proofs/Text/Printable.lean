import ClassText.Proofs.Number.FloatText
import ClassText.Text.Escape

/-!
# Printable texts

`printable_escape`: strings in a class listing are written in the visible range of ASCII and
spaces, whatever they hold. Numbers are too. So what is made up of these never ends a line.
-/

namespace ClassText

/-- The visible characters of ASCII and the space. -/
def isPrintable (c : Char) : Bool := ' ' ≤ c && c ≤ '~'

def printable (cs : List Char) : Bool := cs.all isPrintable

@[simp] theorem printable_nil : printable [] = true := rfl

@[simp] theorem printable_cons : printable (c :: cs) = (isPrintable c && printable cs) := rfl

@[simp] theorem printable_append : printable (cs ++ ds) = (printable cs && printable ds) :=
  List.all_append

theorem printable_concat {a b : String} (ha : printable a.toList = true)
    (hb : printable b.toList = true) : printable (a ++ b).toList = true := by
  rw [String.toList_append, printable_append, ha, hb, Bool.and_self]

theorem printable_ofList (h : printable cs = true) :
    printable (String.ofList cs).toList = true := by
  rw [String.toList_ofList, h]

theorem printable_flatMap {f : α → List Char} {xs : List α}
    (h : ∀ x ∈ xs, printable (f x) = true) : printable (xs.flatMap f) = true := by
  induction xs with
  | nil => rfl
  | cons x xs ih =>
    obtain ⟨hx, hxs⟩ := List.forall_mem_cons.mp h
    rw [List.flatMap_cons, printable_append, hx, ih hxs]
    rfl

theorem not_mem_of_printable (h : printable cs = true) (hc : isPrintable c = false) : c ∉ cs := by
  intro hmem
  rw [List.all_eq_true.mp h c hmem] at hc
  cases hc

theorem isPrintable_iff : isPrintable c = true ↔ 32 ≤ c.toNat ∧ c.toNat ≤ 126 := by
  simp only [isPrintable, Bool.and_eq_true, decide_eq_true_eq, Char.le_def,
    UInt32.le_iff_toNat_le]
  rfl

-- ---------------------------------------------------------------------------
-- Numbers
-- ---------------------------------------------------------------------------

theorem isPrintable_of_isDecimalChar (h : isDecimalChar c = true) : isPrintable c = true := by
  simp only [isDecimalChar, Char.isDigit, Bool.or_eq_true, Bool.and_eq_true, decide_eq_true_eq,
    beq_iff_eq] at h
  rcases h with ((⟨hlow, hhigh⟩ | rfl) | rfl) | rfl
  · have hlow : 48 ≤ c.toNat := hlow
    have hhigh : c.toNat ≤ 57 := hhigh
    exact isPrintable_iff.mpr ⟨by omega, by omega⟩
  · decide
  · decide
  · decide

theorem printable_of_isDecimalChar (h : ∀ c ∈ cs, isDecimalChar c = true) : printable cs = true :=
  List.all_eq_true.mpr fun c hc => isPrintable_of_isDecimalChar (h c hc)

theorem printable_intText : printable (intText n) = true :=
  printable_of_isDecimalChar fun _ => isDecimalChar_of_mem_intText

theorem printable_natText : printable (natText n) = true :=
  printable_of_isDecimalChar fun _ hc => isDecimalChar_of_isDigit (isDigit_of_mem_natText hc)

theorem printable_toString (n : Nat) : printable (toString n).toList = true := by
  have htext : (toString n).toList = natText n := Nat.toList_repr
  rw [htext, printable_natText]

-- ---------------------------------------------------------------------------
-- Strings
-- ---------------------------------------------------------------------------

namespace Escape

theorem isPrintable_of_isLetter (h : isLetter c = true) : isPrintable c = true := by
  simp only [isLetter, Bool.or_eq_true, Bool.and_eq_true, decide_eq_true_eq, Char.le_def,
    UInt32.le_iff_toNat_le] at h
  rw [isPrintable_iff]
  rcases h with ⟨hlow, hhigh⟩ | ⟨hlow, hhigh⟩
  · have hlow : 97 ≤ c.toNat := hlow
    have hhigh : c.toNat ≤ 122 := hhigh
    omega
  · have hlow : 65 ≤ c.toNat := hlow
    have hhigh : c.toNat ≤ 90 := hhigh
    omega

theorem isPrintable_of_mem {word : String} (hword : printable word.toList = true)
    (h : word.toList.contains c = true) : isPrintable c = true :=
  List.all_eq_true.mp hword c (List.contains_iff_mem.mp h)

theorem isPrintable_of_isWordChar (h : isWordChar c = true) : isPrintable c = true := by
  simp only [isWordChar, Bool.or_eq_true] at h
  rcases h with (hletter | hdigit) | hmark
  · exact isPrintable_of_isLetter hletter
  · have hdecimal : isDecimalChar c = true := isDecimalChar_of_isDigit hdigit
    exact isPrintable_of_isDecimalChar hdecimal
  · exact isPrintable_of_mem (by decide) hmark

theorem printable_of_isWordChar (h : cs.all isWordChar = true) : printable cs = true :=
  List.all_eq_true.mpr fun c hc => isPrintable_of_isWordChar (List.all_eq_true.mp h c hc)

theorem printable_of_isWord (h : isWord cs = true) : printable cs = true := by
  unfold isWord at h
  split at h
  · rename_i c rest
    simp only [Bool.and_eq_true, Bool.or_eq_true] at h
    obtain ⟨hc, hrest⟩ := h
    have hfirst : isPrintable c = true := by
      rcases hc with hupper | hbracket
      · exact isPrintable_of_isLetter (by simp [isLetter, hupper])
      · rw [beq_iff_eq.mp hbracket]
        decide
    have hbracket : isPrintable '[' = true := by decide
    rw [printable_cons, printable_cons, hbracket, hfirst, printable_of_isWordChar hrest]
    rfl
  · rename_i c rest hbracket
    simp only [Bool.and_eq_true, Bool.or_eq_true] at h
    obtain ⟨hc, hrest⟩ := h
    have hfirst : isPrintable c = true := by
      rcases hc with hletter | hmark
      · exact isPrintable_of_isLetter hletter
      · exact isPrintable_of_mem (by decide) hmark
    rw [printable_cons, hfirst, printable_of_isWordChar hrest]
    rfl
  · cases h

theorem isPrintable_hexDigit : ∀ n < 16, isPrintable (hexDigit n) = true := by
  decide

theorem printable_unitEscape (unit : Nat) : printable (unitEscape unit) = true := by
  have hdigit : ∀ n, isPrintable (hexDigit (n % 16)) = true := fun n =>
    isPrintable_hexDigit _ (Nat.mod_lt n (by decide))
  have hslash : isPrintable '\\' = true := by decide
  have hu : isPrintable 'u' = true := by decide
  simp only [unitEscape, printable_cons, printable_nil, hslash, hu, hdigit, Bool.and_self]

theorem printable_escapeChar (c : Char) : printable (escapeChar c) = true := by
  unfold escapeChar
  split
  · decide
  split
  · decide
  split
  · rename_i hvisible
    rw [printable_cons]
    exact Bool.and_eq_true_iff.mpr ⟨hvisible, rfl⟩
  · exact printable_flatMap fun unit _ => printable_unitEscape unit

end Escape

theorem printable_escape (text : String) : printable (escape text).toList = true := by
  rw [escape, String.toList_ofList, Escape.encode]
  split
  · rename_i hword
    exact Escape.printable_of_isWord hword
  · have hquote : isPrintable '"' = true := by decide
    have hinside := printable_flatMap fun c (_ : c ∈ text.toList) =>
      Escape.printable_escapeChar c
    simp only [List.cons_append, printable_cons, printable_append, printable_nil, hquote, hinside,
      Bool.and_self]

end ClassText
