import ClassText.Pool.Text
import ClassText.Proofs.Text.Unescape

/-!
# The components of a definition

What a constant refers to is written as components with a space between two of them: written
strings and references. `joined_inj`: such a text can be cut into components in one way only.

A written string is a bare word without the characters that delimit components, or a literal
between quotes; `escape_lossless` puts this together with the fact that it can be read back.
-/

namespace ClassText

/-- What a definition has behind its kind. -/
inductive Component where
  | string (text : String)
  | reference (number : Nat)
deriving DecidableEq

namespace Component

def written : Component → String
  | .string text => escape text
  | .reference number => Pool.reference number

def joined (components : List Component) : String :=
  " ".intercalate (components.map written)

/-- Reads a component from the start of a text. -/
def read : List Char → Option (Component × List Char)
  | '#' :: rest =>
    some (.reference (ofDigits 10 (rest.takeWhile Char.isDigit)), rest.dropWhile Char.isDigit)
  | text => (Escape.read text).map fun (cs, rest) => (.string (String.ofList cs), rest)

end Component

-- ---------------------------------------------------------------------------
-- Written strings
-- ---------------------------------------------------------------------------

namespace Escape

/-- A word that no delimiter of components is part of. -/
def IsBare (cs : List Char) : Prop :=
  cs ≠ [] ∧ ∀ c ∈ cs, c ∉ [' ', '"', '#', '.']

/-- A text in which quotes and backslashes stand only in escapes. -/
inductive IsEscaped : List Char → Prop
  | nil : IsEscaped []
  | plain (hquote : c ≠ '"') (hslash : c ≠ '\\') (hrest : IsEscaped rest) : IsEscaped (c :: rest)
  | quote (hrest : IsEscaped rest) : IsEscaped ('\\' :: '"' :: rest)
  | slash (hrest : IsEscaped rest) : IsEscaped ('\\' :: '\\' :: rest)
  | unit (hdigits : ∀ digit ∈ [a, b, c, d], isHexDigit digit = true) (hrest : IsEscaped rest) :
      IsEscaped ('\\' :: 'u' :: a :: b :: c :: d :: rest)

/-- A literal between quotes. -/
def IsLiteral (cs : List Char) : Prop :=
  ∃ inside, cs = '"' :: inside ++ ['"'] ∧ IsEscaped inside

theorem isWordChar_delimiters : ∀ c ∈ [' ', '"', '#', '.'], isWordChar c = false := by
  intro c hc
  simp only [List.mem_cons, List.not_mem_nil, or_false] at hc
  rcases hc with rfl | rfl | rfl | rfl
  all_goals rfl

theorem isBare_of_isWord (h : isWord cs = true) : IsBare cs := by
  constructor
  · rintro rfl
    cases h
  · intro c hc hdelimiter
    have hword := List.all_eq_true.mp (all_of_isWord h) c hc
    rw [isWordChar_delimiters c hdelimiter] at hword
    cases hword

theorem isEscaped_unitEscapes (us : List Nat) (h : IsEscaped rest) :
    IsEscaped (us.flatMap unitEscape ++ rest) := by
  induction us with
  | nil => exact h
  | cons unit us ih =>
    have hdigit : ∀ n, isHexDigit (hexDigit (n % 16)) = true := fun n =>
      (hexDigit_spec _ (Nat.mod_lt n (by decide))).1
    rw [List.flatMap_cons, List.append_assoc]
    exact .unit (by simp [hdigit]) ih

theorem isEscaped_escapeChar (c : Char) (h : IsEscaped rest) :
    IsEscaped (escapeChar c ++ rest) := by
  unfold escapeChar
  split
  · exact .quote h
  split
  · exact .slash h
  split
  · rename_i hquote hslash _
    exact .plain hquote hslash h
  · exact isEscaped_unitEscapes _ h

theorem isEscaped_flatMap (cs : List Char) : IsEscaped (cs.flatMap escapeChar) := by
  induction cs with
  | nil => exact .nil
  | cons c cs ih =>
    rw [List.flatMap_cons]
    exact isEscaped_escapeChar c ih

theorem isBare_or_isLiteral (text : String) :
    IsBare (escape text).toList ∨ IsLiteral (escape text).toList := by
  rw [escape, String.toList_ofList, encode]
  split
  · rename_i hword
    exact .inl (isBare_of_isWord hword)
  · exact .inr ⟨_, rfl, isEscaped_flatMap _⟩

/-- No written string can be taken for a reference. -/
theorem head_escape (text : String) : ∃ c cs, (escape text).toList = c :: cs ∧ c ≠ '#' := by
  rcases isBare_or_isLiteral text with ⟨hne, hchars⟩ | ⟨inside, htext, -⟩
  · obtain ⟨c, cs, hcs⟩ := List.exists_cons_of_ne_nil hne
    refine ⟨c, cs, hcs, ?_⟩
    rintro rfl
    exact hchars '#' (hcs ▸ List.mem_cons_self) (by decide)
  · exact ⟨'"', inside ++ ['"'], htext, by decide⟩

end Escape

-- ---------------------------------------------------------------------------
-- Sequences of components
-- ---------------------------------------------------------------------------

namespace Component

/-- A text that does not continue a component: nothing, or a space and more. -/
def EndsComponent (rest : List Char) : Prop := rest = [] ∨ ∃ more, rest = ' ' :: more

theorem EndsComponent.endsWord (h : EndsComponent rest) : Escape.EndsWord rest := by
  rcases h with rfl | ⟨more, rfl⟩
  · intro c hc
    cases hc
  · intro c hc
    cases hc
    decide

theorem EndsComponent.noDigit (h : EndsComponent rest) :
    rest.takeWhile Char.isDigit = [] ∧ rest.dropWhile Char.isDigit = rest := by
  rcases h with rfl | ⟨more, rfl⟩
  · exact ⟨rfl, rfl⟩
  · exact ⟨rfl, rfl⟩

theorem toList_reference (number : Nat) :
    (Pool.reference number).toList = '#' :: natText number := by
  have htext : (toString number).toList = natText number := Nat.toList_repr
  rw [Pool.reference, String.toList_append, htext]
  rfl

theorem read_written (component : Component) (h : EndsComponent rest) :
    read (component.written.toList ++ rest) = some (component, rest) := by
  cases component with
  | string text =>
    obtain ⟨c, cs, hcs, hc⟩ := Escape.head_escape text
    have hread := Escape.read_encode text.toList h.endsWord
    have hwritten : (written (.string text)).toList = Escape.encode text.toList := by
      rw [written, escape, String.toList_ofList]
    unfold read
    split
    · rename_i after htext
      rw [written, hcs, List.cons_append, List.cons.injEq] at htext
      exact absurd htext.1 hc
    · simp only [hwritten, hread, Option.map_some, String.ofList_toList]
  | reference number =>
    have hdigits : ∀ c ∈ natText number, c.isDigit = true := fun _ => isDigit_of_mem_natText
    obtain ⟨htake, hdrop⟩ := h.noDigit
    rw [written, toList_reference, List.cons_append, read, List.takeWhile_append_of_pos hdigits,
      List.dropWhile_append_of_pos hdigits, htake, hdrop, List.append_nil, ofDigits_natText]

/-- What follows a component in a sequence of them. -/
def following : List Component → List Char
  | [] => []
  | component :: more => ' ' :: (joined (component :: more)).toList

theorem endsComponent_following (components : List Component) :
    EndsComponent (following components) := by
  cases components with
  | nil => exact .inl rfl
  | cons component more => exact .inr ⟨_, rfl⟩

theorem toList_joined (component : Component) (more : List Component) :
    (joined (component :: more)).toList = component.written.toList ++ following more := by
  cases more with
  | nil =>
    rw [joined, List.map_singleton, String.intercalate_singleton, following, List.append_nil]
  | cons next more =>
    rw [joined, List.map_cons, List.map_cons, String.intercalate_cons_cons, String.toList_append,
      String.toList_append, List.append_assoc, ← List.map_cons, ← joined]
    rfl

theorem read_joined (component : Component) (more : List Component) :
    read (joined (component :: more)).toList = some (component, following more) := by
  rw [toList_joined, read_written component (endsComponent_following more)]

theorem joined_inj {xs ys : List Component} : joined xs = joined ys ↔ xs = ys := by
  constructor
  · induction xs generalizing ys with
    | nil =>
      cases ys with
      | nil => exact fun _ => rfl
      | cons y ys =>
        intro h
        have hread := read_joined y ys
        rw [← h] at hread
        cases hread
    | cons x xs ih =>
      cases ys with
      | nil =>
        intro h
        have hread := read_joined x xs
        rw [h] at hread
        cases hread
      | cons y ys =>
        intro h
        have hread := read_joined y ys
        rw [← h, read_joined x xs] at hread
        simp only [Option.some.injEq, Prod.mk.injEq] at hread
        obtain ⟨rfl, hfollowing⟩ := hread
        cases xs with
        | nil =>
          cases ys with
          | nil => rfl
          | cons y ys => cases hfollowing
        | cons x xs =>
          cases ys with
          | nil => cases hfollowing
          | cons y ys =>
            rw [ih (String.toList_inj.mp (List.cons.inj hfollowing).2)]
  · rintro rfl
    rfl

/-- Strings are written without loss: each is read back, and is printable ASCII, either a bare
word without delimiters or a literal with its quotes and backslashes escaped. Written strings
and references with spaces between them can be told apart again. -/
theorem escape_lossless :
    (∀ text, unescape (escape text) = some text) ∧
    (∀ a b, escape a = escape b ↔ a = b) ∧
    (∀ text, printable (escape text).toList = true ∧
      (Escape.IsBare (escape text).toList ∨ Escape.IsLiteral (escape text).toList)) ∧
    ∀ xs ys : List Component,
      " ".intercalate (xs.map written) = " ".intercalate (ys.map written) ↔ xs = ys :=
  ⟨unescape_escape, fun _ _ => escape_inj,
    fun text => ⟨printable_escape text, Escape.isBare_or_isLiteral text⟩,
    fun _ _ => joined_inj⟩

end Component

end ClassText
