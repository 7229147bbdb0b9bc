/-!
# Measures and cuts of text

Positions within a line are counted in bytes of its UTF-8 form. A text is cut at the first
occurrence of a character, or shortened at its end.
-/

namespace ClassText

def byteSize : List Char → Nat
  | [] => 0
  | c :: cs => c.utf8Size + byteSize cs

@[simp] theorem byteSize_nil : byteSize [] = 0 := rfl

@[simp] theorem byteSize_cons (c : Char) (cs : List Char) :
    byteSize (c :: cs) = c.utf8Size + byteSize cs := rfl

@[simp] theorem byteSize_append (cs ds : List Char) :
    byteSize (cs ++ ds) = byteSize cs + byteSize ds := by
  induction cs with
  | nil => simp
  | cons c cs ih => simp [ih, Nat.add_assoc]

theorem utf8ByteSize_ofList (cs : List Char) : (String.ofList cs).utf8ByteSize = byteSize cs := by
  induction cs with
  | nil => rfl
  | cons c cs ih =>
    rw [show c :: cs = [c] ++ cs from rfl, String.ofList_append, String.utf8ByteSize_append, ih]
    simp

/-- Cuts a text at the first character `c`, which belongs to neither part. -/
def splitAtFirst (c : Char) : List Char → Option (List Char × List Char)
  | [] => none
  | d :: rest =>
    if d = c then some ([], rest)
    else (splitAtFirst c rest).map fun (before, after) => (d :: before, after)

theorem splitAtFirst_eq_none_iff {c : Char} {text : List Char} :
    splitAtFirst c text = none ↔ c ∉ text := by
  induction text with
  | nil => simp [splitAtFirst]
  | cons d rest ih =>
    by_cases h : d = c
    · simp [splitAtFirst, h]
    · simp [splitAtFirst, h, ih, Ne.symm h]

theorem splitAtFirst_eq_some_iff {c : Char} {text before after : List Char} :
    splitAtFirst c text = some (before, after) ↔ text = before ++ c :: after ∧ c ∉ before := by
  induction text generalizing before with
  | nil => simp [splitAtFirst]
  | cons d rest ih =>
    by_cases h : d = c
    · cases before <;> grind [splitAtFirst]
    · cases before with
      | nil => simp [splitAtFirst, h]
      | cons b before =>
        simp only [splitAtFirst, if_neg h, Option.map_eq_some_iff, Prod.exists, Prod.mk.injEq,
          List.cons.injEq]
        grind

theorem length_of_splitAtFirst {c : Char} {text before after : List Char}
    (h : splitAtFirst c text = some (before, after)) : after.length < text.length := by
  obtain ⟨rfl, -⟩ := splitAtFirst_eq_some_iff.1 h
  simp only [List.length_append, List.length_cons]
  omega

def dropEndWhile {α : Type} (p : α → Bool) (xs : List α) : List α :=
  (xs.reverse.dropWhile p).reverse

end ClassText
