import ClassText.Text.Basic

/-!
# Cuts at bytes

A text can be cut after so many bytes only if a character ends there. `cut?` and `slice?` fail
elsewhere. A computation that depends on such cuts is `Checked`: it comes to a value or an
error of its own if each cut succeeds, and to nothing otherwise.
-/

namespace ClassText

variable {ε α β : Type}

-- ---------------------------------------------------------------------------
-- Cuts
-- ---------------------------------------------------------------------------

/-- Cuts a text after `n` bytes, if there are as many and a character ends there. -/
def cut? : Nat → List Char → Option (List Char × List Char)
  | 0, text => some ([], text)
  | _ + 1, [] => none
  | n + 1, c :: rest =>
    if c.utf8Size ≤ n + 1 then
      (cut? (n + 1 - c.utf8Size) rest).map fun (before, after) => (c :: before, after)
    else none

/-- What a text has between two bytes. -/
def slice? (start stop : Nat) (text : List Char) : Option (List Char) := do
  let (_, rest) ← cut? start text
  if start ≤ stop then
    let (slice, _) ← cut? (stop - start) rest
    some slice
  else none

/-- The byte that the first character with a property starts at. -/
def findByte? (p : Char → Bool) : List Char → Option Nat
  | [] => none
  | c :: rest => if p c then some 0 else (findByte? p rest).map (· + c.utf8Size)

theorem byteSize_toList (text : String) : byteSize text.toList = text.utf8ByteSize := by
  rw [← utf8ByteSize_ofList, String.ofList_toList]

theorem cut?_append (before after : List Char) :
    cut? (byteSize before) (before ++ after) = some (before, after) := by
  induction before with
  | nil => rw [byteSize_nil, List.nil_append, cut?]
  | cons c before ih =>
    obtain ⟨n, hn⟩ : ∃ n, byteSize (c :: before) = n + 1 :=
      Nat.exists_eq_succ_of_ne_zero (by have := c.utf8Size_pos; simp; omega)
    have hrest : n + 1 - c.utf8Size = byteSize before := by
      rw [← hn, byteSize_cons, Nat.add_sub_cancel_left]
    have hle : c.utf8Size ≤ n + 1 := by
      rw [← hn, byteSize_cons]
      exact Nat.le_add_right _ _
    rw [hn, List.cons_append, cut?, if_pos hle, hrest, ih]
    rfl

theorem cut?_eq_some_iff {n : Nat} {text before after : List Char} :
    cut? n text = some (before, after) ↔ text = before ++ after ∧ n = byteSize before := by
  constructor
  · intro h
    induction text generalizing n before with
    | nil =>
      cases n with
      | zero => cases h; exact ⟨rfl, rfl⟩
      | succ n => cases h
    | cons c rest ih =>
      cases n with
      | zero => cases h; exact ⟨rfl, rfl⟩
      | succ n =>
        rw [cut?] at h
        split at h
        · rename_i hle
          obtain ⟨⟨before, after⟩, hcut, h⟩ := Option.map_eq_some_iff.mp h
          cases h
          obtain ⟨rfl, hsize⟩ := ih hcut
          exact ⟨rfl, by rw [byteSize_cons, ← hsize]; omega⟩
        · cases h
  · rintro ⟨rfl, rfl⟩
    exact cut?_append before after

/-- A text can be cut at a byte if and only if the byte is a valid position in it. -/
theorem isSome_cut?_iff {n : Nat} {text : String} :
    (cut? n text.toList).isSome ↔ String.Pos.Raw.IsValid text ⟨n⟩ := by
  rw [Option.isSome_iff_exists, String.Pos.Raw.isValid_iff_exists_append]
  constructor
  · rintro ⟨⟨before, after⟩, hcut⟩
    obtain ⟨htext, rfl⟩ := cut?_eq_some_iff.mp hcut
    refine ⟨String.ofList before, String.ofList after, ?_, ?_⟩
    · rw [← String.ofList_append, ← htext, String.ofList_toList]
    · rw [String.rawEndPos, utf8ByteSize_ofList]
  · rintro ⟨before, after, rfl, hn⟩
    have hsize : n = byteSize before.toList := by
      rw [byteSize_toList]
      exact congrArg String.Pos.Raw.byteIdx hn
    exact ⟨_, cut?_eq_some_iff.mpr ⟨String.toList_append, hsize⟩⟩

example : cut? 1 "é.".toList = none := by rfl

theorem isValid_byteSize {text : String} {before after : List Char}
    (h : text.toList = before ++ after) : String.Pos.Raw.IsValid text ⟨byteSize before⟩ := by
  rw [← isSome_cut?_iff, h, cut?_append]
  rfl

/-- The cut behind a character. -/
theorem cut?_cons (c : Char) (rest : List Char) :
    cut? c.utf8Size (c :: rest) = some ([c], rest) := by
  simpa using cut?_append [c] rest

theorem slice?_append (before slice after : List Char) :
    slice? (byteSize before) (byteSize before + byteSize slice) (before ++ slice ++ after) =
      some slice := by
  rw [slice?, List.append_assoc, cut?_append, Option.bind_eq_bind, Option.bind_some]
  dsimp only
  rw [if_pos (Nat.le_add_right _ _), Nat.add_sub_cancel_left, cut?_append]
  rfl

theorem exists_concat (cs : List Char) : cs = [] ∨ ∃ ds d, cs = ds ++ [d] := by
  simpa only [List.concat_eq_append] using cs.eq_nil_or_concat

/-- A character of one byte is cut off at the end. -/
theorem slice?_dropLast {d : Char} (hd : d.utf8Size = 1) {cs : List Char} :
    slice? 0 (byteSize (cs ++ [d]) - 1) (cs ++ [d]) = some cs := by
  have hcut := slice?_append [] cs [d]
  have hstop : byteSize (cs ++ [d]) - 1 = byteSize [] + byteSize cs := by
    simp only [byteSize_append, byteSize_cons, byteSize_nil, hd]
    omega
  rw [← hstop, byteSize_nil, List.nil_append] at hcut
  exact hcut

/-- A character of one byte is cut off at each end. -/
theorem slice?_ends {c d : Char} (hc : c.utf8Size = 1) (hd : d.utf8Size = 1) (cs : List Char) :
    slice? 1 (byteSize (c :: (cs ++ [d])) - 1) (c :: (cs ++ [d])) = some cs := by
  have hcut := slice?_append [c] cs [d]
  have hstop : byteSize (c :: (cs ++ [d])) - 1 = byteSize [c] + byteSize cs := by
    simp only [byteSize_cons, byteSize_append, byteSize_nil, hc, hd]
    omega
  rw [← hstop, byteSize_cons, byteSize_nil, hc, List.append_assoc] at hcut
  exact hcut

theorem findByte?_eq_none {p : Char → Bool} {text : List Char} (h : ∀ c ∈ text, p c = false) :
    findByte? p text = none := by
  induction text with
  | nil => rfl
  | cons c rest ih =>
    obtain ⟨hc, hrest⟩ := List.forall_mem_cons.mp h
    rw [findByte?, if_neg (by simp [hc]), ih hrest]
    rfl

theorem findByte?_append {p : Char → Bool} {before after : List Char} {c : Char}
    (hbefore : ∀ d ∈ before, p d = false) (hc : p c = true) :
    findByte? p (before ++ c :: after) = some (byteSize before) := by
  induction before with
  | nil => rw [List.nil_append, findByte?, if_pos hc, byteSize_nil]
  | cons d before ih =>
    obtain ⟨hd, hbefore⟩ := List.forall_mem_cons.mp hbefore
    rw [List.cons_append, findByte?, if_neg (by simp [hd]), ih hbefore, byteSize_cons,
      Nat.add_comm]
    rfl

-- ---------------------------------------------------------------------------
-- Checked computations
-- ---------------------------------------------------------------------------

/-- A value or an error, if every cut and every check on the way to it succeeds. -/
abbrev Checked (ε α : Type) := Option (Except ε α)

namespace Checked

def andThen (x : Checked ε α) (f : α → Checked ε β) : Checked ε β :=
  match x with
  | none => none
  | some (.error e) => some (.error e)
  | some (.ok a) => f a

theorem andThen_some {x : Except ε α} {f : α → Checked ε β} {g : α → Except ε β}
    (h : ∀ a, x = .ok a → f a = some (g a)) : andThen (some x) f = some (x >>= g) := by
  cases x with
  | error e => rfl
  | ok a => exact h a rfl

end Checked

end ClassText
