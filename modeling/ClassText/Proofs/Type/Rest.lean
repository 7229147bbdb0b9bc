import ClassText.Type.Parser

/-!
# What is left of a descriptor

Reading moves on from the start of its text: what is left behind a value, or behind the
character that is found wrong, is an end of the text. So a fault is never placed outside the
descriptor.
-/

namespace ClassText.Descriptor

variable {c : Char} {text rest : List Char} {α β : Type}

/-- What reading leaves of a text, behind a value or behind a fault. -/
def left : Except Stop (α × List Char) → List Char
  | .ok (_, rest) => rest
  | .error stop => stop.rest

theorem left_map {reading : Except Stop (α × List Char)} {f : α × List Char → β × List Char}
    (hf : ∀ a rest, (f (a, rest)).2 = rest) (hreading : left reading <:+ text) :
    left (reading.map f) <:+ text := by
  cases reading with
  | error stop => exact hreading
  | ok read =>
    obtain ⟨a, rest⟩ := read
    change (f (a, rest)).2 <:+ text
    rw [hf]
    exact hreading

theorem left_bind {reading : Except Stop (α × List Char)}
    {next : α × List Char → Except Stop (β × List Char)} (hreading : left reading <:+ text)
    (hnext : ∀ a rest, reading = .ok (a, rest) → left (next (a, rest)) <:+ rest) :
    left (reading >>= next) <:+ text := by
  cases reading with
  | error stop => exact hreading
  | ok read => exact (hnext read.1 read.2 rfl).trans hreading

theorem left_expect {next : List Char → Except Stop (β × List Char)}
    (hnext : ∀ rest, left (next rest) <:+ rest) : left (expect c text >>= next) <:+ text := by
  cases text with
  | nil => exact List.suffix_refl _
  | cons d rest =>
    simp only [expect]
    split
    · exact (hnext rest).trans (List.suffix_cons d rest)
    · exact List.suffix_cons d rest

-- ---------------------------------------------------------------------------
-- Types
-- ---------------------------------------------------------------------------

theorem left_readName (text : List Char) : left (readName text) <:+ text := by
  have hrest := List.dropWhile_suffix (l := text) (!endsName ·)
  unfold readName
  cases hdrop : text.dropWhile (!endsName ·) with
  | nil => exact List.suffix_refl _
  | cons c rest =>
    have hbehind : rest <:+ text := (List.suffix_cons c rest).trans (hdrop ▸ hrest)
    dsimp only
    split
    · exact List.suffix_refl _
    · split
      · exact hbehind
      · exact hbehind

theorem left_readType (text : List Char) : left (readType text) <:+ text := by
  fun_induction readType text with
  | case1 => exact List.suffix_refl _
  | case10 rest ih => exact left_map (fun _ _ => rfl) (ih.trans (List.suffix_cons _ rest))
  | case11 rest | case12 rest =>
    exact left_map (fun _ _ => rfl) ((left_readName rest).trans (List.suffix_cons _ rest))
  | _ => exact List.suffix_cons _ _

theorem left_of_readType (h : readType text = .ok (t, rest)) : rest <:+ text := by
  simpa [h, left] using left_readType text

theorem left_of_readType_error (h : readType text = .error stop) : stop.rest <:+ text := by
  simpa [h, left] using left_readType text

theorem left_readTypes (text : List Char) : left (readTypes text) <:+ text := by
  fun_induction readTypes text with
  | case1 => exact List.suffix_refl _
  | case2 text _ stop hread => exact left_of_readType_error hread
  | case3 text _ t rest hread ih =>
    exact left_map (fun _ _ => rfl) (ih.trans (left_of_readType hread))

theorem left_readMoreBounds (text : List Char) : left (readMoreBounds text) <:+ text := by
  fun_induction readMoreBounds text with
  | case1 rest stop hread =>
    exact (left_of_readType_error hread).trans (List.suffix_cons _ rest)
  | case2 rest t more hread ih =>
    exact left_map (fun _ _ => rfl)
      (ih.trans ((left_of_readType hread).trans (List.suffix_cons _ rest)))
  | case3 => exact List.suffix_refl _

theorem left_readBounds (text : List Char) : left (readBounds text) <:+ text := by
  unfold readBounds
  split
  · split
    · rename_i hread
      exact left_of_readType_error hread
    · rename_i rest hread
      exact left_map (fun _ _ => rfl) ((left_readMoreBounds rest).trans (left_of_readType hread))
  · exact left_readMoreBounds text

theorem left_readBinders (text : List Char) : left (readBinders text) <:+ text := by
  fun_induction readBinders text with
  | case1 | case2 | case3 => exact List.suffix_refl _
  | case4 text _ name rest hsplit _ stop hbounds =>
    obtain ⟨rfl, -⟩ := splitAtFirst_eq_some_iff.mp hsplit
    have hrest := left_readBounds rest
    rw [hbounds] at hrest
    exact hrest.trans ⟨name ++ [':'], by simp⟩
  | case5 text _ name rest hsplit _ bounds more hbounds ih =>
    obtain ⟨rfl, -⟩ := splitAtFirst_eq_some_iff.mp hsplit
    have hrest := left_readBounds rest
    rw [hbounds] at hrest
    exact left_map (fun _ _ => rfl) ((ih.trans hrest).trans ⟨name ++ [':'], by simp⟩)

-- ---------------------------------------------------------------------------
-- Signatures and classes
-- ---------------------------------------------------------------------------

theorem left_readTypeParameters (text : List Char) : left (readTypeParameters text) <:+ text := by
  unfold readTypeParameters
  split
  · rename_i rest
    have hbinders : left (readBinders rest) <:+ '<' :: rest :=
      (left_readBinders rest).trans (List.suffix_cons _ rest)
    refine left_bind hbinders fun vs rest _ => left_expect fun rest => ?_
    split
    · exact List.suffix_refl _
    · exact List.suffix_refl _
  · exact List.suffix_refl _

theorem left_readResult (text : List Char) : left (readResult text) <:+ text := by
  unfold readResult
  split
  · exact List.suffix_cons _ _
  · exact left_readType text

theorem left_readSignature (text : List Char) : left (readSignature text) <:+ text := by
  refine left_bind (left_readTypeParameters text) fun _ rest _ => left_expect fun rest => ?_
  refine left_bind (left_readTypes rest) fun _ rest _ => left_expect fun rest => ?_
  exact left_bind (left_readResult rest) fun _ rest _ => List.suffix_refl _

theorem left_readClass (text : List Char) : left (readClass text) <:+ text := by
  refine left_expect fun rest => ?_
  exact left_bind (left_readName rest) fun _ rest _ => List.suffix_refl _

end ClassText.Descriptor
