import ClassText.Listing.Report
import ClassText.Proofs.Line.Blame
import ClassText.Proofs.Listing.KeepGoing

/-!
# Where the marks of a report stand

`report_marks`: below a rejected line there is one caret, in the column of the first character
to blame, and below the columns of the others there are tildes, all as far as the report is
wide. The line above them is cut after as many characters, of which a tab takes more columns
than one; so with enough tabs the character is shown and its caret is not (`report_marks_lost`).

A span is in bytes, a line is cut by characters and marks are counted in columns. The three meet
where the line is taken apart at both ends of the span (`exists_blamed`): what stands before it
has a size, a length and a width.
-/

namespace ClassText

open Diagnostic Token

variable {before blamed after line : List Char} {start stop k : Nat} {c : Char}

-- ---------------------------------------------------------------------------
-- Columns
-- ---------------------------------------------------------------------------

namespace Diagnostic

theorem width_append (cs ds : List Char) : width (cs ++ ds) = width cs + width ds := by
  induction cs with
  | nil => rw [List.nil_append, width, Nat.zero_add]
  | cons c cs ih => rw [List.cons_append, width, width, ih, Nat.add_assoc]

theorem width_eq_length {cs : List Char} (h : '\t' ∉ cs) : width cs = cs.length := by
  induction cs with
  | nil => rfl
  | cons c cs ih =>
    obtain ⟨hc, hcs⟩ := not_or.mp (mt List.mem_cons.mpr h)
    rw [width, columns, if_neg (Ne.symm hc), ih hcs, List.length_cons, Nat.add_comm]

/-- The column behind a part of a line is the width of the part. -/
theorem columnAt_byteSize (before after : List Char) :
    columnAt (byteSize before) (before ++ after) = width before := by
  induction before with
  | nil => cases after <;> rfl
  | cons c before ih =>
    have hpos := c.utf8Size_pos
    have hsize : byteSize (c :: before) - c.utf8Size = byteSize before := by
      rw [byteSize_cons, Nat.add_sub_cancel_left]
    have hne : byteSize (c :: before) ≠ 0 := by
      rw [byteSize_cons]
      omega
    have hge : ¬byteSize (c :: before) < c.utf8Size := by
      rw [byteSize_cons]
      omega
    rw [List.cons_append, columnAt, if_neg hne, if_neg hge, hsize, ih, width]

-- ---------------------------------------------------------------------------
-- Marks
-- ---------------------------------------------------------------------------

theorem mark_eq_caret : mark start stop k = '^' ↔ k = start := by
  unfold mark
  split
  · simp [*]
  · split <;> simp [*]

theorem mark_eq_tilde : mark start stop k = '~' ↔ start < k ∧ k < stop := by
  unfold mark
  split
  · rename_i heq
    simp [heq]
  · split <;> simp [*]

theorem mark_cases (start stop k : Nat) :
    mark start stop k = '^' ∨ mark start stop k = '~' ∨ mark start stop k = ' ' := by
  unfold mark
  split
  · exact .inl rfl
  · split
    · exact .inr (.inl rfl)
    · exact .inr (.inr rfl)

theorem mem_of_mem_dropEndWhile {p : α → Bool} {xs : List α} (h : x ∈ dropEndWhile p xs) :
    x ∈ xs := by
  rw [← dropEndWhile_append p xs]
  exact List.mem_append_left _ h

/-- What is kept stays in its place. -/
theorem getElem?_dropEndWhile {p : α → Bool} {xs : List α} (hx : p x = false) :
    (dropEndWhile p xs)[k]? = some x ↔ xs[k]? = some x := by
  have hsplit := dropEndWhile_append p xs
  constructor
  · intro h
    rw [← hsplit, List.getElem?_append_left (List.getElem?_eq_some_iff.mp h).1, h]
  · intro h
    rw [← hsplit, List.getElem?_append] at h
    split at h
    · exact h
    · -- all that was dropped is unlike `x`
      have hmem := List.mem_reverse.mp (List.mem_of_getElem? h)
      have hdropped := List.all_eq_true.mp List.all_takeWhile x hmem
      rw [hx] at hdropped
      contradiction

theorem getElem?_underline {span : Span} (hc : c ≠ ' ') :
    (underline line span)[k]? = some c ↔
      k < width line + 1 ∧ mark (columnAt span.start line) (columnAt span.stop line) k = c := by
  rw [underline, getElem?_dropEndWhile (by simpa using hc), List.getElem?_map,
    Option.map_eq_some_iff]
  constructor
  · rintro ⟨column, hcolumn, hmark⟩
    obtain ⟨hlt, rfl⟩ := List.getElem?_eq_some_iff.mp hcolumn
    rw [List.getElem_range] at hmark
    exact ⟨by simpa using hlt, hmark⟩
  · rintro ⟨hlt, hmark⟩
    exact ⟨k, List.getElem?_range hlt, hmark⟩

/-- Marks stand below a part of a line, given with what is before it: a caret below its first
character, or behind the line if it is empty and at the line's end, and tildes below the columns
between there and its end, as far as they are shown. -/
structure MarksPart (before blamed marks : List Char) : Prop where
  caret : ∀ k, marks[k]? = some '^' ↔ k = width before ∧ k < shownLength
  tilde : ∀ k, marks[k]? = some '~' ↔
    width before < k ∧ k < width (before ++ blamed) ∧ k < shownLength
  blank : ∀ c ∈ marks, c = '^' ∨ c = '~' ∨ c = ' '

theorem marksPart_underline (before blamed after : List Char) :
    MarksPart before blamed ((underline (before ++ blamed ++ after)
      ⟨byteSize before, byteSize (before ++ blamed)⟩).take shownLength) := by
  have hstart : columnAt (byteSize before) (before ++ blamed ++ after) = width before := by
    rw [List.append_assoc, columnAt_byteSize]
  have hstop : columnAt (byteSize (before ++ blamed)) (before ++ blamed ++ after) =
      width (before ++ blamed) := columnAt_byteSize _ _
  have hwidth := width_append (before ++ blamed) after
  have hwidth' := width_append before blamed
  constructor
  · intro k
    rw [List.getElem?_take]
    split
    · rw [getElem?_underline (by decide), hstart, hstop, mark_eq_caret]
      omega
    · simp [*]
  · intro k
    rw [List.getElem?_take]
    split
    · rw [getElem?_underline (by decide), hstart, hstop, mark_eq_tilde]
      omega
    · simp [*]
  · intro c hc
    have hmem := mem_of_mem_dropEndWhile (List.mem_of_mem_take hc)
    obtain ⟨k, -, rfl⟩ := List.mem_map.mp hmem
    exact mark_cases _ _ k

end Diagnostic

-- ---------------------------------------------------------------------------
-- Rejected lines
-- ---------------------------------------------------------------------------

theorem Instruction.exists_blamed {line : String} {e : SyntaxError} (h : ofLine line = .error e) :
    ∃ before blamed after, line.toList = before ++ blamed ++ after ∧
      e.span = ⟨byteSize before, byteSize (before ++ blamed)⟩ := by
  obtain ⟨token, htoken, piece, ⟨front, back, htext, hstart, -⟩, hspan⟩ :=
    blames_ofTokens (scan line) e h
  obtain ⟨left, right, hline, hleft⟩ := (scan_eq_iff.mp rfl).exists_slice htoken
  refine ⟨left ++ front, piece.text.toList, back ++ right, ?_, ?_⟩
  · rw [hline, htext]
    simp only [List.append_assoc]
  · rw [hspan, Token.span, hstart, hleft, byteSize_append (left ++ front), byteSize_append left,
      byteSize_toList, Nat.zero_add]

namespace Listing

variable {keepGoing : Bool} {source : String} {errors : List ListingError} {e : ListingError}

theorem mem_rejected_of_read (h : read keepGoing source = .error errors) (he : e ∈ errors) :
    e ∈ rejected source := by
  cases hrejected : rejected source with
  | nil =>
    rw [read_of_rejected_nil hrejected] at h
    cases h
  | cons first later =>
    rw [read_error hrejected] at h
    cases h
    split at he
    · exact he
    · exact List.mem_cons.mpr (.inl (List.mem_singleton.mp he))

/-- The report on a rejected line, which consists of the part to blame and of what is before and
after it: the number of the line, the column and the message; then the line, and below it the
marks, both cut at the same length. -/
structure MarkedReport (name : String) (source : List String) (e : ListingError)
    (before blamed after marks : List Char) : Prop where
  line_eq : source[e.line]? = some (String.ofList (before ++ blamed ++ after))
  span_eq : e.error.span = ⟨byteSize before, byteSize (before ++ blamed)⟩
  report_eq : e.diagnostic.report name source =
    name ++ ":" ++ toString (e.line + 1) ++ ":" ++ toString (width before + 1) ++
      " Error: " ++ e.error.message ++ "\n" ++
      String.ofList ((before ++ blamed ++ after).take shownLength) ++ "\n" ++
      String.ofList marks ++ "\n"
  marked : MarksPart before blamed marks

/-- Each rejected line is reported with a caret in the column of the first character to blame and
with tildes below the others, as far as marks are shown. If no tab stands before it, the caret is
there whenever the character is. -/
theorem report_marks (h : read keepGoing source = .error errors) (he : e ∈ errors)
    (name : String) : ∃ before blamed after marks,
      MarkedReport name (lines source) e before blamed after marks ∧
        ('\t' ∉ before → before.length < shownLength → marks[before.length]? = some '^') := by
  obtain ⟨-, line, hline, herror⟩ := mem_rejections.mp (mem_rejected_of_read h he)
  obtain ⟨before, blamed, after, htext, hspan⟩ := Instruction.exists_blamed herror
  have hmarked := marksPart_underline before blamed after
  have hcolumn : columnAt (byteSize before) (before ++ blamed ++ after) = width before := by
    rw [List.append_assoc, columnAt_byteSize]
  rw [Nat.sub_zero] at hline
  refine ⟨before, blamed, after, _, ⟨?_, hspan, ?_, hmarked⟩, fun htab hshown => ?_⟩
  · rw [hline, ← htext, String.ofList_toList]
  · simp only [report, ListingError.diagnostic, hline, Option.getD_some, htext, hspan, hcolumn]
  · exact (hmarked.caret _).mpr ⟨(width_eq_length htab).symm, hshown⟩

/-- A tab before the token to blame, which is on the second line. -/
theorem report_marks_tab :
    let source := "iload_0\n\tbogus x\n"
    let e : ListingError := ⟨1, ⟨.unknownInstruction, ⟨1, 6⟩⟩⟩
    read false source = .error [e] ∧ e ∈ [e] ∧
      e.diagnostic.report "a" (lines source) =
        "a:2:9 Error: syntax error\n\tbogus x\n        ^~~~~\n" ∧
      ∃ before blamed after marks,
        MarkedReport "a" (lines source) e before blamed after marks ∧
          ('\t' ∉ before → before.length < shownLength → marks[before.length]? = some '^') := by
  intro source e
  have hread : read false "iload_0\n\tbogus x\n" = .error [e] := by rfl
  have he : e ∈ [e] := List.mem_singleton_self e
  exact ⟨hread, he, by decide +kernel, report_marks hread he "a"⟩

/-- Behind fifteen tabs a character stands in column 120. It is the sixteenth of its line, which
is shown to its end, but nothing below it is. -/
theorem report_marks_lost :
    let before := List.replicate 15 '\t'
    let source := String.ofList (before ++ ['x'])
    let e : ListingError := ⟨0, ⟨.unknownInstruction, ⟨15, 16⟩⟩⟩
    read true source = .error [e] ∧
      e.error.span = ⟨byteSize before, byteSize (before ++ ['x'])⟩ ∧ before.length < shownLength ∧
      ∃ marks, e.diagnostic.report "a" (lines source) =
          "a:1:121 Error: syntax error\n" ++ source ++ "\n" ++ String.ofList marks ++ "\n" ∧
        '^' ∉ marks := by
  intro before source e
  have hsource : source = "\t\t\t\t\t\t\t\t\t\t\t\t\t\t\tx" := by decide
  have hread : read true source = .error [e] := by
    rw [hsource]
    rfl
  refine ⟨hread, by decide, by decide, List.replicate 115 ' ', by decide +kernel, ?_⟩
  rw [List.mem_replicate]
  decide

end Listing

end ClassText
