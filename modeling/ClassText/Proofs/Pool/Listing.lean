import ClassText.Pool.Text
import ClassText.Proofs.Pool.Invariant
import ClassText.Proofs.Text.Lines
import ClassText.Proofs.Text.Printable

/-!
# Numbers in the listing of a pool are positions

The printer numbers the constants of a pool by itself. `number?_eq_position?`: in a
well-formed pool its numbers are the positions that the pool knows. `getElem?_lines`: the
definition of the constant at a position is the line of that number, as definitions are
printable and so fit on a line.
-/

namespace ClassText

-- ---------------------------------------------------------------------------
-- Definitions
-- ---------------------------------------------------------------------------

theorem printable_specialText (isNaN negative : Bool) :
    printable (specialText isNaN negative).toList = true := by
  cases isNaN <;> cases negative <;> decide

theorem printable_single (x : Single) : printable x.constantText.toList = true := by
  refine printable_concat ?_ (by decide)
  split
  · exact printable_ofList
      (printable_of_isDecimalChar fun _ => constantLayout.isDecimalChar_of_mem_text _)
  · exact printable_specialText _ _

theorem printable_double (x : Double) : printable x.constantText.toList = true := by
  unfold Double.constantText
  split
  · exact printable_ofList
      (printable_of_isDecimalChar fun _ => constantLayout.isDecimalChar_of_mem_text _)
  · exact printable_specialText _ _

namespace Pool

variable {pool : Pool} {c : Constant}

theorem printable_reference (number : Nat) : printable (reference number).toList = true :=
  printable_concat (by decide) (printable_toString number)

theorem printable_referenceOr {inline : String} (h : printable inline.toList = true) :
    printable (pool.referenceOr c inline).toList = true := by
  unfold referenceOr
  split
  · exact printable_reference _
  · exact h

theorem printable_utf8Text (text : String) : printable (pool.utf8Text text).toList = true :=
  printable_referenceOr (printable_escape text)

theorem printable_classText (name : String) : printable (pool.classText name).toList = true :=
  printable_referenceOr (printable_escape name)

theorem printable_spaced {a b : String} (ha : printable a.toList = true)
    (hb : printable b.toList = true) : printable (a ++ " " ++ b).toList = true :=
  printable_concat (printable_concat ha (by decide)) hb

theorem printable_memberText {kind : String} (hkind : printable kind.toList = true) :
    printable (pool.memberText kind owner name descriptor).toList = true := by
  refine printable_spaced (printable_spaced hkind (printable_classText owner)) ?_
  exact printable_referenceOr
    (printable_spaced (printable_utf8Text name) (printable_utf8Text descriptor))

theorem printable_definition (pool : Pool) (c : Constant) :
    printable (pool.definition c).toList = true := by
  cases c with
  | null =>
    have hnull : printable "Null".toList = true := by decide
    exact hnull
  | utf8 text => exact printable_concat (by decide) (printable_escape text)
  | int value => exact printable_concat (by decide) (printable_ofList printable_intText)
  | float value => exact printable_concat (by decide) (printable_single value)
  | long value =>
    refine printable_concat (printable_concat (by decide) ?_) (by decide)
    exact printable_ofList printable_intText
  | double value => exact printable_concat (by decide) (printable_double value)
  | «class» name => exact printable_concat (by decide) (printable_utf8Text name)
  | string text => exact printable_concat (by decide) (printable_utf8Text text)
  | nameAndType name descriptor =>
    refine printable_spaced ?_ (printable_utf8Text descriptor)
    exact printable_concat (by decide) (printable_utf8Text name)
  | field owner name descriptor => exact printable_memberText (by decide)
  | method owner name descriptor => exact printable_memberText (by decide)
  | interfaceMethod owner name descriptor => exact printable_memberText (by decide)

-- ---------------------------------------------------------------------------
-- Numbers
-- ---------------------------------------------------------------------------

theorem lookup_zipIdx {xs : List Constant} {k n : Nat} (h : xs.Nodup) :
    (xs.zipIdx k).lookup c = some n ↔ k ≤ n ∧ xs[n - k]? = some c := by
  induction xs generalizing k with
  | nil => simp
  | cons x xs ih =>
    obtain ⟨hx, hxs⟩ := List.nodup_cons.mp h
    rw [List.zipIdx_cons]
    by_cases hc : c = x
    · subst hc
      rw [List.lookup_cons_self]
      constructor
      · intro hn
        cases hn
        simp
      · rintro ⟨hle, hget⟩
        obtain ⟨m, rfl⟩ := Nat.exists_eq_add_of_le hle
        cases m with
        | zero => rfl
        | succ m =>
          rw [Nat.add_sub_cancel_left, List.getElem?_cons_succ] at hget
          exact absurd (List.mem_of_getElem? hget) hx
    · have hne : (c == x) = false := beq_eq_false_iff_ne.mpr hc
      rw [List.lookup_cons, hne]
      refine (ih hxs).trans ?_
      constructor
      · rintro ⟨hle, hget⟩
        obtain ⟨m, rfl⟩ := Nat.exists_eq_add_of_le hle
        rw [Nat.add_sub_cancel_left] at hget
        rw [Nat.add_assoc, Nat.add_sub_cancel_left, Nat.add_comm 1 m, List.getElem?_cons_succ]
        exact ⟨Nat.le_add_right k _, hget⟩
      · rintro ⟨hle, hget⟩
        obtain ⟨m, rfl⟩ := Nat.exists_eq_add_of_le hle
        rw [Nat.add_sub_cancel_left] at hget
        cases m with
        | zero => exact absurd (Option.some.inj hget).symm hc
        | succ m =>
          rw [List.getElem?_cons_succ] at hget
          refine ⟨by omega, ?_⟩
          rw [show k + (m + 1) - (k + 1) = m by omega, hget]

/-- The constants that are numbered are all entries behind the null entry. -/
theorem WellFormed.numbered_eq (h : pool.WellFormed) : ∃ constants,
    pool.entries = .null :: constants ∧ constants.Nodup ∧ pool.numbered = constants.zipIdx 1 := by
  obtain ⟨constants, hentries, hnull⟩ := h.null
  have hnodup := h.nodup
  rw [hentries] at hnodup
  have hkept : ∀ c ∈ constants, decide (c ≠ .null) = true := by
    intro c hc
    simp only [decide_eq_true_eq]
    rintro rfl
    exact hnull hc
  refine ⟨constants, hentries, (List.nodup_cons.mp hnodup).2, ?_⟩
  rw [numbered, hentries, List.filter_cons_of_neg (by simp), List.filter_eq_self.mpr hkept]

theorem number?_eq_position? (h : pool.WellFormed) : pool.number? c = pool.position? c := by
  obtain ⟨constants, hentries, hnodup, hnumbered⟩ := h.numbered_eq
  refine Option.ext fun n => ?_
  rw [number?, hnumbered, lookup_zipIdx hnodup, h.index, hentries]
  constructor
  · rintro ⟨hle, hget⟩
    obtain ⟨m, rfl⟩ := Nat.exists_eq_add_of_le' hle
    exact ⟨hle, hget⟩
  · rintro ⟨hle, hget⟩
    obtain ⟨m, rfl⟩ := Nat.exists_eq_add_of_le' hle
    exact ⟨hle, hget⟩

theorem referenceOr_eq (h : pool.WellFormed) (hposition : pool.position? c = some n)
    (inline : String) : pool.referenceOr c inline = reference n := by
  rw [referenceOr, number?_eq_position? h, hposition]

-- ---------------------------------------------------------------------------
-- Lines
-- ---------------------------------------------------------------------------

/-- A line of the listing without its line feed. -/
def row (pool : Pool) (number : Nat) (c : Constant) : String :=
  reference number ++ "\t" ++ pool.definition c

theorem not_mem_row {d : Char} (hd : isPrintable d = false) (htab : d ≠ '\t') (number : Nat) :
    d ∉ (row pool number c).toList := by
  intro hmem
  simp only [row, String.toList_append, List.mem_append] at hmem
  rcases hmem with (hmem | hmem) | hmem
  · exact not_mem_of_printable (printable_reference number) hd hmem
  · exact htab (by simpa using hmem)
  · exact not_mem_of_printable (printable_definition pool c) hd hmem

/-- The lines of the listing without their line feeds. -/
def rows (pool : Pool) : List String :=
  pool.numbered.map fun (c, n) => pool.row n c

theorem length_rows (pool : Pool) : pool.rows.length = pool.size := by
  rw [rows, numbered, List.length_map, List.length_zipIdx, size]

theorem newline_not_mem_rows {text : String} (h : text ∈ pool.rows) : '\n' ∉ text.toList := by
  obtain ⟨⟨c, n⟩, -, rfl⟩ := List.mem_map.mp h
  exact not_mem_row (by decide) (by decide) n

theorem listing_eq (pool : Pool) : pool.listing = String.join (pool.rows.map (· ++ "\n")) := by
  rw [listing, rows, List.map_map]
  rfl

theorem toList_listing : pool.listing.toList =
    (pool.rows.map String.toList).flatMap fun part => part ++ ['\n'] := by
  simp [listing_eq, String.toList_join, List.flatMap_map]

theorem lines_listing_append (pool : Pool) (rest : String) :
    lines (pool.listing ++ rest) = pool.rows ++ lines rest := by
  have hparts : ∀ part ∈ pool.rows.map String.toList, '\n' ∉ part := by
    intro part hpart
    obtain ⟨text, htext, rfl⟩ := List.mem_map.mp hpart
    exact newline_not_mem_rows htext
  have hkept : ∀ text ∈ pool.rows, String.ofList (dropReturn text.toList) = text := by
    intro text htext
    obtain ⟨⟨c, n⟩, -, rfl⟩ := List.mem_map.mp htext
    have hreturn : '\r' ∉ (pool.row n c).toList := not_mem_row (by decide) (by decide) n
    rw [dropReturn, if_neg fun hlast => hreturn (List.mem_of_getLast? hlast), String.ofList_toList]
  rw [lines, String.toList_append, toList_listing, lineChars_flatMap_append hparts,
    List.map_append, List.map_map, List.map_map, lines, List.append_left_inj]
  exact (List.map_congr_left hkept).trans (List.map_id _)

theorem getElem?_rows (h : pool.WellFormed) (hpos : 1 ≤ n) (hentry : pool.entries[n]? = some c) :
    pool.rows[n - 1]? = some (pool.row n c) := by
  obtain ⟨constants, hentries, -, hnumbered⟩ := h.numbered_eq
  obtain ⟨m, rfl⟩ := Nat.exists_eq_add_of_le' hpos
  rw [hentries, List.getElem?_cons_succ] at hentry
  rw [rows, hnumbered]
  simp [hentry, Nat.add_comm]

/-- The line with the number of a position defines the constant there. -/
theorem getElem?_lines (h : pool.WellFormed) (hpos : 1 ≤ n) (hentry : pool.entries[n]? = some c)
    (rest : String) : (lines (pool.listing ++ rest))[n - 1]? = some (pool.row n c) := by
  have hrow := getElem?_rows h hpos hentry
  rw [lines_listing_append, List.getElem?_append_left (List.getElem?_eq_some_iff.mp hrow).1, hrow]

end Pool

end ClassText
