import ClassText.Listing.Basic
import ClassText.Proofs.Instruction.Text
import ClassText.Proofs.Line.RoundTrip
import ClassText.Proofs.Text.Lines

/-!
# Canonical listings are read back

`read_text_iff`: the canonical text of a listing that was read is read as the same listing if
and only if its type parameters have bounds that can be told from their absence and no jump
target ends in a carriage return. Such a target comes from a quote that is left open at the
end of a line, and the return is lost at the line feed that is written after it.

Each instruction makes one line (`lines_text`), since the tokens of a line hold no line feed.
-/

namespace ClassText

open Descriptor Token

-- ---------------------------------------------------------------------------
-- Reading lines one after the other
-- ---------------------------------------------------------------------------

namespace Listing

def held (line : String) : Option Instruction := (Instruction.ofLine line).toOption.join

theorem readLines_ok : readLines keepGoing number texts = (instructions, []) ↔
    (∀ line ∈ texts, ∃ o, Instruction.ofLine line = .ok o) ∧
      texts.filterMap held = instructions := by
  induction texts generalizing number instructions with
  | nil => simp [readLines]
  | cons line texts ih =>
    rw [List.forall_mem_cons, List.filterMap_cons, readLines]
    cases hline : Instruction.ofLine line with
    | error e => simp
    | ok o =>
      have hheld : held line = o := by simp [held, hline, Except.toOption]
      cases o with
      | none => simp only [hheld, ih, Except.ok.injEq, exists_eq', true_and]
      | some i =>
        cases hmore : readLines keepGoing (number + 1) texts with
        | mk more errors =>
          simp only [hheld, Prod.mk.injEq, Except.ok.injEq, exists_eq', true_and]
          constructor
          · rintro ⟨rfl, rfl⟩
            obtain ⟨hall, rfl⟩ := ih.mp hmore
            exact ⟨hall, rfl⟩
          · rintro ⟨hall, rfl⟩
            have hsame : readLines keepGoing (number + 1) texts = _ := ih.mpr ⟨hall, rfl⟩
            rw [hmore, Prod.mk.injEq] at hsame
            rw [hsame.1]
            exact ⟨rfl, hsame.2⟩

/-- A listing is read if all its lines are, whether or not reading goes on after a rejection. -/
theorem read_ok : read keepGoing source = .ok instructions ↔
    (∀ line ∈ lines source, ∃ o, Instruction.ofLine line = .ok o) ∧
      (lines source).filterMap held = instructions := by
  have hlines : readLines keepGoing 0 (lines source) = (instructions, []) ↔ _ := readLines_ok
  rw [← hlines, read]
  split
  · rename_i hread
    simp [hread]
  · rename_i herrors hread
    constructor
    · intro h
      cases h
    · intro h
      rw [h] at hread
      cases hread
      exact absurd rfl herrors

theorem held_eq_some {line : String} :
    held line = some i ↔ Instruction.ofLine line = .ok (some i) := by
  unfold held
  cases hline : Instruction.ofLine line with
  | error e => simp [Except.toOption]
  | ok o => simp [Except.toOption]

-- ---------------------------------------------------------------------------
-- The lines of a canonical text
-- ---------------------------------------------------------------------------

def indented (i : Instruction) : String :=
  match i with
  | .label _ => i.text
  | _ => "    " ++ i.text

theorem line_eq (i : Instruction) : line i = indented i ++ "\n" := by
  cases i <;> rfl

theorem ofLine_indented (h : i.Readable) :
    Instruction.ofLine (indented i) = .ok (some i) ↔ i.BoundsOpen := by
  unfold indented
  split
  · exact Instruction.readFrom_text_iff h
  · rw [Instruction.ofLine_blanks (by decide)]
    exact Instruction.readFrom_text_iff h

theorem toList_text : (text instructions).toList =
    (instructions.map fun i => (indented i).toList).flatMap fun part => part ++ ['\n'] := by
  simp [text, String.toList_join, List.flatMap_map, line_eq]

theorem lines_text (h : ∀ i ∈ instructions, '\n' ∉ i.text.toList) : lines (text instructions) =
    instructions.map fun i => String.ofList (dropReturn (indented i).toList) := by
  have hparts : ∀ part ∈ instructions.map fun i => (indented i).toList, '\n' ∉ part := by
    intro part hpart
    obtain ⟨i, hi, rfl⟩ := List.mem_map.mp hpart
    have htext := h i hi
    unfold indented
    split
    · exact htext
    · simpa using htext
  rw [lines, toList_text, lineChars_flatMap hparts, List.map_map, List.map_map]
  rfl

theorem dropReturn_indented (h : i.text.toList.getLast? ≠ some '\r') :
    dropReturn (indented i).toList = (indented i).toList := by
  refine if_neg ?_
  unfold indented
  split
  · exact h
  · intro hlast
    rw [String.toList_append, List.getLast?_append] at hlast
    cases htext : i.text.toList.getLast? with
    | none => simp [htext] at hlast
    | some c =>
      rw [htext, Option.some_or] at hlast
      exact h (htext.trans hlast)

theorem whole_of_concat (h : Whole (cs ++ [c])) (hc : isBlank c = true) : Whole cs := by
  obtain ⟨-, h⟩ := h
  simp only [unbroken_append, unbroken, hc, Bool.not_true, Bool.or_false, Bool.and_true,
    Bool.and_eq_true] at h
  refine ⟨?_, h.1⟩
  rintro rfl
  simp [endsQuoted] at h

theorem ofLine_dropReturn_ne (h : i.Readable) (hend : i.EndsInReturn) :
    Instruction.ofLine (String.ofList (dropReturn (indented i).toList)) ≠ .ok (some i) := by
  cases i with
  | goto target =>
    obtain ⟨before, htarget⟩ := List.getLast?_eq_some_iff.mp hend
    have hreadable : (Instruction.goto (String.ofList before)).Readable := by
      refine ⟨trivial, ?_⟩
      rintro cs ⟨⟩
      rw [String.toList_ofList]
      exact whole_of_concat (htarget ▸ h.whole _ rfl) (by decide)
    have htext : (indented (.goto target)).toList =
        (indented (.goto (String.ofList before))).toList ++ ['\r'] := by
      simp [indented, Instruction.text, htarget]
    have hdrop : String.ofList (dropReturn (indented (.goto target)).toList) =
        indented (.goto (String.ofList before)) := by
      rw [htext, dropReturn_concat, String.ofList_toList]
    rw [hdrop, (ofLine_indented hreadable).mpr trivial]
    intro heq
    simp only [Except.ok.injEq, Option.some.injEq, Instruction.goto.injEq] at heq
    simp [← heq] at htarget
  | _ => exact hend.elim

theorem ofLine_dropReturn_iff (h : i.Readable) :
    Instruction.ofLine (String.ofList (dropReturn (indented i).toList)) = .ok (some i) ↔
      i.BoundsOpen ∧ ¬i.EndsInReturn := by
  by_cases hend : i.EndsInReturn
  · exact iff_of_false (ofLine_dropReturn_ne h hend) fun hopen => hopen.2 hend
  · have hlast := mt (Instruction.endsInReturn_of_getLast? h) hend
    rw [dropReturn_indented hlast, String.ofList_toList, ofLine_indented h]
    exact (and_iff_left hend).symm

-- ---------------------------------------------------------------------------
-- Reading a canonical text
-- ---------------------------------------------------------------------------

theorem newline_not_mem_of_ofLine {line : String} (hline : '\n' ∉ line.toList)
    (h : Instruction.ofLine line = .ok (some i)) : '\n' ∉ i.text.toList := by
  obtain ⟨-, hfree⟩ := Instruction.ofTokens_ok h
  refine Instruction.newline_not_mem_text fun cs hcs hmem => ?_
  obtain ⟨token, htoken, hcolons, -⟩ := hfree cs hcs
  have hkept : '\n' ∈ withoutColons cs := List.mem_filter.mpr ⟨hmem, by decide⟩
  rw [hcolons] at hkept
  exact hline (mem_of_mem_scan htoken (List.mem_filter.mp hkept).1)

theorem readable_of_read (h : read keepGoing source = .ok instructions) :
    ∀ i ∈ instructions, i.Readable ∧ '\n' ∉ i.text.toList := by
  obtain ⟨-, rfl⟩ := read_ok.mp h
  intro i hi
  obtain ⟨line, hline, hheld⟩ := List.mem_filterMap.mp hi
  have hread := held_eq_some.mp hheld
  exact ⟨Instruction.readable_of_ofLine hread,
    newline_not_mem_of_ofLine (newline_not_mem_lines hline) hread⟩

theorem filterMap_eq_self {f : α → Option α} {xs : List α} :
    xs.filterMap f = xs ↔ ∀ x ∈ xs, f x = some x := by
  induction xs with
  | nil => simp
  | cons x xs ih =>
    rw [List.forall_mem_cons]
    cases hx : f x with
    | some y => rw [List.filterMap_cons_some hx, List.cons.injEq, ih, Option.some.injEq]
    | none =>
      rw [List.filterMap_cons_none hx]
      constructor
      · intro h
        have hlength := List.length_filterMap_le f xs
        rw [h, List.length_cons] at hlength
        omega
      · rintro ⟨h, -⟩
        cases h

/-- The canonical text of a listing is read as that listing if and only if nothing in it is
lost on the way: no bound that looks like none, and no carriage return at the end of a line. -/
theorem read_text_iff (h : read keepGoing source = .ok instructions) :
    read keepGoing' (text instructions) = .ok instructions ↔
      ∀ i ∈ instructions, i.BoundsOpen ∧ ¬i.EndsInReturn := by
  have hreadable := readable_of_read h
  rw [read_ok, lines_text fun i hi => (hreadable i hi).2, List.filterMap_map, filterMap_eq_self]
  simp only [Function.comp_apply, held_eq_some]
  constructor
  · rintro ⟨-, hline⟩ i hi
    exact (ofLine_dropReturn_iff (hreadable i hi).1).mp (hline i hi)
  · intro hkept
    have hline : ∀ i ∈ instructions,
        Instruction.ofLine (String.ofList (dropReturn (indented i).toList)) = .ok (some i) :=
      fun i hi => (ofLine_dropReturn_iff (hreadable i hi).1).mpr (hkept i hi)
    refine ⟨?_, hline⟩
    intro line hmem
    obtain ⟨i, hi, rfl⟩ := List.mem_map.mp hmem
    exact ⟨_, hline i hi⟩

/-- A quote that is left open takes the return at the end of the text into the target. -/
theorem read_text_iff_goto :
    read true "iload 3\n\tgoto \"a\r" = .ok [.load 3 .int, .goto "\"a\r"] ∧
      (read false (text [.load 3 .int, .goto "\"a\r"]) = .ok [.load 3 .int, .goto "\"a\r"] ↔
        ∀ i ∈ [Instruction.load 3 .int, .goto "\"a\r"], i.BoundsOpen ∧ ¬i.EndsInReturn) := by
  have hread : read true "iload 3\n\tgoto \"a\r" = .ok [.load 3 .int, .goto "\"a\r"] :=
    toOption_eq_some.mp (by decide +kernel)
  exact ⟨hread, read_text_iff hread⟩

/-- A bound that is a primitive type is written as if it were a class, and then not read. -/
theorem read_text_ne : ∃ source instructions, read false source = .ok instructions ∧
    read false (text instructions) ≠ .ok instructions := by
  let call : Instruction := .invoke .static ⟨"A"⟩ "b" (.mk [.mk "T" [.int]] [] .void)
  have hread : read false "invokestatic A.b:<T::I>()V" = .ok [call] :=
    toOption_eq_some.mp (by decide +kernel)
  have hagain : (read false (text [call])).toOption ≠ some [call] := by decide +kernel
  exact ⟨_, _, hread, fun h => hagain (toOption_eq_some.mpr h)⟩

end Listing

end ClassText
