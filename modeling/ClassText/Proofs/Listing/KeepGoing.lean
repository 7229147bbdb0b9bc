import ClassText.Proofs.Listing.RoundTrip

/-!
# Reading on after a rejection

`read_refines`: if reading goes on after a rejection, all rejected lines are reported, and
otherwise the first of them. If no line is rejected, both ways of reading give the same
instructions, one for each line that is not blank.

The errors of a run are compared with `rejections`, which takes every line by itself: so what is
reported for a line does not depend on the lines around it.
-/

namespace ClassText

def isBlankLine (line : String) : Bool := line.toList.all isBlank

namespace Instruction

theorem map_some_ne_none {reading : Except ε α} : reading.map some ≠ .ok none := by
  cases reading with
  | error e => simp [Except.map]
  | ok a => simp [Except.map]

theorem ofTokens_eq_none_iff : ofTokens tokens = .ok none ↔ tokens = [] := by
  cases tokens with
  | nil => simp [ofTokens]
  | cons first operands =>
    have hsome : ofTokens (first :: operands) ≠ .ok none := by
      rw [ofTokens]
      split
      · exact map_some_ne_none
      · exact map_some_ne_none
    exact iff_of_false hsome (List.cons_ne_nil _ _)

theorem ofLine_eq_none_iff : ofLine line = .ok none ↔ isBlankLine line = true := by
  rw [ofLine, ofTokens_eq_none_iff]
  exact Token.scanFrom_eq_nil_iff

end Instruction

namespace Listing

variable {keepGoing : Bool} {number : Nat} {line source : String} {texts : List String}

-- ---------------------------------------------------------------------------
-- Lines by themselves
-- ---------------------------------------------------------------------------

/-- The rejection of a line that has a number, if it is rejected. -/
def rejection? (number : Nat) (line : String) : Option ListingError :=
  match Instruction.ofLine line with
  | .error error => some ⟨number, error⟩
  | .ok _ => none

/-- The rejections of lines, of which the first has the number `number`. -/
def rejections (number : Nat) (texts : List String) : List ListingError :=
  (texts.zipIdx number).filterMap fun (line, number) => rejection? number line

/-- The rejections of all lines of a listing. -/
def rejected (source : String) : List ListingError := rejections 0 (lines source)

theorem rejection?_eq_some {e : ListingError} : rejection? number line = some e ↔
    e.line = number ∧ Instruction.ofLine line = .error e.error := by
  obtain ⟨n, error⟩ := e
  unfold rejection?
  cases Instruction.ofLine line with
  | ok o => simp
  | error error' => simp [eq_comm]

theorem mem_rejections {e : ListingError} : e ∈ rejections number texts ↔
    number ≤ e.line ∧ ∃ line, texts[e.line - number]? = some line ∧
      Instruction.ofLine line = .error e.error := by
  simp only [rejections, List.mem_filterMap, Prod.exists, rejection?_eq_some,
    List.mk_mem_zipIdx_iff_le_and_getElem?_sub]
  constructor
  · rintro ⟨line, n, ⟨hle, hline⟩, rfl, herror⟩
    exact ⟨hle, line, hline, herror⟩
  · rintro ⟨hle, line, hline, herror⟩
    exact ⟨line, e.line, ⟨hle, hline⟩, rfl, herror⟩

theorem rejections_cons_ok (h : Instruction.ofLine line = .ok o) :
    rejections number (line :: texts) = rejections (number + 1) texts := by
  simp [rejections, List.zipIdx_cons, rejection?, h]

theorem rejections_cons_error (h : Instruction.ofLine line = .error error) :
    rejections number (line :: texts) = ⟨number, error⟩ :: rejections (number + 1) texts := by
  simp [rejections, List.zipIdx_cons, rejection?, h]

theorem pairwise_rejections :
    (rejections number texts).Pairwise fun e e' => e.line < e'.line := by
  induction texts generalizing number with
  | nil => exact .nil
  | cons line texts ih =>
    cases hline : Instruction.ofLine line with
    | ok o =>
      rw [rejections_cons_ok hline]
      exact ih
    | error error =>
      rw [rejections_cons_error hline]
      exact .cons (fun e he => (mem_rejections.mp he).1) ih

theorem rejections_eq_nil : rejections number texts = [] ↔
    ∀ line ∈ texts, ∃ o, Instruction.ofLine line = .ok o := by
  induction texts generalizing number with
  | nil => simp [rejections]
  | cons line texts ih =>
    cases hline : Instruction.ofLine line with
    | ok o => simp [rejections_cons_ok hline, ih, hline]
    | error error => simp [rejections_cons_error hline, hline]

-- ---------------------------------------------------------------------------
-- Lines one after the other
-- ---------------------------------------------------------------------------

theorem readLines_errors : (readLines keepGoing number texts).2 =
    if keepGoing then rejections number texts else (rejections number texts).take 1 := by
  -- for all numbers at once: also a line without an instruction is counted
  induction texts generalizing number with
  | nil => simp [readLines, rejections]
  | cons line texts ih =>
    cases hline : Instruction.ofLine line with
    | ok o =>
      rw [rejections_cons_ok hline, ← ih, readLines]
      cases o with
      | none => simp only [hline]
      | some i => simp only [hline]
    | error error =>
      rw [rejections_cons_error hline, readLines]
      cases keepGoing with
      | true => simpa [hline] using ih
      | false => simp [hline]

theorem read_error (h : rejected source = first :: later) :
    read keepGoing source = .error (if keepGoing then first :: later else [first]) := by
  have herrors : (readLines keepGoing 0 (lines source)).2 =
      if keepGoing then first :: later else [first] := by
    rw [readLines_errors, ← rejected, h]
    rfl
  -- a single error suffices for `read` to drop the instructions that were found
  have hne : (readLines keepGoing 0 (lines source)).2 ≠ [] := by
    rw [herrors]
    split
    · exact List.cons_ne_nil _ _
    · exact List.cons_ne_nil _ _
  rw [read]
  split
  · rename_i hread
    rw [hread] at hne
    exact absurd rfl hne
  · rename_i hread
    rw [← herrors, hread]

theorem read_of_rejected_nil (h : rejected source = []) :
    read keepGoing source = .ok ((lines source).filterMap held) :=
  read_ok.mpr ⟨rejections_eq_nil.mp h, rfl⟩

/-- Each line that is not blank holds the next instruction. -/
theorem map_ofLine_filter (h : ∀ line ∈ texts, ∃ o, Instruction.ofLine line = .ok o) :
    (texts.filter (!isBlankLine ·)).map Instruction.ofLine =
      (texts.filterMap held).map fun i => .ok (some i) := by
  induction texts with
  | nil => rfl
  | cons line texts ih =>
    obtain ⟨⟨o, hline⟩, hmore⟩ := List.forall_mem_cons.mp h
    have hheld : held line = o := by simp [held, hline, Except.toOption]
    cases o with
    | none =>
      have hblank : isBlankLine line = true := Instruction.ofLine_eq_none_iff.mp hline
      rw [List.filter_cons_of_neg (by simp [hblank]), List.filterMap_cons_none hheld, ih hmore]
    | some i =>
      have hfull : isBlankLine line ≠ true := by
        intro hblank
        rw [Instruction.ofLine_eq_none_iff.mpr hblank] at hline
        cases hline
      rw [List.filter_cons_of_pos (by simp [hfull]), List.filterMap_cons_some hheld,
        List.map_cons, List.map_cons, ih hmore, hline]

/-- Going on after a rejection reports all rejected lines, in order and with their numbers;
not going on reports the first of them. Without rejected lines both give the instructions of
the lines that are not blank. A line is reported for what it holds, whatever the others hold. -/
theorem read_refines (source : String) :
    (∀ number error, ⟨number, error⟩ ∈ rejected source ↔
      ∃ line, (lines source)[number]? = some line ∧ Instruction.ofLine line = .error error) ∧
    ((rejected source).Pairwise fun e e' => e.line < e'.line) ∧
    (∀ first later, rejected source = first :: later →
      read true source = .error (rejected source) ∧ read false source = .error [first]) ∧
    (rejected source = [] → ∃ instructions,
      read true source = .ok instructions ∧ read false source = .ok instructions ∧
        ((lines source).filter (!isBlankLine ·)).map Instruction.ofLine =
          instructions.map fun i => .ok (some i)) ∧
    ∀ instructions, read true source = .ok instructions ↔ read false source = .ok instructions := by
  refine ⟨?_, pairwise_rejections, ?_, ?_, ?_⟩
  · intro number error
    simp [rejected, mem_rejections]
  · intro first later hrejected
    rw [read_error hrejected, read_error hrejected, hrejected]
    exact ⟨rfl, rfl⟩
  · intro hrejected
    exact ⟨_, read_of_rejected_nil hrejected, read_of_rejected_nil hrejected,
      map_ofLine_filter (rejections_eq_nil.mp hrejected)⟩
  · intro instructions
    rw [read_ok, read_ok]

end Listing

end ClassText
