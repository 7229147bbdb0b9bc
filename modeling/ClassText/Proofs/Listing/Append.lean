import ClassText.Proofs.Listing.KeepGoing

/-!
# Listings one after the other

`read_append`: if a listing ends at the end of a line, reading it together with what follows is
reading both and joining what they hold, or what they are rejected for. Only the numbers of the
rejected lines change in the second part. Canonical texts end at the end of a line, so they may be
written one behind the other.

All of it comes from the rejections, which are taken line by line (`rejected_append`).
-/

namespace ClassText

/-- The rejection of the same line if `count` other lines come before it. -/
def ListingError.later (count : Nat) (e : ListingError) : ListingError :=
  { e with line := count + e.line }

namespace Listing

variable {keepGoing : Bool} {first second source : String} {instructions : List Instruction}

/-- The rejections that reading ends with. -/
def reported (reading : Except (List ListingError) (List Instruction)) : List ListingError :=
  match reading with
  | .ok _ => []
  | .error errors => errors

-- ---------------------------------------------------------------------------
-- Rejections of a joined listing
-- ---------------------------------------------------------------------------

theorem rejections_add (count number : Nat) (texts : List String) :
    rejections (count + number) texts = (rejections number texts).map (.later count) := by
  induction texts generalizing number with
  | nil => rfl
  | cons line texts ih =>
    cases hline : Instruction.ofLine line with
    | ok o =>
      rw [rejections_cons_ok hline, rejections_cons_ok hline]
      exact ih (number + 1)
    | error error =>
      rw [rejections_cons_error hline, rejections_cons_error hline, List.map_cons]
      exact congrArg _ (ih (number + 1))

theorem rejections_append (number : Nat) (texts more : List String) :
    rejections number (texts ++ more) =
      rejections number texts ++ rejections (number + texts.length) more := by
  rw [rejections, List.zipIdx_append, List.filterMap_append]
  rfl

theorem rejected_append (h : first = "" ∨ ∃ before, first = before ++ "\n") :
    rejected (first ++ second) =
      rejected first ++ (rejected second).map (.later (lines first).length) := by
  rw [rejected, lines_append h, rejections_append, Nat.zero_add,
    ← Nat.add_zero (lines first).length, rejections_add]
  rfl

-- ---------------------------------------------------------------------------
-- Reading a joined listing
-- ---------------------------------------------------------------------------

theorem text_append (instructions more : List Instruction) :
    text (instructions ++ more) = text instructions ++ text more := by
  simp [text]

/-- A canonical text ends at the end of a line. -/
theorem text_closed (instructions : List Instruction) :
    text instructions = "" ∨ ∃ before, text instructions = before ++ "\n" := by
  rcases List.eq_nil_or_concat instructions with rfl | ⟨before, i, rfl⟩
  · exact .inl rfl
  · right
    refine ⟨text before ++ indented i, ?_⟩
    rw [List.concat_eq_append, text_append, String.append_assoc, ← line_eq]
    simp [text]

theorem read_eq (keepGoing : Bool) (source : String) : read keepGoing source =
    match rejected source with
    | [] => .ok ((lines source).filterMap held)
    | e :: errors => .error (if keepGoing then e :: errors else [e]) := by
  cases hrejected : rejected source with
  | nil => exact read_of_rejected_nil hrejected
  | cons e errors => exact read_error hrejected

theorem read_append_true (h : first = "" ∨ ∃ before, first = before ++ "\n") :
    read true (first ++ second) =
      match read true first, read true second with
      | .ok instructions, .ok more => .ok (instructions ++ more)
      | reading, reading' => .error (reported reading ++
          (reported reading').map (.later (lines first).length)) := by
  rw [read_eq, read_eq, read_eq, rejected_append h, lines_append h, List.filterMap_append]
  cases rejected first with
  | nil => cases rejected second <;> rfl
  | cons e errors =>
    cases rejected second with
    | nil => simp [reported]
    | cons e' errors' => simp [reported]

theorem read_append_false (h : first = "" ∨ ∃ before, first = before ++ "\n") :
    read false (first ++ second) =
      match read false first, read false second with
      | .error errors, _ => .error errors
      | .ok _, .error errors => .error (errors.map (.later (lines first).length))
      | .ok instructions, .ok more => .ok (instructions ++ more) := by
  rw [read_eq, read_eq, read_eq, rejected_append h, lines_append h, List.filterMap_append]
  cases rejected first with
  | nil => cases rejected second <;> rfl
  | cons e errors => rfl

theorem read_append_ok (h : first = "" ∨ ∃ before, first = before ++ "\n")
    (hfirst : read keepGoing first = .ok instructions)
    (hsecond : read keepGoing second = .ok more) :
    read keepGoing (first ++ second) = .ok (instructions ++ more) := by
  cases keepGoing with
  | true => rw [read_append_true h, hfirst, hsecond]
  | false => rw [read_append_false h, hfirst, hsecond]

/-- Canonical texts written one behind the other are read as all their instructions. -/
theorem read_join_text {listings : List (List Instruction)}
    (h : ∀ listing ∈ listings, read keepGoing (text listing) = .ok listing) :
    read keepGoing (String.join (listings.map text)) = .ok listings.flatten := by
  induction listings with
  | nil => exact read_of_rejected_nil rfl
  | cons listing listings ih =>
    obtain ⟨hlisting, hlistings⟩ := List.forall_mem_cons.mp h
    have hjoin : String.join ((listing :: listings).map text) =
        text listing ++ String.join (listings.map text) := by
      simp
    rw [hjoin]
    exact read_append_ok (text_closed listing) hlisting (ih hlistings)

/-- A listing that ends at the end of a line and one behind it are read as the two together: all
instructions, or the rejections of both, those of the second with the lines of the first counted
before them. Canonical texts are such listings. -/
theorem read_append (h : first = "" ∨ ∃ before, first = before ++ "\n") :
    (read true (first ++ second) =
      match read true first, read true second with
      | .ok instructions, .ok more => .ok (instructions ++ more)
      | reading, reading' => .error (reported reading ++
          (reported reading').map (.later (lines first).length))) ∧
    (read false (first ++ second) =
      match read false first, read false second with
      | .error errors, _ => .error errors
      | .ok _, .error errors => .error (errors.map (.later (lines first).length))
      | .ok instructions, .ok more => .ok (instructions ++ more)) ∧
    ∀ keepGoing (listings : List (List Instruction)),
      (∀ listing ∈ listings, read keepGoing (text listing) = .ok listing) →
        read keepGoing (String.join (listings.map text)) = .ok listings.flatten := by
  exact ⟨read_append_true h, read_append_false h, fun _ _ => read_join_text⟩

/-- A quote that is left open at a line with a carriage return, a blank line, and a rejected line
on both sides of the seam. -/
theorem read_append_quote :
    let first := "goto \"a\r\n\nnop\r\n"
    let second := "return\npop\n"
    (first = "" ∨ ∃ before, first = before ++ "\n") ∧
      (read true (first ++ second) =
        match read true first, read true second with
        | .ok instructions, .ok more => .ok (instructions ++ more)
        | reading, reading' => .error (reported reading ++
            (reported reading').map (.later (lines first).length))) ∧
      (reported (read true first)).map ListingError.line = [2] ∧
      (reported (read true second)).map ListingError.line = [1] ∧
      (reported (read true (first ++ second))).map ListingError.line = [2, 4] := by
  intro first second
  have hclosed : first = "" ∨ ∃ before, first = before ++ "\n" :=
    .inr ⟨"goto \"a\r\n\nnop\r", by decide⟩
  exact ⟨hclosed, (read_append hclosed).1, by decide +kernel, by decide +kernel, by decide +kernel⟩

end Listing

end ClassText
