import ClassText.Proofs.Line.RoundTrip

/-!
# Strings as operands

`ofLine_push_string_iff`: the instruction that pushes a string is written with the string
between quotes, as it is, and read back if and only if each blank of the string has an even
number of quotes before it. Otherwise the line has more operands than the instruction takes.

The quoted string starts and ends with a quote, which is no blank. So it is one token if and
only if it is whole (`isToken_of_single`), and what is not whole is cut into several.
-/

namespace ClassText

open Token

variable {cs : List Char} {start : Nat} {first second : Token} {more : List Token}

-- ---------------------------------------------------------------------------
-- Quoted strings
-- ---------------------------------------------------------------------------

namespace Token

/-- The opening quote turns the parity of the quotes before a blank around. -/
theorem whole_quoted_iff : Whole ('"' :: cs ++ ['"']) ↔
    ∀ before b after, cs = before ++ b :: after → isBlank b = true →
      before.count '"' % 2 = 0 := by
  have hquote : ('"' == '"') = true := rfl
  have hblank : isBlank '"' = false := by decide
  have hinside : unbroken false ('"' :: cs ++ ['"']) = unbroken true cs := by
    simp [unbroken, unbroken_append, hblank]
  have hparity : ∀ before : List Char,
      endsQuoted true before = true ↔ before.count '"' % 2 = 0 := by
    intro before
    rw [endsQuoted_eq]
    simp
  rw [Whole, hinside, unbroken_iff]
  simp [hparity]

/-- A text that neither starts nor ends with a blank and is scanned as one token is a token. -/
theorem Partition.isToken_of_single (h : Partition start cs [first])
    (hhead : ∀ c ∈ cs.head?, isBlank c = false) (hlast : ∀ c ∈ cs.getLast?, isBlank c = false) :
    IsToken cs := by
  cases h with
  | @token _ blanks cs rest _ hblanks htoken _ hrest =>
    have hbehind : rest.all isBlank = true := by
      cases hrest with
      | blank hbehind => exact hbehind
    obtain rfl : blanks = [] := by
      cases blanks with
      | nil => rfl
      | cons b blanks =>
        rw [List.all_cons, hhead b rfl, Bool.false_and] at hblanks
        contradiction
    obtain rfl : rest = [] := by
      cases hend : rest.getLast? with
      | none => exact List.getLast?_eq_none_iff.mp hend
      | some b =>
        have hblank := List.all_eq_true.mp hbehind b (List.mem_of_getLast? hend)
        rw [hlast b (by rw [List.getLast?_append, hend]; rfl)] at hblank
        contradiction
    rwa [List.nil_append, List.append_nil]

/-- A quoted string that is not one token is cut into at least two. -/
theorem scanFrom_quoted_of_not_whole (start : Nat) (h : ¬Whole ('"' :: cs ++ ['"'])) :
    ∃ first second more, (scanFrom start .between ('"' :: cs ++ ['"'])).2 =
      first :: second :: more := by
  have hpartition := (partition_scanFrom ('"' :: cs ++ ['"']) start).1
  have hquote : isBlank '"' = false := by decide
  match hscan : (scanFrom start .between ('"' :: cs ++ ['"'])).2 with
  | [] =>
    have hblank := scanFrom_eq_nil_iff.mp hscan
    rw [List.cons_append, List.all_cons, hquote, Bool.false_and] at hblank
    contradiction
  | [first] =>
    rw [hscan] at hpartition
    refine absurd (whole_iff.mpr (hpartition.isToken_of_single ?_ ?_)) h
    · rintro c ⟨⟩
      exact hquote
    · intro c hc
      rw [List.getLast?_concat] at hc
      obtain rfl := Option.mem_some.mp hc
      exact hquote
  | first :: second :: more => exact ⟨first, second, more, rfl⟩

end Token

-- ---------------------------------------------------------------------------
-- Lines
-- ---------------------------------------------------------------------------

namespace Instruction

theorem push_string_text (value : String) :
    (push (.string value)).text.toList = "ldc".toList ++ ' ' :: ('"' :: value.toList ++ ['"']) := by
  simp [text, Literal.text]

theorem ofLine_push_string_of_not_whole {value : String}
    (h : ¬Whole ('"' :: value.toList ++ ['"'])) :
    ∃ span, ofLine (push (.string value)).text = .error ⟨.argumentCount, span⟩ := by
  have hplain : plain "ldc".toList = true := by decide
  obtain ⟨first, second, more, hscan⟩ := scanFrom_quoted_of_not_whole 4 h
  refine ⟨first.span, ?_⟩
  rw [ofLine, scan, push_string_text, scanFrom_whole_blank (whole_of_plain (by decide) hplain)
    (endsQuoted_of_plain hplain) (by decide)]
  have hstart : 0 + byteSize "ldc".toList + ' '.utf8Size = 4 := by decide
  rw [hstart, hscan, ofTokens]
  simp only [String.ofList_toList, Operation.ofMnemonic?_ldc]
  rfl

/-- A string is read back as it is if and only if each of its blanks has an even number of
quotes before it; otherwise the line is rejected for the number of its arguments. -/
theorem ofLine_push_string_iff (value : String) :
    (ofLine (push (.string value)).text = .ok (some (push (.string value))) ↔
      ∀ before b after, value.toList = before ++ b :: after → isBlank b = true →
        before.count '"' % 2 = 0) ∧
    (ofLine (push (.string value)).text = .ok (some (push (.string value))) ∨
      ∃ e, ofLine (push (.string value)).text = .error e ∧
        e.message = "wrong number of arguments") := by
  by_cases hwhole : Whole ('"' :: value.toList ++ ['"'])
  · have hread : ofLine (push (.string value)).text = .ok (some (push (.string value))) :=
      readFrom_string hwhole
    exact ⟨iff_of_true hread (whole_quoted_iff.mp hwhole), .inl hread⟩
  · obtain ⟨span, herror⟩ := ofLine_push_string_of_not_whole hwhole
    have hread : ofLine (push (.string value)).text ≠ .ok (some (push (.string value))) := by
      rw [herror]
      rintro ⟨⟩
    exact ⟨iff_of_false hread (mt whole_quoted_iff.mpr hwhole), .inr ⟨_, herror, rfl⟩⟩

/-- The inner quote closes the string, so that the blank behind it ends the operand. -/
example : ofLine (push (.string "a\" b")).text = .error ⟨.argumentCount, ⟨4, 7⟩⟩ := by rfl

end Instruction

end ClassText
