import ClassText.Text.Lines

/-!
# Lines hold no line feed

`newline_not_mem_lines`: what a text is cut into holds no line feed. Conversely parts without
line feeds, each of them ended by one, are the lines of the text that they make up
(`lineChars_flatMap`), except that a carriage return at the end of a part is dropped. Behind a
line feed a new line starts, whatever follows (`lines_append`).
-/

namespace ClassText

theorem not_mem_of_mem_splitOn {text : List Char} (h : part ∈ text.splitOn c) : c ∉ part := by
  induction text generalizing part with
  | nil =>
    rw [List.splitOn_nil, List.mem_singleton] at h
    simp [h]
  | cons d text ih =>
    rw [List.splitOn_cons_eq_if_modifyHead] at h
    split at h
    · rcases List.mem_cons.mp h with rfl | h
      · simp
      · exact ih h
    · rename_i hd
      cases hparts : text.splitOn c with
      | nil => simp [hparts] at h
      | cons first parts =>
        rw [hparts] at h ih
        rcases List.mem_cons.mp h with rfl | h
        · have hfirst := ih List.mem_cons_self
          simp only [List.mem_cons, not_or]
          exact ⟨fun heq => hd (by simp [heq]), hfirst⟩
        · exact ih (List.mem_cons_of_mem _ h)

theorem mem_of_mem_dropReturn {part : List Char} (h : c ∈ dropReturn part) : c ∈ part := by
  unfold dropReturn at h
  split at h
  · exact (List.dropLast_sublist part).subset h
  · exact h

theorem dropReturn_concat : dropReturn (part ++ ['\r']) = part := by
  simp [dropReturn]

theorem newline_not_mem_lines {source : String} (h : line ∈ lines source) :
    '\n' ∉ line.toList := by
  simp only [lines, lineChars, List.mem_map] at h
  obtain ⟨part, hpart, rfl⟩ := h
  rw [String.toList_ofList]
  rcases List.mem_append.mp hpart with hpart | hpart
  · obtain ⟨whole, hwhole, rfl⟩ := List.mem_map.mp hpart
    intro hmem
    exact not_mem_of_mem_splitOn ((List.dropLast_sublist _).subset hwhole)
      (mem_of_mem_dropReturn hmem)
  · split at hpart
    · simp at hpart
    · rw [List.mem_singleton] at hpart
      subst hpart
      cases hlast : (source.toList.splitOn '\n').getLast? with
      | none => simp
      | some last => exact not_mem_of_mem_splitOn (List.mem_of_getLast? hlast)

theorem splitOn_flatMap_append {parts : List (List Char)} (h : ∀ part ∈ parts, '\n' ∉ part)
    (rest : List Char) : ((parts.flatMap fun part => part ++ ['\n']) ++ rest).splitOn '\n' =
      parts ++ rest.splitOn '\n' := by
  induction parts with
  | nil => rfl
  | cons part parts ih =>
    obtain ⟨hpart, hparts⟩ := List.forall_mem_cons.mp h
    rw [List.flatMap_cons, List.append_assoc, List.append_assoc, List.singleton_append,
      List.splitOn_append_cons_self_of_not_mem hpart, ih hparts, List.cons_append]

/-- Parts that each end in a line feed are the first lines, but for carriage returns. -/
theorem lineChars_flatMap_append {parts : List (List Char)} (h : ∀ part ∈ parts, '\n' ∉ part)
    (rest : List Char) : lineChars ((parts.flatMap fun part => part ++ ['\n']) ++ rest) =
      parts.map dropReturn ++ lineChars rest := by
  have hne : rest.splitOn '\n' ≠ [] := List.splitOn_ne_nil _ _
  obtain ⟨last, hlast⟩ := Option.ne_none_iff_exists'.mp (mt List.getLast?_eq_none_iff.mp hne)
  simp only [lineChars, splitOn_flatMap_append h, List.dropLast_append_of_ne_nil hne,
    List.map_append, List.getLast?_append, hlast, Option.some_or, List.append_assoc]

theorem lineChars_append (before rest : List Char) : lineChars (before ++ '\n' :: rest) =
    (before.splitOn '\n').map dropReturn ++ lineChars rest := by
  have hne : rest.splitOn '\n' ≠ [] := List.splitOn_ne_nil _ _
  obtain ⟨last, hlast⟩ := Option.ne_none_iff_exists'.mp (mt List.getLast?_eq_none_iff.mp hne)
  simp only [lineChars, List.splitOn_append_cons_self, List.dropLast_append_of_ne_nil hne,
    List.map_append, List.getLast?_append, hlast, Option.some_or, List.append_assoc]

/-- A text that is empty or ends in a line feed shares no line with what follows it. -/
theorem lines_append {first : String} (h : first = "" ∨ ∃ before, first = before ++ "\n")
    (second : String) : lines (first ++ second) = lines first ++ lines second := by
  rcases h with rfl | ⟨before, rfl⟩
  · rw [String.empty_append]
    rfl
  · have hsecond := lineChars_append before.toList second.toList
    have hfirst := lineChars_append before.toList []
    simp only [lines, String.toList_append]
    rw [show "\n".toList = ['\n'] from rfl, List.append_assoc, List.singleton_append, hsecond,
      hfirst, List.map_append, List.map_append]
    exact congrArg (· ++ _) (List.append_nil _).symm

theorem lineChars_flatMap {parts : List (List Char)} (h : ∀ part ∈ parts, '\n' ∉ part) :
    lineChars (parts.flatMap fun part => part ++ ['\n']) = parts.map dropReturn := by
  have happend := lineChars_flatMap_append h []
  rw [List.append_nil] at happend
  rw [happend]
  exact List.append_nil _

end ClassText
