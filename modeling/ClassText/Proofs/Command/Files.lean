import ClassText.Command.Files
import ClassText.Text.Basic

/-!
# What operations do to files

Each operation is described by the nodes that it leaves: putting a node changes its location only
(`node?_put`), making directories adds directories and nothing else (`Grown`), and opening a file
empties it and keeps all other nodes (`openFile_ok`, `Stored`).

A walk goes through directories only, so it ends at the same location as long as directories stay
directories (`walk_of_directories`), and where it ends follows from the names alone (`walk_eq`).
-/

namespace ClassText

namespace Path

theorem segments_append (first second : String) :
    segments (first ++ "/" ++ second) = segments first ++ segments second := by
  have hslash : "/".toList = ['/'] := rfl
  rw [segments, String.toList_append, String.toList_append, hslash, List.append_assoc,
    List.singleton_append, List.splitOn_append_cons_self, List.map_append]
  rfl

/-- The last part of a text that is cut ends as the text does. -/
theorem getLast?_splitOn_append {ending : List Char} (h : c ∉ ending) (text : List Char) :
    ∃ part, ((text ++ ending).splitOn c).getLast? = some (part ++ ending) := by
  induction text with
  | nil => exact ⟨[], by simp [List.splitOn_eq_singleton h]⟩
  | cons d text ih =>
    obtain ⟨part, hpart⟩ := ih
    obtain ⟨first, parts, hparts⟩ :=
      List.exists_cons_of_ne_nil (List.splitOn_ne_nil c (text ++ ending))
    rw [List.cons_append, List.splitOn_cons_eq_if_modifyHead]
    rw [hparts] at hpart ⊢
    split
    · exact ⟨part, by rwa [List.getLast?_cons_cons]⟩
    · cases parts with
      | nil => exact ⟨d :: part, by simpa using hpart⟩
      | cons second parts => exact ⟨part, by simpa using hpart⟩

/-- Only a slash at the end of a path makes its last segment empty. -/
theorem getLast?_segments_ne (hne : path ≠ "") (h : path.toList.getLast? ≠ some '/') :
    (segments path).getLast? ≠ some "" := by
  rcases List.eq_nil_or_concat path.toList with hnil | ⟨before, d, hconcat⟩
  · exact absurd (String.toList_eq_nil_iff.mp hnil) hne
  · rw [List.concat_eq_append] at hconcat
    have hd : '/' ∉ [d] := by
      rintro hmem
      rw [List.mem_singleton] at hmem
      simp [hconcat, ← hmem] at h
    obtain ⟨part, hpart⟩ := getLast?_splitOn_append hd before
    rw [segments, List.getLast?_map, hconcat, hpart]
    simp

/-- The last segment of a path is its last component unless it stands for nothing. -/
theorem getLast?_components {segment : String} (h : (segments path).getLast? = some segment)
    (hempty : segment ≠ "") (hdot : segment ≠ ".") :
    (components path).getLast? = some segment := by
  obtain ⟨leading, hleading⟩ := List.getLast?_eq_some_iff.mp h
  rw [components, hleading, List.filter_append, List.filter_cons_of_pos (by simp [hempty, hdot])]
  simp

theorem dropEndWhile_eq_self {p : α → Bool} {xs : List α}
    (h : ∀ x, xs.getLast? = some x → p x = false) : dropEndWhile p xs = xs := by
  rcases List.eq_nil_or_concat xs with rfl | ⟨before, x, rfl⟩
  · rfl
  · have hx : p x = false := h x (by simp)
    simp [dropEndWhile, hx]

theorem dropEndWhile_segments (hne : path ≠ "") (h : path.toList.getLast? ≠ some '/') :
    dropEndWhile (· == "") (segments path) = segments path := by
  refine dropEndWhile_eq_self fun segment hsegment => ?_
  rw [beq_eq_false_iff_ne]
  rintro rfl
  exact getLast?_segments_ne hne h hsegment

end Path

namespace Files

variable {files before after : Files} {location place other : Location} {names more : List String}

-- ---------------------------------------------------------------------------
-- Nodes
-- ---------------------------------------------------------------------------

@[simp] theorem node?_nil (files : Files) : files.node? [] = some .directory := rfl

theorem node?_of_ne_nil (h : location ≠ []) :
    files.node? location = files.nodes.lookup location := if_neg h

theorem lookup_replace (nodes : List (Location × Node)) (other : Location) :
    (nodes.map fun (l, n) => if l = location then (l, node) else (l, n)).lookup other =
      if other = location then (nodes.lookup location).map fun _ => node
      else nodes.lookup other := by
  induction nodes with
  | nil => simp
  | cons entry nodes ih =>
    obtain ⟨l, n⟩ := entry
    by_cases hl : l = location
    · subst hl
      by_cases ho : other = l
      · simp [ho]
      · have hne : (other == l) = false := beq_eq_false_iff_ne.mpr ho
        simp only [List.map_cons, if_pos, List.lookup_cons, hne, ih, if_neg ho]
    · by_cases ho : other = l
      · subst ho
        simp [hl]
      · have hne : (other == l) = false := beq_eq_false_iff_ne.mpr ho
        have hne' : (location == l) = false := beq_eq_false_iff_ne.mpr (Ne.symm hl)
        simp only [List.map_cons, if_neg hl, List.lookup_cons, hne, hne', ih]

@[simp] theorem current_put : (files.put location node).current = files.current := by
  unfold put
  split <;> rfl

/-- A node that is put somewhere is found there, and all others where they were. -/
theorem node?_put (h : location ≠ []) (other : Location) :
    (files.put location node).node? other =
      if other = location then some node else files.node? other := by
  by_cases hother : other = []
  · subst hother
    rw [if_neg (Ne.symm h)]
    rfl
  · rw [node?_of_ne_nil hother, node?_of_ne_nil hother, put]
    split
    · rename_i hsome
      obtain ⟨old, hold⟩ := Option.isSome_iff_exists.mp hsome
      rw [lookup_replace, hold]
      rfl
    · rename_i hnone
      rw [Option.not_isSome_iff_eq_none] at hnone
      rw [List.lookup_append, List.lookup_cons, List.lookup_nil]
      by_cases ho : other = location
      · subst ho
        simp [hnone]
      · have hne : (other == location) = false := beq_eq_false_iff_ne.mpr ho
        simp only [hne, if_neg ho, Option.or_none]

-- ---------------------------------------------------------------------------
-- Walks
-- ---------------------------------------------------------------------------

/-- Where one segment of a path leads. -/
def next (location : Location) (name : String) : Location :=
  if name = "" ∨ name = "." then location
  else if name = ".." then location.dropLast
  else location ++ [name]

theorem walk_cons : files.walk location (name :: names) = .ok place ↔
    files.node? location = some .directory ∧ files.walk (next location name) names = .ok place := by
  rw [walk, next]
  cases files.node? location with
  | none => simp
  | some node =>
    cases node with
    | file content => simp
    | directory =>
      simp only [true_and]
      split
      · rfl
      · split <;> rfl

theorem walk_append : files.walk location (names ++ more) = .ok place ↔
    ∃ middle, files.walk location names = .ok middle ∧ files.walk middle more = .ok place := by
  induction names generalizing location with
  | nil => simp [walk]
  | cons name names ih => simp only [List.cons_append, walk_cons, ih, and_assoc, exists_and_left]

/-- Where a walk ends, if it does, depends on the names only. -/
theorem walk_eq (h : files.walk location names = .ok place) :
    place = names.foldl next location := by
  induction names generalizing location with
  | nil => exact (Except.ok.inj h).symm
  | cons name names ih => exact ih (walk_cons.mp h).2

theorem walk_of_directories
    (hkept : ∀ l, before.node? l = some .directory → after.node? l = some .directory)
    (h : before.walk location names = .ok place) : after.walk location names = .ok place := by
  induction names generalizing location with
  | nil => exact h
  | cons name names ih =>
    obtain ⟨hdirectory, hmore⟩ := walk_cons.mp h
    exact walk_cons.mpr ⟨hkept _ hdirectory, ih hmore⟩

/-- Segments that stand for nothing may be left out. -/
theorem walk_filter (h : files.walk location names = .ok place) :
    files.walk location (names.filter fun s => s != "" && s != ".") = .ok place := by
  induction names generalizing location with
  | nil => exact h
  | cons name names ih =>
    obtain ⟨hdirectory, hmore⟩ := walk_cons.mp h
    by_cases hname : name = "" ∨ name = "."
    · rw [next, if_pos hname] at hmore
      rw [List.filter_cons_of_neg (by simpa [← not_or] using hname)]
      exact ih hmore
    · rw [List.filter_cons_of_pos (by simpa [not_or] using hname)]
      exact walk_cons.mpr ⟨hdirectory, ih hmore⟩

theorem locate_ok : files.locate path = .ok place ↔
    path ≠ "" ∧ files.walk (files.start path) (Path.segments path) = .ok place := by
  rw [locate]
  split
  · simp [*]
  · simp [*]

/-- Files to which directories may have been added, and nothing else. -/
structure Grown (before after : Files) : Prop where
  current : after.current = before.current
  kept : ∀ {l n}, before.node? l = some n → after.node? l = some n
  file : ∀ {l content}, after.node? l = some (.file content) → before.node? l = some (.file content)

theorem Grown.refl (files : Files) : Grown files files := ⟨rfl, id, id⟩

theorem Grown.trans (h : Grown before middle) (h' : Grown middle after) : Grown before after :=
  ⟨h'.current.trans h.current, h'.kept ∘ h.kept, h.file ∘ h'.file⟩

theorem grown_put (h : files.node? place = none) : Grown files (files.put place .directory) := by
  have hne : place ≠ [] := by
    rintro rfl
    simp at h
  refine ⟨current_put, ?_, ?_⟩
  · intro l n hl
    rw [node?_put hne, if_neg]
    · exact hl
    · rintro rfl
      simp [h] at hl
  · intro l content hl
    rw [node?_put hne] at hl
    split at hl
    · simp at hl
    · exact hl

theorem makeDirectory_grown (h : files.makeDirectory location names = .ok after) :
    Grown files after := by
  unfold makeDirectory at h
  cases hwalk : files.walk location names with
  | error e =>
    rw [hwalk] at h
    cases h
  | ok place =>
    rw [hwalk] at h
    simp only [bind, Except.bind] at h
    split at h
    · cases h
    · rename_i hnone
      cases h
      exact grown_put hnone

theorem hasDirectory_iff : files.hasDirectory location names = true ↔
    ∃ place, files.walk location names = .ok place ∧ files.node? place = some .directory := by
  unfold hasDirectory
  cases files.walk location names with
  | error e => simp
  | ok place => simp

theorem makeDirectory_exists (h : files.hasDirectory location names = true) :
    files.makeDirectory location names = .error .exists := by
  obtain ⟨place, hwalk, hplace⟩ := hasDirectory_iff.mp h
  simp [makeDirectory, hwalk, hplace, bind, Except.bind]

/-- Makes a directory unless it is there. -/
def ensureDirectory (files : Files) (location : Location) (names : List String) :
    Except FileError Files :=
  match files.makeDirectory location names with
  | .ok files => .ok files
  | .error e => if files.hasDirectory location names then .ok files else .error e

theorem ensureDirectory_grown (h : files.ensureDirectory location names = .ok after) :
    Grown files after := by
  unfold ensureDirectory at h
  split at h
  · rename_i hmade
    cases h
    exact makeDirectory_grown hmade
  · split at h
    · cases h
      exact Grown.refl files
    · cases h

theorem ensureDirectory_eq_self (h : files.hasDirectory location names = true) :
    files.ensureDirectory location names = .ok files := by
  simp [ensureDirectory, makeDirectory_exists h, h]

theorem makeDirectories_cons (files : Files) (location : Location) (last : String)
    (leading : List String) : files.makeDirectories location (last :: leading) =
      match files.makeDirectory location (last :: leading).reverse with
      | .error .notFound => (files.makeDirectories location leading).bind fun files =>
          files.ensureDirectory location (last :: leading).reverse
      | _ => files.ensureDirectory location (last :: leading).reverse := rfl

theorem makeDirectories_grown (h : files.makeDirectories location names = .ok after) :
    Grown files after := by
  induction names generalizing after with
  | nil =>
    cases h
    exact Grown.refl files
  | cons last leading ih =>
    rw [makeDirectories_cons] at h
    split at h
    · cases hleading : files.makeDirectories location leading with
      | error e =>
        rw [hleading] at h
        cases h
      | ok middle =>
        rw [hleading] at h
        exact (ih hleading).trans (ensureDirectory_grown h)
    · exact ensureDirectory_grown h

theorem makeDirectories_eq_self (h : files.hasDirectory location names.reverse = true) :
    files.makeDirectories location names = .ok files := by
  cases names with
  | nil => rfl
  | cons last leading =>
    rw [makeDirectories_cons, makeDirectory_exists h]
    exact ensureDirectory_eq_self h

theorem makeParents_grown (h : files.makeParents path = .ok after) : Grown files after :=
  makeDirectories_grown h

/-- The directories that lead to a directory are there. -/
theorem makeParents_eq_self (h : files.locate path = .ok place) :
    files.makeParents path = .ok files := by
  obtain ⟨-, hwalk⟩ := locate_ok.mp h
  have hcomponents : files.walk (files.start path) (Path.components path) = .ok place :=
    walk_filter hwalk
  unfold makeParents
  rcases List.eq_nil_or_concat (Path.components path) with hnil | ⟨leading, name, hconcat⟩
  · rw [hnil]
    rfl
  · rw [hconcat, List.concat_eq_append, walk_append] at hcomponents
    obtain ⟨middle, hleading, hname⟩ := hcomponents
    refine makeDirectories_eq_self (hasDirectory_iff.mpr ⟨middle, ?_, (walk_cons.mp hname).1⟩)
    simpa [hconcat] using hleading

-- ---------------------------------------------------------------------------
-- Opening, reading and writing files
-- ---------------------------------------------------------------------------

theorem create_ok (hpath : path ≠ "") : files.create path = .ok (after, place) ↔
    files.locate path = .ok place ∧ path.toList.getLast? ≠ some '/' ∧
      files.node? place ≠ some .directory ∧ after = files.put place (.file (.data (.text ""))) := by
  by_cases hslash : path.toList.getLast? = some '/'
  · refine iff_of_false ?_ fun h => h.2.1 hslash
    rw [create]
    split
    · simp
    · simp [hslash]
  · rw [locate_ok, create, Path.dropEndWhile_segments hpath hslash]
    cases files.walk (files.start path) (Path.segments path) with
    | error e => simp
    | ok location =>
      by_cases hdirectory : files.node? location = some .directory
      · simp only [hdirectory, or_true, if_true]
        constructor
        · intro h
          cases h
        · rintro ⟨⟨-, h⟩, -, hplace, -⟩
          cases h
          exact absurd hdirectory hplace
      · simp only [hslash, hdirectory, or_self, if_false, Except.ok.injEq, Prod.mk.injEq]
        constructor
        · rintro ⟨rfl, rfl⟩
          exact ⟨⟨hpath, rfl⟩, hslash, hdirectory, rfl⟩
        · rintro ⟨⟨-, rfl⟩, -, -, rfl⟩
          exact ⟨rfl, rfl⟩

theorem read_ok : files.read path = .ok content ↔
    ∃ place, files.locate path = .ok place ∧ files.node? place = some (.file content) := by
  unfold read
  cases files.locate path with
  | error e => simp
  | ok place =>
    simp only [Except.ok.injEq, exists_eq_left']
    split
    · simp [*]
    · simp [*]
    · simp [*]

theorem locate_of_directories (hcurrent : after.current = before.current)
    (hkept : ∀ l, before.node? l = some .directory → after.node? l = some .directory)
    (h : before.locate path = .ok place) : after.locate path = .ok place := by
  obtain ⟨hpath, hwalk⟩ := locate_ok.mp h
  refine locate_ok.mpr ⟨hpath, ?_⟩
  rw [start, hcurrent]
  exact walk_of_directories hkept hwalk

/-- Files in which one file has been given a content, in a place where no directory was. Directories
may have been added. -/
structure Stored (before : Files) (place : Location) (content : Content) (after : Files) :
    Prop where
  current : after.current = before.current
  node : after.node? place = some (.file content)
  wasFree : before.node? place ≠ some .directory
  kept : ∀ {l n}, l ≠ place → before.node? l = some n → after.node? l = some n
  file : ∀ {l c}, l ≠ place → after.node? l = some (.file c) → before.node? l = some (.file c)

theorem stored_write (h : files.node? place ≠ some .directory) (content : Content) :
    Stored files place content (files.write place content) := by
  have hne : place ≠ [] := by
    rintro rfl
    exact h rfl
  refine ⟨current_put, ?_, h, ?_, ?_⟩
  · rw [write, node?_put hne, if_pos rfl]
  · intro l n hl hnode
    rw [write, node?_put hne, if_neg hl]
    exact hnode
  · intro l c hl hnode
    rwa [write, node?_put hne, if_neg hl] at hnode

theorem stored_self (h : files.node? place = some (.file content)) :
    Stored files place content files :=
  ⟨rfl, h, by simp [h], fun _ hl => hl, fun _ hl => hl⟩

theorem Grown.stored (hgrown : Grown before middle) (h : Stored middle place content after) :
    Stored before place content after := by
  refine ⟨h.current.trans hgrown.current, h.node, ?_, ?_, ?_⟩
  · intro hdirectory
    exact h.wasFree (hgrown.kept hdirectory)
  · intro l n hl hnode
    exact h.kept hl (hgrown.kept hnode)
  · intro l c hl hnode
    exact hgrown.file (h.file hl hnode)

theorem Stored.trans (h : Stored before place content middle)
    (h' : Stored middle place content' after) : Stored before place content' after := by
  refine ⟨h'.current.trans h.current, h'.node, h.wasFree, ?_, ?_⟩
  · intro l n hl hnode
    exact h'.kept hl (h.kept hl hnode)
  · intro l c hl hnode
    exact h.file hl (h'.file hl hnode)

/-- A path that could be followed before leads to the same location. -/
theorem Stored.locate (h : Stored before place content after)
    (hpath : before.locate path = .ok location) : after.locate path = .ok location := by
  refine locate_of_directories h.current (fun l hl => h.kept ?_ hl) hpath
  rintro rfl
  exact h.wasFree hl

theorem Stored.read_same (h : Stored before place content after)
    (hpath : before.locate path = .ok place) : after.read path = .ok content :=
  read_ok.mpr ⟨place, h.locate hpath, h.node⟩

theorem Stored.read_other (h : Stored before place content after)
    (hread : before.read path = .ok content') (hne : before.locate path ≠ .ok place) :
    after.read path = .ok content' := by
  obtain ⟨location, hpath, hnode⟩ := read_ok.mp hread
  refine read_ok.mpr ⟨location, h.locate hpath, h.kept ?_ hnode⟩
  rintro rfl
  exact hne hpath

/-- Opens a file for writing after making the directories that lead to it. -/
def openFile (files : Files) (path : String) : Except FileError (Files × Location) :=
  (files.makeParents path).bind fun files => files.create path

theorem openFile_eq_ok : files.openFile path = .ok (opened, place) ↔
    ∃ parents, files.makeParents path = .ok parents ∧
      parents.create path = .ok (opened, place) := by
  unfold openFile
  cases files.makeParents path with
  | error e => simp [Except.bind]
  | ok parents => simp [Except.bind]

theorem openFile_ok (hpath : path ≠ "") (h : files.openFile path = .ok (opened, place)) :
    ∃ parents, files.makeParents path = .ok parents ∧ parents.create path = .ok (opened, place) ∧
      parents.locate path = .ok place ∧ Grown files parents ∧
      Stored parents place (.data (.text "")) opened := by
  obtain ⟨parents, hparents, hcreate⟩ := openFile_eq_ok.mp h
  obtain ⟨hlocate, -, hplace, rfl⟩ := (create_ok hpath).mp hcreate
  exact ⟨parents, hparents, hcreate, hlocate, makeParents_grown hparents, stored_write hplace _⟩

end Files

end ClassText
