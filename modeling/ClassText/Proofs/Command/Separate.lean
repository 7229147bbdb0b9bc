import ClassText.Proofs.Command.Merged
import ClassText.Proofs.Text.Lines
import Mathlib.Data.List.Perm.Subperm

/-!
# Listings written into a directory

`archive_separate_iff`: after an archive has been written into an empty directory, each of its
listings has a file of its own if and only if no two of them are written under the same name.
Canonical forms are written under the last component of the name of an entry, so entries of the same
name in different directories collide; classes are written under the name of the class, which is the
same for all listings.

Where a file is saved follows from its name (`locate_join`), saving stores it there
(`save_directory_stored`), and a run stores one file after the other (`eachListing_directory`), so
that a later one may take the place of an earlier one.
-/

namespace ClassText

open Files (Stored)

namespace Output

/-- Where a file is saved in a directory under a name. -/
def placeOf (top : Location) (name : String) : Location :=
  (if Path.isAbsolute name then [] else top) ++ Path.components name

theorem hasTwoDots_append (before after : List Char) :
    hasTwoDots (before ++ '.' :: '.' :: after) = true := by
  induction before with
  | nil => rfl
  | cons c before ih =>
    rw [List.cons_append]
    unfold hasTwoDots
    split
    · rfl
    · rename_i heq
      cases heq
      exact ih
    · rename_i heq
      cases heq

end Output

namespace Path

variable {path name : String}

theorem mem_intersperse {parts : List α} (separator : α) (h : part ∈ parts) :
    part ∈ parts.intersperse separator := by
  induction parts with
  | nil => cases h
  | cons first parts ih =>
    cases parts with
    | nil => exact h
    | cons second parts =>
      rw [List.intersperse_cons_cons]
      rcases List.mem_cons.mp h with rfl | h
      · exact List.mem_cons_self
      · exact List.mem_cons_of_mem _ (List.mem_cons_of_mem _ (ih h))

theorem infix_of_mem_splitOn {text : List Char} (h : part ∈ text.splitOn c) : part <:+: text := by
  have hinfix := List.infix_of_mem_flatten (mem_intersperse [c] h)
  rwa [← List.intercalate, List.intercalate_splitOn] at hinfix

theorem ne_dots_of_mem_segments (h : Output.hasTwoDots name.toList = false) :
    ∀ segment ∈ segments name, segment ≠ ".." := by
  rintro _ hsegment rfl
  obtain ⟨part, hpart, heq⟩ := List.mem_map.mp hsegment
  obtain ⟨before, after, hinfix⟩ := infix_of_mem_splitOn hpart
  have hdots : part = ['.', '.'] := by
    rw [← String.toList_ofList (l := part), heq]
    rfl
  have htwo := Output.hasTwoDots_append before after
  rw [← hinfix, hdots] at h
  simp [htwo] at h

theorem components_of_not_mem (hslash : '/' ∉ name.toList) (hempty : name ≠ "")
    (hdot : name ≠ ".") : components name = [name] := by
  rw [components, segments, List.splitOn_eq_singleton hslash, List.map_singleton,
    String.ofList_toList, List.filter_cons_of_pos (by simp [hempty, hdot])]
  rfl

theorem isAbsolute_of_not_mem (hslash : '/' ∉ name.toList) : isAbsolute name = false := by
  unfold isAbsolute
  cases hname : name.toList with
  | nil => rfl
  | cons c rest =>
    rw [hname, List.mem_cons, not_or] at hslash
    simpa using Ne.symm hslash.1

/-- Slashes at the end add no component. -/
theorem components_slashes (text : List Char) {slashes : List Char} (h : ∀ c ∈ slashes, c = '/') :
    components (String.ofList (text ++ slashes)) = components (String.ofList text) := by
  cases slashes with
  | nil => rw [List.append_nil]
  | cons c rest =>
    obtain ⟨rfl, hrest⟩ := List.forall_mem_cons.mp h
    have hempty : ∀ part ∈ rest.splitOn '/', part = [] := by
      intro part hpart
      refine List.eq_nil_iff_forall_not_mem.mpr fun c hc => not_mem_of_mem_splitOn hpart ?_
      exact hrest c ((infix_of_mem_splitOn hpart).subset hc) ▸ hc
    have hnone : ((rest.splitOn '/').map String.ofList).filter (fun s => s != "" && s != ".") =
        [] := by
      refine List.filter_eq_nil_iff.mpr fun segment hsegment => ?_
      obtain ⟨part, hpart, rfl⟩ := List.mem_map.mp hsegment
      simp [hempty part hpart]
    simp only [components, segments, String.toList_ofList, List.splitOn_append_cons_self,
      List.map_append, List.filter_append, hnone, List.append_nil]

theorem join_ne_empty (hpath : path ≠ "") : join path name ≠ "" := by
  unfold join
  split
  · rintro rfl
    rename_i habsolute
    cases habsolute
  · split
    · simp [hpath]
    · simp [hpath]

theorem isAbsolute_append (hpath : path ≠ "") (name : String) :
    isAbsolute (path ++ name) = isAbsolute path := by
  have hne : path.toList ≠ [] := mt String.toList_eq_nil_iff.mp hpath
  obtain ⟨c, rest, heq⟩ := List.exists_cons_of_ne_nil hne
  simp [isAbsolute, heq]

end Path

namespace Files

variable {files before after : Files} {top place : Location} {path name : String}

theorem foldl_next {names : List String} (h : ∀ name ∈ names, name ≠ "..") (location : Location) :
    names.foldl next location = location ++ names.filter fun s => s != "" && s != "." := by
  induction names generalizing location with
  | nil => simp
  | cons name names ih =>
    obtain ⟨hname, hnames⟩ := List.forall_mem_cons.mp h
    rw [List.foldl_cons, ih hnames, next]
    by_cases hspecial : name = "" ∨ name = "."
    · rw [if_pos hspecial, List.filter_cons_of_neg (by simpa [← not_or] using hspecial)]
    · rw [if_neg hspecial, if_neg hname, List.filter_cons_of_pos (by simpa using hspecial)]
      simp

/-- A name leads from a directory to where its components say. -/
theorem locate_join (htop : files.locate path = .ok top)
    (hdots : Output.hasTwoDots name.toList = false)
    (h : files.locate (Path.join path name) = .ok place) : place = Output.placeOf top name := by
  obtain ⟨hpath, hwalk⟩ := locate_ok.mp htop
  obtain ⟨-, hplace⟩ := locate_ok.mp h
  have hnames := foldl_next (Path.ne_dots_of_mem_segments hdots)
  rw [walk_eq hplace, Output.placeOf]
  by_cases habsolute : Path.isAbsolute name = true
  · rw [Path.join, if_pos habsolute, if_pos habsolute, start, if_pos habsolute, hnames]
    rfl
  · rw [if_neg habsolute, Path.components, ← hnames, walk_eq hwalk, ← List.foldl_append]
    rw [Path.join, if_neg habsolute]
    by_cases hslash : path.toList.getLast? = some '/'
    · obtain ⟨leading, hleading⟩ := List.getLast?_eq_some_iff.mp hslash
      have hsplit : path = String.ofList leading ++ "/" := by
        simp [← String.toList_inj, hleading]
      have hsegments : Path.segments path = Path.segments (String.ofList leading) ++ [""] := by
        rw [hsplit, ← String.append_empty (s := String.ofList leading ++ "/"), Path.segments_append]
        rfl
      have hjoined : Path.segments (path ++ name) =
          Path.segments (String.ofList leading) ++ Path.segments name := by
        rw [hsplit, Path.segments_append]
      rw [if_pos (.inr hslash), hjoined, start, start, Path.isAbsolute_append hpath, hsegments]
      simp [List.foldl_append, next]
    · rw [if_neg (by simp [hpath, hslash]), Path.segments_append, String.append_assoc, start, start,
        Path.isAbsolute_append hpath]

end Files

-- ---------------------------------------------------------------------------
-- One file after the other
-- ---------------------------------------------------------------------------

namespace Files

/-- Files in which texts have been stored one after the other, each in its place. -/
inductive StoredAll : Files → List (Location × String) → Files → Prop
  | nil : StoredAll files [] files
  | cons : Stored before place (.data (.text text)) middle → StoredAll middle more after →
      StoredAll before ((place, text) :: more) after

theorem StoredAll.file (h : StoredAll before writes after) (hl : l ∉ writes.map Prod.fst)
    (hfile : after.node? l = some (.file content)) : before.node? l = some (.file content) := by
  induction h with
  | nil => exact hfile
  | cons hfirst _ ih =>
    simp only [List.map_cons, List.mem_cons, not_or] at hl
    exact hfirst.file hl.1 (ih hl.2 hfile)

theorem StoredAll.kept (h : StoredAll before writes after) (hl : l ∉ writes.map Prod.fst)
    (hnode : before.node? l = some node) : after.node? l = some node := by
  induction h with
  | nil => exact hnode
  | cons hfirst _ ih =>
    simp only [List.map_cons, List.mem_cons, not_or] at hl
    exact ih hl.2 (hfirst.kept hl.1 hnode)

/-- In places that are all different, every text stays. -/
theorem StoredAll.node (h : StoredAll before writes after) (hplaces : (writes.map Prod.fst).Nodup) :
    ∀ w ∈ writes, after.node? w.1 = some (.file (.data (.text w.2))) := by
  induction h with
  | nil => simp
  | cons hfirst hmore ih =>
    obtain ⟨hfree, hdistinct⟩ := List.nodup_cons.mp hplaces
    rw [List.forall_mem_cons]
    exact ⟨hmore.kept hfree hfirst.node, ih hdistinct⟩

/-- A path leads to a directory below which there is nothing. -/
structure IsEmptyDirectory (files : Files) (path : String) (top : Location) : Prop where
  locate : files.locate path = .ok top
  directory : files.node? top = some .directory
  empty : ∀ l, top <+: l → l ≠ top → files.node? l = none

theorem IsEmptyDirectory.noFile (h : IsEmptyDirectory files path top) (l : Location)
    (content : Content) (hbelow : top <+: l) : files.node? l ≠ some (.file content) := by
  by_cases hl : l = top
  · simp [hl, h.directory]
  · simp [h.empty l hbelow hl]

theorem isEmptyDirectory_of_nodes {files : Files} (hlocate : files.locate path = .ok top)
    (hdirectory : files.node? top = some .directory)
    (hnodes : ∀ n ∈ files.nodes, top <+: n.1 → n.1 = top) : files.IsEmptyDirectory path top := by
  refine ⟨hlocate, hdirectory, ?_⟩
  intro l hbelow hl
  have hroot : l ≠ [] := by
    rintro rfl
    exact hl (List.prefix_nil.mp hbelow).symm
  rw [node?, if_neg hroot, List.lookup_eq_none_iff]
  intro n hn
  rw [bne_iff_ne]
  rintro rfl
  exact hl (hnodes n hn hbelow)

/-- Each text has a file of its own below a directory. -/
def HeldSeparately (files : Files) (top : Location) (texts : List String) : Prop :=
  ∃ places : List Location, places.Nodup ∧ (∀ place ∈ places, top <+: place) ∧
    List.Forall₂ (fun place text => files.node? place = some (.file (.data (.text text))))
      places texts

theorem exists_of_forall₂ {xs : List α} {ys : List β} (h : List.Forall₂ R xs ys) (hx : x ∈ xs) :
    ∃ y, R x y := by
  induction h with
  | nil => cases hx
  | cons hfirst _ ih =>
    rcases List.mem_cons.mp hx with rfl | hx
    · exact ⟨_, hfirst⟩
    · exact ih hx

/-- Texts that are stored in a directory without files have a file each if and only if their places
are all different, and below the directory. -/
theorem StoredAll.heldSeparately_iff (h : StoredAll before writes after)
    (hempty : ∀ l content, top <+: l → before.node? l ≠ some (.file content)) :
    after.HeldSeparately top (writes.map Prod.snd) ↔
      (writes.map Prod.fst).Nodup ∧ ∀ place ∈ writes.map Prod.fst, top <+: place := by
  constructor
  · rintro ⟨places, hdistinct, hbelow, hheld⟩
    have hsubset : places ⊆ writes.map Prod.fst := by
      intro place hplace
      by_contra hother
      obtain ⟨text, hfile⟩ := exists_of_forall₂ hheld hplace
      exact hempty place _ (hbelow place hplace) (h.file hother hfile)
    have hlength : (writes.map Prod.fst).length ≤ places.length := by
      rw [hheld.length_eq]
      simp
    -- as many places as texts: then the places used are all there are
    have hperm : places.Perm (writes.map Prod.fst) :=
      (List.subperm_of_subset hdistinct hsubset).perm_of_length_le hlength
    refine ⟨hperm.nodup_iff.mp hdistinct, ?_⟩
    intro place hplace
    exact hbelow place (hperm.mem_iff.mpr hplace)
  · rintro ⟨hdistinct, hbelow⟩
    refine ⟨writes.map Prod.fst, hdistinct, hbelow, ?_⟩
    rw [List.forall₂_map_left_iff, List.forall₂_map_right_iff, List.forall₂_same]
    exact h.node hdistinct

end Files

theorem Output.save_directory_stored (htop : s.files.locate path = .ok top)
    (h : (Output.directory path).save name text s = .ok () t) :
    Stored s.files (placeOf top name) (.data (.text text)) t.files := by
  obtain ⟨hdots, opened, place, hopen, rfl⟩ := save_directory_ok.mp h
  obtain ⟨parents, -, -, hlocate, hgrown, hstored⟩ :=
    Files.openFile_ok (Path.join_ne_empty (Files.locate_ok.mp htop).1) hopen
  have htop : parents.locate path = .ok top :=
    Files.locate_of_directories hgrown.current (fun _ => hgrown.kept) htop
  rw [← Files.locate_join htop hdots hlocate]
  exact hgrown.stored (hstored.trans (Files.stored_write (by simp [hstored.node]) _))

/-- A listing in an archive has a file name, which is a single component. -/
theorem Entry.fileName_of_isListing {e : Entry} (h : e.isListing = true) :
    ∃ name, Path.fileName? e.name = some name ∧ Path.isAbsolute name = false ∧
      Path.components name = [name] := by
  obtain ⟨stem, hstem⟩ := List.isSuffixOf_iff_suffix.mp h
  have hsplit := dropEndWhile_append (· == '/') e.name.toList
  rw [← hstem] at hsplit
  have hslashes : ∀ c ∈ (e.name.toList.reverse.takeWhile (· == '/')).reverse, c = '/' := by
    intro c hc
    simpa using List.all_eq_true.mp List.all_takeWhile c (List.mem_reverse.mp hc)
  have hcomponents := Path.components_slashes (stem ++ ".jasm".toList) hslashes
  rw [hsplit, String.ofList_toList] at hcomponents
  have hending : '/' ∉ ".jasm".toList := by decide
  obtain ⟨part, hpart⟩ := Path.getLast?_splitOn_append hending stem
  have hslash : '/' ∉ part ++ ".jasm".toList := not_mem_of_mem_splitOn (List.mem_of_getLast? hpart)
  obtain ⟨name, hname⟩ : ∃ name, name = String.ofList (part ++ ".jasm".toList) := ⟨_, rfl⟩
  have hchars : name.toList = part ++ ".jasm".toList := by rw [hname, String.toList_ofList]
  have hlong : 5 ≤ name.toList.length := by simp [hchars]
  have hempty : name ≠ "" := by
    rintro rfl
    exact absurd hlong (by decide)
  have hdot : name ≠ "." := by
    rintro rfl
    exact absurd hlong (by decide)
  have hdots : name ≠ ".." := by
    rintro rfl
    exact absurd hlong (by decide)
  have hsegment :
      (Path.segments (String.ofList (stem ++ ".jasm".toList))).getLast? = some name := by
    rw [Path.segments, String.toList_ofList, List.getLast?_map, hpart, hname]
    rfl
  have hlast := Path.getLast?_components hsegment hempty hdot
  rw [← hcomponents] at hlast
  rw [← hchars] at hslash
  have hname? : Path.fileName? e.name = some name := by
    rw [Path.fileName?, hlast]
    exact if_neg hdots
  exact ⟨name, hname?, Path.isAbsolute_of_not_mem hslash,
    Path.components_of_not_mem hslash hempty hdot⟩

namespace Command

open ClassText.Action

variable {s t : Session} {path input output : String} {top : Location} {entries : List Entry}

/-- Whether an action that succeeds has saved a text under a name in a directory, and nothing
else. -/
def Saves (path : String) (action : Action Nat) (name text : String) : Prop :=
  ∀ s count t, action s = .ok count t → ∃ s' t', s'.files = s.files ∧
    (Output.directory path).save name text s' = .ok () t' ∧ t'.files = t.files

theorem canonicalizeOne_saves (hread : Listing.read keepGoing source = .ok instructions) :
    Saves path (canonicalizeOne keepGoing (.directory path) name source)
      ((Path.fileName? name).getD name) (Listing.text instructions) := by
  intro s count t h
  unfold canonicalizeOne at h
  simp only [hread, bind_eq_ok] at h
  obtain ⟨_, s', hprint, _, t', hsave, _, u, hprint', hcount⟩ := h
  cases hprint
  cases hprint'
  cases hcount
  refine ⟨_, t', ?_, hsave, rfl⟩
  rfl

theorem wrapOne_saves (hread : Listing.classText options false source = .ok text) :
    Saves path (wrapOne options (.directory path) name source) (options.className ++ ".j")
      text := by
  intro s count t h
  unfold wrapOne at h
  simp only [hread, bind_eq_ok] at h
  obtain ⟨_, s', hprint, _, t', hsave, hcount⟩ := h
  cases hprint
  cases hcount
  refine ⟨_, t, ?_, hsave, rfl⟩
  rfl

/-- A run over listings saves them one after the other. -/
theorem eachListing_directory {one : String → String → Action Nat} {name text : Entry → String}
    (hsource : ∀ e ∈ entries, e.data = .text e.source)
    (hsaves : ∀ e ∈ entries, Saves path (one e.name e.source) (name e) (text e))
    (htop : s.files.locate path = .ok top) (h : eachListing one entries s = .ok count t) :
    Files.StoredAll s.files (entries.map fun e => (Output.placeOf top (name e), text e))
      t.files := by
  induction entries generalizing s count with
  | nil =>
    cases h
    exact .nil
  | cons e entries ih =>
    obtain ⟨he, hsource⟩ := List.forall_mem_cons.mp hsource
    obtain ⟨hfirst, hsaves⟩ := List.forall_mem_cons.mp hsaves
    obtain ⟨first, u, rest, hone, hmore, -⟩ := (eachListing_cons he).mp h
    obtain ⟨s', u', hstart, hsave, hend⟩ := hfirst s first u hone
    have hstored :
        Stored s.files (Output.placeOf top (name e)) (.data (.text (text e))) u.files := by
      rw [← hstart, ← hend]
      exact Output.save_directory_stored (hstart ▸ htop) hsave
    exact .cons hstored (ih hsource hsaves (hstored.locate htop) hmore)

variable {command : Command} {files : Files}
  {action : Output → String → String → Action Nat}

/-- A run that ends well got through all its listings. -/
theorem run_of_exitCode (hcommand : command.action = transform input output action)
    (hopen : Output.openAt output ⟨files, "", ""⟩ = .ok opened t)
    (hclose : ∀ files, opened.close files = files) (hentries : t.files.listings input = .ok entries)
    (hexit : (command.run files).exitCode = 0) :
    ∃ count u, eachListing (action opened) entries t = .ok count u ∧
      (command.run files).session.files = u.files := by
  cases hrun : eachListing (action opened) entries t with
  | ok count u =>
    refine ⟨count, u, rfl, ?_⟩
    rw [run_of_eachListing hcommand hopen hclose hentries hrun]
  | error failure u =>
    have htransform : transform input output action _ = _ := transform_eq hopen hclose hentries
    rw [hrun] at htransform
    rw [run, hcommand, htransform] at hexit
    cases hexit

/-- After a run into an empty directory, each listing has a file of its own if and only if all of
them were saved in different places below the directory. -/
theorem heldSeparately_iff {name text : Entry → String}
    (hcommand : command.action = transform input output action)
    (hempty : files.IsEmptyDirectory output top) (hentries : files.listings input = .ok entries)
    (hsource : ∀ e ∈ entries, e.data = .text e.source)
    (hsaves : ∀ e ∈ entries,
      Saves output (action (.directory output) e.name e.source) (name e) (text e))
    (hexit : (command.run files).exitCode = 0) :
    (command.run files).session.files.HeldSeparately top (entries.map text) ↔
      (entries.map fun e => Output.placeOf top (name e)).Nodup ∧
        ∀ e ∈ entries, top <+: Output.placeOf top (name e) := by
  obtain ⟨count, u, hrun, hfiles⟩ := run_of_exitCode hcommand
    (Output.openAt_directory (s := ⟨files, "", ""⟩) hempty.locate hempty.directory) (fun _ => rfl)
    hentries hexit
  have hstored := eachListing_directory hsource hsaves hempty.locate hrun
  have hheld := hstored.heldSeparately_iff hempty.noFile
  rw [hfiles]
  simpa [Function.comp_def] using hheld

theorem filterMap_eq_map {entries : List Entry} {text? : Entry → Option String}
    {text : Entry → String} (h : ∀ e ∈ entries, text? e = some (text e)) :
    entries.filterMap text? = entries.map text := by
  rw [List.filterMap_congr h]
  exact congrFun (List.filterMap_eq_map (f := text)) entries

/-- Listings of an archive are saved in different places if their entries have different names,
whatever their directories in the archive. -/
theorem nodup_placeOf_fileName (h : ∀ e ∈ entries, e.isListing = true) :
    (entries.map fun e => Output.placeOf top ((Path.fileName? e.name).getD e.name)).Nodup ↔
      (entries.map fun e => Path.fileName? e.name).Nodup := by
  rw [List.Nodup, List.Nodup, List.pairwise_map, List.pairwise_map]
  refine List.Pairwise.iff_of_mem fun {e e'} he he' => not_congr ?_
  obtain ⟨name, hname, habsolute, hcomponents⟩ := Entry.fileName_of_isListing (h e he)
  obtain ⟨name', hname', habsolute', hcomponents'⟩ := Entry.fileName_of_isListing (h e' he')
  simp [hname, hname', Output.placeOf, habsolute, hcomponents, habsolute', hcomponents']

theorem prefix_placeOf_fileName {e : Entry} (h : e.isListing = true) :
    top <+: Output.placeOf top ((Path.fileName? e.name).getD e.name) := by
  obtain ⟨name, hname, habsolute, -⟩ := Entry.fileName_of_isListing h
  simp [hname, Output.placeOf, habsolute]

/-- Canonical texts have a file each exactly if the last components of the names are different. -/
theorem canonicalize_separate_iff (hempty : files.IsEmptyDirectory output top)
    (hentries : files.listings input = .ok entries) (hlisting : ∀ e ∈ entries, e.isListing = true)
    (hsource : ∀ e ∈ entries, e.data = .text e.source)
    (hread : ∀ e ∈ entries, ∃ instructions, Listing.read keepGoing e.source = .ok instructions)
    (hexit : ((canonicalize input output keepGoing).run files).exitCode = 0) :
    ((canonicalize input output keepGoing).run files).session.files.HeldSeparately top
        (entries.filterMap (Entry.canonical? keepGoing)) ↔
      (entries.map fun e => Path.fileName? e.name).Nodup := by
  have htext : ∀ e ∈ entries, e.canonical? keepGoing = some ((e.canonical? keepGoing).getD "") := by
    intro e he
    obtain ⟨instructions, hread⟩ := hread e he
    simp [Entry.canonical?, hread, Except.toOption]
  have hsaves : ∀ e ∈ entries,
      Saves output (canonicalizeOne keepGoing (.directory output) e.name e.source)
        ((Path.fileName? e.name).getD e.name) ((e.canonical? keepGoing).getD "") := by
    intro e he
    obtain ⟨instructions, hread⟩ := hread e he
    have hcanonical : (e.canonical? keepGoing).getD "" = Listing.text instructions := by
      simp [Entry.canonical?, hread, Except.toOption]
    rw [hcanonical]
    exact canonicalizeOne_saves hread
  rw [filterMap_eq_map htext, heldSeparately_iff rfl hempty hentries hsource hsaves hexit,
    nodup_placeOf_fileName hlisting]
  exact and_iff_left fun e he => prefix_placeOf_fileName (hlisting e he)

/-- Classes have a file each exactly if there is at most one, and it is in the directory. -/
theorem wrap_separate_iff (hempty : files.IsEmptyDirectory output top)
    (hentries : files.listings input = .ok entries)
    (hsource : ∀ e ∈ entries, e.data = .text e.source)
    (hread : ∀ e ∈ entries, ∃ instructions, Listing.read false e.source = .ok instructions)
    (hexit : ((wrap input output options).run files).exitCode = 0) :
    ((wrap input output options).run files).session.files.HeldSeparately top
        (entries.filterMap fun e => (Listing.classText options false e.source).toOption) ↔
      entries.length ≤ 1 ∧
        (entries = [] ∨ top <+: Output.placeOf top (options.className ++ ".j")) := by
  have htext : ∀ e ∈ entries, (Listing.classText options false e.source).toOption =
      some ((Listing.classText options false e.source).toOption.getD "") := by
    intro e he
    obtain ⟨instructions, hread⟩ := hread e he
    simp [Listing.classText, hread, Except.map, Except.toOption]
  have hsaves : ∀ e ∈ entries,
      Saves output (wrapOne options (.directory output) e.name e.source)
        (options.className ++ ".j") ((Listing.classText options false e.source).toOption.getD "") :=
    fun e he => wrapOne_saves (Descriptor.toOption_eq_some.mp (htext e he))
  rw [filterMap_eq_map htext, heldSeparately_iff rfl hempty hentries hsource hsaves hexit,
    List.map_const', List.nodup_replicate]
  refine and_congr_right' ?_
  cases entries with
  | nil => simp
  | cons e entries => simpa using fun h _ _ => h

/-- After the listings of an archive have been written into an empty directory, each of them has
a file of its own exactly if their entries differ in the last components of their names. Of classes
there may only be one, and its name must not lead out of the directory. -/
theorem archive_separate_iff (hinput : Path.HasExtension input ["jar", "zip"])
    (hread : files.read input = .ok (.archive entries))
    (haccepted : ∀ e ∈ entries, e.isListing = true → ∃ source instructions,
      e.data = .text source ∧ Listing.read false source = .ok instructions)
    (hempty : files.IsEmptyDirectory output top) :
    let listings := entries.filter Entry.isListing
    (∀ keepGoing, let outcome := (canonicalize input output keepGoing).run files
      outcome.exitCode = 0 →
        (outcome.session.files.HeldSeparately top (listings.filterMap fun e =>
            (Listing.read keepGoing e.source).toOption.map Listing.text) ↔
          (listings.map fun e => Path.fileName? e.name).Nodup)) ∧
      ∀ options, let outcome := (wrap input output options).run files
        outcome.exitCode = 0 →
          (outcome.session.files.HeldSeparately top (listings.filterMap fun e =>
              (Listing.classText options false e.source).toOption) ↔
            listings.length ≤ 1 ∧
              (listings = [] ∨ top <+: Output.placeOf top (options.className ++ ".j"))) := by
  intro listings
  have hentries : files.listings input = .ok listings := Files.listings_archive hinput hread
  have hlisting : ∀ e ∈ listings, e.isListing = true := fun e he => (List.mem_filter.mp he).2
  have hcontents : ∀ e ∈ listings, e.data = .text e.source ∧
      ∀ keepGoing, ∃ instructions, Listing.read keepGoing e.source = .ok instructions := by
    intro e he
    obtain ⟨hmem, hlisting⟩ := List.mem_filter.mp he
    obtain ⟨source, instructions, hdata, haccepted⟩ := haccepted e hmem hlisting
    have hsource : e.source = source := by simp [Entry.source, hdata]
    rw [hsource]
    exact ⟨hdata, fun keepGoing => ⟨_, Listing.read_ok.mpr (Listing.read_ok.mp haccepted)⟩⟩
  have hsource := fun e he => (hcontents e he).1
  constructor
  · intro keepGoing outcome hexit
    have hread := fun e he => (hcontents e he).2 keepGoing
    exact canonicalize_separate_iff hempty hentries hlisting hsource hread hexit
  · intro options outcome hexit
    have hread := fun e he => (hcontents e he).2 false
    exact wrap_separate_iff hempty hentries hsource hread hexit

/-- Two listings in different directories of the archive: their canonical texts are kept, one of
their classes is not. -/
theorem archive_separate_iff_names :
    let entries : List Entry := [⟨"a/x.jasm", .text "iload 2\n"⟩, ⟨"x.txt", .bytes [255]⟩,
      ⟨"a/b/y.jasm/", .text "L:"⟩]
    let files : Files := ⟨[], [(["in.jar"], .file (.archive entries)), (["out"], .directory)]⟩
    let canonical := (canonicalize "in.jar" "./out" false).run files
    let wrapped := (wrap "in.jar" "./out" ⟨"a/B", none, "main", 2⟩).run files
    Path.HasExtension "in.jar" ["jar", "zip"] ∧ files.read "in.jar" = .ok (.archive entries) ∧
      (∀ e ∈ entries, e.isListing = true → ∃ source instructions,
        e.data = .text source ∧ Listing.read false source = .ok instructions) ∧
      files.IsEmptyDirectory "./out" ["out"] ∧ canonical.exitCode = 0 ∧ wrapped.exitCode = 0 ∧
      canonical.session.files.HeldSeparately ["out"] ["    iload_2\n", "L:\n"] ∧
      ¬ wrapped.session.files.HeldSeparately ["out"] ((entries.filter Entry.isListing).filterMap
        fun e => (Listing.classText ⟨"a/B", none, "main", 2⟩ false e.source).toOption) := by
  intro entries files canonical wrapped
  have hinput : Path.HasExtension "in.jar" ["jar", "zip"] := ⟨"jar", by decide, by decide +kernel⟩
  have hread : files.read "in.jar" = .ok (.archive entries) := rfl
  have hlistings : entries.filter Entry.isListing =
      [⟨"a/x.jasm", .text "iload 2\n"⟩, ⟨"a/b/y.jasm/", .text "L:"⟩] := by decide
  have hload : Listing.read false "iload 2\n" = .ok [.load 2 .int] :=
    Descriptor.toOption_eq_some.mp (by decide +kernel)
  have hlabel : Listing.read false "L:" = .ok [.label "L"] :=
    Descriptor.toOption_eq_some.mp (by decide +kernel)
  have haccepted : ∀ e ∈ entries, e.isListing = true → ∃ source instructions,
      e.data = .text source ∧ Listing.read false source = .ok instructions := by
    intro e he hlisting
    have hmem := List.mem_filter.mpr ⟨he, hlisting⟩
    rw [hlistings, List.mem_pair] at hmem
    rcases hmem with rfl | rfl
    · exact ⟨_, _, rfl, hload⟩
    · exact ⟨_, _, rfl, hlabel⟩
  have hempty : files.IsEmptyDirectory "./out" ["out"] :=
    Files.isEmptyDirectory_of_nodes rfl rfl (by decide)
  obtain ⟨hcanonical, hwrapped⟩ := archive_separate_iff hinput hread haccepted hempty
  have hexit : canonical.exitCode = 0 := by decide +kernel
  have hexit' : wrapped.exitCode = 0 := by decide +kernel
  have hnames := (hcanonical false hexit).mpr (by rw [hlistings]; decide)
  have hclasses := mt (hwrapped ⟨"a/B", none, "main", 2⟩ hexit').mp (by rw [hlistings]; simp)
  refine ⟨hinput, hread, haccepted, hempty, hexit, hexit', ?_, hclasses⟩
  have htexts : (entries.filter Entry.isListing).filterMap (fun e =>
      (Listing.read false e.source).toOption.map Listing.text) = ["    iload_2\n", "L:\n"] := by
    decide +kernel
  rw [← htexts]
  exact hnames

/-- Listings of the same name, and classes of two listings, take the place of each other, and the
runs end well. -/
theorem archive_separate_lost : ∃ (files : Files) (entries : List Entry),
    files.read "in.zip" = .ok (.archive entries) ∧
      (∀ e ∈ entries, ∃ instructions, Listing.read false e.source = .ok instructions) ∧
      files.IsEmptyDirectory "out" ["out"] ∧
      ((canonicalize "in.zip" "out" false).run files).exitCode = 0 ∧
      ¬ ((canonicalize "in.zip" "out" false).run files).session.files.HeldSeparately ["out"]
        (entries.filterMap (Entry.canonical? false)) ∧
      ((wrap "in.zip" "out" .standard).run files).exitCode = 0 ∧
      ¬ ((wrap "in.zip" "out" .standard).run files).session.files.HeldSeparately ["out"]
        (entries.filterMap fun e => (Listing.classText .standard false e.source).toOption) := by
  let entries : List Entry := [⟨"a/x.jasm", .text "L:\n"⟩, ⟨"b/x.jasm", .text "M:\n"⟩]
  let files : Files := ⟨[], [(["in.zip"], .file (.archive entries)), (["out"], .directory)]⟩
  have hempty : files.IsEmptyDirectory "out" ["out"] :=
    Files.isEmptyDirectory_of_nodes rfl rfl (by decide)
  have hread : ∀ e ∈ entries, ∃ instructions, Listing.read false e.source = .ok instructions := by
    have hL : Listing.read false "L:\n" = .ok [.label "L"] :=
      Descriptor.toOption_eq_some.mp (by decide +kernel)
    have hM : Listing.read false "M:\n" = .ok [.label "M"] :=
      Descriptor.toOption_eq_some.mp (by decide +kernel)
    exact List.forall_mem_cons.mpr ⟨⟨_, hL⟩, List.forall_mem_singleton.mpr ⟨_, hM⟩⟩
  have hinput : Path.HasExtension "in.zip" ["jar", "zip"] := ⟨"zip", by decide, by decide +kernel⟩
  have harchive : files.read "in.zip" = .ok (.archive entries) := rfl
  have hlistings : entries.filter Entry.isListing = entries := by decide
  have hentries : files.listings "in.zip" = .ok entries := by
    rw [Files.listings_archive hinput harchive, hlistings]
  have hexit : ((canonicalize "in.zip" "out" false).run files).exitCode = 0 := by decide +kernel
  have hexit' : ((wrap "in.zip" "out" .standard).run files).exitCode = 0 := by decide +kernel
  refine ⟨files, entries, harchive, hread, hempty, hexit, ?_, hexit', ?_⟩
  · rw [canonicalize_separate_iff hempty hentries (by decide) (by decide) hread hexit]
    decide
  · rw [wrap_separate_iff hempty hentries (by decide) hread hexit']
    decide

end Command

end ClassText
