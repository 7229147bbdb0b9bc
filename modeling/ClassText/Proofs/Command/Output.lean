import ClassText.Command.Run
import ClassText.Proofs.Command.Files

/-!
# Opening outputs and saving in them

What each action of a command does to a session, one law for each. An output is opened before
anything is read (`openAt_merged`, `openAt_directory`); after that a command is the run over its
listings (`transform_eq`, `run_of_eachListing`).
-/

namespace ClassText

open Files (Grown Stored)

/-- A path whose extension is one of some, upper and lower case alike. -/
def Path.HasExtension (path : String) (extensions : List String) : Prop :=
  ∃ extension, extension? path = some extension ∧ lowerCase extension ∈ extensions

theorem Path.HasExtension.ne_empty (h : HasExtension path extensions) : path ≠ "" := by
  rintro rfl
  obtain ⟨extension, hextension, -⟩ := h
  cases hextension

theorem Path.HasExtension.fileName? (h : HasExtension path extensions) :
    ∃ name, Path.fileName? path = some name := by
  obtain ⟨extension, hextension, -⟩ := h
  obtain ⟨name, hname, -⟩ := Option.bind_eq_some_iff.mp hextension
  exact ⟨name, hname⟩

namespace Files

variable {files opened : Files}

theorem listings_archive (h : Path.HasExtension path ["jar", "zip"])
    (hread : files.read path = .ok (.archive entries)) :
    files.listings path = .ok (entries.filter Entry.isListing) := by
  obtain ⟨extension, hextension, hkind⟩ := h
  have harchive : isArchiveExtension extension = true := by
    simpa [isArchiveExtension] using hkind
  have hother : lowerCase extension ≠ "jasm" := by
    intro heq
    simp [heq] at hkind
  simp [listings, hextension, hother, harchive, hread]

theorem listings_file (h : Path.HasExtension path ["jasm"])
    (hread : files.read path = .ok (.data (.text source))) :
    files.listings path = .ok [⟨path, .text source⟩] := by
  obtain ⟨extension, hextension, hkind⟩ := h
  simp [listings, hextension, List.mem_singleton.mp hkind, hread]

end Files

namespace Action

variable {x : Action α} {f : α → Action β} {s t u : Session} {path : String}

theorem bind_ok (h : x s = .ok a t) : (x >>= f) s = f a t := by
  simp [bind, EStateM.bind, h]

theorem bind_eq_ok : (x >>= f) s = .ok b u ↔ ∃ a t, x s = .ok a t ∧ f a t = .ok b u := by
  simp only [bind, EStateM.bind]
  cases x s with
  | ok a t => exact ⟨fun h => ⟨a, t, rfl, h⟩, fun ⟨_, _, heq, h⟩ => by cases heq; exact h⟩
  | error e t => simp

theorem makeParents_run (path : String) (s : Session) : makeParents path s =
    match s.files.makeParents path with
    | .ok files => .ok () { s with files }
    | .error error => .error (.file error) s := by
  have hget : makeParents path s = (ofFiles (s.files.makeParents path) >>= setFiles) s := rfl
  rw [hget]
  cases s.files.makeParents path with
  | ok files => rfl
  | error error => rfl

theorem create_run (path : String) (s : Session) : create path s =
    match s.files.create path with
    | .ok (files, location) => .ok location { s with files }
    | .error error => .error (.file error) s := by
  have hget : create path s = (ofFiles (s.files.create path) >>= fun created =>
      setFiles created.1 >>= fun _ => pure created.2) s := rfl
  rw [hget]
  cases s.files.create path with
  | ok created => rfl
  | error error => rfl

theorem get_run (s : Session) : (get : Action Session) s = .ok s s := rfl

end Action

namespace Output

open ClassText.Action

variable {s t : Session} {path : String}

theorem openAt_merged (hextension : Path.HasExtension path ["jasm", "j", "txt"])
    (h : s.files.openFile path = .ok (opened, place)) :
    openAt path s = .ok (.merged place) { s with files := opened } := by
  obtain ⟨parents, hparents, hcreate, hlocate, -, hstored⟩ :=
    Files.openFile_ok hextension.ne_empty h
  obtain ⟨extension, hextension, hmerged⟩ := hextension
  have hmade : makeParents path s = .ok () { s with files := parents } := by
    rw [makeParents_run, hparents]
  have hnew : parents.isDirectory path = false := by
    simp [Files.isDirectory, hlocate, hstored.wasFree]
  have hcreated :
      create path { s with files := parents } = .ok place { s with files := opened } := by
    simp [create_run, hcreate]
  have harchive : isArchiveExtension extension = false := by
    simp only [List.mem_cons, List.not_mem_nil, or_false] at hmerged
    rcases hmerged with h | h | h <;> simp [isArchiveExtension, h]
  have hlisted : ["jasm", "j", "txt"].contains (lowerCase extension) = true :=
    List.contains_iff_mem.mpr hmerged
  unfold openAt
  rw [bind_ok hmade, bind_ok (get_run _)]
  simp only [hnew, hextension, harchive, hlisted]
  exact bind_ok hcreated

theorem openAt_directory (h : s.files.locate path = .ok top)
    (htop : s.files.node? top = some .directory) : openAt path s = .ok (.directory path) s := by
  have hmade : makeParents path s = .ok () s := by
    rw [makeParents_run, Files.makeParents_eq_self h]
  have hdirectory : s.files.isDirectory path = true := by
    simp [Files.isDirectory, h, htop]
  unfold openAt
  rw [bind_ok hmade, bind_ok (get_run _), if_pos hdirectory]
  rfl

theorem makeParents_eq_ok : makeParents path s = .ok a t ↔
    ∃ files, s.files.makeParents path = .ok files ∧ t = { s with files } := by
  rw [makeParents_run]
  cases s.files.makeParents path with
  | ok files => simp [eq_comm]
  | error e => simp

theorem create_eq_ok : create path s = .ok place t ↔
    ∃ files, s.files.create path = .ok (files, place) ∧ t = { s with files } := by
  rw [create_run]
  cases s.files.create path with
  | ok created =>
    obtain ⟨files, location⟩ := created
    constructor
    · intro h
      cases h
      exact ⟨files, rfl, rfl⟩
    · rintro ⟨files', h, rfl⟩
      cases h
      rfl
  | error e => simp

theorem save_directory_ok : (Output.directory top).save name text s = .ok () t ↔
    hasTwoDots name.toList = false ∧
      ∃ opened place, s.files.openFile (Path.join top name) = .ok (opened, place) ∧
        t = { s with
          files := opened.write place (.data (.text text))
          printed := s.printed ++ ("Writing to " ++ Path.join top name ++ "\n") } := by
  unfold save
  dsimp only
  split
  · rename_i hdots
    constructor
    · intro h
      cases h
    · rintro ⟨hnone, -⟩
      simp [hnone] at hdots
  · rename_i hdots
    simp only [bind_eq_ok, makeParents_eq_ok, create_eq_ok, get_run, Files.openFile_eq_ok]
    constructor
    · rintro ⟨_, _, hprint, _, _, ⟨parents, hparents, rfl⟩, place, _, ⟨opened, hcreate, rfl⟩, _, _,
        hget, hset⟩
      cases hprint
      cases hget
      cases hset
      exact ⟨Bool.eq_false_iff.mpr hdots, opened, place, ⟨parents, hparents, hcreate⟩, rfl⟩
    · rintro ⟨-, opened, place, ⟨parents, hparents, hcreate⟩, rfl⟩
      exact ⟨(), _, rfl, (), _, ⟨parents, hparents, rfl⟩, place, _, ⟨opened, hcreate, rfl⟩, _, _,
        rfl, rfl⟩

end Output

namespace Command

open ClassText.Action

variable {s t u : Session} {input output : String}
  {action : Output → String → String → Action Nat} {one : String → String → Action Nat}

theorem closing_eq_self {opened : Output} (hclose : ∀ files, opened.close files = files)
    (action : Action α) : opened.closing action = action := by
  funext s
  unfold Output.closing
  cases action s with
  | ok value t => simp [hclose]
  | error failure t => simp [hclose]

/-- Once its output is open, a command is the run over the listings that it finds. -/
theorem transform_eq (hopen : Output.openAt output s = .ok opened t)
    (hclose : ∀ files, opened.close files = files)
    (hentries : t.files.listings input = .ok entries) :
    transform input output action s =
      match eachListing (action opened) entries t with
      | .ok count u => if count = 0 then .ok () u else .error (.rejected count) u
      | .error failure u => .error failure u := by
  unfold transform
  rw [bind_ok hopen, closing_eq_self hclose]
  simp only [bind, EStateM.bind, get_run, hentries]
  cases eachListing (action opened) entries t with
  | error failure u => rfl
  | ok count u =>
    by_cases hcount : count = 0
    · subst hcount
      rfl
    · exact (congrFun (if_pos hcount) u).trans (if_neg hcount).symm

theorem rejected_message (count : Nat) : "Error: " ++ (Failure.rejected count).message ++ "\n" =
    "Error: Finished with " ++ toString count ++ " errors\n" := by
  show "Error: " ++ ("Finished with " ++ toString count ++ " errors") ++ "\n" = _
  generalize toString count = number
  simp [← String.toList_inj]

/-- A run that gets through its listings ends well if it counted nothing, and otherwise says how
much it counted. -/
theorem run_of_eachListing {command : Command}
    (hcommand : command.action = transform input output action)
    (hopen : Output.openAt output ⟨files, "", ""⟩ = .ok opened t)
    (hclose : ∀ files, opened.close files = files) (hentries : t.files.listings input = .ok entries)
    (hrun : eachListing (action opened) entries t = .ok count u) :
    command.run files = ⟨if count = 0 then 0 else 1, { u with
      complaints := u.complaints ++
        if count = 0 then "" else "Error: Finished with " ++ toString count ++ " errors\n" }⟩ := by
  have htransform : transform input output action _ = _ := transform_eq hopen hclose hentries
  rw [hrun] at htransform
  rw [run, hcommand, htransform]
  by_cases hcount : count = 0
  · simp only [if_pos hcount, String.append_empty]
  · simp only [if_neg hcount]
    rw [← rejected_message, ← String.append_assoc, ← String.append_assoc]

theorem eachListing_cons (hsource : e.data = .text source) :
    eachListing one (e :: more) s = .ok count u ↔
      ∃ first t rest, one e.name source s = .ok first t ∧
        eachListing one more t = .ok rest u ∧ first + rest = count := by
  rw [eachListing]
  simp only [hsource, bind_eq_ok]
  constructor
  · rintro ⟨first, t, hfirst, rest, u', hrest, hcount⟩
    cases hcount
    exact ⟨first, t, rest, hfirst, hrest, rfl⟩
  · rintro ⟨first, t, rest, hfirst, hrest, rfl⟩
    exact ⟨first, t, hfirst, rest, u, hrest, rfl⟩

end Command

end ClassText
