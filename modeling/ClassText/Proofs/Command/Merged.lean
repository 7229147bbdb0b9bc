import ClassText.Proofs.Command.Output
import ClassText.Proofs.Listing.Append

/-!
# Listings written one after the other into one file

`canonicalize_archive`: the output of an archive holds the canonical texts of the listings
that are read, in their order, and the final message counts all rejections that are reported.
`canonicalize_file`: for a single listing this is its canonical text, unless the listing is its
own output. Then the file is emptied before it is read, and the run ends well with an empty
file.

One listing appends to the output and to the complaints (`canonicalizeOne_merged`); a run over
listings does so for each of them (`eachListing_merged`).
-/

namespace ClassText

open Files (Stored)

/-- The listing that an entry holds. -/
def Entry.source (e : Entry) : String :=
  match e.data with
  | .text source => source
  | .bytes _ => ""

namespace Entry

/-- What an entry contributes to a merged output; nothing if it is rejected. -/
def canonical? (keepGoing : Bool) (e : Entry) : Option String :=
  (Listing.read keepGoing e.source).toOption.map Listing.text

/-- The rejections that are reported for an entry. -/
def rejections (keepGoing : Bool) (e : Entry) : List ListingError :=
  if keepGoing then Listing.rejected e.source else (Listing.rejected e.source).take 1

def report (keepGoing : Bool) (e : Entry) : String :=
  Diagnostic.reports e.name e.source ((e.rejections keepGoing).map ListingError.diagnostic)

variable {keepGoing : Bool} {e : Entry}

theorem rejections_eq (keepGoing : Bool) (e : Entry) :
    e.rejections keepGoing = Listing.reported (Listing.read keepGoing e.source) := by
  rw [Listing.read_eq, rejections]
  cases Listing.rejected e.source with
  | nil => simp [Listing.reported]
  | cons first later => simp [Listing.reported]

theorem rejections_eq_nil : e.rejections keepGoing = [] ↔
    ∃ instructions, Listing.read keepGoing e.source = .ok instructions := by
  rw [Listing.read_eq, rejections]
  cases Listing.rejected e.source with
  | nil => simp
  | cons first later => cases keepGoing <;> simp

end Entry

namespace Command

open ClassText.Action

variable {keepGoing : Bool} {s : Session} {place : Location} {entries : List Entry}

/-- One listing adds its canonical text to the output, or its report to the complaints. -/
theorem canonicalizeOne_merged (hold : s.files.node? place = some (.file (.data (.text old))))
    (keepGoing : Bool) (e : Entry) :
    ∃ t, canonicalizeOne keepGoing (.merged place) e.name e.source s =
        .ok (e.rejections keepGoing).length t ∧
      Stored s.files place (.data (.text (old ++ (e.canonical? keepGoing).getD ""))) t.files ∧
      t.complaints = s.complaints ++ e.report keepGoing := by
  have hrejections := Entry.rejections_eq keepGoing e
  unfold canonicalizeOne Entry.canonical? Entry.report
  rw [hrejections]
  cases Listing.read keepGoing e.source with
  | error errors =>
    refine ⟨_, rfl, ?_, rfl⟩
    show Stored s.files place (.data (.text (old ++ ""))) s.files
    rw [String.append_empty]
    exact Files.stored_self hold
  | ok instructions =>
    refine ⟨_, rfl, ?_, (String.append_empty).symm⟩
    have htext : Output.textAt s.files place = old := by simp [Output.textAt, hold]
    show Stored s.files place _
      (s.files.write place (.data (.text (Output.textAt s.files place ++ _))))
    rw [htext]
    exact Files.stored_write (by simp [hold]) _

/-- A run over listings does so for each of them. -/
theorem eachListing_merged (hold : s.files.node? place = some (.file (.data (.text old))))
    (hsource : ∀ e ∈ entries, e.data = .text e.source) (keepGoing : Bool) :
    ∃ t, eachListing (canonicalizeOne keepGoing (.merged place)) entries s =
        .ok (entries.flatMap (Entry.rejections keepGoing)).length t ∧
      Stored s.files place
        (.data (.text (old ++ String.join (entries.filterMap (Entry.canonical? keepGoing)))))
        t.files ∧
      t.complaints = s.complaints ++ String.join (entries.map (Entry.report keepGoing)) := by
  -- for all sessions at once: the output of the first listing is the old text of the others
  induction entries generalizing s old with
  | nil =>
    refine ⟨s, rfl, ?_, String.append_empty.symm⟩
    show Stored s.files place (.data (.text (old ++ ""))) s.files
    rw [String.append_empty]
    exact Files.stored_self hold
  | cons e entries ih =>
    obtain ⟨he, hmore⟩ := List.forall_mem_cons.mp hsource
    obtain ⟨t, hfirst, hstored, hcomplaints⟩ := canonicalizeOne_merged hold keepGoing e
    obtain ⟨u, hrest, hstored', hcomplaints'⟩ := ih hstored.node hmore
    refine ⟨u, ?_, ?_, ?_⟩
    · exact (eachListing_cons he).mpr ⟨_, t, _, hfirst, hrest, by simp⟩
    · have htexts : String.join ((e :: entries).filterMap (Entry.canonical? keepGoing)) =
          (e.canonical? keepGoing).getD "" ++
            String.join (entries.filterMap (Entry.canonical? keepGoing)) := by
        cases hcanonical : e.canonical? keepGoing with
        | none => simp [List.filterMap_cons_none hcanonical]
        | some text => simp [List.filterMap_cons_some hcanonical]
      rw [htexts, ← String.append_assoc]
      exact hstored.trans hstored'
    · rw [hcomplaints', hcomplaints, String.append_assoc]
      simp

variable {files opened : Files} {input output : String}

theorem exitCode_eq_zero {p : Prop} [Decidable p] {code : UInt8}
    (h : code = if p then 0 else 1) : code = 0 ↔ p := by
  by_cases hp : p
  · simp [h, hp]
  · simp [h, hp]

/-- A run whose output is one file: what the file holds, how the run ends, and what it says. -/
theorem run_merged (houtput : Path.HasExtension output ["jasm", "j", "txt"])
    (hopen : files.openFile output = .ok (opened, place))
    (hentries : opened.listings input = .ok entries)
    (hsource : ∀ e ∈ entries, e.data = .text e.source) (keepGoing : Bool) :
    let outcome := (canonicalize input output keepGoing).run files
    let errors := entries.flatMap (Entry.rejections keepGoing)
    outcome.session.files.read output =
        .ok (.data (.text (String.join (entries.filterMap (Entry.canonical? keepGoing))))) ∧
      outcome.exitCode = (if errors = [] then 0 else 1) ∧
      outcome.session.complaints = String.join (entries.map (Entry.report keepGoing)) ++
        if errors = [] then ""
        else "Error: Finished with " ++ toString errors.length ++ " errors\n" := by
  intro outcome errors
  obtain ⟨parents, -, -, hlocate, -, hstored⟩ := Files.openFile_ok houtput.ne_empty hopen
  obtain ⟨session, hrun, hwritten, hcomplaints⟩ :=
    eachListing_merged (s := ⟨opened, "", ""⟩) hstored.node hsource keepGoing
  have houtcome : outcome = _ := run_of_eachListing rfl
    (Output.openAt_merged (s := ⟨files, "", ""⟩) houtput hopen) (fun _ => rfl) hentries hrun
  have hread : session.files.read output = _ := hwritten.read_same (hstored.locate hlocate)
  rw [String.empty_append] at hread hcomplaints
  simp only [houtcome, hread, hcomplaints, List.length_eq_zero_iff, and_self, errors]

theorem run_single (hinput : Path.HasExtension input ["jasm"])
    (houtput : Path.HasExtension output ["jasm", "j", "txt"])
    (hopen : files.openFile output = .ok (opened, place))
    (hread : opened.read input = .ok (.data (.text source))) (keepGoing : Bool) :
    let outcome := (canonicalize input output keepGoing).run files
    (outcome.exitCode = 0 ↔ ∃ instructions, Listing.read keepGoing source = .ok instructions) ∧
      ∀ instructions, Listing.read keepGoing source = .ok instructions →
        outcome.session.files.read output = .ok (.data (.text (Listing.text instructions))) := by
  intro outcome
  have hentries : opened.listings input = .ok [⟨input, .text source⟩] :=
    Files.listings_file hinput hread
  obtain ⟨hwritten, hexit, -⟩ :=
    run_merged houtput hopen hentries (by simp [Entry.source]) keepGoing
  have hnone : [(⟨input, .text source⟩ : Entry)].flatMap (Entry.rejections keepGoing) = [] ↔
      ∃ instructions, Listing.read keepGoing source = .ok instructions := by
    simp only [List.flatMap_singleton, Entry.rejections_eq_nil, Entry.source]
  refine ⟨(exitCode_eq_zero hexit).trans hnone, ?_⟩
  intro instructions hinstructions
  simpa [Entry.canonical?, Entry.source, hinstructions, Except.toOption] using hwritten

/-- A listing is written in its canonical form if it can be read. But a listing that is its own
output is emptied first, and then written as what an empty listing is. -/
theorem canonicalize_file (hinput : Path.HasExtension input ["jasm"])
    (hread : files.read input = .ok (.data (.text source)))
    (houtput : Path.HasExtension output ["jasm", "j", "txt"])
    (hopen : files.openFile output = .ok (opened, place)) (keepGoing : Bool) :
    let outcome := (canonicalize input output keepGoing).run files
    (files.locate input ≠ .ok place →
      (outcome.exitCode = 0 ↔ ∃ instructions, Listing.read keepGoing source = .ok instructions) ∧
        ∀ instructions, Listing.read keepGoing source = .ok instructions →
          outcome.session.files.read output = .ok (.data (.text (Listing.text instructions)))) ∧
      (files.locate input = .ok place →
        outcome.exitCode = 0 ∧ outcome.session.files.read output = .ok (.data (.text ""))) := by
  intro outcome
  obtain ⟨parents, -, -, -, hgrown, hstored⟩ := Files.openFile_ok houtput.ne_empty hopen
  have hemptied := hgrown.stored hstored
  constructor
  · intro hother
    exact run_single hinput houtput hopen (hemptied.read_other hread hother) keepGoing
  · intro hsame
    have hempty : Listing.read keepGoing "" = .ok [] := Listing.read_of_rejected_nil rfl
    obtain ⟨hexit, hwritten⟩ :=
      run_single hinput houtput hopen (hemptied.read_same hsame) keepGoing
    exact ⟨hexit.mpr ⟨[], hempty⟩, hwritten [] hempty⟩

/-- Another spelling of the input path is the same file, and a new directory holds another one. -/
theorem canonicalize_file_spelled :
    let files : Files := ⟨[], [(["a.jasm"], .file (.data (.text "iload 2\n")))]⟩
    let same := (canonicalize "a.jasm" "./a.jasm" false).run files
    let other := (canonicalize "a.jasm" "out/a.txt" false).run files
    Path.HasExtension "a.jasm" ["jasm"] ∧ files.read "a.jasm" = .ok (.data (.text "iload 2\n")) ∧
      Path.HasExtension "./a.jasm" ["jasm", "j", "txt"] ∧
      Path.HasExtension "out/a.txt" ["jasm", "j", "txt"] ∧
      (∃ opened, files.openFile "./a.jasm" = .ok (opened, ["a.jasm"])) ∧
      (∃ opened, files.openFile "out/a.txt" = .ok (opened, ["out", "a.txt"])) ∧
      files.locate "a.jasm" = .ok ["a.jasm"] ∧
      same.exitCode = 0 ∧ same.session.files.read "./a.jasm" = .ok (.data (.text "")) ∧
      other.exitCode = 0 ∧
      other.session.files.read "out/a.txt" = .ok (.data (.text "    iload_2\n")) := by
  intro files same other
  have hinput : Path.HasExtension "a.jasm" ["jasm"] := ⟨"jasm", by decide, by decide +kernel⟩
  have hread : files.read "a.jasm" = .ok (.data (.text "iload 2\n")) := rfl
  have hsame : Path.HasExtension "./a.jasm" ["jasm", "j", "txt"] :=
    ⟨"jasm", by decide, by decide +kernel⟩
  have hother : Path.HasExtension "out/a.txt" ["jasm", "j", "txt"] :=
    ⟨"txt", by decide, by decide +kernel⟩
  obtain ⟨opened, hopen⟩ : ∃ opened, files.openFile "./a.jasm" = .ok (opened, ["a.jasm"]) :=
    ⟨_, rfl⟩
  obtain ⟨opened', hopen'⟩ :
      ∃ opened, files.openFile "out/a.txt" = .ok (opened, ["out", "a.txt"]) := ⟨_, rfl⟩
  have hplace : files.locate "a.jasm" = .ok ["a.jasm"] := rfl
  have hlisting : Listing.read false "iload 2\n" = .ok [.load 2 .int] :=
    Descriptor.toOption_eq_some.mp (by decide +kernel)
  obtain ⟨-, hemptied⟩ := canonicalize_file hinput hread hsame hopen false
  obtain ⟨hwritten, -⟩ := canonicalize_file hinput hread hother hopen' false
  obtain ⟨hexit, htext⟩ := hwritten (by simp [hplace])
  obtain ⟨hexit', htext'⟩ := hemptied hplace
  exact ⟨hinput, hread, hsame, hother, ⟨opened, hopen⟩, ⟨opened', hopen'⟩, hplace, hexit', htext',
    hexit.mpr ⟨_, hlisting⟩, htext _ hlisting⟩

/-- A listing that is canonicalized in place is lost, and the run ends well. -/
theorem canonicalize_file_lost : ∃ files source instructions,
    files.read "a.jasm" = .ok (.data (.text source)) ∧
      Listing.read false source = .ok instructions ∧
      ((canonicalize "a.jasm" "a.jasm" false).run files).exitCode = 0 ∧
      ((canonicalize "a.jasm" "a.jasm" false).run files).session.files.read "a.jasm" ≠
        .ok (.data (.text (Listing.text instructions))) := by
  let files : Files := ⟨[], [(["a.jasm"], .file (.data (.text "iload_0\n")))]⟩
  have hlisting : Listing.read false "iload_0\n" = .ok [.load 0 .int] :=
    Descriptor.toOption_eq_some.mp (by decide +kernel)
  have hwritten : (((canonicalize "a.jasm" "a.jasm" false).run files).session.files.read
      "a.jasm").toOption ≠ some (.data (.text (Listing.text [.load 0 .int]))) := by
    decide +kernel
  refine ⟨files, "iload_0\n", _, rfl, hlisting, by decide +kernel, ?_⟩
  intro heq
  exact hwritten (Descriptor.toOption_eq_some.mpr heq)

end Command

end ClassText
