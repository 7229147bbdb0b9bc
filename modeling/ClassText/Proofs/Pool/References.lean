import ClassText.Proofs.Pool.Listing

/-!
# The listing of a pool is complete

`listing_complete`: whatever was done with a pool, its listing has one line for each constant,
with the position that adding the constant gave as its number. A constant that refers to others
is written with references alone, each to a line further up that defines the constant meant.

No text is spelled out because a well-formed pool has the parts of each entry before it.
-/

namespace ClassText

/-- The word that a definition starts with. -/
def Constant.kind : Constant → String
  | .null => "Null"
  | .utf8 _ => "Utf8"
  | .int _ => "Int"
  | .float _ => "Float"
  | .long _ => "Long"
  | .double _ => "Double"
  | .class _ => "Class"
  | .string _ => "String"
  | .nameAndType .. => "NameAndType"
  | .field .. => "Field"
  | .method .. => "Method"
  | .interfaceMethod .. => "InterfaceMethod"

namespace Pool

variable {pool : Pool} {c : Constant} {n : Nat}

/-- A pool has a constant at a position, adding it gives that position, and the line with that
number among the given ones defines it. -/
structure Lists (pool : Pool) (rows : List String) (n : Nat) (c : Constant) : Prop where
  pos : 1 ≤ n
  entry : pool.entries[n]? = some c
  located : pool.locate c = (pool, n)
  row : rows[n - 1]? = some (reference n ++ "\t" ++ pool.definition c)

/-- The definition of a constant consists of references to the lines of its parts, all of them
before the line with the given number. -/
def RefersBack (pool : Pool) (rows : List String) (n : Nat) (c : Constant) : Prop :=
  ∃ number : Constant → Nat,
    (∀ part ∈ c.parts, number part < n ∧ pool.Lists rows (number part) part) ∧
    pool.definition c =
      c.kind ++ String.join (c.parts.map fun part => " " ++ reference (number part))

theorem parts_ne_null {part : Constant} (h : part ∈ c.parts) : part ≠ .null := by
  rintro rfl
  cases c <;> simp [Constant.parts] at h

theorem WellFormed.lists (h : pool.WellFormed) (hpos : 1 ≤ n) (hentry : pool.entries[n]? = some c) :
    pool.Lists pool.rows n c :=
  ⟨hpos, hentry, locate_known ((h.index c n).mpr ⟨hpos, hentry⟩), getElem?_rows h hpos hentry⟩

theorem memberText_eq_references (kind : String) {owner name descriptor : String}
    {number : Constant → Nat}
    (hnumber : ∀ part ∈ [Constant.class owner, .nameAndType name descriptor], ∀ inline,
      pool.referenceOr part inline = reference (number part)) :
    pool.memberText kind owner name descriptor = kind ++ String.join
      ([Constant.class owner, .nameAndType name descriptor].map fun part =>
        " " ++ reference (number part)) := by
  rw [memberText, classText, nameAndTypeText, hnumber _ (by simp), hnumber _ (by simp)]
  simp [← String.toList_inj]

/-- A constant with parts is written as its kind and what stands for its parts. -/
theorem definition_eq_references (hparts : c.parts ≠ []) {number : Constant → Nat}
    (hnumber : ∀ part ∈ c.parts, ∀ inline,
      pool.referenceOr part inline = reference (number part)) :
    pool.definition c =
      c.kind ++ String.join (c.parts.map fun part => " " ++ reference (number part)) := by
  cases c with
  | «class» name | string text =>
    rw [definition, utf8Text, hnumber _ (by simp [Constant.parts])]
    simp [Constant.kind, Constant.parts, ← String.toList_inj]
  | nameAndType name descriptor =>
    rw [definition, utf8Text, utf8Text, hnumber _ (by simp [Constant.parts]),
      hnumber _ (by simp [Constant.parts])]
    simp [Constant.kind, Constant.parts, ← String.toList_inj]
  | field owner name descriptor => exact memberText_eq_references "Field" hnumber
  | method owner name descriptor => exact memberText_eq_references "Method" hnumber
  | interfaceMethod owner name descriptor =>
    exact memberText_eq_references "InterfaceMethod" hnumber
  | _ => exact absurd rfl hparts

theorem WellFormed.refersBack (h : pool.WellFormed) (hentry : pool.entries[n]? = some c)
    (hparts : c.parts ≠ []) : pool.RefersBack pool.rows n c := by
  have hearlier : ∀ part ∈ c.parts, (pool.locate part).2 < n ∧
      pool.Lists pool.rows (pool.locate part).2 part := by
    intro part hpart
    obtain ⟨earlier, hlt, hearlier⟩ := h.parts c n hentry part hpart
    have hlists := h.lists (h.position_pos (parts_ne_null hpart) hearlier) hearlier
    rw [hlists.located]
    exact ⟨hlt, hlists⟩
  refine ⟨fun part => (pool.locate part).2, hearlier, definition_eq_references hparts ?_⟩
  intro part hpart inline
  obtain ⟨-, hpos, hpartEntry, -⟩ := hearlier part hpart
  exact referenceOr_eq h ((h.index part _).mpr ⟨hpos, hpartEntry⟩) inline

theorem WellFormed.exists_entry (h : pool.WellFormed) (hle : n ≤ pool.size) :
    ∃ c, pool.entries[n]? = some c := by
  obtain ⟨constants, hentries, -, hnumbered⟩ := h.numbered_eq
  have hsize : pool.size = constants.length := by
    rw [← length_rows, rows, List.length_map, hnumbered, List.length_zipIdx]
  have hlt : n < pool.entries.length := by
    rw [hentries, List.length_cons]
    omega
  exact ⟨_, List.getElem?_eq_getElem hlt⟩

/-- The listing of a pool, after whatever was done with it, has as many lines as the pool has
constants. Each line defines the entry of its number, and refers to its parts by the numbers of
earlier lines. A constant that was added at any time is listed under the number that adding it
gave. -/
theorem listing_complete (steps : List Step) :
    let pool := empty.run steps
    ∃ rows : List String,
      pool.listing = String.join (rows.map (· ++ "\n")) ∧ (∀ row ∈ rows, '\n' ∉ row.toList) ∧
      rows.length = pool.size ∧
      (∀ n, 1 ≤ n → n ≤ pool.size → ∃ c, pool.Lists rows n c ∧
        (c.parts ≠ [] → pool.RefersBack rows n c)) ∧
      ∀ earlier c later, ((empty.run earlier).add c).run later = pool → c ≠ .null →
        pool.Lists rows ((empty.run earlier).locate c).2 c := by
  intro pool
  have hpool : pool.WellFormed := (run_extends steps wellFormed_empty).wellFormed
  refine ⟨pool.rows, listing_eq pool, fun _ => newline_not_mem_rows, length_rows pool, ?_, ?_⟩
  · intro n hpos hle
    obtain ⟨c, hentry⟩ := hpool.exists_entry hle
    exact ⟨c, hpool.lists hpos hentry, hpool.refersBack hentry⟩
  · intro earlier c later hlater hnull
    -- adding `c` puts it at its number, and no later step moves an entry
    have hearlier := (run_extends earlier wellFormed_empty).wellFormed
    obtain ⟨hgrown, hentry⟩ := locate_located c hearlier
    have hkept := (run_extends later hgrown.wellFormed).entries
    have hentry := getElem?_of_start hkept hentry
    rw [← add, hlater] at hentry
    exact hpool.lists (hpool.position_pos hnull hentry) hentry

end Pool

end ClassText
