import ClassText.ClassFile.Basic

/-!
# Constant pools are well formed

`locate_located`: adding a constant to a well-formed pool appends entries that the constant
needs and nothing else, the constant being one of them or there already. What is appended
for the parts of a constant is not the constant itself, as references only go down
(`Needs.depth_le`); so the position that is taken after the parts were added is the right
one. `run_wellFormed` carries this through all that can be done with a pool.
-/

namespace ClassText

/-- A constant needs itself and what its parts need. -/
inductive Constant.Needs : Constant → Constant → Prop
  | self : Needs c c
  | part (hpart : part ∈ c.parts) (hneeds : Needs part d) : Needs c d

theorem Constant.Needs.depth_le (h : Constant.Needs c d) : d.depth ≤ c.depth := by
  induction h with
  | self => exact Nat.le_refl _
  | part hpart _ ih => exact Nat.le_trans ih (Nat.le_of_lt (depth_of_mem_parts hpart))

namespace Pool

/-- The entries and the index of a pool agree, and each entry comes after its parts. -/
structure WellFormed (pool : Pool) : Prop where
  null : ∃ constants, pool.entries = .null :: constants ∧ .null ∉ constants
  nodup : pool.entries.Nodup
  index : ∀ c position, pool.position? c = some position ↔
    1 ≤ position ∧ pool.entries[position]? = some c
  parts : ∀ (c : Constant) (position : Nat), pool.entries[position]? = some c →
    ∀ part ∈ c.parts, ∃ earlier < position, pool.entries[earlier]? = some part

/-- A pool after some operations: well formed, with the old entries in their places, and with
new entries only where they are needed. -/
structure Extends (needed : Constant → Prop) (pool pool' : Pool) : Prop where
  wellFormed : pool'.WellFormed
  entries : pool.entries <+: pool'.entries
  new : ∀ c ∈ pool'.entries, c ∈ pool.entries ∨ needed c

variable {pool pool' pool'' later : Pool} {c : Constant} {position : Nat}

theorem wellFormed_empty : empty.WellFormed := by
  refine ⟨⟨[], rfl, List.not_mem_nil⟩, by simp [empty], ?_, ?_⟩
  · intro c position
    constructor
    · intro h
      cases h
    · rintro ⟨hpos, hentry⟩
      simp [empty, Nat.ne_of_gt hpos] at hentry
  · intro c position hentry part hpart
    obtain rfl : c = .null := by
      have hmem := List.mem_of_getElem? hentry
      simpa [empty] using hmem
    cases hpart

-- ---------------------------------------------------------------------------
-- Positions
-- ---------------------------------------------------------------------------

theorem WellFormed.entries_zero (h : pool.WellFormed) : pool.entries[0]? = some .null := by
  obtain ⟨constants, hentries, -⟩ := h.null
  rw [hentries]
  rfl

theorem WellFormed.position_pos (h : pool.WellFormed) (hc : c ≠ .null)
    (hentry : pool.entries[position]? = some c) : 1 ≤ position := by
  cases position with
  | zero =>
    rw [h.entries_zero] at hentry
    exact absurd (Option.some.inj hentry).symm hc
  | succ n => exact Nat.succ_le_succ (Nat.zero_le n)

theorem WellFormed.position?_of_mem (h : pool.WellFormed) (hc : c ≠ .null)
    (hmem : c ∈ pool.entries) : ∃ position, pool.position? c = some position := by
  obtain ⟨position, hentry⟩ := List.mem_iff_getElem?.mp hmem
  exact ⟨position, (h.index c position).mpr ⟨h.position_pos hc hentry, hentry⟩⟩

theorem WellFormed.position?_null (h : pool.WellFormed) : pool.position? .null = none := by
  obtain ⟨constants, hentries, hnull⟩ := h.null
  cases hposition : pool.position? .null with
  | none => rfl
  | some position =>
    obtain ⟨hpos, hentry⟩ := (h.index _ _).mp hposition
    obtain ⟨n, rfl⟩ := Nat.exists_eq_add_of_le' hpos
    rw [hentries, List.getElem?_cons_succ] at hentry
    exact absurd (List.mem_of_getElem? hentry) hnull

theorem getElem?_of_start {xs ys : List α} {i : Nat} (h : xs <+: ys) (hx : xs[i]? = some x) :
    ys[i]? = some x := by
  obtain ⟨more, rfl⟩ := h
  obtain ⟨hi, -⟩ := List.getElem?_eq_some_iff.mp hx
  rw [List.getElem?_append_left hi, hx]

theorem Extends.position? (h : Extends needed pool pool') (hpool : pool.WellFormed)
    (hposition : pool.position? c = some position) : pool'.position? c = some position := by
  obtain ⟨hpos, hentry⟩ := (hpool.index c position).mp hposition
  exact (h.wellFormed.index c position).mpr ⟨hpos, getElem?_of_start h.entries hentry⟩

theorem Extends.refl (h : pool.WellFormed) : Extends needed pool pool :=
  ⟨h, List.prefix_refl _, fun _ hc => .inl hc⟩

theorem Extends.trans (h : Extends needed pool pool') (h' : Extends needed pool' pool'') :
    Extends needed pool pool'' := by
  refine ⟨h'.wellFormed, h.entries.trans h'.entries, fun c hc => ?_⟩
  rcases h'.new c hc with hold | hneeded
  · exact h.new c hold
  · exact .inr hneeded

theorem Extends.mono (h : Extends needed pool pool') (himp : ∀ c, needed c → needed' c) :
    Extends needed' pool pool' := by
  refine ⟨h.wellFormed, h.entries, fun c hc => ?_⟩
  rcases h.new c hc with hold | hneeded
  · exact .inl hold
  · exact .inr (himp c hneeded)

-- ---------------------------------------------------------------------------
-- One constant
-- ---------------------------------------------------------------------------

theorem locate_known (h : pool.position? c = some position) : pool.locate c = (pool, position) := by
  rw [locate, h]

theorem locate_new (h : pool.position? c = none) (hc : c ≠ .null) : pool.locate c =
    ((pool.addAll c.parts).append c, (pool.addAll c.parts).entries.length) := by
  have hfold : c.parts.attach.foldl (fun pool part => (pool.locate part.1).1) pool =
      pool.addAll c.parts := List.foldl_attach (f := add)
  rw [locate, h]
  simp only [if_neg hc, hfold]

theorem position?_append : (pool.append c).position? d =
    if d = c then some pool.entries.length else pool.position? d := by
  unfold position? append
  by_cases hd : d = c
  · simp [hd]
  · have hne : (d == c) = false := beq_eq_false_iff_ne.mpr hd
    simp [hd, hne, List.lookup_cons]

/-- The entries after the step: the old ones, and the new one at the end. -/
theorem getElem?_append_iff : (pool.append c).entries[position]? = some d ↔
    pool.entries[position]? = some d ∨ position = pool.entries.length ∧ d = c := by
  rw [append]
  rcases Nat.lt_trichotomy position pool.entries.length with hlt | rfl | hgt
  · rw [List.getElem?_append_left hlt]
    constructor
    · exact .inl
    · rintro (hold | ⟨rfl, -⟩)
      · exact hold
      · exact absurd hlt (Nat.lt_irrefl _)
  · simp [eq_comm]
  · have hnone : ∀ xs : List Constant, xs.length ≤ pool.entries.length + 1 →
        xs[position]? ≠ some d := by
      intro xs hlength hsome
      have hbound := (List.getElem?_eq_some_iff.mp hsome).1
      omega
    constructor
    · intro h
      exact absurd h (hnone _ (by simp))
    · rintro (hold | ⟨rfl, -⟩)
      · exact absurd hold (hnone _ (Nat.le_succ _))
      · exact absurd hgt (Nat.lt_irrefl _)

theorem WellFormed.append (h : pool.WellFormed) (hc : c ≠ .null) (hnew : c ∉ pool.entries)
    (hparts : ∀ part ∈ c.parts, part ∈ pool.entries) : (pool.append c).WellFormed := by
  obtain ⟨constants, hentries, hnull⟩ := h.null
  refine ⟨⟨constants ++ [c], ?_, ?_⟩, ?_, ?_, ?_⟩
  · rw [Pool.append, hentries, List.cons_append]
  · simp [hnull, Ne.symm hc]
  · refine List.nodup_append.mpr ⟨h.nodup, by simp, ?_⟩
    rintro d hd e he rfl
    exact hnew (List.mem_singleton.mp he ▸ hd)
  · intro d n
    rw [position?_append, getElem?_append_iff]
    split
    · rename_i hdc
      subst hdc
      constructor
      · intro hn
        cases hn
        exact ⟨by simp [hentries], .inr ⟨rfl, rfl⟩⟩
      · rintro ⟨-, hd | ⟨rfl, -⟩⟩
        · exact absurd (List.mem_of_getElem? hd) hnew
        · rfl
    · rename_i hdc
      rw [h.index]
      simp [hdc]
  · intro d n hd part hpart
    rcases getElem?_append_iff.mp hd with hd | ⟨rfl, rfl⟩
    · obtain ⟨earlier, hlt, hearlier⟩ := h.parts d n hd part hpart
      exact ⟨earlier, hlt, getElem?_append_iff.mpr (.inl hearlier)⟩
    · obtain ⟨earlier, hearlier⟩ := List.mem_iff_getElem?.mp (hparts part hpart)
      exact ⟨earlier, (List.getElem?_eq_some_iff.mp hearlier).1,
        getElem?_append_iff.mpr (.inl hearlier)⟩

structure Located (pool : Pool) (c : Constant) : Prop where
  grown : Extends c.Needs pool (pool.locate c).1
  entry : (pool.locate c).1.entries[(pool.locate c).2]? = some c

theorem addAll_of_located {cs : List Constant}
    (hlocate : ∀ c ∈ cs, ∀ pool : Pool, pool.WellFormed → Located pool c) (h : pool.WellFormed) :
    Extends (fun d => ∃ c ∈ cs, c.Needs d) pool (pool.addAll cs) ∧
      ∀ c ∈ cs, c ∈ (pool.addAll cs).entries := by
  induction cs generalizing pool with
  | nil => exact ⟨.refl h, by simp⟩
  | cons c cs ih =>
    obtain ⟨hlocated, hlater⟩ := List.forall_mem_cons.mp hlocate
    obtain ⟨hextends, hentry⟩ := hlocated pool h
    obtain ⟨hmore, hmem⟩ := ih hlater hextends.wellFormed
    refine ⟨(hextends.mono ?_).trans (hmore.mono ?_), List.forall_mem_cons.mpr ⟨?_, hmem⟩⟩
    · intro d hd
      exact ⟨c, List.mem_cons_self, hd⟩
    · rintro d ⟨e, he, hd⟩
      exact ⟨e, List.mem_cons_of_mem _ he, hd⟩
    · exact List.mem_of_getElem? (getElem?_of_start hmore.entries hentry)

theorem locate_null (h : pool.WellFormed) : pool.locate .null = (pool, 0) := by
  rw [locate, h.position?_null]
  rfl

theorem located_null (h : pool.WellFormed) : Located pool .null := by
  constructor
  · rw [locate_null h]
    exact .refl h
  · rw [locate_null h]
    exact h.entries_zero

theorem located_known (h : pool.WellFormed) (hposition : pool.position? c = some position) :
    Located pool c := by
  have hlocate := locate_known hposition
  constructor
  · rw [hlocate]
    exact .refl h
  · rw [hlocate]
    exact ((h.index c position).mp hposition).2

theorem located_new (h : pool.WellFormed) (hposition : pool.position? c = none) (hc : c ≠ .null)
    (hparts : ∀ part ∈ c.parts, ∀ pool : Pool, pool.WellFormed → Located pool part) :
    Located pool c := by
  obtain ⟨hextends, hmem⟩ := addAll_of_located hparts h
  -- the parts do not bring in the constant itself
  have hnew : c ∉ (pool.addAll c.parts).entries := by
    intro hcmem
    rcases hextends.new c hcmem with hold | ⟨part, hpart, hneeds⟩
    · obtain ⟨position, hknown⟩ := h.position?_of_mem hc hold
      rw [hposition] at hknown
      cases hknown
    · exact absurd hneeds.depth_le (Nat.not_le_of_lt (Constant.depth_of_mem_parts hpart))
  have hlocate := locate_new hposition hc
  constructor
  · rw [hlocate]
    refine ⟨hextends.wellFormed.append hc hnew hmem,
      hextends.entries.trans (List.prefix_append _ _), fun d hd => ?_⟩
    rcases List.mem_append.mp hd with hd | hd
    · rcases hextends.new d hd with hold | ⟨part, hpart, hneeds⟩
      · exact .inl hold
      · exact .inr (.part hpart hneeds)
    · rw [List.mem_singleton.mp hd]
      exact .inr .self
  · rw [hlocate]
    exact getElem?_append_iff.mpr (.inr ⟨rfl, rfl⟩)

/-- Adding a constant, by induction on the depth of its references. -/
theorem locate_located (c : Constant) (h : pool.WellFormed) : Located pool c := by
  induction hdepth : c.depth using Nat.strongRecOn generalizing pool c with
  | ind depth ih =>
    cases hposition : pool.position? c with
    | some position => exact located_known h hposition
    | none =>
      by_cases hc : c = .null
      · subst hc
        exact located_null h
      · refine located_new h hposition hc fun part hpart pool hpool => ?_
        exact ih part.depth (hdepth ▸ Constant.depth_of_mem_parts hpart) part hpool rfl

theorem locate_position (h : pool.WellFormed) (hc : c ≠ .null) :
    (pool.locate c).1.position? c = some (pool.locate c).2 := by
  obtain ⟨hgrown, hentry⟩ := locate_located c h
  exact (hgrown.wellFormed.index c _).mpr ⟨hgrown.wellFormed.position_pos hc hentry, hentry⟩

/-- A constant that was added has its position for good. -/
theorem locate_again (h : pool.WellFormed) (hlater : Extends needed (pool.locate c).1 later) :
    later.locate c = (later, (pool.locate c).2) := by
  by_cases hc : c = .null
  · subst hc
    rw [locate_null h, locate_null hlater.wellFormed]
  · have hgrown := (locate_located c h).grown
    exact locate_known (hlater.position? hgrown.wellFormed (locate_position h hc))

/-- Of two constants that are added, whatever is done in between, the positions are the same if
and only if the constants are. -/
theorem locate_eq_iff (h : pool.WellFormed) (hlater : Extends needed (pool.locate c).1 later) :
    (later.locate d).2 = (pool.locate c).2 ↔ c = d := by
  constructor
  · intro hposition
    have hentry := (locate_located d hlater.wellFormed).entry
    have hstart := hlater.entries.trans (locate_located d hlater.wellFormed).grown.entries
    have hkept := getElem?_of_start hstart (locate_located c h).entry
    rw [hposition, hkept] at hentry
    exact Option.some.inj hentry
  · rintro rfl
    rw [locate_again h hlater]

-- ---------------------------------------------------------------------------
-- Runs
-- ---------------------------------------------------------------------------

theorem addAll_extends (cs : List Constant) (h : pool.WellFormed) :
    Extends (fun d => ∃ c ∈ cs, c.Needs d) pool (pool.addAll cs) ∧
      ∀ c ∈ cs, c ∈ (pool.addAll cs).entries :=
  addAll_of_located (fun c _ _ hpool => locate_located c hpool) h

theorem addAll_eq_self {cs : List Constant} (h : pool.WellFormed)
    (hcs : ∀ c ∈ cs, c ∈ pool.entries) : pool.addAll cs = pool := by
  induction cs with
  | nil => rfl
  | cons c cs ih =>
    obtain ⟨hc, hcs⟩ := List.forall_mem_cons.mp hcs
    have hadd : pool.add c = pool := by
      by_cases hnull : c = .null
      · rw [add, hnull, locate_null h]
      · obtain ⟨position, hposition⟩ := h.position?_of_mem hnull hc
        rw [add, locate_known hposition]
    have hmore : (pool.add c).addAll cs = pool := by rw [hadd, ih hcs]
    exact hmore

inductive Step where
  | add (c : Constant)
  | utf8 (text : String)
  | class (name : String)
  | attribute (a : Attribute)
  | fill (c : ClassFile)

def Step.run (pool : Pool) : Step → Pool
  | .add c => pool.add c
  | .utf8 text => pool.add (.utf8 text)
  | .class name => pool.add (.class name)
  | .attribute a => pool.addAll a.constants
  | .fill c => { c with pool := pool }.fillPool.pool

def run (pool : Pool) (steps : List Step) : Pool :=
  steps.foldl Step.run pool

def Step.added : Step → List Constant
  | .add c => [c]
  | .utf8 text => [.utf8 text]
  | .class name => [.class name]
  | .attribute a => a.constants
  | .fill c => c.constants

theorem Step.run_eq_addAll (step : Step) : step.run pool = pool.addAll step.added := by
  cases step <;> rfl

/-- Whatever is done with a pool, it grows by what the added constants need. -/
theorem run_extends (steps : List Step) (h : pool.WellFormed) :
    Extends (fun d => ∃ step ∈ steps, ∃ c ∈ step.added, c.Needs d) pool (pool.run steps) := by
  induction steps generalizing pool with
  | nil => exact .refl h
  | cons step steps ih =>
    have hstep := (addAll_extends step.added h).1
    rw [← step.run_eq_addAll] at hstep
    refine (hstep.mono ?_).trans ((ih hstep.wellFormed).mono ?_)
    · intro d hd
      exact ⟨step, List.mem_cons_self, hd⟩
    · rintro d ⟨later, hlater, hd⟩
      exact ⟨later, List.mem_cons_of_mem _ hlater, hd⟩

/-- A pool that is filled from nothing is well formed, whatever is done with it. Adding a
constant keeps all entries in their places and gives the position of the constant, which stays
the same whatever is done after it. -/
theorem run_wellFormed (steps : List Step) :
    let pool := empty.run steps
    pool.WellFormed ∧ pool.locate .null = (pool, 0) ∧ ∀ c,
      let result := pool.locate c
      pool.entries <+: result.1.entries ∧ result.1.entries[result.2]? = some c ∧
        ∀ later, (result.1.run later).locate c = (result.1.run later, result.2) := by
  intro pool
  have hpool : pool.WellFormed := (run_extends steps wellFormed_empty).wellFormed
  refine ⟨hpool, locate_null hpool, fun c => ?_⟩
  intro result
  obtain ⟨hgrown, hentry⟩ := locate_located c hpool
  refine ⟨hgrown.entries, hentry, fun later => ?_⟩
  exact locate_again hpool (run_extends later hgrown.wellFormed)

end Pool

end ClassText
