import ClassText.Line.Token

/-!
# What tokens are made of

A token is whole: it is not empty, and each blank in it stands in a quoted stretch. The
scanner cuts a whole text out as one token, at the end of a line (`scanFrom_whole`) and,
where no quote is open at its end, before a blank (`scanFrom_whole_blank`).
-/

namespace ClassText.Token

variable {start : Nat} {place : Place}

/-- Whether every blank of a text stands in a quoted stretch, if one is open before it or not. -/
def unbroken (quoted : Bool) : List Char → Bool
  | [] => true
  | c :: cs => (quoted || !isBlank c) && unbroken (quoted != (c == '"')) cs

/-- Whether a quoted stretch is open after a text. -/
def endsQuoted (quoted : Bool) : List Char → Bool
  | [] => quoted
  | c :: cs => endsQuoted (quoted != (c == '"')) cs

def Whole (cs : List Char) : Prop := cs ≠ [] ∧ unbroken false cs = true

def plain (cs : List Char) : Bool := cs.all fun c => !isBlank c && c != '"'

-- ---------------------------------------------------------------------------
-- Unbroken texts
-- ---------------------------------------------------------------------------

theorem unbroken_append :
    unbroken quoted (cs ++ ds) = (unbroken quoted cs && unbroken (endsQuoted quoted cs) ds) := by
  induction cs generalizing quoted with
  | nil => simp [unbroken, endsQuoted]
  | cons c cs ih => simp [unbroken, endsQuoted, ih, Bool.and_assoc]

theorem unbroken_filter (hp : ∀ c, p c = false → isBlank c = false ∧ (c == '"') = false) :
    unbroken quoted (cs.filter p) = unbroken quoted cs := by
  induction cs generalizing quoted with
  | nil => rfl
  | cons c cs ih =>
    cases hc : p c with
    | true => rw [List.filter_cons_of_pos hc, unbroken, unbroken, ih]
    | false =>
      obtain ⟨hblank, hquote⟩ := hp c hc
      rw [List.filter_cons_of_neg (by simp [hc]), unbroken, ih, hblank, hquote, Bool.bne_false,
        Bool.not_false, Bool.or_true, Bool.true_and]

theorem unbroken_of_plain (h : plain cs = true) : unbroken quoted cs = true := by
  induction cs generalizing quoted with
  | nil => rfl
  | cons c cs ih =>
    simp only [plain, List.all_cons, Bool.and_eq_true] at h
    rw [unbroken, h.1.1, ih h.2, Bool.or_true, Bool.and_self]

theorem endsQuoted_of_plain (h : plain cs = true) : endsQuoted quoted cs = quoted := by
  induction cs generalizing quoted with
  | nil => rfl
  | cons c cs ih =>
    simp only [plain, List.all_cons, Bool.and_eq_true] at h
    have hquote : (c == '"') = false := by simpa using h.1.2
    rw [endsQuoted, hquote, Bool.bne_false, ih h.2]

-- ---------------------------------------------------------------------------
-- Places
-- ---------------------------------------------------------------------------

def Place.isQuoted (place : Place) : Bool := place = .quoted

@[simp] theorem Place.isQuoted_between : Place.between.isQuoted = false := rfl

@[simp] theorem Place.isQuoted_after (place : Place) (c : Char) :
    (place.after c).isQuoted = (place.isQuoted != (c == '"')) := by
  by_cases h : c = '"' <;> cases place <;> simp [isQuoted, after, h]

theorem Place.after_ne_between (place : Place) (c : Char) : place.after c ≠ .between := by
  by_cases h : c = '"' <;> cases place <;> simp [after, h]

theorem scanFrom_blank (hb : isBlank b = true) (hp : place.isQuoted = false) :
    scanFrom start place (b :: cs) = ([], (scanFrom (start + b.utf8Size) .between cs).2) := by
  have hne : place ≠ .quoted := by simpa [Place.isQuoted] using hp
  rw [scanFrom, if_pos ⟨hb, hne⟩]

theorem scanFrom_start (hc : isBlank c = false) : scanFrom start .between (c :: cs) =
    let (ds, tokens) := scanFrom (start + c.utf8Size) (Place.between.after c) cs
    ([], ⟨String.ofList (c :: ds), start⟩ :: tokens) := by
  simp [scanFrom, hc]

theorem scanFrom_inside (hc : (place.isQuoted || !isBlank c) = true) (hp : place ≠ .between) :
    scanFrom start place (c :: cs) =
      let (ds, tokens) := scanFrom (start + c.utf8Size) (place.after c) cs
      (c :: ds, tokens) := by
  have hgo : ¬(isBlank c = true ∧ place ≠ .quoted) := by
    rintro ⟨hb, hne⟩
    simp [hb, Place.isQuoted, hne] at hc
  rw [scanFrom, if_neg hgo]
  simp [hp]

theorem scanFrom_blanks (h : blanks.all isBlank = true) (start : Nat) (cs : List Char) :
    (scanFrom start .between (blanks ++ cs)).2 =
      (scanFrom (start + byteSize blanks) .between cs).2 := by
  induction blanks generalizing start with
  | nil => rfl
  | cons b blanks ih =>
    rw [List.all_cons, Bool.and_eq_true] at h
    rw [List.cons_append, scanFrom_blank h.1 Place.isQuoted_between, ih h.2, byteSize_cons,
      Nat.add_assoc]

/-- A text has no tokens if and only if it is blank. -/
theorem scanFrom_eq_nil_iff :
    (scanFrom start .between cs).2 = [] ↔ cs.all isBlank = true := by
  induction cs generalizing start with
  | nil => simp [scanFrom]
  | cons c cs ih =>
    cases hc : isBlank c with
    | true => rw [scanFrom_blank hc Place.isQuoted_between, ih, List.all_cons, hc, Bool.true_and]
    | false => simp [scanFrom_start hc, hc]

-- ---------------------------------------------------------------------------
-- What is whole is scanned as one token
-- ---------------------------------------------------------------------------

theorem scanFrom_unbroken (hp : place ≠ .between) (h : unbroken place.isQuoted cs = true) :
    scanFrom start place cs = (cs, []) := by
  induction cs generalizing start place with
  | nil => rfl
  | cons c cs ih =>
    rw [unbroken, Bool.and_eq_true] at h
    rw [scanFrom_inside h.1 hp, ih (place.after_ne_between c) (by simpa using h.2)]

theorem scanFrom_unbroken_blank (hp : place ≠ .between) (h : unbroken place.isQuoted cs = true)
    (hend : endsQuoted place.isQuoted cs = false) (hb : isBlank b = true) :
    scanFrom start place (cs ++ b :: ds) =
      (cs, (scanFrom (start + byteSize cs + b.utf8Size) .between ds).2) := by
  induction cs generalizing start place with
  | nil => rw [List.nil_append, scanFrom_blank hb hend]; rfl
  | cons c cs ih =>
    rw [unbroken, Bool.and_eq_true] at h
    rw [endsQuoted, ← Place.isQuoted_after] at hend
    rw [List.cons_append, scanFrom_inside h.1 hp,
      ih (place.after_ne_between c) (by simpa using h.2) hend, byteSize_cons, ← Nat.add_assoc]

theorem scanFrom_whole (h : Whole cs) :
    (scanFrom start .between cs).2 = [⟨String.ofList cs, start⟩] := by
  obtain ⟨hne, h⟩ := h
  obtain ⟨c, cs, rfl⟩ := List.exists_cons_of_ne_nil hne
  rw [unbroken, Bool.and_eq_true] at h
  rw [scanFrom_start (by simpa using h.1),
    scanFrom_unbroken (Place.after_ne_between _ c) (by simpa using h.2)]

theorem scanFrom_whole_blank (h : Whole cs) (hend : endsQuoted false cs = false)
    (hb : isBlank b = true) :
    (scanFrom start .between (cs ++ b :: ds)).2 = ⟨String.ofList cs, start⟩ ::
      (scanFrom (start + byteSize cs + b.utf8Size) .between ds).2 := by
  obtain ⟨hne, h⟩ := h
  obtain ⟨c, cs, rfl⟩ := List.exists_cons_of_ne_nil hne
  rw [unbroken, Bool.and_eq_true] at h
  rw [endsQuoted] at hend
  rw [List.cons_append, scanFrom_start (by simpa using h.1),
    scanFrom_unbroken_blank (Place.after_ne_between _ c) (by simpa using h.2)
      (by simpa using hend) hb, byteSize_cons, ← Nat.add_assoc]

theorem scanFrom_whole_blanks (h : Whole cs) (hend : endsQuoted false cs = false)
    (hblanks : blanks.all isBlank = true) :
    (scanFrom start .between (cs ++ blanks)).2 = [⟨String.ofList cs, start⟩] := by
  cases blanks with
  | nil => rw [List.append_nil, scanFrom_whole h]
  | cons b blanks =>
    rw [List.all_cons, Bool.and_eq_true] at hblanks
    rw [scanFrom_whole_blank h hend hblanks.1, scanFrom_eq_nil_iff.mpr hblanks.2]

end ClassText.Token
