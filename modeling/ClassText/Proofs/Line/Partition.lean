import ClassText.Proofs.Line.Token

/-!
# Tokens partition their line

`Partition` says how a line consists of its tokens and the blanks around them, with no
account of how it is scanned: a blank belongs to a token if and only if the token has an odd
number of quotes before it. `scan_eq_iff`: this is what the scanner finds.
So the scanner cuts out whole tokens only (`whole_of_mem_scan`), each of them a slice of its
line. `exists_spaced`: a line has only to hold the same tokens, with blanks between them, for
the scanner to find them again.
-/

namespace ClassText.Token

-- ---------------------------------------------------------------------------
-- Quotes counted
-- ---------------------------------------------------------------------------

theorem endsQuoted_eq (quoted : Bool) (cs : List Char) :
    endsQuoted quoted cs = (quoted != decide (cs.count '"' % 2 = 1)) := by
  induction cs generalizing quoted with
  | nil => simp [endsQuoted]
  | cons c cs ih =>
    rw [endsQuoted, ih, List.count_cons]
    cases hc : c == '"' with
    | false => simp
    | true =>
      have hstep : decide ((cs.count '"' + 1) % 2 = 1) = !decide (cs.count '"' % 2 = 1) := by
        rw [← decide_not, decide_eq_decide]
        omega
      rw [if_pos rfl, hstep]
      cases quoted <;> simp

theorem endsQuoted_false : endsQuoted false cs = false ↔ cs.count '"' % 2 = 0 := by
  rw [endsQuoted_eq, Bool.false_bne, decide_eq_false_iff_not]
  omega

theorem unbroken_iff {quoted : Bool} : unbroken quoted cs = true ↔
    ∀ before b after, cs = before ++ b :: after → isBlank b = true →
      endsQuoted quoted before = true := by
  induction cs generalizing quoted with
  | nil => simp [unbroken]
  | cons c cs ih =>
    rw [unbroken, Bool.and_eq_true, ih]
    constructor
    · rintro ⟨hc, hcs⟩ before b after heq hb
      cases before with
      | nil =>
        obtain ⟨rfl, -⟩ := List.cons.inj heq
        simpa [hb, endsQuoted] using hc
      | cons d before =>
        obtain ⟨rfl, hrest⟩ := List.cons.inj heq
        exact hcs before b after hrest hb
    · intro h
      refine ⟨?_, fun before b after heq hb => h (c :: before) b after (by rw [heq]; rfl) hb⟩
      cases hb : isBlank c with
      | false => simp
      | true => simpa [endsQuoted] using h [] c cs rfl hb

-- ---------------------------------------------------------------------------
-- Partitions
-- ---------------------------------------------------------------------------

/-- A text that can be a token: it is not empty, and each blank in it has an odd number of
quotes before it, so that the first character is none. -/
def IsToken (cs : List Char) : Prop :=
  cs ≠ [] ∧ ∀ before b after, cs = before ++ b :: after → isBlank b = true →
    before.count '"' % 2 = 1

/-- A token ends at the end of its line, or before a blank if its quotes are paired. -/
def EndsBefore (cs : List Char) : List Char → Prop
  | [] => True
  | b :: _ => isBlank b = true ∧ cs.count '"' % 2 = 0

/-- A text, which starts at a byte of its line, consists of tokens and of blanks before,
between and after them. -/
inductive Partition : Nat → List Char → List Token → Prop
  | blank {start : Nat} (hblanks : blanks.all isBlank = true) : Partition start blanks []
  | token {start : Nat} {blanks cs rest : List Char} {tokens : List Token}
      (hblanks : blanks.all isBlank = true) (htoken : IsToken cs) (hends : EndsBefore cs rest)
      (hrest : Partition (start + byteSize blanks + byteSize cs) rest tokens) :
      Partition start (blanks ++ cs ++ rest)
        (⟨String.ofList cs, start + byteSize blanks⟩ :: tokens)

variable {start : Nat} {token : Token}

theorem whole_iff : Whole cs ↔ IsToken cs := by
  rw [Whole, IsToken, unbroken_iff]
  simp only [endsQuoted_eq, Bool.false_bne, decide_eq_true_eq]

theorem IsToken.head?_ne_blank (h : IsToken cs) : ∀ c ∈ cs.head?, isBlank c = false := by
  intro c hc
  obtain ⟨more, rfl⟩ : ∃ more, cs = c :: more := List.head?_eq_some_iff.mp hc
  cases hblank : isBlank c with
  | false => rfl
  | true => simpa using h.2 [] c more rfl hblank

theorem Partition.blank_cons {b : Char} (hb : isBlank b = true)
    (h : Partition (start + b.utf8Size) cs tokens) : Partition start (b :: cs) tokens := by
  cases h with
  | blank hblanks => exact .blank (by rw [List.all_cons, hb, hblanks, Bool.and_self])
  | @token _ blanks cs rest tokens hblanks htoken hends hrest =>
    have hstart : start + b.utf8Size + byteSize blanks = start + byteSize (b :: blanks) := by
      rw [byteSize_cons, Nat.add_assoc]
    rw [hstart] at hrest ⊢
    have hblanks' : (b :: blanks).all isBlank = true := by
      rw [List.all_cons, hb, hblanks, Bool.and_self]
    exact .token hblanks' htoken hends hrest

-- ---------------------------------------------------------------------------
-- What the scanner finds
-- ---------------------------------------------------------------------------

/-- A text that starts inside a token consists of the rest of the token and of a text that is
partitioned; a blank ends the token if no quoted stretch is open. -/
structure Finishes (start : Nat) (place : Place) (cs more : List Char) (tokens : List Token)
    (rest : List Char) : Prop where
  text_eq : cs = more ++ rest
  unbroken : unbroken place.isQuoted more = true
  ends : ∀ b ∈ rest.head?, isBlank b = true ∧ endsQuoted place.isQuoted more = false
  partition : Partition (start + byteSize more) rest tokens

theorem Finishes.nil : Finishes start place [] [] [] [] :=
  ⟨rfl, rfl, by simp, .blank rfl⟩

theorem Finishes.blank {c : Char} (hc : isBlank c = true) (hplace : place.isQuoted = false)
    (h : Partition start (c :: cs) tokens) :
    Finishes start place (c :: cs) [] tokens (c :: cs) := by
  refine ⟨rfl, rfl, ?_, h⟩
  rintro b ⟨⟩
  exact ⟨hc, hplace⟩

theorem Finishes.cons {c : Char} (hc : (place.isQuoted || !isBlank c) = true)
    (h : Finishes (start + c.utf8Size) (place.after c) cs more tokens rest) :
    Finishes start place (c :: cs) (c :: more) tokens rest := by
  obtain ⟨rfl, hunbroken, hends, hrest⟩ := h
  rw [Place.isQuoted_after] at hunbroken hends
  refine ⟨rfl, ?_, hends, ?_⟩
  · rw [Token.unbroken, hc, hunbroken, Bool.and_self]
  · rwa [byteSize_cons, ← Nat.add_assoc]

/-- A character that is no blank starts a token. -/
theorem Finishes.toPartition (h : Finishes start .between (c :: cs) (c :: more) tokens rest) :
    Partition start (c :: cs) (⟨String.ofList (c :: more), start⟩ :: tokens) := by
  obtain ⟨htext, hunbroken, hends, hrest⟩ := h
  have hwhole : Whole (c :: more) := ⟨by simp, hunbroken⟩
  have hbefore : EndsBefore (c :: more) rest := by
    cases rest with
    | nil => trivial
    | cons b rest =>
      obtain ⟨hb, hclosed⟩ := hends b rfl
      exact ⟨hb, endsQuoted_false.mp hclosed⟩
  have hblanks : ([] : List Char).all isBlank = true := rfl
  rw [htext]
  exact .token hblanks (whole_iff.mp hwhole) hbefore hrest

/-- The two claims are proved together: between tokens, the scanner finds a partition; in a
token, it finds where the token ends and a partition of what is left. -/
theorem partition_scanFrom (cs : List Char) (start : Nat) :
    Partition start cs (scanFrom start .between cs).2 ∧
      ∀ place, place ≠ Place.between → ∃ more tokens rest,
        scanFrom start place cs = (more, tokens) ∧ Finishes start place cs more tokens rest := by
  induction cs generalizing start with
  | nil => exact ⟨.blank rfl, fun place _ => ⟨[], [], [], rfl, .nil⟩⟩
  | cons c cs ih =>
    obtain ⟨hbetween, hinside⟩ := ih (start + c.utf8Size)
    constructor
    · cases hc : isBlank c with
      | true =>
        rw [scanFrom_blank hc Place.isQuoted_between]
        exact hbetween.blank_cons hc
      | false =>
        obtain ⟨more, tokens, rest, hscan, hfinishes⟩ :=
          hinside _ (Place.after_ne_between .between c)
        rw [scanFrom_start hc, hscan]
        exact (hfinishes.cons (by simp [hc])).toPartition
    · intro place hplace
      by_cases hc : (place.isQuoted || !isBlank c) = true
      · -- the character belongs to the token
        obtain ⟨more, tokens, rest, hscan, hfinishes⟩ := hinside _ (place.after_ne_between c)
        exact ⟨c :: more, tokens, rest, by rw [scanFrom_inside hc hplace, hscan], hfinishes.cons hc⟩
      · -- the character is a blank, with no quoted stretch open
        simp only [Bool.or_eq_true, Bool.not_eq_true', not_or, Bool.not_eq_false,
          Bool.not_eq_true] at hc
        have hrest := hbetween.blank_cons hc.2
        exact ⟨[], _, c :: cs, scanFrom_blank hc.2 hc.1, .blank hc.2 hc.1 hrest⟩

theorem Partition.scanFrom_eq (h : Partition start cs tokens) :
    (scanFrom start .between cs).2 = tokens := by
  induction h with
  | blank hblanks => exact scanFrom_eq_nil_iff.mpr hblanks
  | @token start blanks cs rest tokens hblanks htoken hends hrest ih =>
    rw [List.append_assoc, scanFrom_blanks hblanks]
    cases rest with
    | nil =>
      obtain rfl : tokens = [] := ih.symm
      rw [List.append_nil, scanFrom_whole (whole_iff.mpr htoken)]
    | cons b rest =>
      obtain ⟨hb, hpaired⟩ := hends
      rw [scanFrom_blank hb Place.isQuoted_between] at ih
      rw [scanFrom_whole_blank (whole_iff.mpr htoken) (endsQuoted_false.mpr hpaired) hb, ih]

/-- The scanner finds the one partition that a line has. -/
theorem scan_eq_iff {line : String} :
    scan line = tokens ↔ Partition 0 line.toList tokens := by
  constructor
  · rintro rfl
    exact (partition_scanFrom line.toList 0).1
  · exact Partition.scanFrom_eq

-- ---------------------------------------------------------------------------
-- The tokens of a line
-- ---------------------------------------------------------------------------

theorem Partition.isToken (h : Partition start cs tokens) (ht : token ∈ tokens) :
    IsToken token.text.toList := by
  induction h with
  | blank _ => simp at ht
  | token _ htoken _ _ ih =>
    cases ht with
    | head => rwa [String.toList_ofList]
    | tail _ ht => exact ih ht

/-- A token is the part of its text that starts at its byte. -/
theorem Partition.exists_slice (h : Partition start cs tokens) (ht : token ∈ tokens) :
    ∃ before after, cs = before ++ token.text.toList ++ after ∧
      token.start = start + byteSize before := by
  induction h with
  | blank _ => simp at ht
  | @token start blanks cs rest tokens _ _ _ _ ih =>
    cases ht with
    | head => exact ⟨blanks, rest, by rw [String.toList_ofList], rfl⟩
    | tail _ ht =>
      obtain ⟨before, after, rfl, hstart⟩ := ih ht
      refine ⟨blanks ++ cs ++ before, after, by simp only [List.append_assoc], ?_⟩
      rw [hstart, byteSize_append, byteSize_append]
      omega

theorem whole_of_mem_scan (h : token ∈ scan line) : Whole token.text.toList :=
  whole_iff.mpr ((scan_eq_iff.mp rfl).isToken h)

theorem mem_of_mem_scan (h : token ∈ scan line) (hc : c ∈ token.text.toList) :
    c ∈ line.toList := by
  obtain ⟨before, after, hline, -⟩ := (scan_eq_iff.mp rfl).exists_slice h
  rw [hline]
  exact List.mem_append_left _ (List.mem_append_right _ hc)

/-- Two tokens that follow each other have a blank between them. -/
theorem Partition.stop_lt_start (h : Partition start cs tokens) {before after : List Token}
    {t u : Token} (heq : tokens = before ++ t :: u :: after) : t.span.stop < u.start := by
  induction h generalizing before with
  | blank _ => simp at heq
  | @token start blanks cs rest tokens _ _ hends hrest ih =>
    cases before with
    | cons _ before => exact ih (List.cons.inj heq).2
    | nil =>
      obtain ⟨rfl, rfl⟩ := List.cons.inj heq
      cases hrest with
      | @token _ blanks' cs' rest' tokens' _ htoken' _ _ =>
        have hgap : 0 < byteSize blanks' := by
          cases blanks' with
          | cons b _ => simpa using Nat.add_pos_left b.utf8Size_pos _
          | nil =>
            -- the second token would start with the blank that the first one ends before
            obtain ⟨c, more, rfl⟩ := List.exists_cons_of_ne_nil htoken'.1
            have hblank := htoken'.head?_ne_blank c rfl
            rw [hends.1] at hblank
            contradiction
        simp only [span, utf8ByteSize_ofList]
        omega

-- ---------------------------------------------------------------------------
-- Other blanks
-- ---------------------------------------------------------------------------

/-- Texts in a row, with one or more blanks between each and the next. -/
inductive Spaced : List String → List Char → Prop
  | none : Spaced [] []
  | last (text : String) : Spaced [text] text.toList
  | more {gap : List Char} {next : String} (text : String) (hgap : gap ≠ [])
      (hblank : gap.all isBlank = true) (hrest : Spaced (next :: texts) cs) :
      Spaced (text :: next :: texts) (text.toList ++ gap ++ cs)

theorem endsBefore_gap (hgap : blanks ≠ []) (hblank : blanks.all isBlank = true)
    (hpaired : cs.count '"' % 2 = 0) : EndsBefore cs (blanks ++ rest) := by
  obtain ⟨b, more, rfl⟩ := List.exists_cons_of_ne_nil hgap
  rw [List.all_cons, Bool.and_eq_true] at hblank
  exact ⟨hblank.1, hpaired⟩

/-- The tokens of a text, with other blanks between and before them, are the tokens of the text
that this gives. -/
theorem Partition.exists_spaced (h : Partition start cs tokens) :
    ∀ {blanks' cs' : List Char} (start' : Nat), blanks'.all isBlank = true →
      Spaced (tokens.map Token.text) cs' →
      ∃ tokens', Partition start' (blanks' ++ cs') tokens' ∧
        tokens'.map Token.text = tokens.map Token.text := by
  induction h with
  | blank _ =>
    intro blanks' cs' start' hblanks' hspaced
    cases hspaced
    exact ⟨[], .blank (by rwa [List.append_nil]), rfl⟩
  | @token start blanks cs rest tokens _ htoken hends hrest ih =>
    intro blanks' cs' start' hblanks' hspaced
    cases tokens with
    | nil =>
      cases hspaced
      refine ⟨[⟨String.ofList cs, start' + byteSize blanks'⟩], ?_, rfl⟩
      rw [String.toList_ofList, ← List.append_nil (blanks' ++ cs)]
      exact .token hblanks' htoken trivial (.blank rfl)
    | cons next tokens =>
      -- a token follows, so this one ends before a blank and its quotes are paired
      obtain ⟨b, more, rfl⟩ : ∃ b more, rest = b :: more := by
        cases rest with
        | nil => exact absurd hrest.scanFrom_eq (by simp [scanFrom])
        | cons b more => exact ⟨b, more, rfl⟩
      cases hspaced with
      | @more cs' _ gap _ _ hgap hblank hspaced =>
        obtain ⟨tokens', hpartition, htexts⟩ :=
          ih (start' + byteSize blanks' + byteSize cs) hblank hspaced
        refine ⟨⟨String.ofList cs, start' + byteSize blanks'⟩ :: tokens', ?_, ?_⟩
        · rw [String.toList_ofList, List.append_assoc, ← List.append_assoc blanks']
          exact .token hblanks' htoken (endsBefore_gap hgap hblank hends.2) hpartition
        · rw [List.map_cons, htexts]
          rfl

end ClassText.Token
