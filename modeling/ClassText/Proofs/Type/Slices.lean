import ClassText.Proofs.Text.Cut
import ClassText.Proofs.Type.Descriptor
import ClassText.Proofs.Type.Rest

/-!
# Descriptors are read by proper cuts

The reader of descriptors moves on by cutting its text at a byte: behind a character, or
where a search has found one. Here it is spelled out with these cuts, each of which fails
where no character ends, and with the offset of a fault as a difference that may not be
negative. `ofDescriptor?_eq`: no cut and no difference fails, whatever is read.
-/

namespace ClassText

namespace Descriptor

variable {c : Char} {text rest : List Char} {α : Type}

-- ---------------------------------------------------------------------------
-- Characters and names
-- ---------------------------------------------------------------------------

/-- The next character, if there is one, and the text cut behind it. -/
def next? (text : List Char) : Option (Option Char × List Char) :=
  match text.head? with
  | none => some (none, text)
  | some c => (cut? c.utf8Size text).map fun (_, rest) => (some c, rest)

theorem next?_cons (c : Char) (rest : List Char) : next? (c :: rest) = some (some c, rest) := by
  simp only [next?, List.head?_cons, cut?_cons, Option.map_some]

theorem next?_eq_some (h : next? text = some (some c, rest)) : text = c :: rest := by
  cases text with
  | nil => cases h
  | cons d more =>
    rw [next?_cons] at h
    cases h
    rfl

theorem next?_suffix (h : next? text = some (d, rest)) : rest <:+ text := by
  cases text with
  | nil =>
    cases h
    exact List.suffix_refl _
  | cons c more =>
    rw [next?_cons] at h
    cases h
    exact List.suffix_cons c _

def expect? (c : Char) (text : List Char) : Checked Stop (List Char) :=
  (next? text).map fun (d, rest) =>
    if d = some c then .ok rest else .error ⟨.expected c, rest⟩

theorem expect?_eq (c : Char) (text : List Char) : expect? c text = some (expect c text) := by
  cases text with
  | nil => rfl
  | cons d rest =>
    rw [expect?, next?_cons, expect]
    simp only [Option.map_some, Option.some.injEq]

def readName? (text : List Char) : Checked Stop (String × List Char) :=
  match findByte? endsName text with
  | none => some (.error ⟨.unterminatedName, text⟩)
  | some stop =>
    (cut? stop text).bind fun (name, rest) =>
      if name.isEmpty then some (.error ⟨.emptyName, text⟩)
      else (next? rest).map fun (c, rest) =>
        if c = some ';' then .ok (String.ofList name, rest)
        else .error ⟨if c = some '<' then .genericArguments else .nameCharacter, rest⟩

theorem readName?_eq (text : List Char) : readName? text = some (readName text) := by
  have hsplit := List.takeWhile_append_dropWhile (p := (!endsName ·)) (l := text)
  have hname : ∀ d ∈ text.takeWhile (!endsName ·), endsName d = false := by
    simpa using List.all_eq_true.mp (List.all_takeWhile (p := (!endsName ·)) (l := text))
  unfold readName? readName
  cases hrest : text.dropWhile (!endsName ·) with
  | nil =>
    rw [hrest, List.append_nil] at hsplit
    rw [findByte?_eq_none (hsplit ▸ hname)]
  | cons c rest =>
    have hc : endsName c = true := by
      have hhead := List.head?_dropWhile_not (!endsName ·) text
      simpa [hrest] using hhead
    rw [hrest] at hsplit
    have hfind : findByte? endsName text = some (byteSize (text.takeWhile (!endsName ·))) := by
      conv => lhs; rw [← hsplit]
      exact findByte?_append hname hc
    have hcut := cut?_append (text.takeWhile (!endsName ·)) (c :: rest)
    rw [hsplit] at hcut
    simp only [hfind, hcut, Option.bind_some, next?_cons, Option.map_some,
      Option.some.injEq]
    split
    · rfl
    · split <;> rfl

-- ---------------------------------------------------------------------------
-- Types
-- ---------------------------------------------------------------------------

/-- The type that a letter starts, unless it is an array. -/
def readLetter? (c : Char) (rest : List Char) : Checked Stop (ValueType × List Char) :=
  match c with
  | 'B' => some (.ok (.primitive .byte, rest))
  | 'C' => some (.ok (.primitive .char, rest))
  | 'D' => some (.ok (.primitive .double, rest))
  | 'F' => some (.ok (.primitive .float, rest))
  | 'I' => some (.ok (.primitive .int, rest))
  | 'J' => some (.ok (.primitive .long, rest))
  | 'S' => some (.ok (.primitive .short, rest))
  | 'Z' => some (.ok (.primitive .bool, rest))
  | 'L' => (readName? rest).map (·.map fun (name, rest) => (.object ⟨name⟩, rest))
  | 'T' => (readName? rest).map (·.map fun (name, rest) => (.typeVariable (.mk name []), rest))
  | _ => some (.error ⟨.typeCharacter, rest⟩)

theorem readLetter?_eq (hc : c ≠ '[') : readLetter? c rest = some (readType (c :: rest)) := by
  unfold readLetter?
  split
  case h_9 | h_10 => rw [readName?_eq]; rfl
  case h_11 => unfold readType; split <;> simp_all
  all_goals rfl

def readType? (text : List Char) : Checked Stop (ValueType × List Char) :=
  match _h : next? text with
  | none => none
  | some (none, rest) => some (.error ⟨.unexpectedEnd, rest⟩)
  | some (some c, rest) =>
    if c = '[' then (readType? rest).map (·.map fun (element, rest) => (.array element, rest))
    else readLetter? c rest
termination_by text.length
decreasing_by
  rw [next?_eq_some _h]
  exact Nat.lt_succ_self _

theorem readType?_cons (c : Char) (rest : List Char) : readType? (c :: rest) =
    if c = '[' then (readType? rest).map (·.map fun (element, rest) => (.array element, rest))
    else readLetter? c rest := by
  rw [readType?]
  split
  all_goals
    rename_i h
    rw [next?_cons] at h
    cases h
  rfl

theorem readType?_eq (text : List Char) : readType? text = some (readType text) := by
  induction text with
  | nil =>
    rw [readType?]
    rfl
  | cons c rest ih =>
    rw [readType?_cons]
    split
    · rename_i hc
      rw [ih, hc]
      rfl
    · rename_i hc
      exact readLetter?_eq hc

/-- Reads types up to a closing parenthesis, which is left. -/
def readTypes? (text : List Char) : Checked Stop (List ValueType × List Char) :=
  if text.head? = some ')' then some (.ok ([], text))
  else match _h : readType? text with
    | none => none
    | some (.error stop) => some (.error stop)
    | some (.ok (t, rest)) => (readTypes? rest).map (·.map fun (ts, rest) => (t :: ts, rest))
termination_by text.length
decreasing_by
  rw [readType?_eq, Option.some.injEq] at _h
  exact length_of_readType _h

theorem readTypes?_step (hend : text.head? ≠ some ')') : readTypes? text =
    (readType? text).andThen fun (t, rest) =>
      (readTypes? rest).map (·.map fun (ts, rest) => (t :: ts, rest)) := by
  rw [readTypes?, if_neg hend]
  split
  all_goals
    rename_i h
    rw [h]
    rfl

theorem readTypes?_eq (text : List Char) : readTypes? text = some (readTypes text) := by
  fun_induction readTypes text with
  | case1 text hend => rw [readTypes?, if_pos hend]
  | case2 text hend stop hread =>
    rw [readTypes?_step hend, readType?_eq, hread]
    rfl
  | case3 text hend t rest hread ih =>
    simp only [readTypes?_step hend, readType?_eq, hread, Checked.andThen, ih]
    rfl

-- ---------------------------------------------------------------------------
-- Bounds and type parameters
-- ---------------------------------------------------------------------------

def readMoreBounds? (text : List Char) : Checked Stop (List ValueType × List Char) :=
  if text.head? = some ':' then
    match _hn : next? text with
    | none => none
    | some (_, rest) =>
      match _h : readType? rest with
      | none => none
      | some (.error stop) => some (.error stop)
      | some (.ok (t, rest)) => (readMoreBounds? rest).map (·.map fun (ts, rest) => (t :: ts, rest))
  else some (.ok ([], text))
termination_by text.length
decreasing_by
  rw [readType?_eq, Option.some.injEq] at _h
  exact Nat.lt_of_lt_of_le (length_of_readType _h) (next?_suffix _hn).length_le

theorem readMoreBounds?_colon (rest : List Char) : readMoreBounds? (':' :: rest) =
    (readType? rest).andThen fun (t, rest) =>
      (readMoreBounds? rest).map (·.map fun (ts, rest) => (t :: ts, rest)) := by
  rw [readMoreBounds?, List.head?_cons, if_pos rfl]
  split
  · rename_i h
    rw [next?_cons] at h
    cases h
  · rename_i h
    rw [next?_cons] at h
    cases h
    split
    all_goals
      rename_i h
      rw [h]
      rfl

theorem readMoreBounds?_eq (text : List Char) :
    readMoreBounds? text = some (readMoreBounds text) := by
  fun_induction readMoreBounds text with
  | case1 rest stop hread =>
    rw [readMoreBounds?_colon, readType?_eq, hread]
    rfl
  | case2 rest t more hread ih =>
    simp only [readMoreBounds?_colon, readType?_eq, hread, Checked.andThen, ih]
    rfl
  | case3 text hcolon =>
    have hhead : text.head? ≠ some ':' := by
      intro hhead
      obtain ⟨more, rfl⟩ := List.head?_eq_some_iff.mp hhead
      exact hcolon more rfl
    rw [readMoreBounds?, if_neg hhead]

def readBounds? (text : List Char) : Checked Stop (List ValueType × List Char) :=
  if startsBound text then
    (readType? text).andThen fun (t, rest) =>
      (readMoreBounds? rest).map (·.map fun (ts, rest) => (t :: ts, rest))
  else readMoreBounds? text

theorem readBounds?_eq (text : List Char) : readBounds? text = some (readBounds text) := by
  unfold readBounds? readBounds
  split
  · rw [readType?_eq]
    cases readType text with
    | error stop => rfl
    | ok read =>
      simp only [Checked.andThen, readMoreBounds?_eq]
      rfl
  · exact readMoreBounds?_eq text

/-- Cuts a text before and behind its first colon, unless it starts with it or has none. -/
def cutName? (text : List Char) : Option (Option (List Char × List Char)) :=
  match findByte? (· == ':') text with
  | none | some 0 => some none
  | some (n + 1) => do
    let (name, _) ← cut? (n + 1) text
    let (_, rest) ← cut? (n + 2) text
    some (some (name, rest))

theorem beq_of_not_mem (h : c ∉ text) : ∀ d ∈ text, (d == c) = false := by
  intro d hd
  have hne : d ≠ c := fun heq => h (heq ▸ hd)
  simpa using hne

theorem cutName?_eq (text : List Char) :
    cutName? text = some ((splitAtFirst ':' text).filter fun (name, _) => !name.isEmpty) := by
  unfold cutName?
  cases hsplit : splitAtFirst ':' text with
  | none =>
    rw [findByte?_eq_none (beq_of_not_mem (splitAtFirst_eq_none_iff.mp hsplit))]
    rfl
  | some parts =>
    obtain ⟨name, rest⟩ := parts
    obtain ⟨rfl, hcolon⟩ := splitAtFirst_eq_some_iff.mp hsplit
    rw [findByte?_append (beq_of_not_mem hcolon) (by simp)]
    cases name with
    | nil => rfl
    | cons c name =>
      obtain ⟨n, hn⟩ : ∃ n, byteSize (c :: name) = n + 1 :=
        Nat.exists_eq_succ_of_ne_zero (by have := c.utf8Size_pos; simp; omega)
      have hbefore := cut?_append (c :: name) (':' :: rest)
      have hbehind := cut?_append (c :: name ++ [':']) rest
      have hsize : byteSize (c :: name ++ [':']) = n + 2 := by
        rw [byteSize_append, hn]
        rfl
      rw [hn] at hbefore
      rw [hsize, List.append_assoc, List.singleton_append] at hbehind
      simp only [hn, hbefore, hbehind]
      rfl

def readBinders? (text : List Char) : Checked Stop (List TypeVariable × List Char) :=
  if text.head? = some '>' then some (.ok ([], text))
  else match _hs : cutName? text with
    | none => none
    | some none => some (.error ⟨.parameterName, text⟩)
    | some (some (name, rest)) =>
      match _hb : readBounds? rest with
      | none => none
      | some (.error stop) => some (.error stop)
      | some (.ok (bounds, rest)) =>
        (readBinders? rest).map
          (·.map fun (vs, rest) => (.mk (String.ofList name) bounds :: vs, rest))
termination_by text.length
decreasing_by
  rw [readBounds?_eq, Option.some.injEq] at _hb
  rw [cutName?_eq, Option.some.injEq, Option.filter_eq_some_iff] at _hs
  have := length_of_splitAtFirst _hs.1
  have := length_of_readBounds _hb
  omega

theorem readBinders?_step (hend : text.head? ≠ some '>') : readBinders? text =
    (cutName? text).bind fun
      | none => some (.error ⟨.parameterName, text⟩)
      | some (name, rest) =>
        (readBounds? rest).andThen fun (bounds, rest) =>
          (readBinders? rest).map
            (·.map fun (vs, rest) => (.mk (String.ofList name) bounds :: vs, rest)) := by
  rw [readBinders?, if_neg hend]
  split
  · rename_i h
    rw [h]
    rfl
  · rename_i h
    rw [h]
    rfl
  · rename_i h
    rw [h, Option.bind_some]
    dsimp only
    split
    all_goals
      rename_i h
      rw [h]
      rfl

theorem readBinders?_eq (text : List Char) : readBinders? text = some (readBinders text) := by
  fun_induction readBinders text with
  | case1 text hend => rw [readBinders?, if_pos hend]
  | case2 text hend hsplit =>
    rw [readBinders?_step hend, cutName?_eq, hsplit]
    rfl
  | case3 text hend name rest hsplit hempty =>
    rw [readBinders?_step hend, cutName?_eq, hsplit, Option.filter_some, if_neg (by simp [hempty])]
    rfl
  | case4 text hend name rest hsplit hempty stop hbounds =>
    rw [readBinders?_step hend, cutName?_eq, hsplit, Option.filter_some, if_pos (by simp [hempty]),
      Option.bind_some]
    simp only [readBounds?_eq, hbounds, Checked.andThen]
  | case5 text hend name rest hsplit hempty bounds more hbounds ih =>
    rw [readBinders?_step hend, cutName?_eq, hsplit, Option.filter_some, if_pos (by simp [hempty]),
      Option.bind_some]
    simp only [readBounds?_eq, hbounds, Checked.andThen, ih]
    rfl

def readTypeParameters? (text : List Char) : Checked Stop (List TypeVariable × List Char) :=
  if text.head? = some '<' then
    (expect? '<' text).andThen fun rest =>
      (readBinders? rest).andThen fun (vs, rest) =>
        (expect? '>' rest).map fun after => after.bind fun rest =>
          if vs.isEmpty then .error ⟨.noTypeParameters, rest⟩ else .ok (vs, rest)
  else some (.ok ([], text))

theorem readTypeParameters?_eq (text : List Char) :
    readTypeParameters? text = some (readTypeParameters text) := by
  unfold readTypeParameters? readTypeParameters
  split
  · rename_i hhead
    obtain ⟨rest, rfl⟩ := List.head?_eq_some_iff.mp hhead
    rw [expect?_eq, expect_ok.mpr rfl, Checked.andThen, readBinders?_eq]
    refine Checked.andThen_some fun (vs, rest) _ => ?_
    dsimp only
    rw [expect?_eq]
    rfl
  · rename_i hhead
    split
    · simp at hhead
    · rfl

-- ---------------------------------------------------------------------------
-- Signatures and classes
-- ---------------------------------------------------------------------------

def readResult? (text : List Char) : Checked Stop (ValueType × List Char) :=
  if text.head? = some 'V' then (next? text).map fun (_, rest) => .ok (.void, rest)
  else readType? text

theorem readResult?_eq (text : List Char) : readResult? text = some (readResult text) := by
  unfold readResult? readResult
  split
  · rename_i hhead
    obtain ⟨rest, rfl⟩ := List.head?_eq_some_iff.mp hhead
    rw [next?_cons]
    rfl
  · rename_i hhead
    split
    · simp at hhead
    · exact readType?_eq text

def readSignature? (text : List Char) : Checked Stop (Signature × List Char) :=
  (readTypeParameters? text).andThen fun (typeParameters, rest) =>
    (expect? '(' rest).andThen fun rest =>
      (readTypes? rest).andThen fun (parameters, rest) =>
        (expect? ')' rest).andThen fun rest =>
          (readResult? rest).andThen fun (result, rest) =>
            some (.ok (.mk typeParameters parameters result, rest))

theorem readSignature?_eq (text : List Char) : readSignature? text = some (readSignature text) := by
  unfold readSignature? readSignature
  rw [readTypeParameters?_eq]
  refine Checked.andThen_some fun (typeParameters, rest) _ => ?_
  dsimp only
  rw [expect?_eq]
  refine Checked.andThen_some fun rest _ => ?_
  rw [readTypes?_eq]
  refine Checked.andThen_some fun (parameters, rest) _ => ?_
  dsimp only
  rw [expect?_eq]
  refine Checked.andThen_some fun rest _ => ?_
  rw [readResult?_eq]
  exact Checked.andThen_some fun _ _ => rfl

def readClass? (text : List Char) : Checked Stop (ClassName × List Char) :=
  (expect? 'L' text).andThen fun rest =>
    (readName? rest).andThen fun (name, rest) => some (.ok (⟨name⟩, rest))

theorem readClass?_eq (text : List Char) : readClass? text = some (readClass text) := by
  unfold readClass? readClass
  rw [expect?_eq]
  refine Checked.andThen_some fun rest _ => ?_
  rw [readName?_eq]
  exact Checked.andThen_some fun _ _ => rfl

-- ---------------------------------------------------------------------------
-- Whole texts
-- ---------------------------------------------------------------------------

/-- The offset of a fault, as the text is no shorter than what is left of it. -/
def offset? (source : String) (rest : List Char) : Option Nat :=
  if byteSize rest ≤ source.utf8ByteSize then some (source.utf8ByteSize - byteSize rest) else none

def whole? (read? : List Char → Checked Stop (α × List Char)) (source : String) :
    Checked Error α :=
  let fail? (stop : Stop) : Checked Error α :=
    (offset? source stop.rest).map fun offset => .error ⟨source, offset, stop.fault⟩
  match read? source.toList with
  | none => none
  | some (.error stop) => fail? stop
  | some (.ok (value, rest)) => if rest.isEmpty then some (.ok value) else fail? ⟨.trailing, rest⟩

theorem offset?_eq {source : String} (h : rest <:+ source.toList) :
    offset? source rest = some (source.utf8ByteSize - byteSize rest) := by
  obtain ⟨before, hsource⟩ := h
  have hsize : source.utf8ByteSize = byteSize before + byteSize rest := by
    rw [← byteSize_append, hsource, byteSize_toList]
  rw [offset?, if_pos (hsize ▸ Nat.le_add_left _ _)]

theorem whole?_eq {read? : List Char → Checked Stop (α × List Char)}
    {read : List Char → Reading α} (hread : ∀ text, read? text = some (read text))
    (hleft : ∀ text, left (read text) <:+ text) (source : String) :
    whole? read? source = some (whole read source) := by
  have hleft := hleft source.toList
  unfold whole? whole
  rw [hread]
  cases hresult : read source.toList with
  | error stop =>
    have hstop : stop.rest <:+ source.toList := by rwa [hresult] at hleft
    simp only [offset?_eq hstop, Option.map_some]
  | ok result =>
    obtain ⟨value, rest⟩ := result
    cases rest with
    | nil => rfl
    | cons c rest =>
      have hrest : c :: rest <:+ source.toList := by rwa [hresult] at hleft
      simp only [List.isEmpty_cons, Bool.false_eq_true, if_false, offset?_eq hrest,
        Option.map_some]

end Descriptor

-- ---------------------------------------------------------------------------
-- Descriptors
-- ---------------------------------------------------------------------------

open Descriptor

def ValueType.ofDescriptor? (source : String) : Checked Descriptor.Error ValueType :=
  whole? readType? source

def ClassName.ofDescriptor? (source : String) : Checked Descriptor.Error ClassName :=
  whole? readClass? source

def Signature.ofDescriptor? (source : String) : Checked Descriptor.Error Signature :=
  whole? readSignature? source

theorem ValueType.ofDescriptor?_eq (source : String) :
    ofDescriptor? source = some (ofDescriptor source) :=
  whole?_eq readType?_eq left_readType source

theorem ClassName.ofDescriptor?_eq (source : String) :
    ofDescriptor? source = some (ofDescriptor source) :=
  whole?_eq readClass?_eq left_readClass source

theorem Signature.ofDescriptor?_eq (source : String) :
    ofDescriptor? source = some (ofDescriptor source) :=
  whole?_eq readSignature?_eq left_readSignature source

end ClassText
