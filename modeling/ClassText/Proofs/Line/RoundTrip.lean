import ClassText.Instruction.Text
import ClassText.Proofs.Line.Readable
import ClassText.Proofs.Number.FloatText
import ClassText.Proofs.Number.Integer

/-!
# Canonical lines are read back

`readFrom_text`: the canonical line of a readable instruction is read back, at whatever byte
it starts, if the type parameters of an invoked method have bounds that the reader of
descriptors can tell from their absence. `ofLine_text` says so of every instruction that
was read from a line: each kind is taken through the scanner, the table of mnemonics and the
reader of its operands.
-/

namespace ClassText.Instruction

open Descriptor Operation Token

variable {start : Nat} {mnemonic operand : String} {operation : Operation}

/-- If it invokes a method, the bounds of its type parameters can be told from their absence. -/
def BoundsOpen : Instruction → Prop
  | .invoke _ _ _ signature => signature.BoundsOpen
  | _ => True

/-- Reads a line, or the rest of one, that starts at a given byte. -/
def readFrom (start : Nat) (text : String) : Except SyntaxError (Option Instruction) :=
  ofTokens (scanFrom start .between text.toList).2

/-- Blanks before a line only move what stands on it. -/
theorem ofLine_blanks (h : blanks.toList.all isBlank = true) (text : String) :
    ofLine (blanks ++ text) = readFrom (byteSize blanks.toList) text := by
  rw [ofLine, scan, String.toList_append, scanFrom_blanks h, Nat.zero_add, readFrom]

-- ---------------------------------------------------------------------------
-- One and two tokens
-- ---------------------------------------------------------------------------

theorem whole_of_plain (hne : operand ≠ "") (h : plain operand.toList = true) :
    Whole operand.toList :=
  ⟨by simpa using hne, unbroken_of_plain h⟩

theorem scanFrom_token (h : Whole operand.toList) :
    (scanFrom start .between operand.toList).2 = [⟨operand, start⟩] := by
  rw [scanFrom_whole h, String.ofList_toList]

theorem scanFrom_operand (start : Nat) (hne : mnemonic ≠ "")
    (hplain : plain mnemonic.toList = true) (h : Whole operand.toList) :
    ∃ start', (scanFrom start .between (mnemonic ++ " " ++ operand).toList).2 =
      [⟨mnemonic, start⟩, ⟨operand, start'⟩] := by
  have htext : (mnemonic ++ " " ++ operand).toList = mnemonic.toList ++ ' ' :: operand.toList := by
    simp
  refine ⟨start + byteSize mnemonic.toList + ' '.utf8Size, ?_⟩
  rw [htext, scanFrom_whole_blank (whole_of_plain hne hplain) (endsQuoted_of_plain hplain)
    (by decide), scanFrom_token h, String.ofList_toList]

theorem readFrom_bare (hmnemonic : Operation.ofMnemonic? mnemonic = some operation)
    (hread : operation.read ⟨mnemonic, start⟩ [] = .ok i) :
    readFrom start mnemonic = .ok (some i) := by
  obtain ⟨hne, hplain, -⟩ := spelling_of_mem_table _ (ofMnemonic?_eq_some_iff.mp hmnemonic)
  rw [readFrom, scanFrom_token (whole_of_plain hne hplain), ofTokens]
  simp only [hmnemonic, hread, Except.map]

theorem readFrom_operand_eq (start : Nat)
    (hmnemonic : Operation.ofMnemonic? mnemonic = some operation) (hwhole : Whole operand.toList) :
    ∃ start', readFrom start (mnemonic ++ " " ++ operand) =
      (operation.read ⟨mnemonic, start⟩ [⟨operand, start'⟩]).map some := by
  obtain ⟨hne, hplain, -⟩ := spelling_of_mem_table _ (ofMnemonic?_eq_some_iff.mp hmnemonic)
  obtain ⟨start', hscan⟩ := scanFrom_operand start hne hplain hwhole
  refine ⟨start', ?_⟩
  rw [readFrom, hscan, ofTokens]
  simp only [hmnemonic]

theorem readFrom_operand (hmnemonic : Operation.ofMnemonic? mnemonic = some operation)
    (hwhole : Whole operand.toList)
    (hread : ∀ start', operation.read ⟨mnemonic, start⟩ [⟨operand, start'⟩] = .ok i) :
    readFrom start (mnemonic ++ " " ++ operand) = .ok (some i) := by
  obtain ⟨start', heq⟩ := readFrom_operand_eq start hmnemonic hwhole
  rw [heq, hread]
  rfl

-- ---------------------------------------------------------------------------
-- Numbers
-- ---------------------------------------------------------------------------

theorem plain_of_isDecimalChar (h : ∀ c ∈ cs, isDecimalChar c = true) : plain cs = true := by
  refine List.all_eq_true.mpr fun c hc => ?_
  have hc := h c hc
  simp only [isDecimalChar, Char.isDigit, Bool.or_eq_true, Bool.and_eq_true, decide_eq_true_eq,
    beq_iff_eq] at hc
  rcases hc with ((⟨hlow, hhigh⟩ | rfl) | rfl) | rfl
  · have hlow : 48 ≤ c.toNat := hlow
    have hhigh : c.toNat ≤ 57 := hhigh
    have hquote : c ≠ '"' := by rintro rfl; simp at hlow
    have hblank : isBlank c = false := by simp [isBlank]; omega
    simp [hquote, hblank]
  · decide
  · decide
  · decide

theorem whole_intText : Whole (intText n) :=
  ⟨fun h => by unfold intText at h; split at h <;> simp [natText_ne_nil] at h,
    unbroken_of_plain (plain_of_isDecimalChar fun _ => isDecimalChar_of_mem_intText)⟩

theorem intText_natCast : intText (n : Nat) = natText n := by
  rw [intText, if_neg (by omega), Int.natAbs_natCast]

theorem read_natText (range : IntRange) (hlow : range.low ≤ (n : Nat)) (hhigh : n ≤ range.high) :
    range.read (natText n) = some (n : Int) := by
  rw [← intText_natCast, range.read_intText hlow hhigh]

theorem readFused_natText (range : IntRange) : range.readFused (natText n) =
    range.read (natText n) := by
  unfold IntRange.readFused
  split
  · rename_i ds hds
    have hm := isDigit_of_mem_natText (n := n) (hds ▸ List.mem_cons_self)
    simp at hm
  · rfl

-- ---------------------------------------------------------------------------
-- Local variables, arrays and returns
-- ---------------------------------------------------------------------------

theorem readSlot_natText (slot : UInt16) :
    IntRange.slot.read (natText slot.toNat) = some (slot.toNat : Int) := by
  have hlt := slot.toNat_lt
  exact read_natText _ (by simp [IntRange.slot]) (by simp only [IntRange.slot]; omega)

theorem readFrom_local {stem : String} {make : UInt16 → Instruction}
    (hnames : NamesLocal (type.localPrefix.toString ++ stem) operation)
    (hread : ∀ mnemonic operands,
      operation.read mnemonic operands = (mnemonic.readSlot operands).map make) :
    readFrom start (localText stem type slot) = .ok (some (make slot)) := by
  have hslot := readSlot_natText slot
  unfold localText
  split
  · rename_i hle
    have hlt : slot.toNat < 4 := Nat.lt_succ_of_le (UInt16.le_iff_toNat_le.mp hle)
    obtain ⟨hmnemonic, hfused⟩ := hnames.2 _ hlt
    refine readFrom_bare hmnemonic ?_
    rw [hread, readSlot]
    simp only [hfused, hslot, Except.map, Int.toNat_natCast, UInt16.ofNat_toNat]
  · have hwhole : Whole (String.ofList (natText slot.toNat)).toList := by
      rw [String.toList_ofList, ← intText_natCast]
      exact whole_intText
    refine readFrom_operand hnames.1 hwhole fun start' => ?_
    rw [hread, readSlot, readInt]
    simp only [String.toList_ofList, hslot, Except.map, Int.toNat_natCast, UInt16.ofNat_toNat]

-- ---------------------------------------------------------------------------
-- Constants
-- ---------------------------------------------------------------------------

theorem read_int (value : Int32) : IntRange.int.read (intText value.toInt) = some value.toInt := by
  have hlow := value.le_toInt
  have hhigh := value.toInt_lt
  exact IntRange.read_intText _ hlow (by simp only [IntRange.int]; omega)

theorem read_long (value : Int64) :
    IntRange.long.read (intText value.toInt) = some value.toInt := by
  have hlow := value.le_toInt
  have hhigh := value.toInt_lt
  exact IntRange.read_intText _ hlow (by simp only [IntRange.long]; omega)

theorem readFrom_int (value : Int32) :
    readFrom start (Literal.text (.int value)) = .ok (some (.push (.int value))) := by
  have hvalue := read_int value
  have hwhole : Whole (String.ofList (intText value.toInt)).toList := by
    rw [String.toList_ofList]
    exact whole_intText
  have hoperand : ∀ mnemonic start', Operation.pushInt.read mnemonic
      [⟨String.ofList (intText value.toInt), start'⟩] = .ok (.push (.int value)) := by
    intro mnemonic start'
    simp [Operation.read, readLiteral, readInt, hvalue, Except.map]
  simp only [Literal.text, Literal.intText]
  split
  · rename_i hminus
    obtain rfl : value = -1 := Int32.toInt_inj.mp hminus
    have hfused : fusedOperand "iconst_m1" = some ['m', '1'] :=
      fusedOperand_of_split (by simp : _ = "iconst".toList ++ _) (by decide)
    have hread : IntRange.int.readFused ['m', '1'] = some (-1) := by decide
    refine readFrom_bare ofMnemonic?_iconst_m1 ?_
    simp [Operation.read, readLiteral, hfused, readFusedInt, hread, Except.map]
  split
  · rename_i hsmall
    obtain ⟨n, hn⟩ := Int.eq_ofNat_of_zero_le hsmall.1
    obtain ⟨hmnemonic, hfused⟩ := ofMnemonic?_iconst (n := n) (by omega)
    rw [hn, intText_natCast] at hvalue ⊢
    refine readFrom_bare hmnemonic ?_
    simp [Operation.read, readLiteral, hfused, readFusedInt, readFused_natText, hvalue, Except.map,
      ← hn]
  split
  · rw [show "bipush " = "bipush" ++ " " from rfl]
    exact readFrom_operand ofMnemonic?_bipush hwhole (hoperand _)
  · rw [show "sipush " = "sipush" ++ " " from rfl]
    exact readFrom_operand ofMnemonic?_sipush hwhole (hoperand _)

theorem readPooled_intText (value : Int64) :
    readPooled ⟨String.ofList (intText value.toInt), start⟩ = .ok (.long value) := by
  have hvalue := read_long value
  have hpoint : '.' ∉ intText value.toInt := not_mem_intText (by decide) (by decide)
  simp only [readPooled, String.toList_ofList]
  split
  · rename_i rest hquote
    have hmem : '"' ∉ intText value.toInt := not_mem_intText (by decide) (by decide)
    simp [hquote] at hmem
  · simp [hpoint, readInt, hvalue, Except.map]

theorem readFrom_long (value : Int64) :
    readFrom start (Literal.text (.long value)) = .ok (some (.push (.long value))) := by
  have hvalue := read_long value
  simp only [Literal.text, Literal.longText]
  split
  · rename_i hsmall
    obtain ⟨n, hn⟩ := Int.eq_ofNat_of_zero_le hsmall.1
    obtain ⟨hmnemonic, hfused⟩ := ofMnemonic?_lconst (n := n) (by omega)
    rw [hn, intText_natCast] at hvalue ⊢
    refine readFrom_bare hmnemonic ?_
    simp [Operation.read, readLiteral, hfused, readFusedInt, readFused_natText, hvalue, Except.map,
      ← hn]
  · have hwhole : Whole (String.ofList (intText value.toInt)).toList := by
      rw [String.toList_ofList]
      exact whole_intText
    rw [show "ldc " = "ldc" ++ " " from rfl]
    refine readFrom_operand ofMnemonic?_ldc hwhole fun start' => ?_
    simp [Operation.read, readLiteral, readPooled_intText, Except.map]

theorem readFrom_float (hfinite : value.isFinite = true) :
    readFrom start (Literal.text (.float value)) = .ok (some (.push (.float value))) := by
  obtain ⟨hpoint, hchars⟩ := Single.operandText_chars hfinite
  have hread := Single.read_operandText hfinite
  have hwhole : Whole value.operandText.toList :=
    ⟨List.ne_nil_of_mem hpoint, unbroken_of_plain (plain_of_isDecimalChar hchars)⟩
  rw [Literal.text, show "ldc " = "ldc" ++ " " from rfl]
  refine readFrom_operand ofMnemonic?_ldc hwhole fun start' => ?_
  have hpooled : readPooled ⟨value.operandText, start'⟩ = .ok (.float value) := by
    simp only [readPooled]
    split
    · rename_i rest hquote
      have hc := hchars '"' (by simp [hquote])
      exact absurd hc (by decide)
    · simp [hpoint, hread, hfinite]
  simp [Operation.read, readLiteral, hpooled, Except.map]

theorem readFrom_string (hwhole : Whole ('"' :: value.toList ++ ['"'])) :
    readFrom start (Literal.text (.string value)) = .ok (some (.push (.string value))) := by
  have htext : Literal.text (.string value) = "ldc" ++ " " ++ ("\"" ++ value ++ "\"") := by
    simp [Literal.text, ← String.toList_inj]
  rw [htext]
  refine readFrom_operand ofMnemonic?_ldc (by simpa using hwhole) fun start' => ?_
  simp [Operation.read, readLiteral, readPooled, Except.map]

theorem readFrom_push (h : (push value).Readable) :
    readFrom start (push value).text = .ok (some (push value)) := by
  cases value with
  | int value => exact readFrom_int value
  | long value => exact readFrom_long value
  | float value => exact readFrom_float h.wellFormed
  | string value => exact readFrom_string (h.whole _ rfl)

-- ---------------------------------------------------------------------------
-- Members
-- ---------------------------------------------------------------------------

theorem split_token {before after : List Char} (htext : operand.toList = before ++ c :: after)
    (hc : c ∉ before) : (Token.mk operand start).split c = some (⟨String.ofList before, start⟩,
      ⟨String.ofList after, start + byteSize before + c.utf8Size⟩) := by
  simp [split, splitAtFirst_eq_some_iff.mpr ⟨htext, hc⟩]

theorem ofToken_memberText (start : Nat) (h : IsMember owner name) (hdescriptor : descriptor ≠ "") :
    ∃ start', MemberRef.ofToken ⟨memberText owner name descriptor, start⟩ =
      .ok ⟨owner, name, ⟨descriptor, start'⟩⟩ := by
  have hdot := h.dot_not_mem
  obtain ⟨hgood, hnamed, hcolon⟩ := h
  have hsplit : ∃ start', (Token.mk (memberText owner name descriptor) start).split '.' =
      some (⟨owner.internal, start⟩, ⟨name ++ ":" ++ descriptor, start'⟩) := by
    have hrest : String.ofList (name.toList ++ ':' :: descriptor.toList) =
        name ++ ":" ++ descriptor := by simp [← String.toList_inj]
    rw [split_token memberText_toList hdot, hrest, String.ofList_toList]
    exact ⟨_, rfl⟩
  obtain ⟨start', hsplit⟩ := hsplit
  have hrest : ∃ start'', (Token.mk (name ++ ":" ++ descriptor) start').split ':' =
      some (⟨name, start'⟩, ⟨descriptor, start''⟩) := by
    have htext : (name ++ ":" ++ descriptor).toList = name.toList ++ ':' :: descriptor.toList := by
      simp
    rw [split_token htext hcolon, String.ofList_toList, String.ofList_toList]
    exact ⟨_, rfl⟩
  obtain ⟨start'', hrest⟩ := hrest
  have hclass : (Token.mk owner.internal start).accept
      (ClassName.ofDescriptor ("L" ++ owner.internal ++ ";")) = .ok owner :=
    accept_ok.mpr (ClassName.ofDescriptor_iff.mpr ⟨hgood, rfl⟩)
  refine ⟨start'', ?_⟩
  simp only [MemberRef.ofToken, hsplit, hrest, if_neg hgood.1, if_neg hnamed, if_neg hdescriptor,
    hclass, Except.map]

theorem readFrom_member_iff {read : String → Except Descriptor.Error α}
    {make : ClassName → String → α → Instruction} (h : IsMember owner name)
    (hmnemonic : Operation.ofMnemonic? mnemonic = some operation)
    (hwhole : Whole (memberText owner name descriptor).toList) (hdescriptor : descriptor ≠ "")
    (hread : ∀ mnemonic operands,
      operation.read mnemonic operands = mnemonic.readMember operands read make) :
    readFrom start (mnemonic ++ " " ++ memberText owner name descriptor) = .ok (some i) ↔
      ∃ type, read descriptor = .ok type ∧ make owner name type = i := by
  obtain ⟨start', heq⟩ := readFrom_operand_eq start hmnemonic hwhole
  obtain ⟨start'', hmember⟩ := ofToken_memberText start' h hdescriptor
  rw [heq, map_ok, hread, readMember]
  constructor
  · rintro ⟨j, hj, hji⟩
    cases hji
    obtain ⟨member, hm, hj⟩ := bind_ok.mp hj
    rw [hmember] at hm
    cases hm
    obtain ⟨type, htype, hj⟩ := bind_ok.mp hj
    cases hj
    exact ⟨type, accept_ok.mp htype, rfl⟩
  · rintro ⟨type, htype, rfl⟩
    exact ⟨_, bind_ok.mpr ⟨_, hmember, bind_ok.mpr ⟨type, accept_ok.mpr htype, rfl⟩⟩, rfl⟩

def getMnemonic : FieldScope → String
  | .static => "getstatic"
  | .perObject => "getfield"

def putMnemonic : FieldScope → String
  | .static => "putstatic"
  | .perObject => "putfield"

theorem getField_text : (getField scope owner name type).text =
    getMnemonic scope ++ " " ++ memberText owner name type.descriptor := by
  cases scope <;> rfl

theorem putField_text : (putField scope owner name type).text =
    putMnemonic scope ++ " " ++ memberText owner name type.descriptor := by
  cases scope <;> rfl

theorem field_mnemonics (scope : FieldScope) :
    Operation.ofMnemonic? (getMnemonic scope) = some (.getField scope) ∧
      Operation.ofMnemonic? (putMnemonic scope) = some (.putField scope) := by
  cases scope <;> simp [getMnemonic, putMnemonic, ofMnemonic?_eq_some_iff, table]

theorem invoke_mnemonics (mode : InvokeMode) :
    Operation.ofMnemonic? mode.mnemonic = some (.invoke mode) := by
  cases mode <;> simp [InvokeMode.mnemonic, ofMnemonic?_eq_some_iff, table]

theorem field_descriptor_ne {type : ValueType} (h : type.IsField) : type.descriptor ≠ "" := by
  obtain ⟨c, cs, hc, -⟩ := descriptor_head h
  intro hempty
  simp [hempty] at hc

theorem readFrom_field {make : ClassName → String → ValueType → Instruction}
    (h : IsMember owner name) (htype : type.IsField)
    (hwhole : Whole (memberText owner name type.descriptor).toList)
    (hmnemonic : Operation.ofMnemonic? mnemonic = some operation)
    (hread : ∀ mnemonic operands,
      operation.read mnemonic operands = mnemonic.readMember operands ValueType.ofDescriptor make) :
    readFrom start (mnemonic ++ " " ++ memberText owner name type.descriptor) =
      .ok (some (make owner name type)) := by
  rw [readFrom_member_iff h hmnemonic hwhole (field_descriptor_ne htype) hread]
  exact ⟨type, ValueType.ofDescriptor_iff.mpr ⟨htype, rfl⟩, rfl⟩

theorem method_descriptor_ne (signature : Signature) : signature.descriptor ≠ "" := by
  intro hempty
  have htext := toList_descriptor signature
  simp [hempty] at htext

theorem readFrom_invoke_iff (h : (invoke mode owner name signature).Readable) :
    readFrom start (invoke mode owner name signature).text =
      .ok (some (invoke mode owner name signature)) ↔ signature.BoundsOpen := by
  obtain ⟨hmember, hmethod⟩ := h.wellFormed
  rw [text, readFrom_member_iff hmember (invoke_mnemonics mode) (h.whole _ rfl)
    (method_descriptor_ne signature) fun _ _ => rfl,
    ← Signature.ofDescriptor_descriptor_iff hmethod]
  constructor
  · rintro ⟨type, htype, hinvoke⟩
    cases hinvoke
    exact htype
  · intro hsignature
    exact ⟨signature, hsignature, rfl⟩

-- ---------------------------------------------------------------------------
-- Jumps and labels
-- ---------------------------------------------------------------------------

theorem readFrom_goto (h : (goto target).Readable) :
    readFrom start (goto target).text = .ok (some (goto target)) := by
  have hplain : plain "goto".toList = true := by decide
  obtain ⟨start', hscan⟩ :=
    scanFrom_operand start (by decide : "goto" ≠ "") hplain (h.whole _ rfl)
  rw [readFrom, text, show "goto " = "goto" ++ " " from rfl, hscan, ofTokens]
  simp only [ofMnemonic?_goto, ofOther, if_true, Except.map]

theorem readFrom_label (h : (label name).Readable) :
    readFrom start (label name).text = .ok (some (label name)) := by
  have hname : name ≠ "" := h.wellFormed
  have htext : (name ++ ":").toList = name.toList ++ [':'] := by simp
  have hwhole : Whole (name ++ ":").toList := htext ▸ h.whole _ rfl
  have hnone : Operation.ofMnemonic? (name ++ ":") = none :=
    ofMnemonic?_eq_none_of_colon (by simp)
  have hpos : 0 < name.toList.length := List.length_pos_iff.mpr (by simpa using hname)
  rw [readFrom, text, scanFrom_token hwhole, ofTokens]
  simp [hnone, ofOther, hpos, Except.map]

-- ---------------------------------------------------------------------------
-- All lines
-- ---------------------------------------------------------------------------

theorem readFrom_text (h : i.Readable) (hopen : i.BoundsOpen) :
    readFrom start i.text = .ok (some i) := by
  have hformed := h.wellFormed
  cases i with
  | load slot type => exact readFrom_local (namesLocal_load hformed) fun _ _ => rfl
  | store slot type => exact readFrom_local (namesLocal_store hformed) fun _ _ => rfl
  | arrayLoad type =>
    obtain ⟨element, helement, rfl⟩ := hformed
    exact readFrom_bare (ofMnemonic?_arrayLoad helement) rfl
  | arrayStore type =>
    obtain ⟨element, helement, rfl⟩ := hformed
    exact readFrom_bare (ofMnemonic?_arrayStore helement) rfl
  | invoke mode owner name signature => exact (readFrom_invoke_iff h).mpr hopen
  | leave type =>
    cases type with
    | none => exact readFrom_bare ofMnemonic?_leave rfl
    | some type => exact readFrom_bare (ofMnemonic?_return hformed) rfl
  | getField scope owner name type =>
    rw [getField_text]
    exact readFrom_field hformed.1 hformed.2 (h.whole _ rfl) (field_mnemonics scope).1
      fun _ _ => rfl
  | putField scope owner name type =>
    rw [putField_text]
    exact readFrom_field hformed.1 hformed.2 (h.whole _ rfl) (field_mnemonics scope).2
      fun _ _ => rfl
  | push value => exact readFrom_push h
  | goto target => exact readFrom_goto h
  | label name => exact readFrom_label h

theorem readFrom_text_iff (h : i.Readable) :
    readFrom start i.text = .ok (some i) ↔ i.BoundsOpen := by
  refine ⟨fun hread => ?_, readFrom_text h⟩
  cases i with
  | invoke mode owner name signature => exact (readFrom_invoke_iff h).mp hread
  | _ => trivial

/-- The canonical line of an instruction that was read from a line is read as that instruction. -/
theorem ofLine_text (h : ofLine line = .ok (some i)) (hopen : i.BoundsOpen) :
    ofLine i.text = .ok (some i) :=
  readFrom_text (readable_of_ofLine h) hopen

/-- A reference with blanks inside quotes, which span the owner and the name, and with a bound
that is an interface: the colon before it is not written again. -/
theorem ofLine_text_invokestatic :
    let call : Instruction := .invoke .static ⟨"a\"/B"⟩ "c d\"" (.mk [.mk "T" [.object ⟨"x/Y"⟩]]
      [.typeVariable (.mk "T" [])] .void)
    ofLine "\tinvokestatic  a\"/B.c d\":<T::Lx/Y;>(TT;)V" = .ok (some call) ∧ call.BoundsOpen ∧
      ofLine "invokestatic a\"/B.c d\":<T:Lx/Y;>(TT;)V" = .ok (some call) := by
  intro call
  have hline : ofLine "\tinvokestatic  a\"/B.c d\":<T::Lx/Y;>(TT;)V" = .ok (some call) :=
    toOption_eq_some.mp (by decide +kernel)
  have hopen : call.BoundsOpen := by
    simp [call, BoundsOpen, Signature.BoundsOpen, TypeVariable.BoundsOpen,
      Signature.typeParameters, TypeVariable.bounds, ValueType.opensBounds]
  have htext : call.text = "invokestatic a\"/B.c d\":<T:Lx/Y;>(TT;)V" := by decide +kernel
  exact ⟨hline, hopen, htext ▸ ofLine_text hline hopen⟩

end ClassText.Instruction
