import ClassText.Proofs.Line.Blame
import ClassText.Proofs.Line.Mnemonic
import ClassText.Proofs.Type.Slices

/-!
# Lines are read by proper cuts

The reader of lines, spelled out with every cut that it makes at a byte and every check that
it makes on a position: the tokens are cut out of the line by their spans, the type and the
direction of an instruction are cut out of its mnemonic family by family, the quotes are cut
off a string and the colon off a label, and the span of an error may not leave the line.
`ofLine_safe`: no cut and no check fails, whatever the line is.
-/

namespace ClassText

variable {line : String} {token mnemonic operand : Token} {operands : List Token} {α : Type}

namespace Token

-- ---------------------------------------------------------------------------
-- Tokens
-- ---------------------------------------------------------------------------

/-- Where the token that a text starts in ends, and where the tokens after it stand. -/
def spansFrom (start : Nat) (place : Place) : List Char → Nat × List Span
  | [] => (start, [])
  | c :: rest =>
    let start' := start + c.utf8Size
    if isBlank c ∧ place ≠ .quoted then (start, (spansFrom start' .between rest).2)
    else
      let (stop, spans) := spansFrom start' (place.after c) rest
      if place = .between then (start, ⟨start, stop⟩ :: spans) else (stop, spans)

/-- The token that a line has at a span. -/
def tokenAt? (line : String) (span : Span) : Option Token :=
  (slice? span.start span.stop line.toList).map fun cs => ⟨String.ofList cs, span.start⟩

def tokens? (line : String) : Option (List Token) :=
  (spansFrom 0 .between line.toList).2.mapM (tokenAt? line)

theorem spansFrom_eq (cs : List Char) (start : Nat) (place : Place) :
    (spansFrom start place cs).2 = (scanFrom start place cs).2.map span ∧
      (place ≠ .between →
        (spansFrom start place cs).1 = start + byteSize (scanFrom start place cs).1) := by
  induction cs generalizing start place with
  | nil => exact ⟨rfl, fun _ => rfl⟩
  | cons c cs ih =>
    by_cases hc : isBlank c = true ∧ place ≠ .quoted
    · simp only [spansFrom, scanFrom, if_pos hc]
      exact ⟨(ih _ .between).1, fun _ => rfl⟩
    · obtain ⟨hspans, hstop⟩ := ih (start + c.utf8Size) (place.after c)
      have hstop := hstop (place.after_ne_between c)
      simp only [spansFrom, scanFrom, if_neg hc]
      split
      · rename_i hplace
        refine ⟨?_, fun hne => absurd hplace hne⟩
        rw [List.map_cons, hspans, hstop, span, utf8ByteSize_ofList, byteSize_cons, Nat.add_assoc]
      · refine ⟨hspans, fun _ => ?_⟩
        rw [hstop, byteSize_cons, Nat.add_assoc]

theorem tokenAt?_span (htoken : token ∈ scan line) : tokenAt? line token.span = some token := by
  obtain ⟨before, after, hline, hstart⟩ := (scan_eq_iff.mp rfl).exists_slice htoken
  have hcut := slice?_append before token.text.toList after
  rw [← hline, ← Nat.zero_add (byteSize before), ← hstart, byteSize_toList] at hcut
  simp only [tokenAt?, span, hcut, Option.map_some, String.ofList_toList]

theorem mapM_tokenAt? {tokens : List Token} (h : ∀ token ∈ tokens, token ∈ scan line) :
    (tokens.map span).mapM (tokenAt? line) = some tokens := by
  induction tokens with
  | nil => rfl
  | cons token tokens ih =>
    obtain ⟨htoken, htokens⟩ := List.forall_mem_cons.mp h
    rw [List.map_cons, List.mapM_cons, tokenAt?_span htoken, ih htokens]
    rfl

theorem tokens?_eq (line : String) : tokens? line = some (scan line) := by
  rw [tokens?, (spansFrom_eq _ _ _).1]
  exact mapM_tokenAt? fun _ h => h

-- ---------------------------------------------------------------------------
-- Constants
-- ---------------------------------------------------------------------------

/-- A string loses its quotes; no other constant is cut. -/
def readPooled? (operand : Token) : Checked SyntaxError Literal :=
  let cs := operand.text.toList
  if cs.head? = some '"' then
    if byteSize cs < 2 ∨ cs.getLast? ≠ some '"' then some (operand.reject .unterminatedString)
    else (slice? 1 (byteSize cs - 1) cs).map fun value => .ok (.string (String.ofList value))
  else some operand.readPooled

theorem readPooled?_eq (operand : Token) : operand.readPooled? = some operand.readPooled := by
  unfold readPooled?
  dsimp only
  split
  · rename_i hhead
    obtain ⟨rest, htext⟩ := List.head?_eq_some_iff.mp hhead
    simp only [readPooled, htext]
    obtain rfl | ⟨value, last, rfl⟩ := exists_concat rest
    · rfl
    · have hquote : '"'.utf8Size = 1 := rfl
      have hsize : ¬byteSize ('"' :: (value ++ [last])) < 2 := by
        have hpos := last.utf8Size_pos
        simp only [byteSize_cons, byteSize_append, byteSize_nil, hquote]
        omega
      have hlast : ('"' :: (value ++ [last])).getLast? = some last := by
        rw [← List.cons_append, List.getLast?_concat]
      by_cases hclosed : last = '"'
      · subst hclosed
        rw [if_neg (not_or.mpr ⟨hsize, fun hne => hne hlast⟩), slice?_ends hquote hquote,
          List.getLast?_concat, if_pos rfl, List.dropLast_concat]
        rfl
      · have hne : some last ≠ some '"' := by simpa using hclosed
        rw [hlast, if_pos (.inr hne), List.getLast?_concat, if_neg hne]
  · rfl

-- ---------------------------------------------------------------------------
-- Members
-- ---------------------------------------------------------------------------

end Token

def MemberRef.ofToken? (token : Token) : Checked SyntaxError MemberRef :=
  match token.split '.' with
  | none => some (token.reject .missingDot)
  | some (owner, rest) =>
    match rest.split ':' with
    | none => some (rest.reject .missingColon)
    | some (name, descriptor) =>
      if owner.text = "" then some (token.reject .emptyOwner)
      else if name.text = "" then some (rest.reject .emptyMember)
      else if descriptor.text = "" then some (token.reject .emptyDescriptor)
      else (ClassName.ofDescriptor? ("L" ++ owner.text ++ ";")).map fun reading =>
        (owner.accept reading).map fun ownerName => ⟨ownerName, name.text, descriptor⟩

theorem MemberRef.ofToken?_eq (token : Token) : ofToken? token = some (ofToken token) := by
  unfold ofToken? ofToken
  cases token.split '.' with
  | none => rfl
  | some parts =>
    obtain ⟨owner, rest⟩ := parts
    dsimp only
    cases rest.split ':' with
    | none => rfl
    | some parts =>
      dsimp only
      rw [ClassName.ofDescriptor?_eq]
      -- the three checks for an empty part
      iterate 3
        split
        · rfl
      rfl

namespace Token

def readMember? (mnemonic : Token) (operands : List Token)
    (read? : String → Checked Descriptor.Error α) (make : ClassName → String → α → Instruction) :
    Checked SyntaxError Instruction :=
  match operands with
  | [operand] =>
    (MemberRef.ofToken? operand).andThen fun member =>
      (read? member.descriptor.text).map fun reading =>
        (member.descriptor.accept reading).map (make member.owner member.name)
  | _ => some (mnemonic.rejectCount operands)

theorem readMember?_eq {read? : String → Checked Descriptor.Error α}
    {read : String → Except Descriptor.Error α} (hread : ∀ text, read? text = some (read text))
    (make : ClassName → String → α → Instruction) :
    mnemonic.readMember? operands read? make = some (mnemonic.readMember operands read make) := by
  match operands with
  | [] => rfl
  | [operand] =>
    rw [readMember?, MemberRef.ofToken?_eq]
    refine Checked.andThen_some fun member _ => ?_
    rw [hread]
    rfl
  | _ :: _ :: _ => rfl

-- ---------------------------------------------------------------------------
-- Mnemonics
-- ---------------------------------------------------------------------------

/-- The type that the first letter of a mnemonic stands for; if there is none, the letter is cut
out to be blamed. -/
def letterType? (mnemonic : Token) : Checked SyntaxError ValueType :=
  let cs := mnemonic.text.toList
  let letter := cs.headD ' '
  match ValueType.ofLetter letter with
  | .ok type => some (.ok type)
  | .error cause => (cut? letter.utf8Size cs).map fun (letter, _) =>
    .error ⟨cause, (⟨String.ofList letter, mnemonic.start⟩ : Token).span⟩

/-- Whether a mnemonic goes on with `store` behind its first `n` bytes. -/
def storesBehind? (n : Nat) (mnemonic : String) : Option Bool :=
  (cut? n mnemonic.toList).map fun (_, stem) => "store".toList.isPrefixOf stem

/-- The constant in a mnemonic, which is of the type that its first letter stands for. -/
def readFused (mnemonic : Token) (type : ValueType) : Except SyntaxError Literal :=
  match fusedOperand mnemonic.text with
  | none => mnemonic.reject .constantRequired
  | some digits =>
    if type = .int then
      (mnemonic.readFusedInt .int digits).map fun value => .int (Int32.ofInt value)
    else if type = .long then
      (mnemonic.readFusedInt .long digits).map fun value => .long (Int64.ofInt value)
    else mnemonic.reject .unknownInstruction

def isPooled (mnemonic : String) : Bool := "ldc".toList.isPrefixOf mnemonic.toList

end Token

open Token

/-- Reads an instruction as its family does. -/
def Family.read? (family : Family) (mnemonic : Token) (operands : List Token) :
    Checked SyntaxError Instruction :=
  let kind := mnemonic.text
  match family, operands with
  | .loadStore, _ =>
    mnemonic.letterType?.andThen fun type =>
      Checked.andThen (some (mnemonic.readSlot operands)) fun slot =>
        (storesBehind? 1 kind).map fun stores =>
          .ok (if stores then .store slot type else .load slot type)
  | .arrayLoadStore, [] =>
    mnemonic.letterType?.andThen fun element =>
      (storesBehind? 2 kind).map fun stores =>
        .ok (if stores then .arrayStore (.array element) else .arrayLoad (.array element))
  | .field, _ =>
    mnemonic.readMember? operands ValueType.ofDescriptor?
      (if kind = "getstatic" then .getField .static
        else if kind = "getfield" then .getField .perObject
        else if kind = "putfield" then .putField .perObject
        else .putField .static)
  | .invoke, _ =>
    mnemonic.readMember? operands Signature.ofDescriptor?
      (.invoke (if kind = "invokevirtual" then .virtual
        else if kind = "invokeinterface" then .interface
        else if kind = "invokespecial" then .special
        else .static))
  | .leave, [] =>
    if kind = "return" then some (.ok (.leave none))
    else mnemonic.letterType?.map (·.map fun type => .leave (some type))
  | .const, [] =>
    mnemonic.letterType?.andThen fun type => some ((mnemonic.readFused type).map .push)
  | .const, [operand] =>
    if isPooled kind then operand.readPooled?.map (·.map .push)
    else some ((operand.readInt .int).map fun value => .push (.int (Int32.ofInt value)))
  | _, _ => some (mnemonic.rejectCount operands)

-- ---------------------------------------------------------------------------
-- The table of mnemonics
-- ---------------------------------------------------------------------------

def letterType (mnemonic : String) : Option ValueType :=
  ValueType.ofPrefix? (mnemonic.toList.headD ' ')

/-- The cuts of a mnemonic show which operation of its family it names. -/
def Operation.Shows (mnemonic : String) (operation : Operation) : Bool :=
  match operation with
  | .load type => letterType mnemonic = some type ∧ storesBehind? 1 mnemonic = some false
  | .store type => letterType mnemonic = some type ∧ storesBehind? 1 mnemonic = some true
  | .arrayLoad type => letterType mnemonic = some type ∧ storesBehind? 2 mnemonic = some false
  | .arrayStore type => letterType mnemonic = some type ∧ storesBehind? 2 mnemonic = some true
  | .getField .static => mnemonic = "getstatic"
  | .getField .perObject => mnemonic = "getfield"
  | .putField .static => mnemonic = "putstatic"
  | .putField .perObject => mnemonic = "putfield"
  | .invoke .virtual => mnemonic = "invokevirtual"
  | .invoke .interface => mnemonic = "invokeinterface"
  | .invoke .special => mnemonic = "invokespecial"
  | .invoke .static => mnemonic = "invokestatic"
  | .leave none => mnemonic = "return"
  | .leave (some type) => mnemonic ≠ "return" ∧ letterType mnemonic = some type
  | .pushInt | .pushLong | .pushPooled =>
    isPooled mnemonic = decide (operation = .pushPooled) ∧
      (letterType mnemonic = some (if operation = .pushInt then .int else .long) ∨
        (letterType mnemonic).isSome ∧ fusedOperand mnemonic = none)

/-- The family of a mnemonic, as long as no mnemonic has two rows in the table. -/
def Family.ofMnemonic? (mnemonic : String) : Option (Option Family) :=
  if (Operation.table.map (·.1)).Nodup then
    some ((Operation.ofMnemonic? mnemonic).map Operation.family)
  else none

/-- What holds of the table, checked row by row. -/
theorem Operation.checked_table :
    (table.map (·.1)).Nodup ∧ ∀ row ∈ table, row.2.Shows row.1 = true := by
  decide +kernel

theorem Family.ofMnemonic?_eq (mnemonic : String) :
    ofMnemonic? mnemonic = some ((Operation.ofMnemonic? mnemonic).map Operation.family) :=
  if_pos Operation.checked_table.1

theorem Token.letterType?_eq {mnemonic : Token} {type : ValueType}
    (h : letterType mnemonic.text = some type) : mnemonic.letterType? = some (.ok type) := by
  have hletter : ValueType.ofLetter (mnemonic.text.toList.headD ' ') = .ok type := by
    rw [ValueType.ofLetter, show ValueType.ofPrefix? _ = some type from h]
  simp only [letterType?, hletter]

theorem Family.read?_local {type : ValueType} {stores : Bool}
    (htype : letterType mnemonic.text = some type)
    (hstem : storesBehind? 1 mnemonic.text = some stores) :
    Family.loadStore.read? mnemonic operands = some ((mnemonic.readSlot operands).map fun slot =>
      if stores then .store slot type else .load slot type) := by
  simp only [read?, letterType?_eq htype, hstem]
  exact Checked.andThen_some fun _ _ => rfl

theorem Family.read?_array {type : ValueType} {stores : Bool}
    (htype : letterType mnemonic.text = some type)
    (hstem : storesBehind? 2 mnemonic.text = some stores) :
    Family.arrayLoadStore.read? mnemonic operands = some (mnemonic.readBare operands
      (if stores then .arrayStore (.array type) else .arrayLoad (.array type))) := by
  cases operands with
  | nil =>
    simp only [read?, letterType?_eq htype, Checked.andThen, hstem]
    rfl
  | cons operand operands => rfl

theorem Token.readFused_eq {operation : Operation} {type : ValueType}
    (htype : type = (if operation = .pushInt then ValueType.int else .long) ∨
      fusedOperand mnemonic.text = none) :
    mnemonic.readFused type = mnemonic.readLiteral operation [] := by
  simp only [readFused, readLiteral]
  cases hfused : fusedOperand mnemonic.text with
  | none => rfl
  | some digits =>
    obtain rfl : type = (if operation = .pushInt then ValueType.int else .long) := by
      simpa [hfused] using htype
    have hlong : ValueType.long ≠ .int := by simp
    by_cases hint : operation = .pushInt
    · simp only [if_pos hint, if_true]
    · simp only [if_neg hint, if_neg hlong, if_true]

theorem Family.read?_fused {operation : Operation}
    (hletter : letterType mnemonic.text =
        some (if operation = .pushInt then ValueType.int else .long) ∨
      (letterType mnemonic.text).isSome ∧ fusedOperand mnemonic.text = none) :
    Family.const.read? mnemonic [] = some ((mnemonic.readLiteral operation []).map .push) := by
  obtain ⟨type, htype, hfused⟩ : ∃ type, letterType mnemonic.text = some type ∧
      (type = (if operation = .pushInt then ValueType.int else .long) ∨
        fusedOperand mnemonic.text = none) := by
    obtain hletter | ⟨hsome, hbare⟩ := hletter
    · exact ⟨_, hletter, .inl rfl⟩
    · obtain ⟨type, htype⟩ := Option.isSome_iff_exists.mp hsome
      exact ⟨type, htype, .inr hbare⟩
  simp only [read?, letterType?_eq htype, Checked.andThen, readFused_eq hfused]

theorem Family.read?_const {operation : Operation}
    (hpooled : isPooled mnemonic.text = decide (operation = .pushPooled))
    (hletter : letterType mnemonic.text =
        some (if operation = .pushInt then ValueType.int else .long) ∨
      (letterType mnemonic.text).isSome ∧ fusedOperand mnemonic.text = none) :
    Family.const.read? mnemonic operands =
      some ((mnemonic.readLiteral operation operands).map .push) := by
  match operands with
  | [] => exact read?_fused hletter
  | [operand] =>
    simp only [read?, hpooled, readLiteral, decide_eq_true_eq, readPooled?_eq]
    split
    · rfl
    · cases operand.readInt .int <;> rfl
  | _ :: _ :: _ => rfl

/-- The cuts that a family makes show the operation that its mnemonic has in the table. -/
theorem Family.read?_eq {operation : Operation}
    (hrow : (mnemonic.text, operation) ∈ Operation.table) :
    operation.family.read? mnemonic operands = some (operation.read mnemonic operands) := by
  have hshows : operation.Shows mnemonic.text = true := Operation.checked_table.2 _ hrow
  cases operation with
  | load type | store type =>
    obtain ⟨htype, hstem⟩ := of_decide_eq_true hshows
    exact Family.read?_local htype hstem
  | arrayLoad type | arrayStore type =>
    obtain ⟨htype, hstem⟩ := of_decide_eq_true hshows
    exact Family.read?_array htype hstem
  | getField scope | putField scope =>
    cases scope <;>
    · have hkind := of_decide_eq_true hshows
      simp only [Operation.family, read?]
      rw [readMember?_eq ValueType.ofDescriptor?_eq]
      simp [hkind, Operation.read]
  | invoke mode =>
    cases mode <;>
    · have hkind := of_decide_eq_true hshows
      simp only [Operation.family, read?]
      rw [readMember?_eq Signature.ofDescriptor?_eq]
      simp [hkind, Operation.read]
  | leave type =>
    cases operands with
    | cons operand operands => cases type <;> rfl
    | nil =>
      cases type with
      | none =>
        have hkind := of_decide_eq_true hshows
        simp only [Operation.family, read?, if_pos hkind]
        rfl
      | some type =>
        obtain ⟨hkind, htype⟩ := of_decide_eq_true hshows
        simp only [Operation.family, read?, if_neg hkind, letterType?_eq htype]
        rfl
  | pushInt | pushLong | pushPooled =>
    obtain ⟨hpooled, hletter⟩ := of_decide_eq_true hshows
    exact Family.read?_const hpooled hletter

-- ---------------------------------------------------------------------------
-- Lines
-- ---------------------------------------------------------------------------

namespace Instruction

/-- A label loses its colon; a jump is not cut. -/
def ofOther? (first : Token) (operands : List Token) : Checked SyntaxError Instruction :=
  let cs := first.text.toList
  match operands with
  | [] =>
    if 1 < byteSize cs ∧ cs.getLast? = some ':' then
      (slice? 0 (byteSize cs - 1) cs).map fun name => .ok (.label (String.ofList name))
    else some (first.reject .unknownInstruction)
  | _ => some (ofOther first operands)

def ofTokens? : List Token → Checked SyntaxError (Option Instruction)
  | [] => some (.ok none)
  | first :: operands =>
    (Family.ofMnemonic? first.text).bind fun
      | some family => (family.read? first operands).map (·.map some)
      | none => (ofOther? first operands).map (·.map some)

/-- An error is given a span where it arises; the span has to be in the line. -/
def checkSpan? (line : String) (result : Except SyntaxError α) : Checked SyntaxError α :=
  match result with
  | .ok a => some (.ok a)
  | .error e =>
    if e.span.start ≤ line.utf8ByteSize ∧ e.span.stop ≤ line.utf8ByteSize then some (.error e)
    else none

def ofLine? (line : String) : Checked SyntaxError (Option Instruction) :=
  (tokens? line).bind fun tokens => (ofTokens? tokens).bind (checkSpan? line)

theorem ofOther?_eq (first : Token) (operands : List Token) :
    ofOther? first operands = some (ofOther first operands) := by
  cases operands with
  | cons operand operands => rfl
  | nil =>
    simp only [ofOther?, ofOther]
    obtain hnil | ⟨name, last, hlast⟩ := exists_concat first.text.toList
    · simp only [hnil]
      rfl
    · simp only [hlast, List.getLast?_concat, List.dropLast_concat, Option.some.injEq]
      by_cases hcolon : last = ':'
      · subst hcolon
        have hsize : 1 < byteSize (name ++ [':']) ↔ 1 < (name ++ [':']).length := by
          have hcolon : ':'.utf8Size = 1 := rfl
          cases name with
          | nil => simp [hcolon]
          | cons c name =>
            have hpos := c.utf8Size_pos
            simp only [List.cons_append, byteSize_cons, byteSize_append, byteSize_nil, hcolon,
              List.length_cons, List.length_append, List.length_nil]
            omega
        simp only [hsize, and_true, true_and]
        split
        · rw [slice?_dropLast rfl]
          rfl
        · rfl
      · simp only [hcolon, and_false, false_and, if_false]

theorem ofTokens?_eq (tokens : List Token) : ofTokens? tokens = some (ofTokens tokens) := by
  cases tokens with
  | nil => rfl
  | cons first operands =>
    simp only [ofTokens?, ofTokens, Family.ofMnemonic?_eq, Option.bind_some]
    cases hoperation : Operation.ofMnemonic? first.text with
    | none =>
      simp only [Option.map_none, ofOther?_eq]
      rfl
    | some operation =>
      have hrow := Operation.ofMnemonic?_eq_some_iff.mp hoperation
      simp only [Option.map_some, Family.read?_eq hrow]

theorem checkSpan?_eq {result : Except SyntaxError α}
    (h : ∀ e, result = .error e → e.span.start ≤ e.span.stop ∧ e.span.stop ≤ line.utf8ByteSize) :
    checkSpan? line result = some result := by
  cases result with
  | ok a => rfl
  | error e =>
    obtain ⟨hordered, hline⟩ := h e rfl
    rw [checkSpan?, if_pos ⟨Nat.le_trans hordered hline, hline⟩]

theorem ofLine?_eq (line : String) : ofLine? line = some (ofLine line) := by
  have hspan : ∀ e, ofLine line = .error e →
      e.span.start ≤ e.span.stop ∧ e.span.stop ≤ line.utf8ByteSize := by
    intro e he
    obtain ⟨token, -, hin⟩ := ofLine_inToken he
    exact ⟨hin.ordered, hin.inLine⟩
  rw [ofLine?, tokens?_eq, Option.bind_some, ofTokens?_eq, Option.bind_some]
  exact checkSpan?_eq hspan

/-- No cut and no check fails when a line is read. If it is rejected, then the span of the error
is in one of its tokens: both ends are between characters of the line, and the span is empty
only at the end of the token. -/
theorem ofLine_safe (line : String) :
    ofLine? line = some (ofLine line) ∧
      ∀ e, ofLine line = .error e → ∃ token ∈ scan line, InToken line token e.span :=
  ⟨ofLine?_eq line, fun _ h => ofLine_inToken h⟩

/-- Nothing follows the dot, which stands behind a character of two bytes. -/
theorem ofLine_safe_member :
    ofLine "getfield Fóo." = .error ⟨.missingColon, ⟨14, 14⟩⟩ ∧
      ∃ token ∈ scan "getfield Fóo.", InToken "getfield Fóo." token ⟨14, 14⟩ := by
  have hline : ofLine "getfield Fóo." = .error ⟨.missingColon, ⟨14, 14⟩⟩ := by rfl
  exact ⟨hline, (ofLine_safe _).2 _ hline⟩

end Instruction

end ClassText
