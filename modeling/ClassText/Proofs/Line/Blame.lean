import ClassText.Line.Parser
import ClassText.Proofs.Line.Partition
import ClassText.Proofs.Text.Cut

/-!
# What is to blame for an error

Each reader puts the blame for an error on a token that it was given or on a piece of one:
the class, the descriptor, or what follows the dot of a member reference. `blames_ofTokens`:
so does the reader of lines, with a token of the line. As tokens are slices of their line,
so are the pieces, and the span of an error is between two characters at both ends.
-/

namespace ClassText

namespace Token

variable {token piece mnemonic operand : Token} {operands tokens : List Token} {α β : Type}

-- ---------------------------------------------------------------------------
-- Pieces of tokens
-- ---------------------------------------------------------------------------

/-- A part of a token where it stands in the line. It is empty only at the end of the token. -/
def HasPiece (token piece : Token) : Prop :=
  ∃ before after, token.text.toList = before ++ piece.text.toList ++ after ∧
    piece.start = token.start + byteSize before ∧ (piece.text = "" → after = [])

theorem HasPiece.refl (token : Token) : token.HasPiece token :=
  ⟨[], [], by simp, rfl, fun _ => rfl⟩

theorem HasPiece.trans {rest : Token} (hrest : token.HasPiece rest) (hpiece : rest.HasPiece piece)
    (hne : piece.text ≠ "") : token.HasPiece piece := by
  obtain ⟨before, after, htoken, hstart, -⟩ := hrest
  obtain ⟨before', after', hrest, hstart', -⟩ := hpiece
  refine ⟨before ++ before', after' ++ after, ?_, ?_, fun h => absurd h hne⟩
  · rw [htoken, hrest]
    simp only [List.append_assoc]
  · rw [hstart', hstart, byteSize_append, Nat.add_assoc]

theorem split_pieces {before after : Token} (h : token.split c = some (before, after)) :
    token.text.toList = before.text.toList ++ c :: after.text.toList ∧
      before.start = token.start ∧
      after.start = token.start + byteSize (before.text.toList ++ [c]) := by
  simp only [split, Option.map_eq_some_iff, Prod.exists] at h
  obtain ⟨cs, ds, hsplit, h⟩ := h
  cases h
  obtain ⟨htext, -⟩ := splitAtFirst_eq_some_iff.mp hsplit
  refine ⟨?_, rfl, ?_⟩
  · rw [htext, String.toList_ofList, String.toList_ofList]
  · rw [String.toList_ofList, byteSize_append, byteSize_cons, byteSize_nil, Nat.add_zero,
      Nat.add_assoc]

/-- What follows a cut reaches to the end of the token. -/
theorem hasPiece_behind {before after : Token} (h : token.split c = some (before, after)) :
    token.HasPiece after := by
  obtain ⟨htext, -, hstart⟩ := split_pieces h
  refine ⟨before.text.toList ++ [c], [], ?_, hstart, fun _ => rfl⟩
  rw [htext, List.append_nil, List.append_assoc, List.singleton_append]

theorem hasPiece_before {before after : Token} (h : token.split c = some (before, after))
    (hne : before.text ≠ "") : token.HasPiece before := by
  obtain ⟨htext, hstart, -⟩ := split_pieces h
  exact ⟨[], c :: after.text.toList, htext, hstart, fun h => absurd h hne⟩

-- ---------------------------------------------------------------------------
-- Blame
-- ---------------------------------------------------------------------------

/-- If there is an error, a piece of one of the tokens is to blame. -/
def Blames (tokens : List Token) (result : Except SyntaxError α) : Prop :=
  ∀ e, result = .error e → ∃ token ∈ tokens, ∃ piece, token.HasPiece piece ∧ e.span = piece.span

theorem blames_ok (a : α) : Blames tokens (.ok a) := by
  rintro e ⟨⟩

theorem blames_reject {cause : Cause} (htoken : token ∈ tokens) (hpiece : token.HasPiece piece) :
    Blames tokens (piece.reject cause : Except SyntaxError α) := by
  rintro e ⟨⟩
  exact ⟨token, htoken, piece, hpiece, rfl⟩

theorem blames_self {cause : Cause} (htoken : token ∈ tokens) :
    Blames tokens (token.reject cause : Except SyntaxError α) :=
  blames_reject htoken (HasPiece.refl token)

theorem blames_accept {reading : Except Descriptor.Error α} (htoken : token ∈ tokens)
    (hpiece : token.HasPiece piece) : Blames tokens (piece.accept reading) := by
  cases reading with
  | ok a => exact blames_ok a
  | error e => exact blames_reject htoken hpiece

theorem Blames.map {result : Except SyntaxError α} (h : Blames tokens result) (f : α → β) :
    Blames tokens (result.map f) := by
  cases result with
  | ok a => exact blames_ok (f a)
  | error e =>
    rintro e' ⟨⟩
    exact h e rfl

theorem Blames.bind {result : Except SyntaxError α} {next : α → Except SyntaxError β}
    (h : Blames tokens result) (hnext : ∀ a, result = .ok a → Blames tokens (next a)) :
    Blames tokens (result >>= next) := by
  cases result with
  | ok a => exact hnext a rfl
  | error e =>
    rintro e' ⟨⟩
    exact h e rfl

-- ---------------------------------------------------------------------------
-- Operands
-- ---------------------------------------------------------------------------

theorem blames_rejectCount :
    Blames (mnemonic :: operands) (mnemonic.rejectCount operands : Except SyntaxError α) := by
  cases operands with
  | nil => exact blames_self (List.mem_singleton_self mnemonic)
  | cons operand operands => exact blames_self (List.mem_cons_of_mem _ List.mem_cons_self)

theorem blames_readInt (range : IntRange) (htoken : token ∈ tokens) :
    Blames tokens (token.readInt range) := by
  unfold readInt
  split
  · exact blames_ok _
  · exact blames_self htoken

theorem blames_readFusedInt (range : IntRange) (digits : List Char) (htoken : token ∈ tokens) :
    Blames tokens (token.readFusedInt range digits) := by
  unfold readFusedInt
  split
  · exact blames_ok _
  · exact blames_self htoken

theorem blames_readSlot : Blames (mnemonic :: operands) (mnemonic.readSlot operands) := by
  unfold readSlot
  split
  · split
    · exact blames_self List.mem_cons_self
    · split
      · exact blames_ok _
      · exact blames_self List.mem_cons_self
  · exact (blames_readInt _ (List.mem_cons_of_mem _ (List.mem_singleton_self _))).map _
  · exact blames_rejectCount

theorem blames_readPooled (htoken : token ∈ tokens) : Blames tokens token.readPooled := by
  unfold readPooled
  dsimp only
  split
  · split
    · exact blames_ok _
    · exact blames_self htoken
  · split
    · split
      · split
        · exact blames_ok _
        · exact blames_self htoken
      · exact blames_self htoken
    · exact (blames_readInt _ htoken).map _

theorem blames_readLiteral (operation : Operation) :
    Blames (mnemonic :: operands) (mnemonic.readLiteral operation operands) := by
  unfold readLiteral
  split
  · split
    · exact blames_self List.mem_cons_self
    · split
      · exact (blames_readFusedInt _ _ List.mem_cons_self).map _
      · exact (blames_readFusedInt _ _ List.mem_cons_self).map _
  · have hoperand := List.mem_cons_of_mem mnemonic (List.mem_singleton_self ‹Token›)
    split
    · exact blames_readPooled hoperand
    · exact (blames_readInt _ hoperand).map _
  · exact blames_rejectCount

theorem blames_readBare (instruction : Instruction) :
    Blames (mnemonic :: operands) (mnemonic.readBare operands instruction) := by
  unfold readBare
  split
  · exact blames_ok _
  · exact blames_rejectCount

-- ---------------------------------------------------------------------------
-- Member references
-- ---------------------------------------------------------------------------

theorem blames_ofToken (htoken : token ∈ tokens) : Blames tokens (MemberRef.ofToken token) := by
  unfold MemberRef.ofToken
  split
  · exact blames_self htoken
  rename_i owner rest hdot
  have hrest := hasPiece_behind hdot
  split
  · exact blames_reject htoken hrest
  split
  · exact blames_self htoken
  rename_i howner
  split
  · exact blames_reject htoken hrest
  split
  · exact blames_self htoken
  exact (blames_accept htoken (hasPiece_before hdot howner)).map _

theorem hasPiece_descriptor {member : MemberRef} (h : MemberRef.ofToken token = .ok member) :
    token.HasPiece member.descriptor := by
  unfold MemberRef.ofToken at h
  split at h
  · cases h
  rename_i owner rest hdot
  split at h
  · cases h
  rename_i name descriptor hcolon
  split at h
  · cases h
  split at h
  · cases h
  split at h
  · cases h
  rename_i hne
  have hpiece := (hasPiece_behind hdot).trans (hasPiece_behind hcolon) hne
  cases hname : owner.accept (ClassName.ofDescriptor ("L" ++ owner.text ++ ";")) with
  | error e =>
    rw [hname] at h
    cases h
  | ok ownerName =>
    rw [hname] at h
    cases h
    exact hpiece

theorem blames_readMember (read : String → Except Descriptor.Error α)
    (make : ClassName → String → α → Instruction) :
    Blames (mnemonic :: operands) (mnemonic.readMember operands read make) := by
  unfold readMember
  split
  · rename_i operand
    have hoperand := List.mem_cons_of_mem mnemonic (List.mem_singleton_self operand)
    refine (blames_ofToken hoperand).bind fun member hmember => ?_
    refine (blames_accept hoperand (hasPiece_descriptor hmember)).bind fun type _ => ?_
    exact blames_ok _
  · exact blames_rejectCount

end Token

open Token

theorem Operation.blames_read (operation : Operation) (mnemonic : Token) (operands : List Token) :
    Blames (mnemonic :: operands) (operation.read mnemonic operands) := by
  cases operation with
  | load type | store type => exact blames_readSlot.map _
  | arrayLoad element | arrayStore element => exact blames_readBare _
  | getField scope | putField scope | invoke mode => exact blames_readMember _ _
  | leave type => exact blames_readBare _
  | pushInt | pushLong | pushPooled => exact (blames_readLiteral _).map _

namespace Instruction

theorem blames_ofOther (first : Token) (operands : List Token) :
    Blames (first :: operands) (ofOther first operands) := by
  unfold ofOther
  dsimp only
  split
  · split
    · exact blames_ok _
    · exact blames_self List.mem_cons_self
  · split
    · exact blames_ok _
    · exact blames_self List.mem_cons_self
  · exact blames_self List.mem_cons_self

theorem blames_ofTokens (tokens : List Token) : Blames tokens (ofTokens tokens) := by
  cases tokens with
  | nil => exact blames_ok none
  | cons first operands =>
    unfold ofTokens
    dsimp only
    split
    · exact (Operation.blames_read _ first operands).map some
    · exact (blames_ofOther first operands).map some

-- ---------------------------------------------------------------------------
-- Spans
-- ---------------------------------------------------------------------------

/-- A span that is a part of a token of the line: both its ends are between characters of the
line, and it is empty only at the end of the token. -/
structure InToken (line : String) (token : Token) (span : Span) : Prop where
  start_ge : token.span.start ≤ span.start
  ordered : span.start ≤ span.stop
  stop_le : span.stop ≤ token.span.stop
  inLine : span.stop ≤ line.utf8ByteSize
  startValid : String.Pos.Raw.IsValid line ⟨span.start⟩
  stopValid : String.Pos.Raw.IsValid line ⟨span.stop⟩
  emptyAtEnd : span.start = span.stop → span.stop = token.span.stop

theorem inToken_of_hasPiece {line : String} {token piece : Token} (htoken : token ∈ scan line)
    (hpiece : token.HasPiece piece) : InToken line token piece.span := by
  obtain ⟨before, after, htext, hstart, hempty⟩ := hpiece
  obtain ⟨front, back, hline, hfront⟩ := (scan_eq_iff.mp rfl).exists_slice htoken
  rw [Nat.zero_add] at hfront
  rw [htext] at hline
  have hbefore : line.toList = (front ++ before) ++ (piece.text.toList ++ after ++ back) := by
    simp only [hline, List.append_assoc]
  have hbehind : line.toList = (front ++ before ++ piece.text.toList) ++ (after ++ back) := by
    simp only [hline, List.append_assoc]
  have hpieceStart : piece.span.start = byteSize (front ++ before) := by
    rw [span, hstart, hfront, byteSize_append]
  have hpieceStop : piece.span.stop = byteSize (front ++ before ++ piece.text.toList) := by
    rw [byteSize_append, ← hpieceStart, byteSize_toList]
    rfl
  have hsize : token.text.utf8ByteSize =
      byteSize before + piece.text.utf8ByteSize + byteSize after := by
    rw [← byteSize_toList, htext, byteSize_append, byteSize_append, byteSize_toList]
  have hlineSize := congrArg byteSize hbehind
  rw [byteSize_toList, byteSize_append, ← hpieceStop] at hlineSize
  constructor
  · simp only [span]
    omega
  · exact Nat.le_add_right _ _
  · simp only [span]
    omega
  · omega
  · exact hpieceStart ▸ isValid_byteSize hbefore
  · exact hpieceStop ▸ isValid_byteSize hbehind
  · intro heq
    have hzero : piece.text.utf8ByteSize = 0 := by
      simp only [span] at heq
      omega
    have hafter : after = [] := hempty (String.utf8ByteSize_eq_zero_iff.mp hzero)
    simp only [hafter, byteSize_nil] at hsize
    simp only [span]
    omega

/-- The span of an error is in a token of the line. -/
theorem ofLine_inToken {line : String} {e : SyntaxError} (h : ofLine line = .error e) :
    ∃ token ∈ scan line, InToken line token e.span := by
  obtain ⟨token, htoken, piece, hpiece, hspan⟩ := blames_ofTokens (scan line) e h
  rw [hspan]
  exact ⟨token, htoken, inToken_of_hasPiece htoken hpiece⟩

end Instruction

end ClassText
