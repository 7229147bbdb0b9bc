import ClassText.Instruction.Text
import ClassText.Line.Parser
import ClassText.Proofs.Line.Mnemonic
import ClassText.Proofs.Line.Partition
import ClassText.Proofs.Type.Signature

/-!
# What lines hold

`readable_of_ofTokens`: an instruction that is read from whole tokens has types, names and
descriptors of the kinds that the reader admits, and its open operand, if it has one, is a
whole token again. That operand is the one it was read from, except that the reader of
descriptors may have passed over colons (`FreeFrom`).
-/

namespace ClassText

open Descriptor Token

variable {token mnemonic operand : Token}

structure IsMember (owner : ClassName) (name : String) : Prop where
  goodOwner : GoodName owner.internal
  named : name ≠ ""
  noColon : ':' ∉ name.toList

namespace Instruction

/-- The token of an instruction that is not made up by the mnemonic, a number or a type. -/
def freeToken : Instruction → Option (List Char)
  | .invoke _ owner name signature => some (memberText owner name signature.descriptor).toList
  | .getField _ owner name type => some (memberText owner name type.descriptor).toList
  | .putField _ owner name type => some (memberText owner name type.descriptor).toList
  | .push (.string value) => some ('"' :: value.toList ++ ['"'])
  | .goto target => some target.toList
  | .label name => some (name.toList ++ [':'])
  | _ => none

/-- The parts of an instruction are of the kinds that the reader admits. -/
def WellFormed : Instruction → Prop
  | .load _ type | .store _ type | .leave (some type) => type ∈ localTypes
  | .arrayLoad type | .arrayStore type => ∃ element ∈ elementTypes, type = .array element
  | .invoke _ owner name signature => IsMember owner name ∧ signature.IsMethod
  | .getField _ owner name type | .putField _ owner name type => IsMember owner name ∧ type.IsField
  | .push (.float value) => value.isFinite = true
  | .label name => name ≠ ""
  | _ => True

/-- The free token is one of the given tokens, except that colons may have been dropped. -/
def FreeFrom (tokens : List Token) (i : Instruction) : Prop :=
  ∀ cs, i.freeToken = some cs → ∃ token ∈ tokens,
    withoutColons cs = withoutColons token.text.toList ∧ (cs = [] → token.text.toList = [])

structure Readable (i : Instruction) : Prop where
  wellFormed : i.WellFormed
  whole : ∀ cs, i.freeToken = some cs → Whole cs

end Instruction

-- ---------------------------------------------------------------------------
-- Members
-- ---------------------------------------------------------------------------

theorem IsMember.dot_not_mem (h : IsMember owner name) : '.' ∉ owner.internal.toList := by
  intro hmem
  have hends := h.goodOwner.2 _ hmem
  revert hends
  decide

theorem accept_ok {reading : Except Descriptor.Error α} :
    token.accept reading = .ok a ↔ reading = .ok a := by
  constructor
  · intro h
    cases reading with
    | error e => cases h
    | ok b =>
      cases h
      rfl
  · rintro rfl
    rfl

theorem split_ok {before after : Token} (h : token.split c = some (before, after)) :
    c ∉ before.text.toList ∧
      token.text.toList = before.text.toList ++ c :: after.text.toList := by
  simp only [split, Option.map_eq_some_iff, Prod.exists] at h
  obtain ⟨cs, ds, hsplit, h⟩ := h
  cases h
  obtain ⟨htext, hc⟩ := splitAtFirst_eq_some_iff.mp hsplit
  simp [htext, hc]

theorem memberText_toList {owner : ClassName} {name descriptor : String} :
    (Instruction.memberText owner name descriptor).toList =
    owner.internal.toList ++ '.' :: (name.toList ++ ':' :: descriptor.toList) := by
  simp [Instruction.memberText]

theorem ofToken_ok (h : MemberRef.ofToken token = .ok member) :
    IsMember member.owner member.name ∧ token.text.toList =
      (Instruction.memberText member.owner member.name member.descriptor.text).toList := by
  simp only [MemberRef.ofToken] at h
  split at h
  · simp [reject] at h
  rename_i owner rest hdot
  split at h
  · simp [reject] at h
  rename_i name descriptor hcolon
  obtain ⟨-, htoken⟩ := split_ok hdot
  obtain ⟨hname, hrest⟩ := split_ok hcolon
  split at h
  · simp [reject] at h
  split at h
  · simp [reject] at h
  rename_i hne
  split at h
  · simp [reject] at h
  obtain ⟨ownerName, haccept, rfl⟩ := map_ok.mp h
  obtain ⟨hgood, htext⟩ := ClassName.ofDescriptor_iff.mp (accept_ok.mp haccept)
  have howner : owner.text = ownerName.internal := by
    have hlist := congrArg String.toList htext
    simpa [String.toList_inj] using hlist
  exact ⟨⟨hgood, hne, hname⟩, by rw [memberText_toList, htoken, hrest, howner]⟩

theorem readMember_ok {read : String → Except Descriptor.Error α}
    (h : readMember mnemonic operands read make = .ok i) :
    ∃ operand owner name descriptor type, operands = [operand] ∧ IsMember owner name ∧
      operand.text.toList = (Instruction.memberText owner name descriptor).toList ∧
      read descriptor = .ok type ∧ i = make owner name type := by
  unfold readMember at h
  split at h
  · rename_i operand
    obtain ⟨member, hmember, h⟩ := bind_ok.mp h
    obtain ⟨type, htype, h⟩ := bind_ok.mp h
    cases h
    obtain ⟨hok, htext⟩ := ofToken_ok hmember
    exact ⟨operand, _, _, _, type, rfl, hok, htext, accept_ok.mp htype, rfl⟩
  · simp [rejectCount, reject] at h

-- ---------------------------------------------------------------------------
-- Constants
-- ---------------------------------------------------------------------------

theorem readPooled_ok (h : readPooled operand = .ok literal) :
    (∃ value, literal = .long value) ∨
      (∃ value, literal = .float value ∧ value.isFinite = true) ∨
      ∃ value, literal = .string value ∧ operand.text.toList = '"' :: value.toList ++ ['"'] := by
  simp only [readPooled] at h
  split at h
  · rename_i rest htext
    split at h
    · rename_i hlast
      cases h
      obtain ⟨before, rfl⟩ := List.getLast?_eq_some_iff.mp hlast
      exact .inr (.inr ⟨_, rfl, by simp [htext]⟩)
    · simp [reject] at h
  · split at h
    · split at h
      · split at h
        · rename_i hfinite
          cases h
          exact .inr (.inl ⟨_, rfl, hfinite⟩)
        · simp [reject] at h
      · simp [reject] at h
    · obtain ⟨value, -, rfl⟩ := map_ok.mp h
      exact .inl ⟨_, rfl⟩

theorem readLiteral_ok (h : readLiteral mnemonic operation operands = .ok literal) :
    (∃ value, literal = .int value) ∨ (∃ value, literal = .long value) ∨
      ∃ operand, operands = [operand] ∧ readPooled operand = .ok literal := by
  unfold readLiteral at h
  split at h
  · split at h
    · simp [reject] at h
    · split at h
      · obtain ⟨value, -, rfl⟩ := map_ok.mp h
        exact .inl ⟨_, rfl⟩
      · obtain ⟨value, -, rfl⟩ := map_ok.mp h
        exact .inr (.inl ⟨_, rfl⟩)
  · rename_i operand
    split at h
    · exact .inr (.inr ⟨operand, rfl, h⟩)
    · obtain ⟨value, -, rfl⟩ := map_ok.mp h
      exact .inl ⟨_, rfl⟩
  · simp [rejectCount, reject] at h

theorem readBare_ok (h : readBare mnemonic operands i = .ok j) : j = i := by
  unfold readBare at h
  split at h
  · cases h; rfl
  · simp [rejectCount, reject] at h

-- ---------------------------------------------------------------------------
-- Instructions
-- ---------------------------------------------------------------------------

namespace Instruction

theorem freeFrom_of_none (h : i.freeToken = none) : FreeFrom tokens i := by
  intro cs hcs
  simp [h] at hcs

theorem freeFrom_member (hdescriptor : withoutColons after.toList = withoutColons before.toList)
    (htext : operand.text.toList = (memberText owner name before).toList)
    (hfree : freeToken i = some (memberText owner name after).toList) : FreeFrom [operand] i := by
  intro cs hcs
  rw [hfree, Option.some.injEq] at hcs
  refine ⟨operand, List.mem_singleton_self _, ?_, ?_⟩
  · simp only [← hcs, htext, memberText_toList, withoutColons_append, withoutColons_colon,
      withoutColons_cons (show '.' ≠ ':' by decide), hdescriptor]
  · simp [← hcs, memberText_toList]

theorem read_ok {operation : Operation} (hletter : operation.hasLetter = true)
    (h : operation.read mnemonic operands = .ok i) : i.WellFormed ∧ FreeFrom operands i := by
  cases operation with
  | load type | store type =>
    have hlocal : type ∈ localTypes := of_decide_eq_true hletter
    obtain ⟨slot, -, rfl⟩ := map_ok.mp h
    exact ⟨hlocal, freeFrom_of_none rfl⟩
  | arrayLoad element | arrayStore element =>
    obtain rfl := readBare_ok h
    exact ⟨⟨element, of_decide_eq_true hletter, rfl⟩, freeFrom_of_none rfl⟩
  | getField scope | putField scope =>
    obtain ⟨operand, owner, name, descriptor, type, rfl, hmember, htext, htype, rfl⟩ :=
      readMember_ok h
    obtain ⟨hfield, rfl⟩ := ValueType.ofDescriptor_iff.mp htype
    exact ⟨⟨hmember, hfield⟩, freeFrom_member rfl htext rfl⟩
  | invoke mode =>
    obtain ⟨operand, owner, name, descriptor, signature, rfl, hmember, htext, hsignature, rfl⟩ :=
      readMember_ok h
    obtain ⟨hmethod, hcolons⟩ := Signature.ofDescriptor_colons hsignature
    exact ⟨⟨hmember, hmethod⟩, freeFrom_member hcolons htext rfl⟩
  | leave type =>
    obtain rfl := readBare_ok h
    cases type with
    | none => exact ⟨trivial, freeFrom_of_none rfl⟩
    | some type =>
      have hlocal : type ∈ localTypes := of_decide_eq_true hletter
      exact ⟨hlocal, freeFrom_of_none rfl⟩
  | pushInt | pushLong | pushPooled =>
    obtain ⟨literal, hliteral, rfl⟩ := map_ok.mp h
    rcases readLiteral_ok hliteral with ⟨value, rfl⟩ | ⟨value, rfl⟩ | ⟨operand, rfl, hpooled⟩
    · exact ⟨trivial, freeFrom_of_none rfl⟩
    · exact ⟨trivial, freeFrom_of_none rfl⟩
    rcases readPooled_ok hpooled with ⟨value, rfl⟩ | ⟨value, rfl, hfinite⟩ | ⟨value, rfl, htext⟩
    · exact ⟨trivial, freeFrom_of_none rfl⟩
    · exact ⟨hfinite, freeFrom_of_none rfl⟩
    · refine ⟨trivial, fun cs hcs => ⟨operand, List.mem_singleton_self _, ?_⟩⟩
      cases hcs
      exact ⟨by rw [htext], by simp⟩

theorem ofOther_ok (h : ofOther first operands = .ok i) :
    i.WellFormed ∧ FreeFrom (first :: operands) i := by
  simp only [ofOther] at h
  split at h
  · rename_i target
    split at h
    · cases h
      refine ⟨trivial, fun cs hcs => ⟨target, by simp, ?_⟩⟩
      cases hcs
      exact ⟨rfl, id⟩
    · simp [reject] at h
  · split at h
    · rename_i hlabel
      cases h
      obtain ⟨name, hname⟩ := List.getLast?_eq_some_iff.mp hlabel.1
      have hne : name ≠ [] := by rintro rfl; simp [hname] at hlabel
      refine ⟨by simpa [WellFormed, hname] using hne, fun cs hcs => ⟨first, by simp, ?_⟩⟩
      cases hcs
      simp [hname]
    · simp [reject] at h
  · simp [reject] at h

theorem ofTokens_ok (h : ofTokens tokens = .ok (some i)) : i.WellFormed ∧ FreeFrom tokens i := by
  cases tokens with
  | nil => simp [ofTokens] at h
  | cons first operands =>
    simp only [ofTokens] at h
    split at h
    · rename_i operation hoperation
      obtain ⟨j, hread, hj⟩ := map_ok.mp h
      cases hj
      obtain ⟨hformed, hfree⟩ := read_ok
        (Operation.hasLetter_of_mem_table _ (Operation.ofMnemonic?_eq_some_iff.mp hoperation)) hread
      refine ⟨hformed, fun cs hcs => ?_⟩
      obtain ⟨token, hmem, hcolons⟩ := hfree cs hcs
      exact ⟨token, List.mem_cons_of_mem _ hmem, hcolons⟩
    · obtain ⟨j, hother, hj⟩ := map_ok.mp h
      cases hj
      exact ofOther_ok hother

theorem whole_of_withoutColons (hcolons : withoutColons cs = withoutColons ds)
    (hempty : cs = [] → ds = []) (h : Whole ds) : Whole cs := by
  have hplain : ∀ c : Char, decide (c ≠ ':') = false → isBlank c = false ∧ (c == '"') = false := by
    intro c hc
    obtain rfl : c = ':' := by simpa using hc
    decide
  refine ⟨fun hcs => h.1 (hempty hcs), ?_⟩
  rw [← unbroken_filter hplain, ← withoutColons, hcolons, withoutColons, unbroken_filter hplain]
  exact h.2

theorem readable_of_ofTokens (hwhole : ∀ token ∈ tokens, Whole token.text.toList)
    (h : ofTokens tokens = .ok (some i)) : i.Readable := by
  obtain ⟨hformed, hfree⟩ := ofTokens_ok h
  refine ⟨hformed, fun cs hcs => ?_⟩
  obtain ⟨token, hmem, hcolons, hempty⟩ := hfree cs hcs
  exact whole_of_withoutColons hcolons hempty (hwhole token hmem)

theorem readable_of_ofLine (h : ofLine line = .ok (some i)) : i.Readable :=
  readable_of_ofTokens (fun _ => whole_of_mem_scan) h

end Instruction

end ClassText
