import ClassText.Text.Basic
import ClassText.Text.Quoted
import ClassText.Type.Basic

/-!
# Reading descriptors

The inverse of writing them. A failure is placed after the last character that was
looked at and found wrong, or before the name that cannot be read.
-/

namespace ClassText

namespace Descriptor

inductive Fault where
  | expected (c : Char)
  | trailing
  | unterminatedName
  | emptyName
  | genericArguments
  | nameCharacter
  | typeCharacter
  | unexpectedEnd
  | parameterName
  | noTypeParameters
deriving DecidableEq

def Fault.message : Fault → String
  | .expected c => "expected '" ++ c.toString ++ "'"
  | .trailing => "unexpected trailing characters"
  | .unterminatedName => "unterminated name"
  | .emptyName => "empty name"
  | .genericArguments => "generic type arguments are not supported"
  | .nameCharacter => "invalid character in name"
  | .typeCharacter => "invalid type character"
  | .unexpectedEnd => "unexpected end of descriptor"
  | .parameterName => "expected type parameter name"
  | .noTypeParameters => "empty type parameter list"

/-- A fault in a descriptor, after so many bytes of it. -/
structure Error where
  source : String
  offset : Nat
  fault : Fault
deriving DecidableEq

def Error.message (e : Error) : String :=
  "invalid descriptor " ++ quoted e.source ++ " at offset " ++ toString e.offset ++ ": " ++
    e.fault.message

/-- A fault and what is left of the descriptor behind it. -/
structure Stop where
  fault : Fault
  rest : List Char
deriving DecidableEq

/-- The result of reading a part of a descriptor: a value and the rest, or a fault. -/
abbrev Reading (α : Type) := Except Stop (α × List Char)

def expect (c : Char) : List Char → Except Stop (List Char)
  | [] => .error ⟨.expected c, []⟩
  | d :: rest => if d = c then .ok rest else .error ⟨.expected c, rest⟩

def endsName (c : Char) : Bool :=
  c == ';' || c == '<' || c == '.' || c == '[' || c == ':' || c == '(' || c == ')'

def readName (text : List Char) : Reading String :=
  let name := text.takeWhile (!endsName ·)
  match text.dropWhile (!endsName ·) with
  | [] => .error ⟨.unterminatedName, text⟩
  | c :: rest =>
    if name.isEmpty then .error ⟨.emptyName, text⟩
    else if c = ';' then .ok (String.ofList name, rest)
    else .error ⟨if c = '<' then .genericArguments else .nameCharacter, rest⟩

def readType : List Char → Reading ValueType
  | [] => .error ⟨.unexpectedEnd, []⟩
  | 'B' :: rest => .ok (.primitive .byte, rest)
  | 'C' :: rest => .ok (.primitive .char, rest)
  | 'D' :: rest => .ok (.primitive .double, rest)
  | 'F' :: rest => .ok (.primitive .float, rest)
  | 'I' :: rest => .ok (.primitive .int, rest)
  | 'J' :: rest => .ok (.primitive .long, rest)
  | 'S' :: rest => .ok (.primitive .short, rest)
  | 'Z' :: rest => .ok (.primitive .bool, rest)
  | '[' :: rest => (readType rest).map fun (element, rest) => (.array element, rest)
  | 'L' :: rest => (readName rest).map fun (name, rest) => (.object ⟨name⟩, rest)
  | 'T' :: rest => (readName rest).map fun (name, rest) => (.typeVariable (.mk name []), rest)
  | _ :: rest => .error ⟨.typeCharacter, rest⟩

theorem length_of_readName {text rest : List Char} {name : String}
    (h : readName text = .ok (name, rest)) : rest.length < text.length := by
  have hlen : (text.dropWhile (!endsName ·)).length ≤ text.length :=
    (List.dropWhile_sublist _).length_le
  revert h
  unfold readName
  cases hd : text.dropWhile (!endsName ·) with
  | nil => simp
  | cons c more =>
    rw [hd, List.length_cons] at hlen
    intro h
    obtain rfl : more = rest := by grind
    omega

theorem length_of_readType {text rest : List Char} {t : ValueType}
    (h : readType text = .ok (t, rest)) : rest.length < text.length := by
  fun_induction readType text generalizing t with
  | case1 | case13 => simp at h
  | case2 | case3 | case4 | case5 | case6 | case7 | case8 | case9 =>
    simp only [Except.ok.injEq, Prod.mk.injEq] at h
    simp [h.2]
  | case10 more ih =>
    cases hr : readType more with
    | error e => simp [hr, Except.map] at h
    | ok read =>
      obtain ⟨element, after⟩ := read
      simp only [hr, Except.map, Except.ok.injEq, Prod.mk.injEq] at h
      obtain ⟨_, rfl⟩ := h
      have := ih hr
      simp only [List.length_cons]
      omega
  | case11 more | case12 more =>
    cases hr : readName more with
    | error e => simp [hr, Except.map] at h
    | ok read =>
      obtain ⟨name, after⟩ := read
      simp only [hr, Except.map, Except.ok.injEq, Prod.mk.injEq] at h
      obtain ⟨_, rfl⟩ := h
      have := length_of_readName hr
      simp only [List.length_cons]
      omega

/-- Reads types up to a closing parenthesis, which is left. -/
def readTypes (text : List Char) : Reading (List ValueType) :=
  if text.head? = some ')' then .ok ([], text)
  else match _h : readType text with
    | .error stop => .error stop
    | .ok (t, rest) => (readTypes rest).map fun (ts, rest) => (t :: ts, rest)
termination_by text.length
decreasing_by exact length_of_readType _h

def readMoreBounds (text : List Char) : Reading (List ValueType) :=
  match text with
  | ':' :: rest =>
    match _h : readType rest with
    | .error stop => .error stop
    | .ok (t, rest) => (readMoreBounds rest).map fun (ts, rest) => (t :: ts, rest)
  | _ => .ok ([], text)
termination_by text.length
decreasing_by
  have := length_of_readType _h
  simp only [List.length_cons]
  omega

/-- Whether the first bound of a type variable is given, rather than left out. -/
def startsBound (text : List Char) : Bool :=
  text.head? = some 'L' || text.head? = some 'T' || text.head? = some '['

def readBounds (text : List Char) : Reading (List ValueType) :=
  if startsBound text then
    match readType text with
    | .error stop => .error stop
    | .ok (t, rest) => (readMoreBounds rest).map fun (ts, rest) => (t :: ts, rest)
  else readMoreBounds text

theorem length_of_readMoreBounds {text rest : List Char} {ts : List ValueType}
    (h : readMoreBounds text = .ok (ts, rest)) : rest.length ≤ text.length := by
  fun_induction readMoreBounds text generalizing ts with
  | case1 => simp at h
  | case2 more t after hr ih =>
    cases hm : readMoreBounds after with
    | error e => simp [hm, Except.map] at h
    | ok read =>
      obtain ⟨more, last⟩ := read
      simp only [hm, Except.map, Except.ok.injEq, Prod.mk.injEq] at h
      obtain ⟨_, rfl⟩ := h
      have := ih hm
      have := length_of_readType hr
      simp only [List.length_cons]
      omega
  | case3 =>
    simp only [Except.ok.injEq, Prod.mk.injEq] at h
    simp [h.2]

theorem length_of_readBounds {text rest : List Char} {ts : List ValueType}
    (h : readBounds text = .ok (ts, rest)) : rest.length ≤ text.length := by
  unfold readBounds at h
  split at h
  · split at h
    · simp at h
    · next t after hr =>
      cases hm : readMoreBounds after with
      | error e => simp [hm, Except.map] at h
      | ok read =>
        obtain ⟨more, last⟩ := read
        simp only [hm, Except.map, Except.ok.injEq, Prod.mk.injEq] at h
        obtain ⟨_, rfl⟩ := h
        have := length_of_readMoreBounds hm
        have := length_of_readType hr
        omega
  · exact length_of_readMoreBounds h

/-- Reads type variables with their bounds up to a closing angle bracket, which is left. A name
reaches to the first colon, whatever characters it has. -/
def readBinders (text : List Char) : Reading (List TypeVariable) :=
  if text.head? = some '>' then .ok ([], text)
  else match _hs : splitAtFirst ':' text with
    | none => .error ⟨.parameterName, text⟩
    | some (name, rest) =>
      if name.isEmpty then .error ⟨.parameterName, text⟩
      else match _hb : readBounds rest with
        | .error stop => .error stop
        | .ok (bounds, rest) =>
          (readBinders rest).map fun (vs, rest) => (.mk (String.ofList name) bounds :: vs, rest)
termination_by text.length
decreasing_by
  have := length_of_splitAtFirst _hs
  have := length_of_readBounds _hb
  omega

/-- Reads a list of type parameters, if there is one; it may not be empty. -/
def readTypeParameters (text : List Char) : Except Stop (List TypeVariable × List Char) :=
  match text with
  | '<' :: rest => do
    let (vs, rest) ← readBinders rest
    let rest ← expect '>' rest
    if vs.isEmpty then .error ⟨.noTypeParameters, rest⟩ else .ok (vs, rest)
  | _ => .ok ([], text)

def readResult (text : List Char) : Reading ValueType :=
  match text with
  | 'V' :: rest => .ok (.void, rest)
  | _ => readType text

def readSignature (text : List Char) : Except Stop (Signature × List Char) := do
  let (typeParameters, rest) ← readTypeParameters text
  let rest ← expect '(' rest
  let (parameters, rest) ← readTypes rest
  let rest ← expect ')' rest
  let (result, rest) ← readResult rest
  .ok (.mk typeParameters parameters result, rest)

def readClass (text : List Char) : Except Stop (ClassName × List Char) := do
  let rest ← expect 'L' text
  let (name, rest) ← readName rest
  .ok (⟨name⟩, rest)

/-- Reads a whole text, of which nothing may be left. -/
def whole {α : Type} (read : List Char → Reading α) (source : String) : Except Error α :=
  let fail (stop : Stop) : Error :=
    ⟨source, source.utf8ByteSize - byteSize stop.rest, stop.fault⟩
  match read source.toList with
  | .error stop => .error (fail stop)
  | .ok (value, []) => .ok value
  | .ok (_, rest) => .error (fail ⟨.trailing, rest⟩)

end Descriptor

/-- Reads a field descriptor such as `I`, `[J` or `Ljava/lang/String;`. -/
def ValueType.ofDescriptor (source : String) : Except Descriptor.Error ValueType :=
  Descriptor.whole Descriptor.readType source

def ClassName.ofDescriptor (source : String) : Except Descriptor.Error ClassName :=
  Descriptor.whole Descriptor.readClass source

/-- Reads a method descriptor, which may start with type parameters. -/
def Signature.ofDescriptor (source : String) : Except Descriptor.Error Signature :=
  Descriptor.whole Descriptor.readSignature source

end ClassText
