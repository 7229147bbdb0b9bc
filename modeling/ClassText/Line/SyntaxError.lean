import ClassText.Line.Token
import ClassText.Type.Parser
import ClassText.Type.Prefix

/-!
# Errors in a line

Why a line is rejected, and which part of it is to blame.
-/

namespace ClassText

inductive Cause where
  | unknownInstruction
  | argumentCount
  | slotRequired
  | constantRequired
  | invalidInteger (text : String)
  | invalidFloat (text : String)
  | floatOutOfRange (text : String)
  | unterminatedString
  | unknownTypeLetter (letter : Char)
  | missingDot
  | missingColon
  | emptyOwner
  | emptyMember
  | emptyDescriptor
  | descriptor (error : Descriptor.Error)
deriving DecidableEq

def Cause.message : Cause → String
  | .unknownInstruction => "syntax error"
  | .argumentCount => "wrong number of arguments"
  | .slotRequired => "slot argument required"
  | .constantRequired => "constant argument required"
  | .invalidInteger text => "invalid integer: " ++ text
  | .invalidFloat text => "invalid float: " ++ text
  | .floatOutOfRange text => "float out of range: " ++ text
  | .unterminatedString => "unterminated string constant"
  | .unknownTypeLetter letter => "invalid bytecode type: " ++ letter.toString
  | .missingDot => "missing '.' between owner and member name"
  | .missingColon => "missing ':' between member name and descriptor"
  | .emptyOwner => "empty owner class in member reference"
  | .emptyMember => "empty member name in member reference"
  | .emptyDescriptor => "empty descriptor in member reference"
  | .descriptor error => error.message

structure SyntaxError where
  cause : Cause
  span : Span
deriving DecidableEq

namespace SyntaxError

def message (e : SyntaxError) : String :=
  e.cause.message

end SyntaxError

def Token.reject {α : Type} (token : Token) (cause : Cause) : Except SyntaxError α :=
  .error ⟨cause, token.span⟩

/-- Takes the value of a descriptor that stands in a token, or rejects the line. -/
def Token.accept {α : Type} (token : Token) (reading : Except Descriptor.Error α) :
    Except SyntaxError α :=
  reading.mapError fun e => ⟨.descriptor e, token.span⟩

/-- The type that a letter of a mnemonic stands for. -/
def ValueType.ofLetter (letter : Char) : Except Cause ValueType :=
  match ValueType.ofPrefix? letter with
  | some t => .ok t
  | none => .error (.unknownTypeLetter letter)

end ClassText
