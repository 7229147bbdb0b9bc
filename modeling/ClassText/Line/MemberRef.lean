import ClassText.Line.SyntaxError

/-!
# Member references

Fields and methods are named by one token: the class that has the member, a dot, the
name of the member, a colon, and its descriptor.
-/

namespace ClassText

/-- A member of a class; its descriptor is yet to be read. -/
structure MemberRef where
  owner : ClassName
  name : String
  descriptor : Token
deriving DecidableEq

/-- Cuts a member reference at its first dot and the first colon after that. -/
def MemberRef.ofToken (token : Token) : Except SyntaxError MemberRef :=
  match token.split '.' with
  | none => token.reject .missingDot
  | some (owner, rest) =>
    match rest.split ':' with
    | none => rest.reject .missingColon
    | some (name, descriptor) =>
      if owner.text = "" then token.reject .emptyOwner
      else if name.text = "" then rest.reject .emptyMember
      else if descriptor.text = "" then token.reject .emptyDescriptor
      else (owner.accept (ClassName.ofDescriptor ("L" ++ owner.text ++ ";"))).map
        fun ownerName => ⟨ownerName, name.text, descriptor⟩

end ClassText
