import ClassText.Text.Basic
import ClassText.Text.Blank

/-!
# Tokens

A line is cut into tokens at its blanks. A double quote starts a stretch that reaches
to the next double quote or to the end of the line; blanks inside it are part of the
token.
-/

namespace ClassText

structure Span where
  start : Nat
  stop : Nat
deriving DecidableEq

/-- A piece of a line and the byte that it starts at. -/
structure Token where
  text : String
  start : Nat
deriving DecidableEq

namespace Token

def span (token : Token) : Span :=
  ⟨token.start, token.start + token.text.utf8ByteSize⟩

/-- Cuts a token at the first character `c`, which belongs to neither part. -/
def split (c : Char) (token : Token) : Option (Token × Token) :=
  (splitAtFirst c token.text.toList).map fun (before, after) =>
    (⟨String.ofList before, token.start⟩,
      ⟨String.ofList after, token.start + byteSize before + c.utf8Size⟩)

/-- Where a character stands: between tokens, in a token, or in a quoted stretch of one. -/
inductive Place where
  | between
  | bare
  | quoted
deriving DecidableEq

/-- The place after a character that belongs to a token. -/
def Place.after (place : Place) (c : Char) : Place :=
  if c = '"' then (if place = .quoted then .bare else .quoted)
  else if place = .quoted then .quoted else .bare

/-- The rest of the token that a text starts in, and the tokens after it. The text starts at
byte `start` of its line. -/
def scanFrom (start : Nat) (place : Place) : List Char → List Char × List Token
  | [] => ([], [])
  | c :: rest =>
    let start' := start + c.utf8Size
    if isBlank c ∧ place ≠ .quoted then ([], (scanFrom start' .between rest).2)
    else
      let (more, tokens) := scanFrom start' (place.after c) rest
      if place = .between then ([], ⟨String.ofList (c :: more), start⟩ :: tokens)
      else (c :: more, tokens)

def scan (line : String) : List Token :=
  (scanFrom 0 .between line.toList).2

end Token

end ClassText
