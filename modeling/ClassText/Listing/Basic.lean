import ClassText.Instruction.Text
import ClassText.Line.Parser
import ClassText.Text.Lines

/-!
# Listings

A listing has an instruction on each line that is not blank. Its canonical text indents
instructions and keeps labels at the margin.
-/

namespace ClassText

/-- A rejected line, counted from zero. -/
structure ListingError where
  line : Nat
  error : SyntaxError
deriving DecidableEq

namespace Listing

/-- Reads lines, of which the first has the number `number`. Without `keepGoing` nothing is read
after a line that is rejected. -/
def readLines (keepGoing : Bool) (number : Nat) :
    List String → List Instruction × List ListingError
  | [] => ([], [])
  | line :: more =>
    match Instruction.ofLine line with
    | .ok none => readLines keepGoing (number + 1) more
    | .ok (some instruction) =>
      let (instructions, errors) := readLines keepGoing (number + 1) more
      (instruction :: instructions, errors)
    | .error error =>
      let (instructions, errors) :=
        if keepGoing then readLines keepGoing (number + 1) more else ([], [])
      (instructions, ⟨number, error⟩ :: errors)

/-- The instructions of a listing, or the lines that are rejected: all of them with `keepGoing`,
otherwise the first. -/
def read (keepGoing : Bool) (source : String) : Except (List ListingError) (List Instruction) :=
  match readLines keepGoing 0 (lines source) with
  | (instructions, []) => .ok instructions
  | (_, errors) => .error errors

def line (instruction : Instruction) : String :=
  match instruction with
  | .label _ => instruction.text ++ "\n"
  | _ => "    " ++ instruction.text ++ "\n"

def text (instructions : List Instruction) : String :=
  String.join (instructions.map line)

end Listing

end ClassText
