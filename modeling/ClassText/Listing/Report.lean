import ClassText.Listing.Basic

/-!
# Reports on rejected lines

A rejection is reported with the place that it is about, the line itself, and a caret
below the first character to blame, with tildes below the others. A tab counts as eight
columns. Lines longer than a terminal is wide are cut off.
-/

namespace ClassText

/-- A message about a line, counted from zero, and about a part of it if that is known. -/
structure Diagnostic where
  line : Nat
  message : String
  span : Option Span
deriving DecidableEq

def ListingError.diagnostic (e : ListingError) : Diagnostic :=
  ⟨e.line, e.error.message, some e.error.span⟩

namespace Diagnostic

/-- A diagnostic in one line, which counts lines from one. -/
def summary (d : Diagnostic) : String :=
  "line " ++ toString (d.line + 1) ++ ": " ++ d.message

def summaries (ds : List Diagnostic) : String :=
  "\n".intercalate (ds.map summary)

def columns (c : Char) : Nat :=
  if c = '\t' then 8 else 1

def width : List Char → Nat
  | [] => 0
  | c :: rest => columns c + width rest

/-- The column of the character that starts `bytes` bytes after the start of a text, and the
text's width if there is none. -/
def columnAt (bytes : Nat) : List Char → Nat
  | [] => 0
  | c :: rest =>
    if bytes = 0 then 0
    else if bytes < c.utf8Size then width (c :: rest)
    else columns c + columnAt (bytes - c.utf8Size) rest

def mark (start stop column : Nat) : Char :=
  if column = start then '^'
  else if start < column ∧ column < stop then '~'
  else ' '

def shownLength : Nat := 115

/-- The marks below a line for a part of it. -/
def underline (line : List Char) (span : Span) : List Char :=
  let start := columnAt span.start line
  let stop := columnAt span.stop line
  dropEndWhile (· == ' ') ((List.range (width line + 1)).map (mark start stop))

/-- The report on a diagnostic about a listing, given by its name and its lines: three lines. -/
def report (name : String) (source : List String) (d : Diagnostic) : String :=
  let line := (source[d.line]?.getD "").toList
  let span := d.span.getD ⟨0, byteSize line⟩
  let shown (text : List Char) : String := String.ofList (text.take shownLength)
  name ++ ":" ++ toString (d.line + 1) ++ ":" ++ toString (columnAt span.start line + 1) ++
    " Error: " ++ d.message ++ "\n" ++
    shown line ++ "\n" ++ shown (underline line span) ++ "\n"

def reports (name source : String) (ds : List Diagnostic) : String :=
  String.join (ds.map (report name (lines source)))

end Diagnostic

end ClassText
