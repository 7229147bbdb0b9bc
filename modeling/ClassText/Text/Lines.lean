/-!
# Lines

A listing is cut at every line feed. The lines of a text are what stands between
the cuts, without the carriage return that may precede a line feed; a line feed
at the very end opens no further line.
-/

namespace ClassText

/-- Drops one carriage return from the end of a line. -/
def dropReturn (line : List Char) : List Char :=
  if line.getLast? = some '\r' then line.dropLast else line

/-- The lines of a text. What follows the last line feed is a line only if it is not empty,
and keeps a carriage return at its end. -/
def lineChars (text : List Char) : List (List Char) :=
  let cut := text.splitOn '\n'
  let last := cut.getLast?.getD []
  cut.dropLast.map dropReturn ++ if last.isEmpty then [] else [last]

def lines (text : String) : List String :=
  (lineChars text.toList).map String.ofList

end ClassText
