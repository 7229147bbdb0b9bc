/-!
# Paths

Paths are texts whose components are separated by slashes. Empty components and single
dots stand for nothing; two dots lead to the directory above.
-/

namespace ClassText.Path

def segments (path : String) : List String :=
  (path.toList.splitOn '/').map String.ofList

/-- The components of a path, without those that stand for nothing. -/
def components (path : String) : List String :=
  (segments path).filter fun s => s != "" && s != "."

def fileName? (path : String) : Option String :=
  match (components path).getLast? with
  | some name => if name = ".." then none else some name
  | none => none

/-- What follows the last dot of a name; a dot at its start does not count. -/
def extensionOf (name : String) : Option String :=
  let reversed := name.toList.reverse
  let ending := reversed.takeWhile (· != '.')
  match reversed.dropWhile (· != '.') with
  | _ :: _ :: _ => some (String.ofList ending.reverse)
  | _ => none

def extension? (path : String) : Option String :=
  (fileName? path).bind extensionOf

def isAbsolute (path : String) : Bool :=
  path.toList.head? == some '/'

/-- The path of a name in a directory. A name that starts at the top is a path of its own. -/
def join (directory name : String) : String :=
  if isAbsolute name then name
  else if directory = "" ∨ directory.toList.getLast? = some '/' then directory ++ name
  else directory ++ "/" ++ name

end ClassText.Path
