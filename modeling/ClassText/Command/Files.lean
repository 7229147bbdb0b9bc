import ClassText.Command.Path
import ClassText.Text.Basic

/-!
# Files

A tree of files and directories. A file holds data, or it is an archive of named data.

There are no links: each file is at one location, and two paths lead to one file only if
following their names ends at one location. There are no permissions and no limits of
space: what is there can be read, and written or replaced, and nothing else than the kind
of a node stands in the way of an operation. No other program changes the files meanwhile.
-/

namespace ClassText

/-- The content of a file: a text, or bytes that are not the UTF-8 form of any text. -/
inductive Data where
  | text (text : String)
  | bytes (bytes : List UInt8)
deriving DecidableEq

namespace Data

def ofBytes (content : List UInt8) : Data :=
  match String.fromUTF8? ⟨content.toArray⟩ with
  | some decoded => .text decoded
  | none => .bytes content

def size : Data → Nat
  | .text content => content.utf8ByteSize
  | .bytes content => content.length

end Data

structure Entry where
  name : String
  data : Data
deriving DecidableEq

inductive Content where
  | data (data : Data)
  | archive (entries : List Entry)
deriving DecidableEq

inductive Node where
  | file (content : Content)
  | directory
deriving DecidableEq

/-- Why the files refuse an operation. -/
inductive FileError where
  | notFound
  | exists
  | notDirectory
  | isDirectory
deriving DecidableEq

def FileError.message : FileError → String
  | .notFound => "No such file or directory (os error 2)"
  | .exists => "File exists (os error 17)"
  | .notDirectory => "Not a directory (os error 20)"
  | .isDirectory => "Is a directory (os error 21)"

/-- The names that lead to a node from the top. -/
abbrev Location := List String

/-- The nodes below the top, each at its location, and the directory that paths start from. -/
structure Files where
  current : Location
  nodes : List (Location × Node)
deriving DecidableEq

namespace Files

def empty : Files := ⟨[], []⟩

def node? (files : Files) (location : Location) : Option Node :=
  if location = [] then some .directory else files.nodes.lookup location

/-- Puts a node at a location, in place of the one that is there. -/
def put (files : Files) (location : Location) (node : Node) : Files :=
  if (files.nodes.lookup location).isSome then
    { files with nodes := files.nodes.map fun (l, n) => if l = location then (l, node) else (l, n) }
  else { files with nodes := files.nodes ++ [(location, node)] }

/-- Follows path segments from a location. Everything that has a segment after it has to be a
directory; there may be nothing at the location that is reached. -/
def walk (files : Files) (location : Location) : List String → Except FileError Location
  | [] => .ok location
  | segment :: more =>
    match files.node? location with
    | none => .error .notFound
    | some (.file _) => .error .notDirectory
    | some .directory =>
      if segment = "" ∨ segment = "." then files.walk location more
      else if segment = ".." then files.walk location.dropLast more
      else files.walk (location ++ [segment]) more

def start (files : Files) (path : String) : Location :=
  if Path.isAbsolute path then [] else files.current

def locate (files : Files) (path : String) : Except FileError Location :=
  if path = "" then .error .notFound else files.walk (files.start path) (Path.segments path)

def isDirectory (files : Files) (path : String) : Bool :=
  match files.locate path with
  | .ok location => files.node? location = some .directory
  | .error _ => false

def makeDirectory (files : Files) (start : Location) (components : List String) :
    Except FileError Files := do
  let location ← files.walk start components
  match files.node? location with
  | some _ => .error .exists
  | none => .ok (files.put location .directory)

def hasDirectory (files : Files) (start : Location) (components : List String) : Bool :=
  match files.walk start components with
  | .ok location => files.node? location = some .directory
  | .error _ => false

/-- Makes a directory and those that lead to it, given by its components from the last to the
first. A directory that is there already is left as it is. -/
def makeDirectories (files : Files) (start : Location) : List String → Except FileError Files
  | [] => .ok files
  | last :: before =>
    let components := (last :: before).reverse
    let again (files : Files) : Except FileError Files :=
      match files.makeDirectory start components with
      | .ok files => .ok files
      | .error e => if files.hasDirectory start components then .ok files else .error e
    match files.makeDirectory start components with
    | .error .notFound => (files.makeDirectories start before).bind again
    | _ => again files

def makePath (files : Files) (path : String) : Except FileError Files :=
  files.makeDirectories (files.start path) (Path.components path).reverse

def makeParents (files : Files) (path : String) : Except FileError Files :=
  files.makeDirectories (files.start path) (Path.components path).reverse.tail

/-- Opens a file for writing: it is created if it is not there, and emptied. The result is its
location. -/
def create (files : Files) (path : String) : Except FileError (Files × Location) :=
  let segments := dropEndWhile (· == "") (Path.segments path)
  match files.walk (files.start path) segments with
  | .error e => .error e
  | .ok location =>
    if path.toList.getLast? = some '/' ∨ files.node? location = some .directory then
      .error .isDirectory
    else .ok (files.put location (.file (.data (.text ""))), location)

def read (files : Files) (path : String) : Except FileError Content :=
  match files.locate path with
  | .error e => .error e
  | .ok location =>
    match files.node? location with
    | none => .error .notFound
    | some .directory => .error .isDirectory
    | some (.file content) => .ok content

def write (files : Files) (location : Location) (content : Content) : Files :=
  files.put location (.file content)

end Files

end ClassText
