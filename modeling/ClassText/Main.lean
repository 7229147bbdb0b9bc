import ClassText.Command.Run

/-!
# The command line

Loads what a command is about to read, runs it, and writes what it leaves behind. The
program has no codec for archives: it takes them for damaged and does not write them.
-/

namespace ClassText.Main

def usage : String :=
  "usage: asm INPUT -o OUT [-k]\n" ++
  "       dis INPUT -o OUT [--class NAME] [--super NAME] [--method NAME] [--stack N]\n"

/-- Whether a path names a directory, which then has an entry for itself. -/
def isDirectory (path : String) : IO Bool := do
  match ← (IO.FS.Handle.mk (path ++ "/.") .read).toBaseIO with
  | .ok _ => return true
  | .error _ => return false

def place (files : Files) (path : String) (content : Content) : Except FileError Files := do
  let files ← files.makeParents path
  let (files, location) ← files.create path
  return files.write location content

def load (files : Files) (path : String) : IO Files := do
  if ← isDirectory path then return (files.makePath path).toOption.getD files
  match ← (IO.FS.readBinFile path).toBaseIO with
  | .error _ => return files
  | .ok bytes => return (place files path (.data (.ofBytes bytes.toList))).toOption.getD files

/-- The files that a command is about to read, below the top of the file system. -/
def filesFor (command : Command) : IO Files := do
  let here := (← IO.currentDir).toString
  let files := (Files.empty.makePath here).toOption.getD .empty
  let files := { files with current := Path.components here }
  match command with
  | .canonicalize input output _ | .wrap input output _ => [input, output].foldlM load files

def store (location : Location) (content : Content) : IO Unit := do
  let path := "/" ++ "/".intercalate location
  IO.FS.createDirAll ("/" ++ "/".intercalate location.dropLast)
  match content with
  | .data (.text text) => IO.FS.writeFile path text
  | .data (.bytes bytes) => IO.FS.writeBinFile path ⟨bytes.toArray⟩
  | .archive _ => throw (IO.userError ("cannot write archive " ++ path))

/-- Writes all files that have changed. -/
def storeChanges (before after : Files) : IO Unit :=
  after.nodes.forM fun (location, node) => do
    if let .file content := node then
      if before.node? location ≠ some node then store location content

def runCommand (command : Command) : IO UInt32 := do
  let before ← filesFor command
  let outcome := command.run before
  (← IO.getStdout).putStr outcome.session.printed
  (← IO.getStderr).putStr outcome.session.complaints
  storeChanges before outcome.session.files
  return outcome.exitCode.toUInt32

end ClassText.Main

open ClassText in
def main (arguments : List String) : IO UInt32 := do
  match Command.ofArguments arguments with
  | some command => Main.runCommand command
  | none =>
    (← IO.getStderr).putStr Main.usage
    return Command.usageExitCode.toUInt32
