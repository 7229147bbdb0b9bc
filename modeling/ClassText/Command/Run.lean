import ClassText.Command.Arguments
import ClassText.Command.Files
import ClassText.Listing.Report
import ClassText.Text.Quoted

/-!
# Running commands

A command reads listings, from one file or from all listings of an archive, and writes
what they become into a directory, an archive, or one file after the other. The output is
opened before the input is read. A rejected listing is reported and contributes nothing.
-/

namespace ClassText

/-- Why a command stops, or what it complains about at its end. -/
inductive Failure where
  | file (error : FileError)
  | notText
  | entryNotText (name : String)
  | invalidArchive (size : Nat)
  | noInputExtension (path : String)
  | inputExtension (extension : String)
  | outputExtension (extension : Option String)
  | invalidPath (name : String)
  | rejected (count : Nat)
deriving DecidableEq

def notUtf8 : String := "stream did not contain valid UTF-8"

def Failure.message : Failure → String
  | .file error => error.message
  | .notText => notUtf8
  | .entryNotText name => name ++ ": listings must be utf8-encoded (" ++ notUtf8 ++ ")"
  | .invalidArchive size =>
    "invalid Zip archive: " ++
      if size < 22 then "Invalid zip header" else "Could not find central directory end"
  | .noInputExtension path => "Missing input file extension for '" ++ path ++ "'"
  | .inputExtension extension => "Unsupported input extension " ++ extension
  | .outputExtension none => "Unsupported output extension None"
  | .outputExtension (some extension) =>
    "Unsupported output extension Some(" ++ quoted extension ++ ")"
  | .invalidPath name =>
    "Invalid path " ++ name ++ ". Try outputting to a zip file instead."
  | .rejected count => "Finished with " ++ toString count ++ " errors"

/-- The files, and what has been printed so far. -/
structure Session where
  files : Files
  printed : String
  complaints : String
deriving DecidableEq

/-- A step of a command. What it has done to the session stays done when it fails. -/
abbrev Action := EStateM Failure Session

namespace Action

def print (text : String) : Action Unit :=
  modify fun s => { s with printed := s.printed ++ text }

def complain (text : String) : Action Unit :=
  modify fun s => { s with complaints := s.complaints ++ text }

def ofFiles {α : Type} : Except FileError α → Action α
  | .ok value => pure value
  | .error error => throw (.file error)

def setFiles (files : Files) : Action Unit :=
  modify fun s => { s with files }

def makeParents (path : String) : Action Unit := do
  setFiles (← ofFiles ((← get).files.makeParents path))

def create (path : String) : Action Location := do
  let (files, location) ← ofFiles ((← get).files.create path)
  setFiles files
  return location

end Action

def lowerCase (text : String) : String :=
  text.map Char.toLower

def isArchiveExtension (extension : String) : Bool :=
  lowerCase extension == "jar" || lowerCase extension == "zip"

inductive Output where
  | directory (path : String)
  | archive (location : Location)
  | merged (location : Location)
deriving DecidableEq

namespace Output

open ClassText.Action

/-- Opens the output that a path names: a directory if it is one, and otherwise a file of the
kind that the extension says. -/
def openAt (path : String) : Action Output := do
  makeParents path
  if (← get).files.isDirectory path then return .directory path
  match Path.extension? path with
  | none => throw (.outputExtension none)
  | some extension =>
    if isArchiveExtension extension then return .archive (← create path)
    else if ["jasm", "j", "txt"].contains (lowerCase extension) then
      return .merged (← create path)
    else throw (.outputExtension (some extension))

/-- The entries of the archive at a location. A file that is none yet has no entries. -/
def entriesAt (files : Files) (location : Location) : List Entry :=
  match files.node? location with
  | some (.file (.archive entries)) => entries
  | _ => []

def textAt (files : Files) (location : Location) : String :=
  match files.node? location with
  | some (.file (.data (.text text))) => text
  | _ => ""

def hasTwoDots : List Char → Bool
  | '.' :: '.' :: _ => true
  | _ :: rest => hasTwoDots rest
  | [] => false

def save (output : Output) (name text : String) : Action Unit :=
  match output with
  | .directory top => do
    if hasTwoDots name.toList then throw (.invalidPath name)
    let path := Path.join top name
    print ("Writing to " ++ path ++ "\n")
    makeParents path
    let location ← create path
    setFiles ((← get).files.write location (.data (.text text)))
  | .archive location => do
    let files := (← get).files
    setFiles (files.write location (.archive (entriesAt files location ++ [⟨name, .text text⟩])))
  | .merged location => do
    let files := (← get).files
    setFiles (files.write location (.data (.text (textAt files location ++ text))))

/-- Finishes an output. An archive becomes one even if nothing was written to it. -/
def close (output : Output) (files : Files) : Files :=
  match output with
  | .archive location => files.write location (.archive (entriesAt files location))
  | .directory _ | .merged _ => files

/-- Runs an action and finishes the output after it, also if the action fails. -/
def closing {α : Type} (output : Output) (action : Action α) : Action α := fun s =>
  match action s with
  | .ok value s => .ok value { s with files := output.close s.files }
  | .error failure s => .error failure { s with files := output.close s.files }

end Output

/-- Whether an entry of an archive is a listing, by its name. Slashes at the end do not count. -/
def Entry.isListing (e : Entry) : Bool :=
  ".jasm".toList.isSuffixOf (dropEndWhile (· == '/') e.name.toList)

/-- The listings that a path names: the one in a file, or those in an archive. -/
def Files.listings (files : Files) (path : String) : Except Failure (List Entry) :=
  match Path.extension? path with
  | none => .error (.noInputExtension path)
  | some extension =>
    if lowerCase extension = "jasm" then
      match files.read path with
      | .error error => .error (.file error)
      | .ok (.data (.text text)) => .ok [⟨path, .text text⟩]
      | .ok _ => .error .notText
    else if isArchiveExtension extension then
      match files.read path with
      | .error error => .error (.file error)
      | .ok (.archive entries) => .ok (entries.filter Entry.isListing)
      | .ok (.data data) => .error (.invalidArchive data.size)
    else .error (.inputExtension (lowerCase extension))

namespace Command

open ClassText.Action

def complainAbout (name source : String) (errors : List ListingError) : Action Unit :=
  complain (Diagnostic.reports name source (errors.map ListingError.diagnostic))

/-- Writes a listing in canonical form under the name of its file. The result is the number of
rejected lines that were reported. -/
def canonicalizeOne (keepGoing : Bool) (output : Output) (name source : String) : Action Nat := do
  match Listing.read keepGoing source with
  | .error errors =>
    complainAbout name source errors
    return errors.length
  | .ok instructions =>
    print ("got " ++ toString instructions.length ++ " instructions\n")
    let text := Listing.text instructions
    let fileName := (Path.fileName? name).getD name
    output.save fileName text
    print ("Wrote " ++ toString text.utf8ByteSize ++ " bytes to " ++ fileName ++ "\n")
    return 0

/-- Writes the class around a listing under the name of the class. The result is the number of
listings that were rejected. -/
def wrapOne (options : WrapOptions) (output : Output) (name source : String) : Action Nat := do
  print ("disassemble " ++ name ++ "\n")
  match Listing.classText options false source with
  | .error errors =>
    complainAbout name source errors
    return 1
  | .ok text =>
    output.save (options.className ++ ".j") text
    return 0

def eachListing (one : String → String → Action Nat) : List Entry → Action Nat
  | [] => return 0
  | e :: more => do
    match e.data with
    | .bytes _ => throw (.entryNotText e.name)
    | .text text =>
      let count ← one e.name text
      return count + (← eachListing one more)

def transform (input output : String) (one : Output → String → String → Action Nat) :
    Action Unit := do
  let opened ← Output.openAt output
  let count ← opened.closing do
    match (← get).files.listings input with
    | .error failure => throw failure
    | .ok entries => eachListing (one opened) entries
  if count ≠ 0 then throw (.rejected count)

def action : Command → Action Unit
  | .canonicalize input output keepGoing => transform input output (canonicalizeOne keepGoing)
  | .wrap input output options => transform input output (wrapOne options)

structure Outcome where
  exitCode : UInt8
  session : Session
deriving DecidableEq

/-- Runs a command. A failure is reported last and makes the exit code 1. -/
def run (command : Command) (files : Files) : Outcome :=
  match command.action ⟨files, "", ""⟩ with
  | .ok _ session => ⟨0, session⟩
  | .error failure session =>
    ⟨1, { session with complaints := session.complaints ++ "Error: " ++ failure.message ++ "\n" }⟩

def usageExitCode : UInt8 := 2

end Command

end ClassText
