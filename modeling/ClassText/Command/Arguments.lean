import ClassText.ClassFile.Wrap
import ClassText.Number.IntLiteral

/-!
# Command lines

The first argument says what to do. Options and the input may follow in any order: an
option has a long name after two dashes or a letter after one, letters may be grouped,
and the value of an option follows it, after an equals sign or as the next argument.
After `--` there are no more options.
-/

namespace ClassText

inductive Command where
  | canonicalize (input output : String) (keepGoing : Bool)
  | wrap (input output : String) (options : WrapOptions)
deriving DecidableEq

namespace Command

/-- An option: its letter if it has one, and whether it takes a value. -/
structure OptionForm where
  name : String
  letter : Option Char
  takesValue : Bool
deriving DecidableEq

/-- A piece of a command line. -/
inductive Item where
  | flag (name : String)
  | value (name text : String)
  | pending (name : String)
  | positional (text : String)
deriving DecidableEq

def dropEquals : List Char → List Char
  | '=' :: rest => rest
  | text => text

/-- The items of grouped letters. What follows the letter of an option with a value is the
value. -/
def letterItems (forms : List OptionForm) : List Char → Option (List Item)
  | [] => some []
  | c :: rest =>
    match forms.find? (·.letter == some c) with
    | none => none
    | some form =>
      if form.takesValue then
        some [if rest.isEmpty then .pending form.name
          else .value form.name (String.ofList (dropEquals rest))]
      else (letterItems forms rest).map (.flag form.name :: ·)

def longItems (forms : List OptionForm) (text : List Char) : Option (List Item) :=
  let name := text.takeWhile (· != '=')
  match forms.find? (·.name == String.ofList name), text.dropWhile (· != '=') with
  | some form, [] => some [if form.takesValue then .pending form.name else .flag form.name]
  | some form, _ :: value =>
    if form.takesValue then some [.value form.name (String.ofList value)] else none
  | none, _ => none

def argumentItems (forms : List OptionForm) (argument : String) : Option (List Item) :=
  match argument.toList with
  | '-' :: '-' :: text => longItems forms text
  | '-' :: c :: text => letterItems forms (c :: text)
  | _ => some [.positional argument]

/-- Whether an argument cannot be the value of the option before it. -/
def startsOption (argument : String) : Bool :=
  match argument.toList with
  | '-' :: _ :: _ => true
  | _ => false

/-- The items of a command line, each with its value. -/
def items (forms : List OptionForm) : List String → Option (List Item)
  | [] => some []
  | argument :: more =>
    if argument = "--" then some (more.map .positional)
    else match argumentItems forms argument with
      | none => none
      | some own =>
        match own.getLast? with
        | some (.pending name) =>
          match more with
          | [] => none
          | value :: rest =>
            if startsOption value then none
            else (items forms rest).map (own.dropLast ++ .value name value :: ·)
        | _ => (items forms more).map (own ++ ·)

def Item.option? : Item → Option String
  | .flag name | .value name _ | .pending name => some name
  | .positional _ => none

def distinctItems (forms : List OptionForm) (arguments : List String) : Option (List Item) :=
  (items forms arguments).filter fun is => decide (is.filterMap Item.option?).Nodup

def valueOf (is : List Item) (name : String) : Option String :=
  is.findSome? fun
    | .value n text => if n = name then some text else none
    | _ => none

def input? (is : List Item) : Option String :=
  match is.filterMap fun | .positional text => some text | _ => none with
  | [input] => some input
  | _ => none

def outForm : OptionForm := ⟨"out", some 'o', true⟩

def canonicalizeForms : List OptionForm :=
  [outForm, ⟨"keep-going", some 'k', false⟩]

def wrapForms : List OptionForm :=
  [outForm, ⟨"class", none, true⟩, ⟨"super", none, true⟩, ⟨"method", none, true⟩,
    ⟨"stack", none, true⟩]

/-- A stack size: decimal digits, which may follow one plus sign. -/
def readStack (text : String) : Option UInt16 :=
  let ds := match text.toList with
    | '+' :: ds => ds
    | ds => ds
  if allDigits Char.isDigit ds then
    (IntRange.slot.fit (ofDigits 10 ds)).map fun n => UInt16.ofNat n.toNat
  else none

/-- The command that arguments spell out, or nothing if they are misused. -/
def ofArguments : List String → Option Command
  | "asm" :: arguments => do
    let is ← distinctItems canonicalizeForms arguments
    return .canonicalize (← input? is) (← valueOf is "out") (is.contains (.flag "keep-going"))
  | "dis" :: arguments => do
    let is ← distinctItems wrapForms arguments
    let stack ← match valueOf is "stack" with
      | none => some WrapOptions.standard.stack
      | some text => readStack text
    return .wrap (← input? is) (← valueOf is "out")
      { className := (valueOf is "class").getD WrapOptions.standard.className
        superclass := (valueOf is "super").or WrapOptions.standard.superclass
        methodName := (valueOf is "method").getD WrapOptions.standard.methodName
        stack }
  | _ => none

end Command

end ClassText
