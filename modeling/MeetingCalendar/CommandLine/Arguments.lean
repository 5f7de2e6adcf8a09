import MeetingCalendar.CommandLine.Command
import MeetingCalendar.Pattern.Reading

/-!
# Command-line arguments

Arguments are the name of a command, options with a value, and the name of one input.  A value
stands behind its option as the next argument, behind `=`, or directly behind a single letter;
behind `--` no argument is an option.  The option for the configuration file may stand before or
behind the name of the command.

Arguments are scanned from left to right.  The value of an option is looked at when the next option
or input is met, so of several mistakes the first one in that sense is told.
-/

namespace MeetingCalendar.CommandLine

/-- What is wrong with the arguments, or that help was asked for. -/
inductive UsageError where
  | noArguments
  | missingCommand
  | unknownCommand
  | unknownArgument
  | missingArgument
  | repeatedArgument
  | unexpectedValue
  | invalidValue
  | unreadableValue
  | help
  deriving DecidableEq, Repr

inductive Name where
  | validate
  | parse
  | expand
  deriving DecidableEq, Repr

/-- What takes a value: an option, or the input. -/
inductive Slot where
  | config
  | mode
  | start
  | stop
  | limit
  | input
  deriving DecidableEq, Repr

namespace Slot

def long? : Slot → Option String
  | config => some "config"
  | mode => some "mode"
  | start => some "from"
  | stop => some "to"
  | limit => some "limit"
  | input => none

def letter? : Slot → Option Char
  | config => some 'c'
  | mode => some 'm'
  | _ => none

end Slot

namespace Name

def ofText? : String → Option Name
  | "validate" => some validate
  | "parse" => some parse
  | "expand" => some expand
  | _ => none

def slots : Name → List Slot
  | validate => [.config, .mode, .input]
  | parse => [.config, .input]
  | expand => [.config, .start, .stop, .limit, .input]

end Name

/-- A value that has been read. -/
inductive Value where
  | path (path : String)
  | mode (mode : Mode)
  | date (date : Date)
  | number (n : Nat)
  deriving DecidableEq, Repr

def readValue (slot : Slot) (text : String) : Except UsageError Value :=
  match slot with
  | .config | .input => if text.isEmpty then .error .invalidValue else .ok (.path text)
  | .mode =>
    match text with
    | "create" => .ok (.mode .create)
    | "update" => .ok (.mode .update)
    | _ => .error .invalidValue
  | .start | .stop =>
    match Date.read? text with
    | some d => .ok (.date d)
    | none => .error .unreadableValue
  | .limit =>
    match Text.readUnsignedUpTo? Text.maxNat64 text.toList with
    | some n => .ok (.number n)
    | none => .error .unreadableValue

/-- What has been scanned: values by slot, and the slot that was met last with its text, if that has
been seen. -/
structure Scan where
  values : List (Slot × Value) := []
  pending : Option (Slot × Option String) := none
  optionsOver : Bool := false

namespace Scan

def set (scan : Scan) (slot : Slot) (text : String) : Except UsageError Scan :=
  if (scan.values.lookup slot).isSome then .error .repeatedArgument
  else (readValue slot text).map fun value ↦
    { scan with values := (slot, value) :: scan.values }

/-- Looks at the value that is pending. -/
def settle (scan : Scan) : Except UsageError Scan :=
  match scan.pending with
  | none => .ok scan
  | some (_, none) => .error .invalidValue
  | some (slot, some text) => { scan with pending := none }.set slot text

def awaitsValue (scan : Scan) : Bool :=
  match scan.pending with
  | some (_, none) => true
  | _ => false

def hasInput (scan : Scan) : Bool :=
  (scan.values.lookup .input).isSome || scan.pending.any fun p ↦ p.1 == .input

/-- Takes an option with the text behind it, if it has one. -/
def takeOption (scan : Scan) (slot : Slot) (text : Option String) : Except UsageError Scan := do
  let scan ← scan.settle
  match text with
  | some text => scan.set slot text
  | none => return { scan with pending := some (slot, none) }

/-- Takes an option by its long name, with the text behind `=` if there is one. -/
def takeLong (slots : List Slot) (scan : Scan) (cs : List Char) : Except UsageError Scan := do
  let name := String.ofList (cs.takeWhile (· ≠ '='))
  let text := match cs.dropWhile (· ≠ '=') with
    | [] => none
    | _ :: value => some (String.ofList value)
  if name = "help" then
    if text.isSome then throw .unexpectedValue
    let _ ← scan.settle
    throw .help
  match slots.find? fun slot ↦ slot.long? == some name with
  | some slot => scan.takeOption slot text
  | none => throw .unknownArgument

/-- Takes an option by its letter, with the text behind it if there is one. -/
def takeLetter (slots : List Slot) (scan : Scan) (letter : Char) (rest : List Char) :
    Except UsageError Scan := do
  if letter = 'h' then
    let _ ← scan.settle
    throw .help
  match slots.find? fun slot ↦ slot.letter? == some letter with
  | none => throw .unknownArgument
  | some slot =>
    scan.takeOption slot <|
      match rest with
      | [] => none
      | '=' :: value => some (String.ofList value)
      | value => some (String.ofList value)

/-- Takes an argument that is no option: the value that an option waits for, or the input. -/
def takePlain (slots : List Slot) (scan : Scan) (argument : String) : Except UsageError Scan := do
  match scan.pending with
  | some (slot, none) =>
    if !scan.optionsOver then return { scan with pending := some (slot, some argument) }
  | _ => pure ()
  if !slots.contains .input then throw .unknownCommand
  if scan.hasInput then throw .unknownArgument
  let scan ← scan.settle
  return { scan with pending := some (.input, some argument) }

def take (slots : List Slot) (scan : Scan) (argument : String) : Except UsageError Scan :=
  if scan.optionsOver then scan.takePlain slots argument
  else
    match argument.toList with
    | ['-', '-'] => .ok { scan with optionsOver := true }
    | '-' :: '-' :: cs => scan.takeLong slots cs
    | '-' :: letter :: rest => scan.takeLetter slots letter rest
    | _ => scan.takePlain slots argument

end Scan

/-- A command with the configuration file that was named. -/
structure Invocation where
  config : Option String
  command : Command
  deriving DecidableEq, Repr

def path? (values : List (Slot × Value)) (slot : Slot) : Option String :=
  match values.lookup slot with
  | some (.path path) => some path
  | _ => none

def date? (values : List (Slot × Value)) (slot : Slot) : Option Date :=
  match values.lookup slot with
  | some (.date d) => some d
  | _ => none

/-- The command with the given name and values, if none is missing. -/
def command? (name : Name) (values : List (Slot × Value)) : Option Command := do
  let input ← path? values .input
  match name with
  | .validate =>
    match values.lookup .mode with
    | some (.mode mode) => some (.validate mode input)
    | _ => some (.validate .create input)
  | .parse => some (.parse input)
  | .expand =>
    let window := ⟨← date? values .start, ← date? values .stop⟩
    match values.lookup .limit with
    | some (.number n) => some (.expand input window (some n))
    | _ => some (.expand input window none)

def readCommand (name : Name) (arguments : List String) : Except UsageError Invocation := do
  let scan ← arguments.foldlM (Scan.take name.slots) {}
  let scan ← scan.settle
  match command? name scan.values with
  | some command => return ⟨path? scan.values .config, command⟩
  | none => throw .missingArgument

/-- Whether arguments behind `help` ask for something that there is. -/
def readHelp : List String → UsageError
  | [] => .help
  | ["help"] => .help
  | [name] => if (Name.ofText? name).isSome then .help else .unknownCommand
  | _ => .unknownCommand

def isCommandWord (argument : String) : Bool :=
  argument = "help" || (Name.ofText? argument).isSome

/-- Reads arguments up to the name of the command and from there on.  What stands behind the name is
looked at before the last option in front of it; a configuration file named behind it wins. -/
def readFrom (scan : Scan) : List String → Except UsageError Invocation
  | [] => do
    let scan ← scan.settle
    throw (if scan.values.isEmpty then .noArguments else .missingCommand)
  | argument :: rest =>
    if scan.optionsOver then
      .error (if isCommandWord argument then .unknownArgument else .unknownCommand)
    else if scan.awaitsValue then scan.take [.config] argument >>= (readFrom · rest)
    else
      match Name.ofText? argument with
      | some name => do
        let invocation ← readCommand name rest
        let scan ← scan.settle
        return { invocation with config := invocation.config.or (path? scan.values .config) }
      | none =>
        if argument = "help" then .error (readHelp rest)
        else scan.take [.config] argument >>= (readFrom · rest)

def read (arguments : List String) : Except UsageError Invocation :=
  readFrom {} arguments

end MeetingCalendar.CommandLine
