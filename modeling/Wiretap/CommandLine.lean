import Wiretap.Config

/-! The command line. Options are long names with a value, which follows an equals sign or is the next
argument; an option may be given once. A command may take a configuration file as its one argument
without a name, and may have a version to show. An option's value is looked at only when the next
option begins or the arguments end, so of several mistakes the first to be looked at counts; asking
for help or the version ends the reading in the same way. After two dashes no argument is an option. -/

namespace Wiretap

inductive OptionName
  | listen
  | service
  | outputDirectory
deriving DecidableEq, Repr

/-- Why the arguments give no values. -/
inductive UsageStop
  | unknownArgument
  | invalidValue
  | argumentConflict
  | tooManyValues
  | missingRequiredArgument
  | displayHelp
  | displayVersion
deriving DecidableEq, Repr

namespace UsageStop

def name : UsageStop → String
  | unknownArgument => "UnknownArgument"
  | invalidValue => "InvalidValue"
  | argumentConflict => "ArgumentConflict"
  | tooManyValues => "TooManyValues"
  | missingRequiredArgument => "MissingRequiredArgument"
  | displayHelp => "DisplayHelp"
  | displayVersion => "DisplayVersion"

/-- Help and version are what was asked for; all else is a mistake. -/
def exitCode : UsageStop → Nat
  | displayHelp => 0
  | displayVersion => 0
  | _ => 2

end UsageStop

/-- What a command takes besides the options. -/
structure Command where
  takesFile : Bool
  hasVersion : Bool
deriving DecidableEq, Repr

/-- What a value is for. -/
inductive Receiver
  | option (o : OptionName)
  | file
deriving DecidableEq, Repr

/-- The values looked at so far, and the one that is to be looked at next, which may still be owed. -/
structure Arguments where
  overrides : Overrides := {}
  file : Option String := none
  waiting : Option (Receiver × Option String) := none
  fileSeen : Bool := false
  optionsOver : Bool := false
deriving DecidableEq, Repr

namespace OptionName

def ofText? (s : String) : Option OptionName :=
  if s = "listen" then some listen
  else if s = "upstream" then some service
  else if s = "output-dir" then some outputDirectory
  else none

def get (o : OptionName) (v : Overrides) : Option String :=
  match o with
  | listen => v.listenAddress
  | service => v.serviceAddress
  | outputDirectory => v.outputDirectory

def set (o : OptionName) (s : String) (v : Overrides) : Overrides :=
  match o with
  | listen => { v with listenAddress := some s }
  | service => { v with serviceAddress := some s }
  | outputDirectory => { v with outputDirectory := some s }

/-- A path has at least one character. -/
def accepts (o : OptionName) (s : String) : Bool := o ≠ outputDirectory || s ≠ ""

end OptionName

namespace Arguments

/-- Takes the value of an option; a second one is a conflict whatever it is. -/
def assign (a : Arguments) (o : OptionName) (s : String) : Except UsageStop Arguments :=
  if (o.get a.overrides).isSome then .error .argumentConflict
  else if o.accepts s then .ok { a with overrides := o.set s a.overrides }
  else .error .invalidValue

/-- Looks at the value that is waiting. -/
def settle (a : Arguments) : Except UsageStop Arguments :=
  let rest := { a with waiting := none }
  match a.waiting with
  | none => .ok rest
  | some (_, none) => .error .invalidValue
  | some (.option o, some s) => rest.assign o s
  | some (.file, some s) => if s = "" then .error .invalidValue else .ok { rest with file := some s }

/-- Ends the reading, unless the value that is waiting is a mistake. -/
def stop (a : Arguments) (why : UsageStop) : Except UsageStop Arguments := do
  let _ ← a.settle
  .error why

/-- A long option: its name and what follows an equals sign. -/
def long (command : Command) (a : Arguments) (name : String) (attached : Option String) :
    Except UsageStop Arguments :=
  match OptionName.ofText? name, attached with
  | some o, some s => do (← a.settle).assign o s
  | some o, none => do
    let a ← a.settle
    .ok { a with waiting := some (.option o, none) }
  | none, attached =>
    if name = "help" ∨ (name = "version" ∧ command.hasVersion) then
      match attached with
      | some _ => .error .tooManyValues
      | none => a.stop (if name = "help" then .displayHelp else .displayVersion)
    else .error .unknownArgument

/-- An argument without a name. -/
def positional (command : Command) (a : Arguments) (s : String) : Except UsageStop Arguments :=
  if command.takesFile ∧ !a.fileSeen then do
    let a ← a.settle
    .ok { a with waiting := some (.file, some s), fileSeen := true }
  else .error .unknownArgument

/-- An argument that is no option: the value that an option waits for, or one without a name. -/
def plain (command : Command) (a : Arguments) (s : String) : Except UsageStop Arguments :=
  match a.waiting with
  | some (r, none) => .ok { a with waiting := some (r, some s) }
  | _ => a.positional command s

def next (command : Command) (a : Arguments) (arg : String) : Except UsageStop Arguments :=
  if a.optionsOver then a.positional command arg
  else
    match arg.toList with
    | ['-', '-'] => .ok { a with optionsOver := true }
    | '-' :: '-' :: cs =>
      let name := String.ofList (cs.takeWhile (· ≠ '='))
      match cs.dropWhile (· ≠ '=') with
      | [] => a.long command name none
      | _ :: value => a.long command name (some (String.ofList value))
    | '-' :: 'h' :: _ => a.stop .displayHelp
    | '-' :: c :: _ =>
      if c = 'V' ∧ command.hasVersion then a.stop .displayVersion else .error .unknownArgument
    | _ => a.plain command arg

/-- Looks at the last value, then at the environment for a directory that no option gave. -/
def finish (command : Command) (a : Arguments) (environment : Option String) :
    Except UsageStop Arguments := do
  let a ← a.settle
  let a ← match a.overrides.outputDirectory, environment with
    | none, some s => a.assign .outputDirectory s
    | _, _ => .ok a
  if command.takesFile ∧ a.file.isNone then .error .missingRequiredArgument else .ok a

end Arguments

/-- Reads arguments, and the value of the environment variable for the output directory. -/
def Command.read (command : Command) (args : List String) (environment : Option String) :
    Except UsageStop Arguments := do
  let a ← args.foldlM (Arguments.next command) {}
  a.finish command environment

/-- The options alone. -/
def Command.options : Command := ⟨false, false⟩

/-- The program: a configuration file and the options. -/
def Command.program : Command := ⟨true, true⟩

end Wiretap
