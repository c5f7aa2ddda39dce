import Wiretap.CommandLine
import Wiretap.Listener

/-! The program: it shows its banner, reads the command line, imports the configuration with the values
from the command line in place of its own, listens, and serves until it is interrupted. -/

namespace Wiretap

namespace Program

def name : String := "pcapline"

def version : String := "0.0.2"

def rule : String := String.ofList (List.replicate 78 '=')

/-- A line of the banner begins with so many blanks. -/
def indent (n : Nat) (s : String) : String := String.ofList (List.replicate n ' ') ++ s

def banner : String :=
  "\n".intercalate
    ["", rule, indent 35 name, indent 14 "passive pcap capture for relayed TCP connections", rule, "",
      ""]

/-- What is shown when the version is asked for. -/
def versionLine : String := name ++ " " ++ version ++ "\n"

/-- The environment variable that may give the directory for captures. -/
def directoryVariable : String := "PCAPLINE_OUTPUT_DIR"

/-- What is shown when help is asked for. -/
def help (environment : Option String) : String :=
  "\n".intercalate
    ["A TCP relay that records every connection as a pcap capture", "",
      "Usage: " ++ name ++ " [OPTIONS] <CONFIG_FILE>", "", "Arguments:", "  <CONFIG_FILE>  ", "",
      "Options:", "      --listen <LISTEN_ADDRESS>",
      "          Address to accept client connections on", "      --upstream <UPSTREAM_ADDRESS>",
      "          Address every accepted connection is relayed to",
      "      --output-dir <OUTPUT_DIRECTORY>",
      "          Directory receiving the capture files [env: " ++ directoryVariable ++ "=" ++
        environment.getD "" ++ "]",
      "  -h, --help", "          Print help (see more with '--help')", "  -V, --version",
      "          Print version", ""]

/-- What is said of a mistake on the command line. -/
def complaint (stop : UsageStop) : String :=
  let mistake := match stop with
    | .unknownArgument => "unexpected argument found"
    | .invalidValue => "a value is missing or cannot be used"
    | .argumentConflict => "an option cannot be used more than once"
    | .tooManyValues => "an option that takes no value was given one"
    | .missingRequiredArgument => "the configuration file was not given"
    | .displayHelp | .displayVersion => ""
  "error: " ++ mistake ++ "\n\nFor more information, try '--help'.\n"

/-- What is shown of a reading of the command line that gives no values. -/
def shown (environment : Option String) : UsageStop → String
  | .displayVersion => versionLine
  | .displayHelp => help environment
  | _ => ""

inductive Note
  | importing
  | reading (path : String)
  | importFailed (e : ConfigError)
  | invalid (e : ConfigError)
  | imported
  | listener (n : ListenerNote)
  | notStarted (e : NetworkError)
  | listenerFailed (e : NetworkError)
  | stopped
deriving DecidableEq, Repr

namespace Note

def line : Note → LogLine
  | importing => ⟨.info, "Importing configuration"⟩
  | reading path => ⟨.info, "Reading configuration from " ++ path⟩
  | importFailed e => ⟨.error, "Unable to import configuration from file: " ++ e.message⟩
  | invalid e => ⟨.error, "Invalid configuration: " ++ e.message⟩
  | imported => ⟨.info, "Configuration imported successfully"⟩
  | listener n => n.line
  | notStarted e => ⟨.error, "Unable to start the listener: " ++ e.message ++ ", exiting..."⟩
  | listenerFailed e => ⟨.error, "Error occured in the listener: " ++ e.message ++ ", exiting..."⟩
  | stopped => ⟨.info, "Stopped"⟩

/-- The log shows what is at least information. -/
def isShown (n : Note) : Bool := n.line.level.rank ≤ LogLevel.info.rank

end Note

/-- The configuration that a file, from what came of reading it, and the command line give together. -/
def settings (isDirectory : String → Bool) (path : String) (contents : Except IoError ByteArray)
    (overrides : Overrides) : List Note × Option ListenerSettings :=
  let begun := [.importing, .reading path]
  match Config.ofContents contents with
  | .error e => (begun ++ [.importFailed e], none)
  | .ok config =>
    match config.resolveWith isDirectory overrides with
    | .error e => (begun ++ [.invalid e], none)
    | .ok settings => (begun ++ [.imported], some settings)

/-- How far the program got. While it serves it has no exit code. -/
structure Run where
  exitCode : Option Nat
  output : String
  notes : List Note
  host : Host

/-- Listens with the settings, and serves if the program will be interrupted. -/
def serve (host : Host) (settings : ListenerSettings) (interrupted : Bool) : Run :=
  let (bound, host) := host.listen { settings }
  let notes := bound.notes.map .listener
  match bound.result with
  | .failed e => ⟨some 1, banner, notes ++ [.notStarted e], host⟩
  | .panicked => ⟨some 101, banner, notes, host⟩
  | .done =>
    if interrupted then
      let served := bound.listener.serve .shutdown 0
      let notes := notes ++ served.notes.map .listener
      match served.result with
      | .failed e => ⟨some 1, banner, notes ++ [.listenerFailed e], host⟩
      | .panicked => ⟨some 101, banner, notes, host⟩
      | .done => ⟨some 0, banner, notes ++ [.stopped], host⟩
    else ⟨none, banner, notes, host⟩

def run (host : Host) (args : List String) (environment : Option String) (interrupted : Bool) :
    Run :=
  match Command.program.read args environment with
  | .error stop => ⟨some stop.exitCode, banner ++ shown environment stop, [], host⟩
  | .ok a =>
    let path := a.file.getD ""
    match settings host.files.isDirectory path (host.files.read path) a.overrides with
    | (notes, none) => ⟨some 1, banner, notes, host⟩
    | (notes, some settings) =>
      let r := serve host settings interrupted
      { r with notes := notes ++ r.notes }

end Program

end Wiretap
