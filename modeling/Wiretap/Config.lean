import Wiretap.AddressText
import Wiretap.Failure
import Wiretap.FileSystem
import Wiretap.Toml

/-! The configuration. A file gives the address to listen on, the address to relay to and the directory
for captures, and may ask for one shared capture file and for payloads of no bytes. Values are kept as
they were written until they are resolved, so that a value from the command line can take the place of
one that does not hold. Where a path has to name a directory, the caller says which paths do. -/

namespace Wiretap

structure Config where
  listenAddress : String
  serviceAddress : String
  outputDirectory : String
  sharedOutput : Bool := false
  captureZeroByte : Bool := false
deriving DecidableEq, Repr

/-- Values that take the place of those in the file. -/
structure Overrides where
  listenAddress : Option String := none
  serviceAddress : Option String := none
  outputDirectory : Option String := none
deriving DecidableEq, Repr

/-- Where captures go: a file for each connection in a directory, or one file for all. -/
inductive CaptureOutput
  | perConnection (directory : String)
  | shared (file : String)
deriving DecidableEq, Repr

/-- What a listener runs with. -/
structure ListenerSettings where
  listenAddress : SocketAddress
  serviceAddress : SocketAddress
  output : CaptureOutput
  captureZeroByte : Bool
deriving DecidableEq, Repr

/-- The name of the one capture file for all connections. -/
def sharedCaptureFile : String := "capture.pcap"

/-- What is wrong with the entries of a settings file. -/
inductive SettingsProblem
  | malformed
  | repeated (key : String)
  | unknown (key : String)
  | missing (key : String)
  | wrongType (key : String)
deriving DecidableEq, Repr

namespace SettingsProblem

def message : SettingsProblem → String
  | malformed => "malformed document"
  | repeated k => "duplicate key " ++ k
  | unknown k => "unknown field " ++ k
  | missing k => "missing field " ++ k
  | wrongType k => "invalid type for " ++ k

end SettingsProblem

namespace Config

/-- The settings there are. -/
def keys : List String :=
  ["listen_address", "upstream_address", "output_directory", "shared_output", "capture_zero_byte"]

/-- A setting that has to be there and is a text. -/
def text (entries : List (String × Toml.Value)) (key : String) : Except SettingsProblem String :=
  match entries.lookup key with
  | some (.text s) => .ok s
  | some (.switch _) => .error (.wrongType key)
  | none => .error (.missing key)

/-- A setting that is off unless it is switched on. -/
def switch (entries : List (String × Toml.Value)) (key : String) : Except SettingsProblem Bool :=
  match entries.lookup key with
  | some (.switch b) => .ok b
  | some (.text _) => .error (.wrongType key)
  | none => .ok false

/-- The first key that occurs again later. -/
def repeated? : List String → Option String
  | [] => none
  | k :: ks => if k ∈ ks then some k else repeated? ks

/-- Every setting occurs at most once, and there are no others. -/
def ofEntries (entries : List (String × Toml.Value)) : Except SettingsProblem Config := do
  let given := entries.map Prod.fst
  if let some k := repeated? given then throw (.repeated k)
  if let some k := given.find? (· ∉ keys) then throw (.unknown k)
  let listenAddress ← text entries "listen_address"
  let serviceAddress ← text entries "upstream_address"
  let outputDirectory ← text entries "output_directory"
  let sharedOutput ← switch entries "shared_output"
  let captureZeroByte ← switch entries "capture_zero_byte"
  pure { listenAddress, serviceAddress, outputDirectory, sharedOutput, captureZeroByte }

def ofToml (s : String) : Except ConfigError Config :=
  match Toml.entries? s with
  | none => .error (.toml SettingsProblem.malformed.message)
  | some entries => (ofEntries entries).mapError fun p => .toml p.message

/-- Bytes that are no text. -/
def notUtf8 : IoError := .told .invalidData "stream did not contain valid UTF-8"

/-- The configuration in a file, from what came of reading it; all of it has to be text. -/
def ofContents : Except IoError ByteArray → Except ConfigError Config
  | .error e => .error (.io e)
  | .ok bytes =>
    match String.fromUTF8? bytes with
    | none => .error (.io notUtf8)
    | some s => ofToml s

def ofFile (fs : FileSystem) (path : String) : Except ConfigError Config :=
  ofContents (fs.read path)

/-- The configuration with the given values in place of its own. -/
def replace (c : Config) (o : Overrides) : Config :=
  { c with
    listenAddress := o.listenAddress.getD c.listenAddress
    serviceAddress := o.serviceAddress.getD c.serviceAddress
    outputDirectory := o.outputDirectory.getD c.outputDirectory }

/-- A setting read as a socket address. -/
def address (setting value : String) : Except ConfigError SocketAddress :=
  match SocketAddress.ofText? value with
  | some a => .ok a
  | none => .error (.address setting value SocketAddress.malformed)

/-- Where captures go in a directory. -/
def output (c : Config) : CaptureOutput :=
  if c.sharedOutput then .shared (joinPath c.outputDirectory sharedCaptureFile)
  else .perConnection c.outputDirectory

/-- Reads the addresses and looks for the directory. -/
def resolve (isDirectory : String → Bool) (c : Config) : Except ConfigError ListenerSettings := do
  let listenAddress ← address "listen_address" c.listenAddress
  let serviceAddress ← address "upstream_address" c.serviceAddress
  if isDirectory c.outputDirectory then
    .ok { listenAddress, serviceAddress, output := c.output, captureZeroByte := c.captureZeroByte }
  else .error (.directory c.outputDirectory)

def validate (isDirectory : String → Bool) (c : Config) : Except ConfigError Unit :=
  (c.resolve isDirectory).map fun _ => ()

/-- Replaces values and checks what comes of it; the values are replaced in any case. -/
def override (isDirectory : String → Bool) (c : Config) (o : Overrides) :
    Except ConfigError Unit × Config :=
  let replaced := c.replace o
  (replaced.validate isDirectory, replaced)

/-- The settings after values were replaced. -/
def resolveWith (isDirectory : String → Bool) (c : Config) (o : Overrides) :
    Except ConfigError ListenerSettings :=
  let (valid, replaced) := c.override isDirectory o
  valid.bind fun _ => replaced.resolve isDirectory

end Config

end Wiretap
