import Wiretap.IoError

/-! The failures that the parts of the program report, each with its cause and its wording. A capture
fails only at its sink. The network side fails at a system call, or because a capture did. A
configuration fails because it cannot be read or because a value in it does not hold. -/

namespace Wiretap

/-- A session lost its sink: while writing to it, or while closing it. -/
inductive CaptureError
  | write (cause : IoError)
  | close (cause : IoError)
deriving DecidableEq, Repr

namespace CaptureError

def cause : CaptureError → IoError
  | write e => e
  | close e => e

def message : CaptureError → String
  | write e => "Capture sink write failed: " ++ e.message
  | close e => "Capture sink close failed: " ++ e.message

end CaptureError

inductive NetworkError
  | bind (cause : IoError)
  | accept (cause : IoError)
  | connection (cause : IoError)
  | stream (cause : IoError)
  | captureFile (cause : IoError)
  | capture (cause : CaptureError)
deriving DecidableEq, Repr

namespace NetworkError

def message : NetworkError → String
  | bind e => "Network bind error: " ++ e.message
  | accept e => "Accept failed: " ++ e.message
  | connection e => "Upstream connection failed: " ++ e.message
  | stream e => "Stream error: " ++ e.message
  | captureFile e => "Capture file error: " ++ e.message
  | capture e => "Capture error: " ++ e.message

end NetworkError

/-- How a part of the network side ended. -/
inductive NetworkResult
  | done
  | failed (e : NetworkError)
  | panicked
deriving DecidableEq, Repr

inductive ConfigError
  | io (cause : IoError)
  | toml (problem : String)
  | badAddress (problem : String)
  | noDirectory (problem : String)
deriving DecidableEq, Repr

namespace ConfigError

/-- A setting whose value is no socket address. -/
def address (setting value problem : String) : ConfigError :=
  badAddress (setting ++ " '" ++ value ++ "': " ++ problem)

/-- An output directory that is not there. -/
def directory (path : String) : ConfigError :=
  noDirectory ("output_directory " ++ path ++ " does not exist or is not a directory")

def message : ConfigError → String
  | io e => "IO error: " ++ e.message
  | toml p => "TOML parsing error: " ++ p
  | badAddress p => "Address formatting error: " ++ p
  | noDirectory p => "Directory error: " ++ p

end ConfigError

end Wiretap
