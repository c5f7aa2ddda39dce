/-! Lines of the log: how grave a message is, and the message. -/

namespace Wiretap

inductive LogLevel
  | error
  | warn
  | info
  | debug
  | trace
deriving DecidableEq, Repr

namespace LogLevel

def name : LogLevel → String
  | error => "ERROR"
  | warn => "WARN"
  | info => "INFO"
  | debug => "DEBUG"
  | trace => "TRACE"

/-- Smaller is graver. -/
def rank : LogLevel → Nat
  | error => 0
  | warn => 1
  | info => 2
  | debug => 3
  | trace => 4

end LogLevel

structure LogLine where
  level : LogLevel
  message : String
deriving DecidableEq, Repr

/-- A message about the session with the given name. -/
def LogLine.about (level : LogLevel) (id message : String) : LogLine :=
  ⟨level, "[" ++ id ++ "] " ++ message⟩

end Wiretap
