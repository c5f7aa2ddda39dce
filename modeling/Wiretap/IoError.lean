import Wiretap.Digits

/-! Failures of input and output. Every failure has a kind. It shows a message of its own if it was
given one, else the description of its kind; a failure of the operating system shows the system's
description and number. The kinds and numbers that have a name here are those that the program can be
told of; a failure of any other kind is given by the words for it. -/

namespace Wiretap

/-- Kinds of failures. The further ones are given by their name and description. -/
inductive IoErrorKind
  | notFound
  | permissionDenied
  | connectionRefused
  | connectionReset
  | notConnected
  | addrInUse
  | addrNotAvailable
  | brokenPipe
  | alreadyExists
  | wouldBlock
  | notADirectory
  | isADirectory
  | storageFull
  | invalidFilename
  | invalidInput
  | invalidData
  | timedOut
  | writeZero
  | interrupted
  | unexpectedEof
  | other
  | further (name description : String)
deriving DecidableEq, Repr

namespace IoErrorKind

def name : IoErrorKind → String
  | notFound => "NotFound"
  | permissionDenied => "PermissionDenied"
  | connectionRefused => "ConnectionRefused"
  | connectionReset => "ConnectionReset"
  | notConnected => "NotConnected"
  | addrInUse => "AddrInUse"
  | addrNotAvailable => "AddrNotAvailable"
  | brokenPipe => "BrokenPipe"
  | alreadyExists => "AlreadyExists"
  | wouldBlock => "WouldBlock"
  | notADirectory => "NotADirectory"
  | isADirectory => "IsADirectory"
  | storageFull => "StorageFull"
  | invalidFilename => "InvalidFilename"
  | invalidInput => "InvalidInput"
  | invalidData => "InvalidData"
  | timedOut => "TimedOut"
  | writeZero => "WriteZero"
  | interrupted => "Interrupted"
  | unexpectedEof => "UnexpectedEof"
  | other => "Other"
  | further name _ => name

def description : IoErrorKind → String
  | notFound => "entity not found"
  | permissionDenied => "permission denied"
  | connectionRefused => "connection refused"
  | connectionReset => "connection reset"
  | notConnected => "not connected"
  | addrInUse => "address in use"
  | addrNotAvailable => "address not available"
  | brokenPipe => "broken pipe"
  | alreadyExists => "entity already exists"
  | wouldBlock => "operation would block"
  | notADirectory => "not a directory"
  | isADirectory => "is a directory"
  | storageFull => "no storage space"
  | invalidFilename => "invalid filename"
  | invalidInput => "invalid input parameter"
  | invalidData => "invalid data"
  | timedOut => "timed out"
  | writeZero => "write zero"
  | interrupted => "operation interrupted"
  | unexpectedEof => "unexpected end of file"
  | other => "other error"
  | further _ description => description

/-- The kinds that have a name here. -/
def named : List IoErrorKind :=
  [notFound, permissionDenied, connectionRefused, connectionReset, notConnected, addrInUse,
    addrNotAvailable, brokenPipe, alreadyExists, wouldBlock, notADirectory, isADirectory,
    storageFull, invalidFilename, invalidInput, invalidData, timedOut, writeZero, interrupted,
    unexpectedEof, other]

def ofName? (s : String) : Option IoErrorKind := named.find? (·.name = s)

end IoErrorKind

/-- What the operating system refuses. A refusal with another number is told in words. -/
inductive SystemError
  | noEntry
  | accessDenied
  | notDirectory
  | isDirectory
  | noSpace
  | brokenPipe
  | nameTooLong
  | addressInUse
  | addressNotAvailable
  | connectionReset
  | timedOut
  | connectionRefused
deriving DecidableEq, Repr

namespace SystemError

def number : SystemError → Nat
  | noEntry => 2
  | accessDenied => 13
  | notDirectory => 20
  | isDirectory => 21
  | noSpace => 28
  | brokenPipe => 32
  | nameTooLong => 36
  | addressInUse => 98
  | addressNotAvailable => 99
  | connectionReset => 104
  | timedOut => 110
  | connectionRefused => 111

def kind : SystemError → IoErrorKind
  | noEntry => .notFound
  | accessDenied => .permissionDenied
  | notDirectory => .notADirectory
  | isDirectory => .isADirectory
  | noSpace => .storageFull
  | brokenPipe => .brokenPipe
  | nameTooLong => .invalidFilename
  | addressInUse => .addrInUse
  | addressNotAvailable => .addrNotAvailable
  | connectionReset => .connectionReset
  | timedOut => .timedOut
  | connectionRefused => .connectionRefused

def description : SystemError → String
  | noEntry => "No such file or directory"
  | accessDenied => "Permission denied"
  | notDirectory => "Not a directory"
  | isDirectory => "Is a directory"
  | noSpace => "No space left on device"
  | brokenPipe => "Broken pipe"
  | nameTooLong => "File name too long"
  | addressInUse => "Address already in use"
  | addressNotAvailable => "Cannot assign requested address"
  | connectionReset => "Connection reset by peer"
  | timedOut => "Connection timed out"
  | connectionRefused => "Connection refused"

def all : List SystemError :=
  [noEntry, accessDenied, notDirectory, isDirectory, noSpace, brokenPipe, nameTooLong, addressInUse,
    addressNotAvailable, connectionReset, timedOut, connectionRefused]

def ofNumber? (n : Nat) : Option SystemError := all.find? (·.number = n)

end SystemError

inductive IoError
  | bare (kind : IoErrorKind)
  | told (kind : IoErrorKind) (message : String)
  | system (e : SystemError)
deriving DecidableEq, Repr

namespace IoError

def kind : IoError → IoErrorKind
  | bare k => k
  | told k _ => k
  | system e => e.kind

def message : IoError → String
  | bare k => k.description
  | told _ m => m
  | system e => e.description ++ " (os error " ++ decimal e.number ++ ")"

/-- The failure with its parts named, for a log. -/
def details : IoError → String
  | bare k => "Kind(" ++ k.name ++ ")"
  | told k m => "Custom \x7b kind: " ++ k.name ++ ", error: \"" ++ m ++ "\" \x7d"
  | system e =>
    "Os \x7b code: " ++ decimal e.number ++ ", kind: " ++ e.kind.name ++ ", message: \"" ++
      e.description ++ "\" \x7d"

end IoError

end Wiretap
