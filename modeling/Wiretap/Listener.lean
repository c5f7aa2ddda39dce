import Wiretap.Config
import Wiretap.Destination
import Wiretap.Log
import Wiretap.SharedSink

/-! The listener. It binds a socket and, when all connections share one capture file, creates that file
and writes its header, since sessions on a shared sink never do. A bind that fails at any stage leaves
the socket and the sink that the listener holds. The file is another matter: creating it empties what
stands at its path, also if the listener holds a sink over that file, and a bind that fails after that
leaves it with as much of the header as was written. Serving gives up the socket and closes the shared
file at its end, so that the next run needs another bind.

What the system answers is given with each call: whether the socket can be bound, which address it got
and, only asked for after that, what comes of creating the file. -/

namespace Wiretap

inductive ListenerNote
  | bindFailed (a : SocketAddress) (e : IoError)
  | sharedFile (path : String)
  | listening (address service : SocketAddress)
  | shutdownRequested
  | acceptFailed (e : IoError)
  | accepted (id : String) (peer : SocketAddress)
  | unreachable (id : String) (service : SocketAddress) (e : IoError)
  | captureFile (id path : String)
  | connectionFailed (peer : SocketAddress) (e : NetworkError)
  | waiting (connections : Nat)
deriving DecidableEq, Repr

namespace ListenerNote

def line : ListenerNote → LogLine
  | bindFailed a e => ⟨.error, "[!] Bind error on " ++ a.text ++ ": " ++ e.details⟩
  | sharedFile path => ⟨.info, "Shared capture file " ++ path⟩
  | listening a service =>
    ⟨.info, "Listening on " ++ a.text ++ ", relaying to " ++ service.text⟩
  | shutdownRequested => ⟨.info, "Shutdown requested, no longer accepting connections"⟩
  | acceptFailed e => ⟨.error, "[!] Accept error: " ++ e.details⟩
  | accepted id peer => .about .info id ("accepted connection from " ++ peer.text)
  | unreachable id service e =>
    .about .error id ("upstream " ++ service.text ++ " unreachable: " ++ e.details)
  | captureFile id path => .about .debug id ("capture file " ++ path)
  | connectionFailed peer e =>
    ⟨.warn, "Connection from " ++ peer.text ++ " ended with error: " ++ e.message⟩
  | waiting n => ⟨.debug, "Waiting for " ++ decimal n ++ " connection(s) to finish"⟩

end ListenerNote

structure Listener where
  settings : ListenerSettings
  bound : Option SocketAddress := none
  sharedSink : Option (Shared WriterSink) := none
deriving DecidableEq, Repr

/-- A listener after a call, with the sink that the call used, if any, as the call left it. -/
structure ListenerReply where
  result : NetworkResult
  listener : Listener
  notes : List ListenerNote := []
  sink : Option (Shared WriterSink) := none

def Sink.writer : Sink WriterSink where
  call := WriterSink.call
  release w := w

/-- A call on a shared capture file. -/
def Sink.sharedWriter : Sink (Shared WriterSink) := Sink.shared Sink.writer

/-- Why a listener stops to accept connections. -/
inductive Ending
  | shutdown
  | acceptFailed (e : IoError)
deriving DecidableEq, Repr

namespace Ending

def note : Ending → ListenerNote
  | shutdown => .shutdownRequested
  | acceptFailed e => .acceptFailed e

def result : Ending → NetworkResult
  | shutdown => .done
  | acceptFailed e => .failed (.accept e)

end Ending

namespace Listener

/-- Serving needs a bound socket. -/
def notBound : IoError := .told .notConnected "listener is not bound"

/-- Listens at an address from now on, with the given sink for all connections if they share one. -/
def listenAt (l : Listener) (address : SocketAddress) (sink : Option (Shared WriterSink))
    (notes : List ListenerNote) : ListenerReply :=
  { result := .done
    listener := { l with bound := some address, sharedSink := sink }
    notes := notes ++ [.listening address l.settings.serviceAddress] }

/-- Binds, given whether the socket could be bound, the address that it got and, for a shared capture,
the file that was created. The file as it is afterwards is its destination's contents, also when its
header could not be written. -/
def bind (l : Listener) (socket : Except IoError (Except IoError SocketAddress))
    (file : Except IoError Destination) : ListenerReply :=
  match socket with
  | .error e =>
    { result := .failed (.bind e), listener := l, notes := [.bindFailed l.settings.listenAddress e] }
  | .ok (.error e) => { result := .failed (.bind e), listener := l }
  | .ok (.ok address) =>
    match l.settings.output with
    | .perConnection _ => l.listenAt address l.sharedSink []
    | .shared path =>
      match file with
      | .error e => { result := .failed (.captureFile e), listener := l }
      | .ok destination =>
        match Sink.sharedWriter.writeHeader { inner := { destination } } with
        | (.failed e, sink) => { result := .failed (.captureFile e), listener := l, sink }
        | (.panicked, sink) => { result := .panicked, listener := l, sink }
        | (.ok, sink) => { l.listenAt address (some sink) [.sharedFile path] with sink }

/-- Serves until the acceptance of connections ends, and waits for so many that are still open. The
shared file is closed then, whatever the end was. -/
def serve (l : Listener) (ending : Ending) (connections : Nat) : ListenerReply :=
  match l.bound with
  | none => { result := .failed (.bind notBound), listener := l }
  | some _ =>
    let listener : Listener := { l with bound := none, sharedSink := none }
    let notes := [ending.note, .waiting connections]
    match l.sharedSink with
    | none => { result := ending.result, listener, notes }
    | some sink =>
      match Sink.sharedWriter.call .close sink with
      | (.ok, sink) => { result := ending.result, listener, notes, sink }
      | (.failed e, sink) => { result := .failed (.captureFile e), listener, notes, sink }
      | (.panicked, sink) => { result := .panicked, listener, notes, sink }

end Listener

/-- A system as the program sees it: its files, and how it answers a request to bind a socket. -/
structure Host where
  files : FileSystem
  bind : SocketAddress → Except IoError SocketAddress

namespace Host

/-- A file is created only for a shared capture and only after the socket is bound. -/
def listen (host : Host) (l : Listener) : ListenerReply × Host :=
  let socket := (host.bind l.settings.listenAddress).map .ok
  match socket, l.settings.output with
  | .ok _, .shared path =>
    match host.files.create path with
    | .error e => (l.bind socket (.error e), host)
    | .ok (place, files) =>
      let reply := l.bind socket (.ok {})
      let contents := match reply.sink with
        | some sink => sink.inner.destination.contents
        | none => []
      (reply, { host with files := files.put place ⟨contents.toArray⟩ })
  | _, _ => (l.bind socket (.ok {}), host)

end Host

end Wiretap
