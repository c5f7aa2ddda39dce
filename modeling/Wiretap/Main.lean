import Std.Async.Signal
import Wiretap.Builder
import Wiretap.LiveRelay
import Wiretap.Program
import Wiretap.SessionName

/-! The command line program. It asks the system for what the library needs to know, shows what the
library says, and hands every accepted connection to a relay of its own. -/

namespace Wiretap

open Std.Async (Async AsyncTask Selectable Signal)
open Std.Async.TCP

namespace Program

/-- What reading a file gives. -/
def readFile (path : String) : BaseIO (Except IoError ByteArray) := attempt (IO.FS.readBinFile path)

def isDirectory (path : String) : BaseIO Bool := do
  match ← (IO.FS.realPath path).toBaseIO with
  | .ok p => p.isDir
  | .error _ => return false

/-- The settings for this run. The one path that has to name a directory is asked for beforehand. -/
def loadSettings (path : String) (overrides : Overrides) :
    IO (List Note × Option ListenerSettings) := do
  let contents ← readFile path
  let present ← match Config.ofContents contents with
    | .ok c => isDirectory (c.replace overrides).outputDirectory
    | .error _ => pure false
  return settings (fun _ => present) path contents overrides

/-- A bound socket and what came of asking for its address. -/
def bindSocket (a : SocketAddress) :
    BaseIO (Except IoError (Socket.Server × Except IoError SocketAddress)) := do
  let bound ← attempt do
    let server ← Socket.Server.mk
    server.bind a.toSystem
    server.listen 1024
    return server
  match bound with
  | .error e => return .error e
  | .ok server =>
    let address ← attempt server.getSockName
    return .ok (server, address.map SocketAddress.ofSystem)

/-- Creates a shared capture file and writes its header. -/
def openShared (path : String) : BaseIO (Except IoError (LiveFile × Destination)) := do
  match ← LiveFile.create path with
  | .error e => return .error e
  | .ok file =>
    match ← file.perform (.write CaptureFile.header) with
    | .failed e => return .ok (file, { writes := [.fails e] })
    | _ =>
      let _ ← file.perform .flush
      return .ok (file, {})

/-- A listener that is bound, its socket, and the capture file that all connections share, if any. -/
structure LiveListener where
  listener : Listener
  server : Socket.Server
  file : Option LiveFile

def listen (settings : ListenerSettings) : IO (Except NetworkError LiveListener) := do
  let bound ← bindSocket settings.listenAddress
  let file? ← match bound, settings.output with
    | .ok (_, .ok _), .shared path => some <$> openShared path
    | _, _ => pure none
  let destination := match file? with
    | some opened => opened.map Prod.snd
    | none => .ok {}
  let reply := Listener.bind { settings } (bound.map Prod.snd) destination
  for n in reply.notes do showLine n.line
  match reply.result, bound with
  | .done, .ok (server, _) =>
    return .ok ⟨reply.listener, server, file?.bind fun f => f.toOption.map Prod.fst⟩
  | .failed e, _ => return .error e
  | _, _ => return .error (.bind Listener.notBound)

/-- The file that a session with the given name writes to. -/
def captureFile (settings : ListenerSettings) (shared : Option LiveFile) (id : String) :
    IO (Except IoError LiveFile) := do
  match settings.output, shared with
  | .shared _, some file => return .ok file
  | .shared path, none =>
    return .error (.told .notConnected ("shared capture file " ++ path ++ " is not open"))
  | .perConnection directory, _ =>
    let path := joinPath directory (id ++ ".pcap")
    showLine (ListenerNote.captureFile id path).line
    LiveFile.create path

def isShared : CaptureOutput → Bool
  | .shared _ => true
  | .perConnection _ => false

/-- Connects to the service and relays. -/
def relay (settings : ListenerSettings) (shared : Option LiveFile) (client : Socket.Client)
    (peer : SocketAddress) : Async NetworkResult := do
  let id := SessionName.ofRandom (← IO.getRandomBytes 16).data.toList
  showLine (ListenerNote.accepted id peer).line
  let service ← Socket.Client.mk
  let connected ← try
      service.connect settings.serviceAddress.toSystem
      pure none
    catch e => pure (some (IoError.ofSystem e))
  match connected with
  | some e =>
    showLine (ListenerNote.unreachable id settings.serviceAddress e).line
    return .failed (.connection e)
  | none =>
    match ← attempt client.getSockName with
    | .error e => return .failed (.stream e)
    | .ok near =>
      match ← captureFile settings shared id with
      | .error e => return .failed (.captureFile e)
      | .ok file =>
        let options : Options := .built id
          [.shared (isShared settings.output), .zeroBytes settings.captureZeroByte]
        LiveRelay.run options file client service
          ⟨SocketAddress.ofSystem near, some peer, .tcp true⟩

/-- Serves one client; failures end up in the log. -/
def serveClient (settings : ListenerSettings) (shared : Option LiveFile) (client : Socket.Client) :
    Async Unit := do
  let peer := SocketAddress.ofSystem (← client.getPeerName)
  match ← relay settings shared client peer with
  | .failed e => showLine (ListenerNote.connectionFailed peer e).line
  | _ => return

/-- Accepts connections until the program is interrupted. -/
partial def acceptAll (l : LiveListener) (interrupt : Signal.Waiter)
    (tasks : Array (AsyncTask Unit)) : Async (Ending × Array (AsyncTask Unit)) := do
  let next : Except IoError (Option Socket.Client) ← try
      let next ← Selectable.one #[
        .case l.server.acceptSelector fun client => return some client,
        .case interrupt.selector fun () => return none]
      pure (.ok next)
    catch e => pure (.error (IoError.ofSystem e))
  match next with
  | .error e => return (.acceptFailed e, tasks)
  | .ok none => return (.shutdown, tasks)
  | .ok (some client) =>
    let task ← Std.Async.async (serveClient l.listener.settings l.file client)
    acceptAll l interrupt (tasks.push task)

/-- Serves until the program is interrupted and all connections have ended. -/
def serveAll (l : LiveListener) : Async NetworkResult := do
  let interrupt ← Signal.Waiter.mk .sigint false
  let (ending, tasks) ← acceptAll l interrupt #[]
  let pending ← tasks.filterM fun t => do return !(← IO.hasFinished t)
  for n in (l.listener.serve ending pending.size).notes do showLine n.line
  for t in tasks do
    try Std.Async.await t catch _ => pure ()
  let closed ← match l.file with
    | some file => file.perform .close
    | none => pure .ok
  let sink := l.listener.sharedSink.map fun s => { s with inner.destination.flushes := [closed] }
  return ({ l.listener with sharedSink := sink }.serve ending 0).result

/-- The program after its command line was read. -/
def start (path : String) (overrides : Overrides) : IO UInt32 := do
  let (notes, settings?) ← loadSettings path overrides
  for n in notes do showLine n.line
  match settings? with
  | none => return 1
  | some settings =>
    match ← listen settings with
    | .error e =>
      showLine (Note.notStarted e).line
      return 1
    | .ok l =>
      match ← (serveAll l).block with
      | .failed e =>
        showLine (Note.listenerFailed e).line
        return 1
      | _ =>
        showLine Note.stopped.line
        return 0

end Program

end Wiretap

open Wiretap in
def main (args : List String) : IO UInt32 := do
  IO.print Program.banner
  let environment ← IO.getEnv Program.directoryVariable
  match Command.program.read args environment with
  | .error stop =>
    IO.print (Program.shown environment stop)
    if stop.exitCode ≠ 0 then IO.eprint (Program.complaint stop)
    return stop.exitCode.toUInt32
  | .ok a => Program.start (a.file.getD "") a.overrides
