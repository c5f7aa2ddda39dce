import Wiretap.Proofs.Directories
import Wiretap.Proofs.WriterCalls

/-! A listener through any sequence of binds and runs, whatever the system answers. Its socket and its
shared sink come and go together: with one file for all connections it is bound exactly while it holds a
sink over that file, with a file for each it never holds one. What a call can do is listed once, the rest
is read off that list: a bind that fails leaves the listener as it was, a run gives both up and closes the
sink, and a run that is not bound fails.

The sink that is held has had one call, the write of the header. After a bind that succeeded the file at
the path is the one behind that sink, so that it holds the header and no more, and a run without
connections that follows at once leaves it so. A bind that fails can create the file anew as well. Then the
listener holds the sink that it held, but the file at the path has a part of the header at most. -/

namespace Wiretap

/-- A file that was just created, by what it will answer. -/
structure NewFile where
  writes : List Acceptance := []
  flushes : List Outcome := []
deriving DecidableEq, Repr

/-- A call on a listener with what the system answers: to the wish to bind and to create a file, or, on
a run without connections, how it ends. -/
inductive ListenerCall
  | bind (socket : Except IoError (Except IoError SocketAddress)) (file : Except IoError NewFile)
  | serve (ending : Ending)
deriving Repr

/-- What a run comes to whose end was followed by a close with the given outcome. -/
def Ending.closing (ending : Ending) : Outcome → NetworkResult
  | .ok => ending.result
  | .failed e => .failed (.captureFile e)
  | .panicked => .panicked

/-! ### New files -/

namespace NewFile

def destination (file : NewFile) : Destination := { writes := file.writes, flushes := file.flushes }

/-- A sink over the file, before the first call. -/
def sink (file : NewFile) : Shared WriterSink := { inner := { destination := file.destination } }

/-- The header was written to the file, and the sink is what that left. -/
def Heads (file : NewFile) (w : Shared WriterSink) : Prop :=
  Sink.sharedWriter.writeHeader file.sink = (.ok, w)

/-- The header could not be written to the file, and the sink is what that left. -/
def Tears (file : NewFile) (w : Shared WriterSink) : Prop :=
  ∃ o, o ≠ .ok ∧ Sink.sharedWriter.writeHeader file.sink = (o, w)

end NewFile

/-- Closing leaves the bytes in the file as they are, and the sink closed whatever the outcome. -/
theorem Sink.sharedWriter_close {v w : Shared WriterSink} {o : Outcome} (hpoisoned : v.poisoned = false)
    (h : Sink.sharedWriter.call .close v = (o, w)) :
    w.inner.isOpen = false ∧ w.inner.destination.contents = v.inner.destination.contents := by
  have hinner : w.inner = (v.inner.call .close).2 := by
    have hcall := Shared.call_of_not_poisoned hpoisoned Sink.writer .close
    exact congrArg (fun r => r.2.inner) (h.symm.trans hcall)
  rw [hinner]
  cases hopen : v.inner.isOpen with
  | true => simp [WriterSink.call, hopen, Destination.flush_contents]
  | false => simp [WriterSink.call, hopen]

namespace NewFile.Heads

variable {file : NewFile} {v w : Shared WriterSink} {o : Outcome}

theorem eq (h : file.Heads w) :
    (file.sink.inner.call (.write CaptureFile.header)).1 = .ok ∧
      w = { file.sink with inner := (file.sink.inner.call (.write CaptureFile.header)).2 } := by
  have hheads := h.symm.trans
    (Shared.call_of_not_poisoned (w := file.sink) rfl Sink.writer (.write CaptureFile.header))
  have hok : (file.sink.inner.call (.write CaptureFile.header)).1 = .ok :=
    (congrArg Prod.fst hheads).symm
  refine ⟨hok, (congrArg Prod.snd hheads).trans ?_⟩
  change Shared.mk _ ((file.sink.inner.call (.write CaptureFile.header)).1 == .panicked) _ = _
  rw [hok]
  rfl

theorem not_poisoned (h : file.Heads w) : w.poisoned = false := by
  rw [h.eq.2]
  rfl

/-- **The file holds the header and no more.** -/
theorem contents (h : file.Heads w) : w.inner.destination.contents = CaptureFile.header := by
  obtain ⟨part, -, hcontents, hok⟩ :=
    file.sink.inner.call_contents (.write CaptureFile.header)
  rw [h.eq.2, hcontents, hok h.eq.1]
  rfl

/-- The sink has had one call. -/
theorem answers_header (h : file.Heads v) :
    Sink.sharedWriter.answers [.write CaptureFile.header] file.sink =
      ([(.write CaptureFile.header, .ok)], v) := by
  have hwrite : Sink.sharedWriter.call (.write CaptureFile.header) file.sink = (.ok, v) := h
  simp only [Sink.answers, hwrite]

/-- Closed next, it has had two. -/
theorem answers_header_close (h : file.Heads v) (hclose : Sink.sharedWriter.call .close v = (o, w)) :
    Sink.sharedWriter.answers [.write CaptureFile.header, .close] file.sink =
      ([(.write CaptureFile.header, .ok), (.close, o)], w) := by
  rw [← List.singleton_append, Sink.answers_append, h.answers_header]
  simp only [Sink.answers, hclose, List.singleton_append]

end NewFile.Heads

namespace NewFile.Tears

variable {file : NewFile} {w : Shared WriterSink}

theorem not_heads (h : file.Tears w) {v : Shared WriterSink} : ¬file.Heads v := by
  obtain ⟨o, ho, hwrite⟩ := h
  intro hheads
  exact ho (congrArg Prod.fst (hwrite.symm.trans hheads))

/-- **The file holds a part of the header**, and not all of it. -/
theorem contents (h : file.Tears w) :
    ∃ rest, rest ≠ [] ∧ w.inner.destination.contents ++ rest = CaptureFile.header := by
  obtain ⟨o, ho, hwrite⟩ := h
  have hcall := hwrite.symm.trans
    (Shared.call_of_not_poisoned (w := file.sink) rfl Sink.writer (.write CaptureFile.header))
  obtain ⟨part, ⟨rest, hparts, hok⟩, hcontents⟩ :=
    WriterSink.call_gives (.write CaptureFile.header) file.destination
  have houtcome : o = (file.sink.inner.call (.write CaptureFile.header)).1 := congrArg Prod.fst hcall
  have hinner : w.inner = (file.sink.inner.call (.write CaptureFile.header)).2 :=
    congrArg (fun r => r.2.inner) hcall
  refine ⟨rest, fun hnone => ho (houtcome.trans (hok.mpr hnone)), ?_⟩
  rw [hinner]
  change (WriterSink.call (.write CaptureFile.header) ⟨file.destination, true⟩).2.destination.contents ++
    rest = CaptureFile.header
  rw [hcontents]
  exact hparts

end NewFile.Tears

/-! ### What a call does -/

namespace Listener

/-- Neither bound nor with a sink. -/
def idle (l : Listener) : Listener := { l with bound := none, sharedSink := none }

def call (l : Listener) : ListenerCall → ListenerReply
  | .bind socket file => l.bind socket (file.map NewFile.destination)
  | .serve ending => l.serve ending 0

/-- The listener after calls, the first one first. -/
def after (l : Listener) : List ListenerCall → Listener
  | [] => l
  | c :: calls => (l.call c).listener.after calls

/-- The system lets the listener bind: there is a socket with an address, and with one file for all
connections there is a file that takes the header. -/
def Granted (l : Listener) (socket : Except IoError (Except IoError SocketAddress))
    (file : Except IoError NewFile) : Prop :=
  (∃ address, socket = .ok (.ok address)) ∧
    ∀ path, l.settings.output = .shared path → ∃ new w, file = .ok new ∧ new.Heads w

/-- With one file for all connections there is no binding without a file that takes the header. -/
theorem not_granted {l : Listener} {path : String}
    {socket : Except IoError (Except IoError SocketAddress)} {file : Except IoError NewFile}
    (houtput : l.settings.output = .shared path)
    (h : ∀ new w, file = .ok new → ¬new.Heads w) : ¬l.Granted socket file := by
  rintro ⟨-, hfile⟩
  obtain ⟨new, w, hnew, hheads⟩ := hfile path houtput
  exact h new w hnew hheads

/-- All that a call can do, by what it replies. -/
inductive Does (l : Listener) (reply : ListenerReply) : ListenerCall → Prop
  | failsToBind {socket : Except IoError (Except IoError SocketAddress)} {file : Except IoError NewFile}
      (hgranted : ¬l.Granted socket file) (hresult : reply.result ≠ .done)
      (hlistener : reply.listener = l)
      (hsink : ∀ w, reply.sink = some w → ∃ new : NewFile, new.Tears w) :
      Does l reply (.bind socket file)
  | binds {directory : String} {address : SocketAddress} {file : Except IoError NewFile}
      (houtput : l.settings.output = .perConnection directory) (hresult : reply.result = .done)
      (hlistener : reply.listener = { l with bound := some address }) (hsink : reply.sink = none) :
      Does l reply (.bind (.ok (.ok address)) file)
  | bindsShared {path : String} {address : SocketAddress} {file : NewFile} {w : Shared WriterSink}
      (houtput : l.settings.output = .shared path) (hfile : file.Heads w)
      (hresult : reply.result = .done)
      (hlistener : reply.listener = { l with bound := some address, sharedSink := some w })
      (hsink : reply.sink = some w) :
      Does l reply (.bind (.ok (.ok address)) (.ok file))
  | failsToServe {ending : Ending} (hbound : l.bound = none)
      (hreply : reply = { result := .failed (.bind notBound), listener := l }) :
      Does l reply (.serve ending)
  | serves {ending : Ending} (hbound : l.bound ≠ none) (hheld : l.sharedSink = none)
      (hresult : reply.result = ending.result) (hlistener : reply.listener = l.idle)
      (hsink : reply.sink = none) :
      Does l reply (.serve ending)
  | servesShared {ending : Ending} {v w : Shared WriterSink} {o : Outcome} (hbound : l.bound ≠ none)
      (hheld : l.sharedSink = some v) (hclose : Sink.sharedWriter.call .close v = (o, w))
      (hresult : reply.result = ending.closing o) (hlistener : reply.listener = l.idle)
      (hsink : reply.sink = some w) :
      Does l reply (.serve ending)

/-- A file that does not take the header is no file to bind with. -/
theorem Does.torn {l : Listener} {reply : ListenerReply} {path : String} {address : SocketAddress}
    {file : NewFile} {w : Shared WriterSink} (houtput : l.settings.output = .shared path)
    (htears : file.Tears w) (hresult : reply.result ≠ .done) (hlistener : reply.listener = l)
    (hsink : reply.sink = some w) : l.Does reply (.bind (.ok (.ok address)) (.ok file)) := by
  refine .failsToBind (not_granted houtput ?_) hresult hlistener ?_
  · rintro _ v ⟨⟩ hheads
    exact htears.not_heads hheads
  · intro v hv
    rw [hsink] at hv
    cases hv
    exact ⟨file, htears⟩

theorem bind_does (l : Listener) (socket : Except IoError (Except IoError SocketAddress))
    (file : Except IoError NewFile) :
    l.Does (l.call (.bind socket file)) (.bind socket file) := by
  cases socket with
  | error e => exact .failsToBind (fun h => nomatch h.1) NetworkResult.noConfusion rfl nofun
  | ok socket =>
      cases socket with
      | error e => exact .failsToBind (fun h => nomatch h.1) NetworkResult.noConfusion rfl nofun
      | ok address =>
          cases houtput : l.settings.output with
          | perConnection directory =>
              simp only [call, bind, houtput]
              exact .binds houtput rfl rfl rfl
          | shared path =>
              cases file with
              | error e =>
                  simp only [call, bind, houtput, Except.map]
                  exact .failsToBind (not_granted houtput nofun) NetworkResult.noConfusion rfl nofun
              | ok file =>
                  simp only [call, bind, houtput, Except.map]
                  split <;> rename_i hheader
                  · refine .torn houtput ⟨_, ?_, hheader⟩ NetworkResult.noConfusion rfl rfl
                    exact Outcome.noConfusion
                  · refine .torn houtput ⟨_, ?_, hheader⟩ NetworkResult.noConfusion rfl rfl
                    exact Outcome.noConfusion
                  · exact .bindsShared houtput hheader rfl rfl rfl

theorem serve_does (l : Listener) (ending : Ending) : l.Does (l.call (.serve ending)) (.serve ending) := by
  cases hbound : l.bound with
  | none =>
      simp only [call, serve, hbound]
      exact .failsToServe hbound rfl
  | some address =>
      have hsome : l.bound ≠ none := by simp [hbound]
      cases hheld : l.sharedSink with
      | none =>
          simp only [call, serve, hbound, hheld]
          exact .serves hsome hheld rfl rfl rfl
      | some v =>
          simp only [call, serve, hbound, hheld]
          split <;> rename_i hclose <;> exact .servesShared hsome hheld hclose rfl rfl rfl

theorem call_does (l : Listener) (c : ListenerCall) : l.Does (l.call c) c := by
  cases c with
  | bind socket file => exact l.bind_does socket file
  | serve ending => exact l.serve_does ending

/-! ### What stays true through all calls -/

/-- With one file for all connections the socket and the sink are there together or not at all, and with
a file for each there is no sink. A sink that is there has had its header and no other call. -/
structure Paired (settings : ListenerSettings) (l : Listener) : Prop where
  kept : l.settings = settings
  shared : ∀ path, settings.output = .shared path → (l.bound.isSome ↔ l.sharedSink.isSome)
  perConnection : ∀ directory, settings.output = .perConnection directory → l.sharedSink = none
  headed : ∀ w, l.sharedSink = some w → ∃ file : NewFile, file.Heads w

namespace Paired

variable {settings : ListenerSettings} {l : Listener}

theorem new (settings : ListenerSettings) : Paired settings { settings } :=
  ⟨rfl, fun _ _ => Iff.rfl, fun _ _ => rfl, fun _ h => nomatch h⟩

theorem idle (h : Paired settings l) : Paired settings l.idle :=
  ⟨h.kept, fun _ _ => Iff.rfl, fun _ _ => rfl, fun _ h => nomatch h⟩

/-- **A call keeps together what belongs together.** -/
theorem call (h : Paired settings l) (c : ListenerCall) : Paired settings (l.call c).listener := by
  have hunpaired : ∀ {path directory : String}, settings.output = .shared path →
      settings.output = .perConnection directory → False := by
    intro path directory hshared hown
    rw [hshared] at hown
    cases hown
  cases l.call_does c with
  | failsToBind hgranted hresult hlistener hsink => rwa [hlistener]
  | binds houtput hresult hlistener hsink =>
      rw [hlistener]
      rw [h.kept] at houtput
      exact ⟨h.kept, fun _ hshared => (hunpaired hshared houtput).elim, h.perConnection, h.headed⟩
  | bindsShared houtput hfile hresult hlistener hsink =>
      rw [hlistener]
      rw [h.kept] at houtput
      refine ⟨h.kept, fun _ _ => iff_of_true rfl rfl, fun _ hown => (hunpaired houtput hown).elim, ?_⟩
      rintro w ⟨⟩
      exact ⟨_, hfile⟩
  | failsToServe hbound hreply => rwa [hreply]
  | serves hbound hheld hresult hlistener hsink =>
      rw [hlistener]
      exact h.idle
  | servesShared hbound hheld hclose hresult hlistener hsink =>
      rw [hlistener]
      exact h.idle

/-- **So does any number of them.** -/
theorem after (h : Paired settings l) (calls : List ListenerCall) : Paired settings (l.after calls) := by
  induction calls generalizing l with
  | nil => exact h
  | cons c calls ih => exact ih (h.call c)

end Paired

/-! ### Binds and runs -/

/-- What binding comes to. It succeeds if the system lets it, and if it fails, the listener is as before,
and a file that was created has lost what it held and has only a part of the header. When it succeeds the
listener is bound to the address that the socket got, and a file for all connections holds the header and
no more, also after a run that follows at once. -/
structure Binds (l : Listener) (socket : Except IoError (Except IoError SocketAddress))
    (file : Except IoError NewFile) (reply : ListenerReply) : Prop where
  done : reply.result = .done ↔ l.Granted socket file
  failed : reply.result ≠ .done → reply.listener = l
  torn : reply.result ≠ .done → ∀ w, reply.sink = some w →
    ∃ rest, rest ≠ [] ∧ w.inner.destination.contents ++ rest = CaptureFile.header
  bound : reply.result = .done →
    ∃ address, socket = .ok (.ok address) ∧ reply.listener.bound = some address
  headed : reply.result = .done → ∀ path, l.settings.output = .shared path →
    ∃ w, reply.listener.sharedSink = some w ∧ reply.sink = some w ∧
      w.inner.destination.contents = CaptureFile.header ∧
      ∀ ending, ∃ closed, (reply.listener.call (.serve ending)).sink = some closed ∧
        closed.inner.destination.contents = CaptureFile.header

/-- What a run of a bound listener comes to: neither the socket nor the sink is left, and the next run
fails. The sink has had two calls, the write of the header and the close, and the result tells if the
close failed. -/
structure Ends (l : Listener) (ending : Ending) (reply : ListenerReply) : Prop where
  listener : reply.listener = { l with bound := none, sharedSink := none }
  next : ∀ ending, reply.listener.call (.serve ending) =
    { result := .failed (.bind notBound), listener := reply.listener }
  unshared : l.sharedSink = none → reply.result = ending.result ∧ reply.sink = none
  closed : ∀ v, l.sharedSink = some v → ∃ (file : NewFile) (o : Outcome) (w : Shared WriterSink),
    Sink.sharedWriter.answers [.write CaptureFile.header] file.sink =
        ([(.write CaptureFile.header, .ok)], v) ∧
      Sink.sharedWriter.answers [.write CaptureFile.header, .close] file.sink =
        ([(.write CaptureFile.header, .ok), (.close, o)], w) ∧
      reply.sink = some w ∧ w.inner.isOpen = false ∧ reply.result = ending.closing o

theorem serve_of_unbound {l : Listener} (h : l.bound = none) (ending : Ending) :
    l.call (.serve ending) = { result := .failed (.bind notBound), listener := l } := by
  cases l.call_does (.serve ending) with
  | failsToServe hbound hreply => exact hreply
  | serves hbound | servesShared hbound => exact absurd h hbound

theorem call_binds (l : Listener) (socket : Except IoError (Except IoError SocketAddress))
    (file : Except IoError NewFile) : l.Binds socket file (l.call (.bind socket file)) := by
  cases l.call_does (.bind socket file) with
  | failsToBind hgranted hresult hlistener hsink =>
      refine ⟨iff_of_false hresult hgranted, fun _ => hlistener, ?_, fun h => absurd h hresult,
        fun h => absurd h hresult⟩
      intro _ w hw
      obtain ⟨new, htears⟩ := hsink w hw
      exact htears.contents
  | @binds directory address file houtput hresult hlistener hsink =>
      have hunshared : ∀ path, l.settings.output ≠ .shared path := by
        intro path hshared
        rw [houtput] at hshared
        cases hshared
      exact ⟨iff_of_true hresult ⟨⟨address, rfl⟩, fun path h => absurd h (hunshared path)⟩,
        fun h => absurd hresult h, fun h => absurd hresult h,
        fun _ => ⟨address, rfl, by rw [hlistener]⟩, fun _ path h => absurd h (hunshared path)⟩
  | @bindsShared path address file w houtput hfile hresult hlistener hsink =>
      refine ⟨iff_of_true hresult ⟨⟨address, rfl⟩, fun _ _ => ⟨file, w, rfl, hfile⟩⟩,
        fun h => absurd hresult h, fun h => absurd hresult h,
        fun _ => ⟨address, rfl, by rw [hlistener]⟩, ?_⟩
      intro _ _ _
      refine ⟨w, by rw [hlistener], hsink, hfile.contents, ?_⟩
      intro ending
      rw [hlistener]
      cases call_does { l with bound := some address, sharedSink := some w } (.serve ending) with
      | failsToServe hbound => cases hbound
      | serves hbound hheld => cases hheld
      | @servesShared _ v closed o hbound hheld hclose hresult hlistener hsink =>
          cases hheld
          exact ⟨closed, hsink,
            (Sink.sharedWriter_close hfile.not_poisoned hclose).2.trans hfile.contents⟩

theorem Paired.call_ends {settings : ListenerSettings} {l : Listener} (h : Paired settings l)
    (hbound : l.bound ≠ none) (ending : Ending) : l.Ends ending (l.call (.serve ending)) := by
  have hnext : ∀ {reply : ListenerReply}, reply.listener = l.idle → ∀ ending,
      reply.listener.call (.serve ending) =
        { result := .failed (.bind notBound), listener := reply.listener } := by
    intro reply hlistener
    exact serve_of_unbound (by rw [hlistener]; rfl)
  cases l.call_does (.serve ending) with
  | failsToServe hunbound => exact absurd hunbound hbound
  | serves _ hheld hresult hlistener hsink =>
      refine ⟨hlistener, hnext hlistener, fun _ => ⟨hresult, hsink⟩, ?_⟩
      intro v hv
      rw [hheld] at hv
      cases hv
  | @servesShared _ v w o _ hheld hclose hresult hlistener hsink =>
      refine ⟨hlistener, hnext hlistener, ?_, ?_⟩
      · intro hnone
        rw [hheld] at hnone
        cases hnone
      · intro u hu
        rw [hheld] at hu
        cases hu
        obtain ⟨file, hfile⟩ := h.headed v hheld
        exact ⟨file, o, w, hfile.answers_header, hfile.answers_header_close hclose, hsink,
          (Sink.sharedWriter_close hfile.not_poisoned hclose).1, hresult⟩

end Listener

/-! ### Listening on a host -/

namespace Host

/-- The file that a host creates for all connections. It takes all that is written to it. -/
def newFile (host : Host) : CaptureOutput → Except IoError NewFile
  | .perConnection _ => .ok {}
  | .shared path => (host.files.create path).map fun _ => {}

/-- Listening on a host is a bind with what the host answers. -/
theorem listen_call (host : Host) (l : Listener) :
    (host.listen l).1 = l.call (.bind ((host.bind l.settings.listenAddress).map .ok)
      (host.newFile l.settings.output)) := by
  cases hsocket : host.bind l.settings.listenAddress with
  | error e =>
      simp only [listen, hsocket, Except.map]
      rfl
  | ok address =>
      cases houtput : l.settings.output with
      | perConnection directory =>
          simp only [listen, hsocket, houtput, Except.map]
          rfl
      | shared path =>
          cases hcreate : host.files.create path <;>
            simp only [listen, hsocket, houtput, hcreate, newFile, Except.map] <;> rfl

theorem listen_binds (host : Host) (l : Listener) :
    l.Binds ((host.bind l.settings.listenAddress).map .ok) (host.newFile l.settings.output)
      (host.listen l).1 := by
  rw [listen_call]
  exact l.call_binds _ _

/-- **A file for all connections reads as the header alone**, whatever was at its path before. -/
theorem listen_read (host : Host) (l : Listener) {path : String}
    (houtput : l.settings.output = .shared path) (h : (host.listen l).1.result = .done) :
    (host.listen l).2.files.read path = .ok ⟨CaptureFile.header.toArray⟩ := by
  cases hsocket : host.bind l.settings.listenAddress with
  | error e =>
      simp only [listen, hsocket, Except.map] at h
      cases h
  | ok address =>
      cases hcreate : host.files.create path with
      | error e =>
          simp only [listen, hsocket, houtput, hcreate, Except.map, Listener.bind] at h
          cases h
      | ok created =>
          simp only [listen, hsocket, houtput, hcreate, Except.map] at h ⊢
          obtain ⟨w, -, hsink, hcontents, -⟩ :=
            (l.call_binds (.ok (.ok address)) (.ok {})).headed h path houtput
          change (l.bind (.ok (.ok address)) (.ok {})).sink = some w at hsink
          rw [hsink]
          dsimp only
          rw [hcontents]
          exact FileSystem.read_put hcreate _

end Host

namespace Listener

/-- **A listener through any sequence of binds and runs**, whatever the system answers to each. With one
file for all connections it is bound exactly while it holds a sink, with a file for each it never holds
one. A bind that fails leaves both as they were, though it may have created the file anew, and after one
that succeeds the file for all holds the 24 bytes of the header and no more, whatever was there before. A
run that is not bound fails and changes nothing. A run that is bound gives both up and closes the sink once,
also when closing fails. -/
theorem held_together (settings : ListenerSettings) (calls : List ListenerCall) :
    let l := ({ settings } : Listener).after calls
    (∀ path, settings.output = .shared path → (l.bound.isSome ↔ l.sharedSink.isSome)) ∧
      (∀ directory, settings.output = .perConnection directory → l.sharedSink = none) ∧
      (∀ socket file, l.Binds socket file (l.call (.bind socket file))) ∧
      CaptureFile.header.length = 24 ∧
      (∀ host : Host,
        l.Binds ((host.bind settings.listenAddress).map .ok) (host.newFile settings.output)
          (host.listen l).1 ∧
        ∀ path, settings.output = .shared path → (host.listen l).1.result = .done →
          (host.listen l).2.files.read path = .ok ⟨CaptureFile.header.toArray⟩) ∧
      (l.bound = none → ∀ ending,
        l.call (.serve ending) = { result := .failed (.bind notBound), listener := l }) ∧
      notBound.kind = .notConnected ∧
      (l.bound ≠ none → ∀ ending, l.Ends ending (l.call (.serve ending))) := by
  intro l
  have hpaired : Paired settings l := (Paired.new settings).after calls
  refine ⟨hpaired.shared, hpaired.perConnection, l.call_binds, CaptureFile.header_length, ?_,
    serve_of_unbound, rfl, hpaired.call_ends⟩
  intro host
  constructor
  · rw [← hpaired.kept]
    exact host.listen_binds l
  · intro path houtput
    exact host.listen_read l (by rw [hpaired.kept, houtput])

/-- All connections go to one file. -/
def sharing : ListenerSettings :=
  { listenAddress := .v4 ⟨127, 0, 0, 1⟩ 8080
    serviceAddress := .v4 ⟨127, 0, 0, 1⟩ 80
    output := .shared "capture.pcap"
    captureZeroByte := false }

/-- A file that cannot be flushed is bound, and then a disk is full that should take another. -/
theorem held_together_full :
    let bound : Except IoError (Except IoError SocketAddress) := .ok (.ok sharing.listenAddress)
    let full : NewFile := { writes := [.atMost 10, .fails (.system .noSpace)] }
    let once := ({ settings := sharing } : Listener).after
      [.serve .shutdown, .bind bound (.ok { flushes := [.failed (.system .noSpace)] })]
    let served := once.call (.serve .shutdown)
    (once.call (.bind bound (.ok full))).result = .failed (.captureFile (.system .noSpace)) ∧
      (once.call (.bind bound (.ok full))).listener = once ∧
      (∃ w rest, (once.call (.bind bound (.ok full))).sink = some w ∧ rest ≠ [] ∧
        w.inner.destination.contents ++ rest = CaptureFile.header) ∧
      once.bound ≠ none ∧ once.Ends .shutdown served ∧
      served.result = .failed (.captureFile (.system .noSpace)) ∧
      ((served.listener.call (.serve .shutdown)).result = .failed (.bind notBound)) := by
  intro bound full once served
  obtain ⟨-, -, hbinds, -, -, -, -, hends⟩ := held_together sharing
    [.serve .shutdown, .bind bound (.ok { flushes := [.failed (.system .noSpace)] })]
  have hfull : (once.call (.bind bound (.ok full))).result =
      .failed (.captureFile (.system .noSpace)) := by decide
  have hbound : once.bound ≠ none := by decide
  have hserved := hends hbound .shutdown
  have hfails : (once.call (.bind bound (.ok full))).result ≠ .done := by
    intro hdone
    exact NetworkResult.noConfusion (hfull.symm.trans hdone)
  have hcreated : (once.call (.bind bound (.ok full))).sink.isSome = true := by decide
  obtain ⟨w, hw⟩ := Option.isSome_iff_exists.mp hcreated
  obtain ⟨rest, hrest, htorn⟩ := (hbinds bound (.ok full)).torn hfails w hw
  exact ⟨hfull, (hbinds bound (.ok full)).failed hfails, ⟨w, rest, hw, hrest, htorn⟩, hbound, hserved,
    by decide, congrArg ListenerReply.result (hserved.next .shutdown)⟩

end Listener

end Wiretap
