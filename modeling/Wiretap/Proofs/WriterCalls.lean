import Wiretap.Proofs.Trace
import Wiretap.Proofs.Writer

/-! Calls on a writer sink. A write goes to the destination in single writes, each with what is left of
the bytes: after a part the rest is offered, after an interruption the same bytes again, and anything
else ends it. Every single write uses up one answer of the script, so there are at most as many as
answers are left, and one more.

A sink that is used until it is closed has given its destination the bytes of every write in order: the
whole of a write that succeeded, a proper part from the front of one that did not. The close is one
flush, whatever that comes to, and after it the destination is not called again. -/

namespace Wiretap

/-- What a single write came to: so many bytes from the front were accepted, or none. -/
inductive Writing
  | accepted (n : Nat)
  | failed (e : IoError)
  | panicked
deriving DecidableEq, Repr

/-- The bytes that were accepted of those offered. -/
def Writing.part (bytes : Bytes) : Writing → Bytes
  | accepted n => bytes.take n
  | failed _ | panicked => []

namespace Destination

/-- Offers bytes once. -/
def write (bytes : Bytes) (d : Destination) : Writing × Destination :=
  match d.writes with
  | [] => (.accepted bytes.length, { d with journal := .accepted bytes :: d.journal })
  | .all :: script =>
    (.accepted bytes.length,
      { d with writes := script, journal := .accepted bytes :: d.journal })
  | .atMost n :: script =>
    (.accepted (min n bytes.length),
      { d with writes := script, journal := .accepted (bytes.take n) :: d.journal })
  | .fails e :: script =>
    let mark := if e.kind = .interrupted then .interrupted else .writeFailed
    (.failed e, { d with writes := script, journal := mark :: d.journal })
  | .panics :: script => (.panicked, { d with writes := script })

/-- `d.Writes bytes k o d'`: written to `d` until there is an outcome, the bytes take `k` single writes,
come to `o` and leave `d'`. -/
inductive Writes : Bytes → Destination → Nat → Outcome → Destination → Prop
  | done (d : Destination) : Writes [] d 0 .ok d
  | goesOn {bytes : Bytes} {d d' d'' : Destination} {n k : Nat} {o : Outcome} (hbytes : bytes ≠ [])
      (hwrite : d.write bytes = (.accepted n, d')) (hn : n ≠ 0)
      (hrest : Writes (bytes.drop n) d' k o d'') : Writes bytes d (k + 1) o d''
  | stalls {bytes : Bytes} {d d' : Destination} (hbytes : bytes ≠ [])
      (hwrite : d.write bytes = (.accepted 0, d')) : Writes bytes d 1 (.failed stalled) d'
  | again {bytes : Bytes} {d d' d'' : Destination} {e : IoError} {k : Nat} {o : Outcome}
      (hbytes : bytes ≠ []) (hwrite : d.write bytes = (.failed e, d')) (he : e.kind = .interrupted)
      (hrest : Writes bytes d' k o d'') : Writes bytes d (k + 1) o d''
  | fails {bytes : Bytes} {d d' : Destination} {e : IoError} (hbytes : bytes ≠ [])
      (hwrite : d.write bytes = (.failed e, d')) (he : e.kind ≠ .interrupted) :
      Writes bytes d 1 (.failed e) d'
  | panics {bytes : Bytes} {d d' : Destination} (hbytes : bytes ≠ [])
      (hwrite : d.write bytes = (.panicked, d')) : Writes bytes d 1 .panicked d'

section

variable {bytes : Bytes} {d d' : Destination} {result : Writing}

/-- A single write uses up one answer of the script while there is one. -/
theorem write_script (h : d.write bytes = (result, d')) : d'.writes = d.writes.tail := by
  have hsnd : d' = (d.write bytes).2 := by rw [h]
  rw [hsnd, write]
  split <;> rename_i hscript <;> rw [hscript] <;> rfl

/-- A single write adds the bytes that it says it accepted. -/
theorem write_contents (h : d.write bytes = (result, d')) :
    d'.contents = d.contents ++ result.part bytes := by
  unfold write at h
  split at h <;> cases h
  · simp [contents_eq, journalBytes_cons, Mark.bytes, Writing.part]
  · simp [contents_eq, journalBytes_cons, Mark.bytes, Writing.part]
  · simp [contents_eq, journalBytes_cons, Mark.bytes, Writing.part, ← List.take_eq_take_min]
  · simp only [contents_eq, journalBytes_cons]
    split <;> rfl
  · exact (List.append_nil _).symm

/-- Past its script a destination accepts all bytes at once. -/
theorem write_unscripted (h : d.write bytes = (result, d')) (hwrites : d.writes = []) :
    result = .accepted bytes.length := by
  simp only [write, hwrites] at h
  cases h
  rfl

end

namespace Writes

variable {bytes : Bytes} {d d' : Destination} {k : Nat} {o : Outcome}

theorem nil (h : Writes [] d k o d') : k = 0 ∧ o = .ok ∧ d' = d := by
  cases h with
  | done => exact ⟨rfl, rfl, rfl⟩
  | goesOn hbytes | stalls hbytes | again hbytes | fails hbytes | panics hbytes =>
      exact absurd rfl hbytes

/-- **There are no more single writes than answers in the script, and one.** -/
theorem count_le (h : Writes bytes d k o d') : k ≤ d.writes.length + 1 := by
  induction h with
  | done => exact Nat.zero_le _
  | @goesOn bytes d d' _ n k _ hbytes hwrite hn hrest ih =>
      rw [write_script hwrite, List.length_tail] at ih
      cases hwrites : d.writes with
      | nil =>
          obtain rfl : n = bytes.length := by
            injection write_unscripted hwrite hwrites
          rw [List.drop_length] at hrest
          rw [hrest.nil.1]
          exact Nat.le_add_left 1 _
      | cons a script =>
          rw [hwrites, List.length_cons] at ih
          rw [List.length_cons]
          omega
  | @again bytes d d' _ e k _ hbytes hwrite he hrest ih =>
      rw [write_script hwrite, List.length_tail] at ih
      cases hwrites : d.writes with
      | nil => cases write_unscripted hwrite hwrites
      | cons a script =>
          rw [hwrites, List.length_cons] at ih
          rw [List.length_cons]
          omega
  | stalls | fails | panics => exact Nat.le_add_left 1 _

/-- **What is accepted is a part from the front, and all of it exactly if the write succeeds.** -/
theorem contents (h : Writes bytes d k o d') :
    ∃ part rest, part ++ rest = bytes ∧ d'.contents = d.contents ++ part ∧
      (o = .ok ↔ rest = []) := by
  induction h with
  | done d => exact ⟨[], [], rfl, (List.append_nil _).symm, iff_of_true rfl rfl⟩
  | @goesOn bytes d d' d'' n k o hbytes hwrite hn hrest ih =>
      obtain ⟨part, rest, hparts, hcontents, hok⟩ := ih
      refine ⟨bytes.take n ++ part, rest, ?_, ?_, hok⟩
      · rw [List.append_assoc, hparts, List.take_append_drop]
      · rw [hcontents, write_contents hwrite, List.append_assoc]
        rfl
  | again hbytes hwrite he hrest ih =>
      obtain ⟨part, rest, hparts, hcontents, hok⟩ := ih
      refine ⟨part, rest, hparts, ?_, hok⟩
      rw [hcontents, write_contents hwrite, Writing.part, List.append_nil]
  | stalls hbytes hwrite | fails hbytes hwrite | panics hbytes hwrite =>
      exact ⟨[], _, rfl, write_contents hwrite, iff_of_false Outcome.noConfusion hbytes⟩

end Writes

/-- Writing all bytes is such a sequence of single writes. -/
theorem writeLoop_writes (script : List Acceptance) (bytes : Bytes) (marks : List Mark)
    (d : Destination) :
    ∃ k, Writes bytes { d with writes := script, journal := marks } k
      (writeLoop script bytes marks).1
      { d with
        writes := (writeLoop script bytes marks).2.1
        journal := (writeLoop script bytes marks).2.2 } := by
  induction script generalizing bytes marks with
  | nil =>
      cases bytes with
      | nil => exact ⟨0, .done _⟩
      | cons b bytes =>
          refine ⟨1, .goesOn (List.cons_ne_nil b bytes) rfl (Nat.succ_ne_zero _) ?_⟩
          rw [List.drop_length]
          exact .done _
  | cons a script ih =>
      cases bytes with
      | nil => exact ⟨0, .done _⟩
      | cons b bytes =>
          have hbytes := List.cons_ne_nil b bytes
          cases a with
          | all =>
              refine ⟨1, .goesOn hbytes rfl (Nat.succ_ne_zero _) ?_⟩
              rw [List.drop_length]
              exact .done _
          | atMost n =>
              by_cases hn : n = 0
              · subst hn
                exact ⟨1, .stalls hbytes (by simp only [write, Nat.zero_min]; rfl)⟩
              · obtain ⟨k, hrest⟩ :=
                  ih ((b :: bytes).drop n) (.accepted ((b :: bytes).take n) :: marks)
                simp only [writeLoop, if_neg hn]
                refine ⟨k + 1, .goesOn hbytes rfl ?_ ?_⟩
                · rw [List.length_cons]
                  omega
                · rw [← List.drop_eq_drop_min]
                  exact hrest
          | fails e =>
              by_cases he : e.kind = .interrupted
              · obtain ⟨k, hrest⟩ := ih (b :: bytes) (.interrupted :: marks)
                simp only [writeLoop, if_pos he]
                exact ⟨k + 1, .again hbytes (by simp only [write, if_pos he]) he hrest⟩
              · simp only [writeLoop, if_neg he]
                exact ⟨1, .fails hbytes (by simp only [write, if_neg he]) he⟩
          | panics => exact ⟨1, .panics hbytes rfl⟩

theorem writeAll_writes (bytes : Bytes) (d : Destination) :
    ∃ k, d.Writes bytes k (d.writeAll bytes).1 (d.writeAll bytes).2 :=
  writeLoop_writes d.writes bytes d.journal d

end Destination

/-- The answers to calls one after another, the first one first, and what is left of the sink. -/
def Sink.answers {σ : Type} (sink : Sink σ) : List SinkCall → σ → List Answer × σ
  | [], w => ([], w)
  | c :: calls, w =>
    let first := sink.call c w
    let rest := sink.answers calls first.2
    ((c, first.1) :: rest.1, rest.2)

theorem Sink.answers_append {σ : Type} (sink : Sink σ) (before after : List SinkCall) (w : σ) :
    sink.answers (before ++ after) w =
      ((sink.answers before w).1 ++ (sink.answers after (sink.answers before w).2).1,
        (sink.answers after (sink.answers before w).2).2) := by
  induction before generalizing w with
  | nil => rfl
  | cons c before ih =>
      rw [List.cons_append, answers, ih]
      rfl

/-- What a destination gets of a call: of a write a part from the front, and all of it exactly if the
write succeeds. -/
def Answer.Gives : Answer → Bytes → Prop
  | (.write bytes, o), part => ∃ rest, part ++ rest = bytes ∧ (o = .ok ↔ rest = [])
  | (.flush, _), part | (.close, _), part => part = []

namespace WriterSink

/-- What a call on a closed sink comes to. -/
def closedAnswer : SinkCall → Outcome
  | .write _ | .flush => .failed closedError
  | .close => .ok

theorem call_gives (c : SinkCall) (d : Destination) :
    ∃ part, Answer.Gives (c, (call c ⟨d, true⟩).1) part ∧
      (call c ⟨d, true⟩).2.destination.contents = d.contents ++ part := by
  have hflush : d.flush.2.contents = d.contents ++ [] := by
    rw [d.flush_contents, List.append_nil]
  cases c with
  | write bytes =>
      obtain ⟨k, hwrites⟩ := d.writeAll_writes bytes
      obtain ⟨part, rest, hparts, hcontents, hok⟩ := hwrites.contents
      exact ⟨part, ⟨rest, hparts, hok⟩, hcontents⟩
  | flush => exact ⟨[], rfl, hflush⟩
  | close => exact ⟨[], rfl, hflush⟩

theorem call_open {c : SinkCall} (h : c ≠ .close) (d : Destination) :
    ∃ d', (call c ⟨d, true⟩).2 = ⟨d', true⟩ := by
  cases c with
  | write bytes | flush => exact ⟨_, rfl⟩
  | close => exact absurd rfl h

/-- Until it is closed a sink is open, and its destination has got what the calls gave it. -/
theorem answers_open {calls : List SinkCall} (h : .close ∉ calls) (d : Destination) :
    ∃ d' parts, (Sink.writer.answers calls ⟨d, true⟩).2 = ⟨d', true⟩ ∧
      List.Forall₂ Answer.Gives (Sink.writer.answers calls ⟨d, true⟩).1 parts ∧
      d'.contents = d.contents ++ parts.flatten := by
  induction calls generalizing d with
  | nil => exact ⟨d, [], rfl, .nil, (List.append_nil _).symm⟩
  | cons c calls ih =>
      rw [List.mem_cons, not_or] at h
      obtain ⟨hc, hcalls⟩ := h
      obtain ⟨part, hgives, hcontents⟩ := call_gives c d
      obtain ⟨e, he⟩ := call_open (Ne.symm hc) d
      obtain ⟨d', parts, hopen, hparts, hrest⟩ := ih hcalls e
      rw [he] at hcontents
      rw [← he] at hopen hparts
      refine ⟨d', part :: parts, hopen, .cons hgives hparts, ?_⟩
      calc
        d'.contents = e.contents ++ parts.flatten := hrest
        _ = d.contents ++ part ++ parts.flatten := by rw [hcontents]
        _ = d.contents ++ (part :: parts).flatten := List.append_assoc _ _ _

/-- A closed sink does not call its destination. -/
theorem answers_closed (calls : List SinkCall) (d : Destination) :
    Sink.writer.answers calls ⟨d, false⟩ = (calls.map fun c => (c, closedAnswer c), ⟨d, false⟩) := by
  induction calls with
  | nil => rfl
  | cons c calls ih =>
      have hcall : Sink.writer.call c ⟨d, false⟩ = (closedAnswer c, ⟨d, false⟩) := by
        cases c <;> rfl
      simp only [Sink.answers, hcall, ih, List.map_cons]

/-- **A writer sink over any destination.** Until it is closed every write ends after at most as many
single writes as the script has answers, and one, and the destination has got the whole of each write
that succeeded and a proper part from the front of each that did not. The first close flushes the
destination once and comes to what that comes to. From then on the destination is as that flush left
it: writes and flushes fail, and closing again succeeds. -/
theorem answers_close (d : Destination) (before after : List SinkCall) (hbefore : .close ∉ before) :
    ∃ answers d' parts,
      Sink.writer.answers before ⟨d, true⟩ = (answers, ⟨d', true⟩) ∧
      List.Forall₂ Answer.Gives answers parts ∧ d'.contents = d.contents ++ parts.flatten ∧
      (∀ bytes, ∃ k o d'', k ≤ d'.writes.length + 1 ∧ d'.Writes bytes k o d'' ∧
        Sink.writer.call (.write bytes) ⟨d', true⟩ = (o, ⟨d'', true⟩)) ∧
      Sink.writer.answers (before ++ .close :: after) ⟨d, true⟩ =
        (answers ++ (.close, d'.flush.1) :: after.map fun c => (c, closedAnswer c),
          ⟨d'.flush.2, false⟩) ∧
      closedError.kind = .notConnected := by
  obtain ⟨d', parts, hopen, hparts, hcontents⟩ := answers_open hbefore d
  refine ⟨(Sink.writer.answers before ⟨d, true⟩).1, d', parts, ?_, hparts, hcontents, ?_, ?_, rfl⟩
  · rw [← hopen]
  · intro bytes
    obtain ⟨k, hwrites⟩ := d'.writeAll_writes bytes
    exact ⟨k, _, _, hwrites.count_le, hwrites, rfl⟩
  · have hclose : Sink.writer.call .close ⟨d', true⟩ = (d'.flush.1, ⟨d'.flush.2, false⟩) := rfl
    rw [Sink.answers_append, hopen]
    simp only [Sink.answers, hclose, answers_closed]

/-- Takes a write in two parts and is interrupted between them, takes one byte of the next and then none,
and fails to flush the second time. -/
def fullDisk : Destination :=
  { writes := [.atMost 2, .fails (.bare .interrupted), .all, .atMost 1, .atMost 0]
    flushes := [.ok, .failed (.system .noSpace)] }

theorem answers_close_fullDisk :
    .close ∉ [SinkCall.write [1, 2, 3], .flush, .write [4, 5]] ∧
      ∃ d' : Destination, d'.contents = [1, 2, 3, 4] ∧
        (∃ k o d'', k ≤ 1 ∧ d'.Writes [6] k o d'') ∧
        Sink.writer.answers
          [.write [1, 2, 3], .flush, .write [4, 5], .close, .write [7], .flush, .close]
          ⟨fullDisk, true⟩ =
        ([(.write [1, 2, 3], .ok), (.flush, .ok), (.write [4, 5], .failed Destination.stalled),
            (.close, .failed (.system .noSpace)), (.write [7], .failed closedError),
            (.flush, .failed closedError), (.close, .ok)],
          ⟨d'.flush.2, false⟩) := by
  have hbefore : .close ∉ [SinkCall.write [1, 2, 3], .flush, .write [4, 5]] := by simp
  obtain ⟨answers, d', parts, hanswers, -, -, hwrites, hclose, -⟩ :=
    answers_close fullDisk [.write [1, 2, 3], .flush, .write [4, 5]] [.write [7], .flush, .close] hbefore
  have hused : d' = { fullDisk with
      writes := []
      flushes := [.failed (.system .noSpace)]
      journal := [.accepted [], .accepted [4], .flushed, .accepted [3], .interrupted,
        .accepted [1, 2]] } := by
    injection hanswers with _ h
    injection h with h
    exact h.symm
  obtain ⟨k, o, d'', hk, hsix, -⟩ := hwrites [6]
  refine ⟨hbefore, d', by rw [hused]; rfl, ⟨k, o, d'', ?_, hsix⟩, ?_⟩
  · rw [hused] at hk
    exact hk
  · refine hclose.trans ?_
    injection hanswers with h
    rw [← h, hused]
    rfl

end WriterSink

end Wiretap
