import Wiretap.Listener
import Wiretap.Proofs.Lifecycle

/-! Writer sinks. However a destination takes a write, it gets bytes from the front of it in order, and
all of them if the write succeeds. So a sink over a destination adds to it what its calls write, up to a
part of the call that fails. A destination whose scripts hold no panic makes a calm sink. -/

namespace Wiretap

/-- The bytes that a journal has, the newest mark first. -/
def journalBytes (marks : List Mark) : Bytes := (marks.reverse.map Mark.bytes).flatten

theorem journalBytes_cons (m : Mark) (marks : List Mark) :
    journalBytes (m :: marks) = journalBytes marks ++ m.bytes := by
  simp [journalBytes]

theorem Destination.contents_eq (d : Destination) : d.contents = journalBytes d.journal := rfl

namespace Destination

/-- A script without a panic. -/
def Calm (d : Destination) : Prop := .panics ∉ d.writes ∧ .panicked ∉ d.flushes

/-- **A write hands over a part of the bytes from the front**, all of them if it succeeds. -/
theorem writeLoop_part (script : List Acceptance) (bytes : Bytes) (marks : List Mark) :
    ∃ part, part <+: bytes ∧
      journalBytes (writeLoop script bytes marks).2.2 = journalBytes marks ++ part ∧
      ((writeLoop script bytes marks).1 = .ok → part = bytes) := by
  induction script generalizing bytes marks with
  | nil =>
      refine ⟨bytes, List.prefix_refl bytes, ?_, fun _ => rfl⟩
      cases bytes with
      | nil => exact (List.append_nil _).symm
      | cons b bytes => exact journalBytes_cons _ _
  | cons a script ih =>
      cases bytes with
      | nil => exact ⟨[], List.prefix_refl [], (List.append_nil _).symm, fun _ => rfl⟩
      | cons b bytes =>
          cases a with
          | all => exact ⟨_, List.prefix_refl _, journalBytes_cons _ _, fun _ => rfl⟩
          | atMost n =>
              simp only [writeLoop]
              split
              · refine ⟨[], List.nil_prefix, journalBytes_cons _ _, ?_⟩
                intro h
                cases h
              · obtain ⟨part, hpart, hjournal, hok⟩ :=
                  ih ((b :: bytes).drop n) (.accepted ((b :: bytes).take n) :: marks)
                refine ⟨(b :: bytes).take n ++ part, ?_, ?_, ?_⟩
                · obtain ⟨rest, hrest⟩ := hpart
                  exact ⟨rest, by rw [List.append_assoc, hrest, List.take_append_drop]⟩
                · rw [hjournal, journalBytes_cons, List.append_assoc]
                  rfl
                · intro h
                  rw [hok h, List.take_append_drop]
          | fails e =>
              simp only [writeLoop]
              split
              · obtain ⟨part, hpart, hjournal, hok⟩ := ih (b :: bytes) (.interrupted :: marks)
                refine ⟨part, hpart, ?_, hok⟩
                rw [hjournal, journalBytes_cons, Mark.bytes, List.append_nil]
                intro bytes h
                cases h
              · refine ⟨[], List.nil_prefix, journalBytes_cons _ _, ?_⟩
                intro h
                cases h
          | panics =>
              refine ⟨[], List.nil_prefix, (List.append_nil _).symm, ?_⟩
              intro h
              cases h

/-- A script without a panic ends in none, and what is left of it has none either. -/
theorem writeLoop_calm {script : List Acceptance} (hcalm : .panics ∉ script) (bytes : Bytes)
    (marks : List Mark) :
    (writeLoop script bytes marks).1 ≠ .panicked ∧
      .panics ∉ (writeLoop script bytes marks).2.1 := by
  induction script generalizing bytes marks with
  | nil => cases bytes <;> exact ⟨Outcome.noConfusion, hcalm⟩
  | cons a script ih =>
      have hrest : .panics ∉ script := fun h => hcalm (List.mem_cons_of_mem a h)
      cases bytes with
      | nil => exact ⟨Outcome.noConfusion, hcalm⟩
      | cons b bytes =>
          cases a with
          | all => exact ⟨Outcome.noConfusion, hrest⟩
          | atMost n =>
              simp only [writeLoop]
              split
              · exact ⟨Outcome.noConfusion, hrest⟩
              · exact ih hrest _ _
          | fails e =>
              simp only [writeLoop]
              split
              · exact ih hrest _ _
              · exact ⟨Outcome.noConfusion, hrest⟩
          | panics => exact absurd List.mem_cons_self hcalm

theorem flush_contents (d : Destination) : d.flush.2.contents = d.contents := by
  unfold flush
  split <;> simp [contents_eq, journalBytes_cons, Mark.bytes]

theorem Calm.flush {d : Destination} (h : d.Calm) : d.flush.1 ≠ .panicked ∧ d.flush.2.Calm := by
  obtain ⟨hwrites, hflushes⟩ := h
  unfold Destination.flush
  split
  · exact ⟨Outcome.noConfusion, hwrites, hflushes⟩
  all_goals rename_i hscript; rw [hscript] at hflushes
  · exact ⟨Outcome.noConfusion, hwrites, fun h => hflushes (List.mem_cons_of_mem _ h)⟩
  · exact ⟨Outcome.noConfusion, hwrites, fun h => hflushes (List.mem_cons_of_mem _ h)⟩
  · exact absurd List.mem_cons_self hflushes

end Destination

namespace WriterSink

/-- What a call adds to the destination is a part of what it writes, all of it if the call succeeds. -/
theorem call_contents (c : SinkCall) (w : WriterSink) :
    ∃ part, part <+: c.bytes ∧
      (w.call c).2.destination.contents = w.destination.contents ++ part ∧
      ((w.call c).1 = .ok → part = c.bytes) := by
  have hnothing : ∀ d : Destination, d.contents = w.destination.contents →
      d.contents = w.destination.contents ++ [] := fun d h => by rw [h, List.append_nil]
  cases c with
  | write bytes =>
      cases hopen : w.isOpen with
      | true =>
          obtain ⟨part, hpart, hjournal, hok⟩ :=
            Destination.writeLoop_part w.destination.writes bytes w.destination.journal
          refine ⟨part, hpart, ?_, fun h => hok ?_⟩
          · simp only [call, hopen, if_true, Destination.writeAll]
            exact hjournal
          · simpa [call, hopen, Destination.writeAll] using h
      | false =>
          refine ⟨[], List.nil_prefix, ?_, ?_⟩
          · simp [call, hopen]
          · intro h
            simp [call, hopen] at h
  | flush =>
      refine ⟨[], List.prefix_refl [], hnothing _ ?_, fun _ => rfl⟩
      cases hopen : w.isOpen <;> simp [call, hopen, Destination.flush_contents]
  | close =>
      refine ⟨[], List.prefix_refl [], hnothing _ ?_, fun _ => rfl⟩
      cases hopen : w.isOpen <;> simp [call, hopen, Destination.flush_contents]

theorem call_calm {w : WriterSink} (h : w.destination.Calm) (c : SinkCall) :
    (w.call c).1 ≠ .panicked ∧ (w.call c).2.destination.Calm := by
  cases hopen : w.isOpen with
  | false => cases c <;> simp [call, hopen, h]
  | true =>
      cases c with
      | write bytes =>
          have hwrite := Destination.writeLoop_calm h.1 bytes w.destination.journal
          simpa [call, hopen, Destination.writeAll, Destination.Calm] using
            ⟨hwrite.1, hwrite.2, h.2⟩
      | flush => simpa [call, hopen] using h.flush
      | close => simpa [call, hopen] using h.flush

end WriterSink

/-! ### Sinks over a destination -/

namespace Sink

theorem Reaches.writer_calm {w x : WriterSink} (h : Sink.writer.Reaches w x)
    (hw : w.destination.Calm) : x.destination.Calm := by
  induction h with
  | refl => exact hw
  | call c _ ih => exact (WriterSink.call_calm ih c).2
  | release _ ih => exact ih

/-- A destination whose scripts hold no panic makes a calm sink. -/
theorem writer_calm {w : WriterSink} (h : w.destination.Calm) : Sink.writer.Calm w := by
  rintro ⟨c, x, hx, hpanic⟩
  exact (WriterSink.call_calm (hx.writer_calm h) c).1 hpanic

theorem Succeeds.writer_contents {calls : List SinkCall} {w x : WriterSink}
    (h : Sink.writer.Succeeds calls w x) :
    x.destination.contents = w.destination.contents ++ written calls := by
  induction calls generalizing w with
  | nil =>
      rw [Succeeds] at h
      rw [h]
      exact (List.append_nil _).symm
  | cons c calls ih =>
      obtain ⟨y, hy, h⟩ := h
      obtain ⟨part, -, hcontents, hok⟩ := WriterSink.call_contents c w
      have hcall : w.call c = (.ok, y) := hy
      rw [hcall] at hcontents hok
      rw [ih h, hcontents, hok rfl, List.append_assoc]
      rfl

/-- After a call that failed nothing more is written. -/
theorem giveUp_writer_contents (shared : Bool) (c : SinkCall) (w : WriterSink) :
    (Sink.writer.giveUp shared c w).destination.contents = w.destination.contents := by
  unfold giveUp
  split
  · rfl
  · obtain ⟨part, hpart, hcontents, -⟩ := WriterSink.call_contents .close w
    rw [List.prefix_nil.mp hpart, List.append_nil] at hcontents
    exact hcontents

theorem Breaks.writer_contents {shared : Bool} {calls : List SinkCall} {w x : WriterSink}
    {error : CaptureError} (h : Sink.writer.Breaks shared calls w error x) :
    ∃ part, part <+: written calls ∧
      x.destination.contents = w.destination.contents ++ part := by
  obtain ⟨before, c, after, e, y, z, rfl, hbefore, hfails, -, rfl⟩ := h
  obtain ⟨part, hpart, hcontents, -⟩ := WriterSink.call_contents c y
  have hcall : y.call c = (.failed e, z) := hfails
  rw [hcall] at hcontents
  refine ⟨written before ++ part, ?_, ?_⟩
  · obtain ⟨rest, hrest⟩ := hpart
    refine ⟨rest ++ written after, ?_⟩
    simp [written, ← hrest]
  · rw [giveUp_writer_contents, hcontents, hbefore.writer_contents, List.append_assoc]

end Sink

end Wiretap
