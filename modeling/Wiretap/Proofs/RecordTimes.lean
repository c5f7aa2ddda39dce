import Mathlib.Data.Prod.Lex
import Wiretap.Proofs.Lifecycle

/-! Times in records. A record shows the second and the microsecond of its time. The microseconds are
fewer than a million at every time, so that a stamp always lies within its second: a second that runs on
is shown at its last microsecond until it is over. Seconds that fit the field are shown as they are, and
among times of such seconds an earlier one never has a later stamp. So the records of a capture are in the
order of their stamps if the clock of its session does not go back. -/

namespace Wiretap

/-- When a record says its packet was seen: seconds first, then microseconds. -/
def Record.stamp (r : Record) : ℕ ×ₗ ℕ := toLex (r.seconds.toNat, r.micros.toNat)

namespace Timestamp

variable {t u : Timestamp}

/-- The seconds fit the field of a record. -/
def Fits (t : Timestamp) : Prop := 0 ≤ t.seconds ∧ t.seconds ≤ 4294967295

theorem recordSeconds_toNat (h : t.Fits) : (t.recordSeconds.toNat : ℤ) = t.seconds := by
  obtain ⟨hlow, hhigh⟩ := h
  rw [recordSeconds, if_pos ⟨hlow, hhigh⟩, UInt32.toNat_ofNat']
  omega

theorem recordMicros_toNat (t : Timestamp) :
    t.recordMicros.toNat = min (t.nanos / 1000) 999999 := by
  rw [recordMicros, UInt32.toNat_ofNat']
  omega

theorem recordMicros_le (t : Timestamp) : t.recordMicros.toNat ≤ 999999 := by
  rw [recordMicros_toNat]
  exact min_le_right _ _

/-- Only a second that runs on is not shown to the microsecond. -/
theorem recordMicros_of_not_isLeap (h : ¬t.isLeap) : t.recordMicros.toNat = t.nanos / 1000 := by
  have hnanos : t.nanos < 1000000000 := Nat.not_le.mp h
  rw [recordMicros_toNat, min_eq_left]
  omega

/-- Within a second the microseconds do not go back, also where it runs on. -/
theorem recordMicros_mono (h : t.nanos ≤ u.nanos) :
    t.recordMicros.toNat ≤ u.recordMicros.toNat := by
  rw [recordMicros_toNat, recordMicros_toNat]
  have := Nat.div_le_div_right h (c := 1000)
  omega

end Timestamp

namespace Record

open Timestamp

theorem stamped_stamp_mono {t u : Timestamp} (ht : t.Fits) (hu : u.Fits) (h : t ≤ u)
    (frame frame' : Bytes) : (stamped t frame).stamp ≤ (stamped u frame').stamp := by
  have hseconds := recordSeconds_toNat ht
  have hseconds' := recordSeconds_toNat hu
  apply Prod.Lex.toLex_le_toLex.mpr
  rcases h with hearlier | ⟨hsame, hnanos⟩
  · left
    change t.recordSeconds.toNat < u.recordSeconds.toNat
    omega
  · right
    constructor
    · change t.recordSeconds.toNat = u.recordSeconds.toNat
      omega
    · exact recordMicros_mono hnanos

/-- **Records in time.** The microseconds of a record are fewer than a million, whatever its time. Of two
times whose seconds fit a record the earlier one never has the later stamp. Outside of seconds that run on
the stamp of such a time is its second and its microsecond. -/
theorem stamps_in_order (frame frame' : Bytes) :
    (∀ t, (stamped t frame).micros.toNat ≤ 999999) ∧
      (∀ t u : Timestamp, t.Fits → u.Fits → t ≤ u →
        (stamped t frame).stamp ≤ (stamped u frame').stamp) ∧
      ∀ t : Timestamp, t.Fits → ¬t.isLeap →
        (stamped t frame).stamp = toLex (t.seconds.toNat, t.nanos / 1000) := by
  refine ⟨recordMicros_le, fun t u ht hu h => stamped_stamp_mono ht hu h frame frame', ?_⟩
  intro t ht hleap
  have hseconds : t.recordSeconds.toNat = t.seconds.toNat := by
    have := recordSeconds_toNat ht
    omega
  exact congrArg toLex (Prod.ext hseconds (recordMicros_of_not_isLeap hleap))

/-- The last second of 2016, and a half of it that it ran on. -/
def lateLeap : Timestamp := ⟨1483228799, 1500000000, by decide, by decide⟩

/-- The first microsecond of 2017. -/
def afterLeap : Timestamp := ⟨1483228800, 1999, by decide, by decide⟩

theorem stamps_in_order_leap :
    lateLeap.Fits ∧ afterLeap.Fits ∧ lateLeap ≤ afterLeap ∧ lateLeap.isLeap ∧ ¬afterLeap.isLeap ∧
      (stamped lateLeap []).stamp = toLex (1483228799, 999999) ∧
      (stamped lateLeap []).stamp ≤ (stamped afterLeap []).stamp ∧
      (stamped afterLeap []).stamp = toLex (1483228800, 1) := by
  obtain ⟨-, horder, hexact⟩ := stamps_in_order [] []
  have hlate : lateLeap.Fits := ⟨by decide, by decide⟩
  have hafter : afterLeap.Fits := ⟨by decide, by decide⟩
  have hle : lateLeap ≤ afterLeap := .inl (by decide)
  have hleap : ¬afterLeap.isLeap := by decide
  exact ⟨hlate, hafter, hle, by decide, hleap, rfl, horder _ _ hlate hafter hle,
    hexact _ hafter hleap⟩

end Record

/-- What is written at a time is stamped with it. -/
theorem stamped_of_mem_timedRecords {now : Timestamp} {acts : List Act} {r : Record}
    (h : r ∈ timedRecords (acts.map fun a => (now, a))) : ∃ frame, r = .stamped now frame := by
  obtain ⟨x, hx, hr⟩ := List.mem_flatMap.mp h
  obtain ⟨a, -, rfl⟩ := List.mem_map.mp hx
  obtain ⟨p, -, rfl⟩ := List.mem_map.mp hr
  exact ⟨_, rfl⟩

namespace Session

/-- Every record of a run is stamped with the time of an event. -/
theorem stamped_of_mem_run {events : List TimedEvent} {s : Session} {r : Record}
    (h : r ∈ timedRecords (s.timedActs events)) :
    ∃ x ∈ events, ∃ frame, r = .stamped x.1 frame := by
  induction events generalizing s with
  | nil => cases h
  | cons x events ih =>
      rw [timedActs, timedRecords, List.flatMap_append, List.mem_append] at h
      rcases h with h | h
      · exact ⟨x, List.mem_cons_self, stamped_of_mem_timedRecords h⟩
      · obtain ⟨y, hy, hframe⟩ := ih h
        exact ⟨y, List.mem_cons_of_mem x hy, hframe⟩

/-- **A capture is in the order of its stamps** if the events of its run were told in the order of their
times. -/
theorem timedRecords_inOrder {events : List TimedEvent} (s : Session)
    (hfits : ∀ x ∈ events, x.1.Fits) (horder : events.Pairwise fun x y => x.1 ≤ y.1) :
    (timedRecords (s.timedActs events)).Pairwise fun r r' => r.stamp ≤ r'.stamp := by
  induction events generalizing s with
  | nil => exact .nil
  | cons x events ih =>
      obtain ⟨hx, hevents⟩ := List.forall_mem_cons.mp hfits
      obtain ⟨hfirst, hrest⟩ := List.pairwise_cons.mp horder
      rw [timedActs, timedRecords, List.flatMap_append, List.pairwise_append]
      refine ⟨?_, ih _ hevents hrest, ?_⟩
      · apply List.pairwise_of_forall_mem_list
        intro r hr r' hr'
        obtain ⟨frame, rfl⟩ := stamped_of_mem_timedRecords hr
        obtain ⟨frame', rfl⟩ := stamped_of_mem_timedRecords hr'
        exact le_rfl
      · intro r hr r' hr'
        obtain ⟨frame, rfl⟩ := stamped_of_mem_timedRecords hr
        obtain ⟨y, hy, frame', rfl⟩ := stamped_of_mem_run hr'
        exact Record.stamped_stamp_mono hx (hevents y hy) (hfirst y hy) frame frame'

end Session

end Wiretap
