import PilotProtocol.Stream.Acts

/-! # Numbers, bytes and the queue

For each step of the goroutines that send on a connection: the numbers it gives out, the bytes
it takes from a write, buffers, numbers or drops, and the entries it puts into the
retransmission queue. The laws hold in every state, also after a close.
-/

namespace PilotProtocol.Stream

open Library

def Point.hand : Point → Bytes
  | .waiting seg _ => seg
  | _ => []

/-- The bytes the goroutine that has `SendMu` has taken out of the buffer and not numbered. -/
def Holder.hand : Holder → Bytes
  | .none => []
  | .writer _ p => p.hand
  | .flusher _ p => p.hand
  | .closer rest p => p.hand ++ rest

namespace Sending

def pending (s : Sending) : Bytes := s.holder.hand ++ s.nagleBuf

variable {s s' : Sending} {i : Input}

theorem numbered_cases (s : Sending) (i : Input) :
    s.numbered i = [] ∨ ∃ seg, s.numbered i = [seg] := by
  unfold numbered
  repeat' split
  all_goals first | exact .inl rfl | exact .inr ⟨_, rfl⟩

theorem sizes_numbered {seg : Bytes} (h : s.numbered i = [seg]) : s.sizes i = [seg.length] := by
  unfold sizes
  split
  · cases h
  · rw [h]
    rfl

/-! ## Numbers and bytes -/

structure Effect (s : Sending) (i : Input) (s' : Sending) : Prop where
  noDelay : s'.noDelay = s.noDelay
  next : s'.next = (s.sizes i).foldl (· + ·) s.next
  sendSeq : s'.conn.sendSeq = (s.sizes i).foldl (fun seq n => seq + UInt32.ofNat n) s.conn.sendSeq
  given : s'.given = s.given ++ (s.numbered i).map fun seg => (s.next, seg.length)
  /-- What is buffered stays so until it is numbered or dropped. -/
  buffered : (∀ window, i ≠ .immediateReserve window) →
    s.pending ++ s.taken i = (s.numbered i).flatten ++ (s.dropped i ++ s'.pending)
  /-- Without Nagle's algorithm a segment goes from the write to the wire. -/
  immediate : ∀ window, i = .immediateReserve window →
    s'.pending = s.pending ∧ (s.numbered i).flatten = s.taken i

theorem Acts.buffered (h : Acts s i s') (hi : ∀ window, i ≠ .immediateReserve window) :
    s.pending ++ s.taken i = (s.numbered i).flatten ++ (s.dropped i ++ s'.pending) := by
  cases h with
  | stay hidle => simp [hidle.numbered, hidle.taken, hidle.dropped]
  | immediateReserve => exact absurd rfl (hi true)
  | _ =>
    simp [pending, Holder.hand, Point.hand, numbered, taken, dropped, reserve, track,
      Sending.sendFIN, setConn, *]

theorem Acts.effect (h : Acts s i s') : Effect s i s' where
  noDelay := by cases h <;> rfl
  next := by
    cases h with
    | stay hidle => rw [hidle.sizes]; rfl
    | closer hc hfin hfin' hsizes => rw [hsizes]; rfl
    | reserveFIN hc hestablished => simp [sizes, hc, hestablished]
    | _ => simp [sizes, numbered, reserve, track, Sending.sendFIN, setConn, *]
  sendSeq := by
    cases h with
    | stay hidle => rw [hidle.sizes]; rfl
    | closer hc hfin hfin' hsizes => rw [hsizes]; rfl
    | reserveFIN hc hestablished => simp [sizes, hc, hestablished]
    | processAck => exact (s.conn.processAck_resends _ _ _).sendSeq
    | retransmitUnacked => exact (s.conn.retransmitUnacked_resends _ _).sendSeq
    | _ =>
      simp [sizes, numbered, reserve, aborted, endSeq, track, Connection.trackSend, Sending.sendFIN,
        Connection.sendFIN, Connection.processSACK, setConn, *]
  given := by
    cases h with
    | stay hidle => rw [hidle.numbered]; simp
    | _ => simp [numbered, reserve, track, Sending.sendFIN, setConn, *]
  buffered := h.buffered
  immediate := by
    rintro window rfl
    cases h with
    | stay hidle => simp [hidle.numbered, hidle.taken]
    | immediateReserve hw => simp [numbered, taken, hw, pending, reserve]

/-! ## The queue -/

/-- What a step does with the retransmission queue and the last ACK. -/
structure Tracks (s : Sending) (i : Input) (s' : Sending) : Prop where
  established : s'.established = true → s.established = true
  lastAck : (∀ ack pureACK now, i ≠ .processAck ack pureACK now) → s'.conn.lastAck = s.conn.lastAck
  /-- An entry is an old one, a FIN, or a segment that had its number before. -/
  entries : ∀ e' ∈ s'.conn.unacked,
    (∃ e ∈ s.conn.unacked, e.SameSegment e') ∨ e'.isFIN = true ∨ (e'.seq, e'.data) ∈ s.reserved
  reserved : ∀ p ∈ s'.reserved, p ∈ s.reserved ∨ p.1 = s.conn.sendSeq ∧ p.2 ∈ s.numbered i

theorem established_of_state (h : s'.conn.state = s.conn.state) (hopen : s'.established = true) :
    s.established = true := by
  unfold established at hopen ⊢
  rwa [h] at hopen

theorem Acts.established (h : Acts s i s') (hopen : s'.established = true) : s.established = true := by
  cases h with
  | @giveUp _ _ probed | @immediateGiveUp _ _ probed =>
    cases probed with
    | false => exact hopen
    | true => cases hopen
  | finishing => cases hopen
  | processAck => exact established_of_state (s.conn.processAck_state _ _ _) hopen
  | retransmitUnacked =>
    rcases (s.conn.retransmitUnacked_timesOut _ _).state with hsame | hclosed
    · exact established_of_state hsame hopen
    · cases hclosed.symm.trans (of_decide_eq_true hopen)
  | setState h => exact absurd (of_decide_eq_true hopen) h
  | _ => exact hopen

theorem Acts.reserved (h : Acts s i s') (p : Seq × Bytes) (hp : p ∈ s'.reserved) :
    p ∈ s.reserved ∨ p.1 = s.conn.sendSeq ∧ p.2 ∈ s.numbered i := by
  cases h with
  | stay => exact .inl hp
  | _ =>
    grind -linarith [Sending.reserved, numbered, Writer.reserved, Holder.reserved, Point.reserved,
      Sending.reserve, Sending.track, Sending.sendFIN, Sending.setConn]

theorem Acts.entries (h : Acts s i s') (e' : RetxEntry) (he' : e' ∈ s'.conn.unacked) :
    (∃ e ∈ s.conn.unacked, e.SameSegment e') ∨ e'.isFIN = true ∨ (e'.seq, e'.data) ∈ s.reserved := by
  have hadded {e : RetxEntry} (hmem : e' ∈ s.conn.unacked ++ [e])
      (he : e.isFIN = true ∨ (e.seq, e.data) ∈ s.reserved) :
      (∃ e ∈ s.conn.unacked, e.SameSegment e') ∨ e'.isFIN = true ∨ (e'.seq, e'.data) ∈ s.reserved := by
    rcases List.mem_append.mp hmem with hold | hnew
    · exact .inl ⟨e', hold, .refl e'⟩
    · rw [List.mem_singleton.mp hnew]
      exact .inr he
  cases h with
  | trackFailed h | trackTail h | trackFull h | trackFlusher h | trackCloser h =>
    refine hadded he' (.inr (List.mem_append_right _ ?_))
    rw [h]
    exact .head _
  | immediateTrack h =>
    refine hadded he' (.inr (List.mem_append_left _ ?_))
    rw [h]
    exact .head _
  | closerFIN | sendFIN => exact hadded he' (.inl rfl)
  | processAck => exact .inl ((s.conn.processAck_resends _ _ _).unacked e' he')
  | processSACK => exact .inl ((s.conn.processSACK_resends _).unacked e' he')
  | retransmitUnacked => exact .inl ((s.conn.retransmitUnacked_resends _ _).unacked e' he')
  | _ => exact .inl ⟨e', he', .refl e'⟩

theorem step_effect (s : Sending) (i : Input) : Effect s i (s.step i) := (s.step_acts i).effect

theorem step_tracks (s : Sending) (i : Input) : Tracks s i (s.step i) where
  established := (s.step_acts i).established
  lastAck hi := by
    have hacts := s.step_acts i
    generalize s.step i = s' at hacts ⊢
    cases hacts with
    | processAck => exact absurd rfl (hi _ _ _)
    | retransmitUnacked => exact (s.conn.retransmitUnacked_timesOut _ _).lastAck
    | _ => rfl
  entries := (s.step_acts i).entries
  reserved := (s.step_acts i).reserved

end Sending

end PilotProtocol.Stream
