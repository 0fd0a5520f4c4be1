import PilotProtocol.Stream.Sender

/-! # Retransmissions repeat what was sent

Acknowledgements, SACK marks and timeouts remove entries from the
retransmission queue, restamp them and resend them; none of them changes the
sequence number or the data of an entry. `Resends` says so once for a pair of
connections and the packets between them. An ACK takes the covered entries out and does
no more than `Restamps` says; SACKs and timeouts also change the marks.
-/

namespace PilotProtocol.Stream

open Library RetxEntry

/-- The same segment of the stream, whatever the timers and marks. -/
def RetxEntry.SameSegment (e e' : RetxEntry) : Prop :=
  e'.seq = e.seq ∧ e'.data = e.data ∧ e'.isFIN = e.isFIN

theorem RetxEntry.SameSegment.refl (e : RetxEntry) : e.SameSegment e := ⟨rfl, rfl, rfl⟩

theorem RetxEntry.SameSegment.trans {e e' e'' : RetxEntry} (h : e.SameSegment e')
    (h' : e'.SameSegment e'') : e.SameSegment e'' :=
  ⟨h'.1.trans h.1, h'.2.1.trans h.2.1, h'.2.2.trans h.2.2⟩

/-- Every entry of the second queue repeats one of the first. -/
def Derived (entries entries' : List RetxEntry) : Prop :=
  ∀ e' ∈ entries', ∃ e ∈ entries, e.SameSegment e'

theorem Derived.refl (entries : List RetxEntry) : Derived entries entries :=
  fun e he => ⟨e, he, .refl e⟩

theorem Derived.trans {l l' l'' : List RetxEntry} (h : Derived l l') (h' : Derived l' l'') :
    Derived l l'' := by
  intro e'' he''
  obtain ⟨e', he', hsame'⟩ := h' e'' he''
  obtain ⟨e, he, hsame⟩ := h e' he'
  exact ⟨e, he, hsame.trans hsame'⟩

theorem derived_filter (p : RetxEntry → Bool) (entries : List RetxEntry) :
    Derived entries (entries.filter p) :=
  fun e he => ⟨e, List.mem_of_mem_filter he, .refl e⟩

def Repeats (entries : List RetxEntry) (pkt : Packet) : Prop :=
  pkt.flag = .ack → ∃ e ∈ entries, e.isFIN = false ∧ pkt.seq = e.seq ∧ pkt.payload = e.data

theorem repeats_packet {entries : List RetxEntry} {e : RetxEntry} (he : e ∈ entries) :
    Repeats entries e.packet := by
  intro hflag
  unfold packet at hflag ⊢
  cases hfin : e.isFIN with
  | true => simp [hfin] at hflag
  | false => exact ⟨e, he, hfin, by simp, by simp⟩

theorem Repeats.of_derived {entries entries' : List RetxEntry} {pkt : Packet}
    (hd : Derived entries entries') (h : Repeats entries' pkt) : Repeats entries pkt := by
  intro hflag
  obtain ⟨e', he', hfin, hseq, hdata⟩ := h hflag
  obtain ⟨e, he, hs, hdt, hf⟩ := hd e' he'
  exact ⟨e, he, hf.symm.trans hfin, hseq.trans hs, hdata.trans hdt⟩

/-- From `c` to `c'` with `pkts` sent, nothing new entered the stream. -/
structure Resends (c c' : Connection) (pkts : List Packet) : Prop where
  sendSeq : c'.sendSeq = c.sendSeq
  unacked : Derived c.unacked c'.unacked
  packets : ∀ pkt ∈ pkts, Repeats c.unacked pkt

/-! ## Entries with their marks -/

/-- What stays of an entry whatever its timers and marks. -/
def RetxEntry.segment (e : RetxEntry) : Seq × Bytes × Bool := (e.seq, e.data, e.isFIN)

def RetxEntry.marked (e : RetxEntry) : (Seq × Bytes × Bool) × Bool := (e.segment, e.sacked)

theorem segments_of_marked {entries entries' : List RetxEntry}
    (h : entries'.map marked = entries.map marked) :
    entries'.map segment = entries.map segment := by
  have hfst := congrArg (List.map Prod.fst) h
  rwa [List.map_map, List.map_map] at hfst

theorem map_marked_modify {f : RetxEntry → RetxEntry} (hf : ∀ e, (f e).marked = e.marked)
    (i : Nat) (entries : List RetxEntry) :
    (entries.modify i f).map marked = entries.map marked := by
  apply List.ext_getElem?
  intro j
  rw [List.getElem?_map, List.getElem?_map, List.getElem?_modify]
  by_cases hij : i = j
  · cases entries[j]? <;> simp [hij, hf]
  · simp [hij]

theorem map_map_of_eq {α : Type} {g : RetxEntry → α} {f : RetxEntry → RetxEntry}
    (hf : ∀ e, g (f e) = g e) (entries : List RetxEntry) : (entries.map f).map g = entries.map g := by
  rw [List.map_map]
  exact List.map_congr_left fun e _ => hf e

theorem derived_of_segments {entries entries' : List RetxEntry}
    (h : entries'.map segment = entries.map segment) : Derived entries entries' := by
  intro e' he'
  obtain ⟨e, he, hsame⟩ := List.mem_map.mp (h ▸ List.mem_map_of_mem he')
  cases e
  cases e'
  cases hsame
  exact ⟨_, he, rfl, rfl, rfl⟩

/-- What an ACK does beside retiring entries: the marks, the numbers and the state are left
alone, and what is sent repeats entries. -/
structure Restamps (c c' : Connection) (pkts : List Packet) : Prop where
  state : c'.state = c.state
  heldFIN : c'.heldFIN = c.heldFIN
  sendSeq : c'.sendSeq = c.sendSeq
  lastAck : c'.lastAck = c.lastAck
  queue : c'.unacked.map marked = c.unacked.map marked
  packets : ∀ pkt ∈ pkts, Repeats c.unacked pkt

namespace Restamps

variable {c c' c'' : Connection} {pkts pkts' : List Packet}

theorem refl (c : Connection) : Restamps c c [] := ⟨rfl, rfl, rfl, rfl, rfl, by simp⟩

theorem derived (h : Restamps c c' pkts) : Derived c.unacked c'.unacked :=
  derived_of_segments (segments_of_marked h.queue)

theorem trans (h : Restamps c c' pkts) (h' : Restamps c' c'' pkts') :
    Restamps c c'' (pkts ++ pkts') where
  state := h'.state.trans h.state
  heldFIN := h'.heldFIN.trans h.heldFIN
  sendSeq := h'.sendSeq.trans h.sendSeq
  lastAck := h'.lastAck.trans h.lastAck
  queue := h'.queue.trans h.queue
  packets := by
    intro pkt hpkt
    rcases List.mem_append.mp hpkt with hp | hp
    · exact h.packets pkt hp
    · exact (h'.packets pkt hp).of_derived h.derived

end Restamps

namespace Connection

theorem resendFirst_spec {p : RetxEntry → Bool} {now : Nat} {entries entries' : List RetxEntry}
    {e : RetxEntry} (h : resendFirst p now entries = some (e, entries')) :
    e ∈ entries ∧ entries'.map marked = entries.map marked := by
  unfold resendFirst at h
  cases hf : entries.find? p with
  | none => simp [hf] at h
  | some found =>
    simp only [hf, Option.some.injEq, Prod.mk.injEq] at h
    obtain ⟨rfl, rfl⟩ := h
    refine ⟨List.mem_of_find?_eq_some hf, map_marked_modify ?_ _ _⟩
    exact fun _ => rfl

theorem fastRetransmit_restamps {c c' : Connection} {now : Nat} {pkt : Packet}
    (h : c.fastRetransmit now = some (c', pkt)) : Restamps c c' [pkt] := by
  unfold fastRetransmit at h
  split at h
  case isFalse => cases h
  case isTrue =>
    cases hr : resendFirst (fun e => !e.sacked) now c.unacked with
    | none => simp [hr] at h
    | some pair =>
      obtain ⟨hmem, hmarked⟩ := resendFirst_spec hr
      simp only [hr] at h
      split at h
      · cases h
      · cases h
        exact ⟨rfl, rfl, rfl, rfl, hmarked, fun p hp => List.mem_singleton.mp hp ▸ repeats_packet hmem⟩

variable (c : Connection) (ack : Seq) (now draw : Nat)

theorem fastRetransmitOrSkip_restamps :
    Restamps c (c.fastRetransmitOrSkip now).1 (c.fastRetransmitOrSkip now).2 := by
  unfold fastRetransmitOrSkip
  cases h : c.fastRetransmit now with
  | none => exact .refl c
  | some pair => exact fastRetransmit_restamps h

theorem duplicateAck_restamps : Restamps c (c.duplicateAck now).1 (c.duplicateAck now).2 := by
  have hcounted : Restamps c { c with dupAckCount := c.dupAckCount + 1 } [] :=
    { Restamps.refl c with }
  unfold duplicateAck
  split
  · exact .refl c
  simp only
  split
  · exact { hcounted with }
  split
  · cases hr : { c with dupAckCount := c.dupAckCount + 1 : Connection }.fastRetransmit now with
    | none => exact hcounted
    | some pair =>
      have hsent := hcounted.trans (fastRetransmit_restamps hr)
      simp only
      split
      · exact { hsent with }
      split
      · exact { hsent with }
      · exact hsent
  split
  · exact { hcounted with }
  · exact hcounted

theorem exitRecovery_restamps : Restamps c (c.exitRecovery ack) [] := by
  unfold exitRecovery
  split
  · exact { Restamps.refl c with }
  · exact .refl c

theorem sampleRTT_restamps : Restamps c (c.sampleRTT ack now) [] := by
  unfold sampleRTT
  split
  · exact .refl c
  · split
    · exact .refl c
    · exact { Restamps.refl c with }

theorem recoverOnAck_restamps (wasInRecovery wasFastRecovery : Bool) (acked now : Nat) :
    Restamps c (c.recoverOnAck wasInRecovery wasFastRecovery acked now).1
      (c.recoverOnAck wasInRecovery wasFastRecovery acked now).2 := by
  have hdeflated : Restamps c (c.deflate acked) [] := { Restamps.refl c with }
  unfold recoverOnAck
  split
  · split
    · exact hdeflated.trans (fastRetransmitOrSkip_restamps _ now)
    · exact { Restamps.refl c with }
  split
  · exact c.fastRetransmitOrSkip_restamps now
  · exact .refl c

@[simp] theorem exitRecovery_unacked : (c.exitRecovery ack).unacked = c.unacked := by
  unfold exitRecovery
  split <;> rfl

@[simp] theorem sampleRTT_unacked : (c.sampleRTT ack now).unacked = c.unacked := by
  unfold sampleRTT
  split
  · rfl
  · split <;> rfl

/-- Up to the ACK, without the entries that it covers. -/
def ackedUpTo (c : Connection) (ack : Seq) : Connection :=
  { c with lastAck := ack, unacked := c.unacked.filter fun e => !covers ack e }

theorem newAck_restamps : Restamps (c.ackedUpTo ack) (c.newAck ack now).1 (c.newAck ack now).2 := by
  have hadvanced := (exitRecovery_restamps
    { c with lastAck := ack, dupAckCount := 0, lastRetxTime := 0 } ack).trans
      (sampleRTT_restamps _ ack now)
  have hqueue : (removeAcked ack now c.unacked).map marked =
      (c.ackedUpTo ack).unacked.map marked := by
    apply map_map_of_eq
    intro e
    split <;> rfl
  unfold newAck
  simp only [sampleRTT_unacked, exitRecovery_unacked]
  have hcleaned : Restamps (c.ackedUpTo ack)
      { (({ c with lastAck := ack, dupAckCount := 0, lastRetxTime := 0 }.exitRecovery ack).sampleRTT
          ack now) with unacked := removeAcked ack now c.unacked } [] :=
    { hadvanced with queue := hqueue, packets := by simp }
  have hrecovered := hcleaned.trans
    (recoverOnAck_restamps _ c.inRecovery c.fastRecovery (c.bytesAcked ack) now)
  split
  · exact { hrecovered with }
  · exact hrecovered

theorem processAck_restamps (pureACK : Bool) (now : Nat) :
    (seqAfter c.lastAck ack = true ∨ ack = c.lastAck) ∧
      Restamps c (c.processAck ack pureACK now).1 (c.processAck ack pureACK now).2 ∨
    (seqAfter c.lastAck ack = false ∧ ack ≠ c.lastAck) ∧
      Restamps (c.ackedUpTo ack) (c.processAck ack pureACK now).1
        (c.processAck ack pureACK now).2 := by
  unfold processAck
  split
  next hold => exact .inl ⟨.inl hold, .refl c⟩
  next hnew =>
    split
    next hsame =>
      split
      · exact .inl ⟨.inr hsame, c.duplicateAck_restamps now⟩
      · exact .inl ⟨.inr hsame, .refl c⟩
    next hne => exact .inr ⟨⟨Bool.not_eq_true _ ▸ hnew, hne⟩, c.newAck_restamps ack now⟩

theorem processAck_state (pureACK : Bool) (now : Nat) :
    (c.processAck ack pureACK now).1.state = c.state := by
  rcases c.processAck_restamps ack pureACK now with ⟨-, h⟩ | ⟨-, h⟩ <;> exact h.state

theorem processAck_resends (pureACK : Bool) (now : Nat) :
    Resends c (c.processAck ack pureACK now).1 (c.processAck ack pureACK now).2 := by
  rcases c.processAck_restamps ack pureACK now with ⟨-, h⟩ | ⟨-, h⟩
  · exact ⟨h.sendSeq, h.derived, h.packets⟩
  · have hkept : Derived c.unacked (c.ackedUpTo ack).unacked := derived_filter _ _
    exact ⟨h.sendSeq, hkept.trans h.derived, fun pkt hpkt => (h.packets pkt hpkt).of_derived hkept⟩

theorem processSACK_segments (blocks : List SACKBlock) :
    (c.processSACK blocks).unacked.map segment = c.unacked.map segment := by
  apply map_map_of_eq
  intro e
  split <;> rfl

theorem processSACK_resends (blocks : List SACKBlock) : Resends c (c.processSACK blocks) [] :=
  ⟨rfl, derived_of_segments (c.processSACK_segments blocks), by simp⟩

/-! ## Timeouts -/

/-- A timeout may close the connection, and it may take all marks away. -/
structure TimesOut (c c' : Connection) (pkts : List Packet) : Prop where
  state : c'.state = c.state ∨ c'.state = .closed
  heldFIN : c'.heldFIN = c.heldFIN
  sendSeq : c'.sendSeq = c.sendSeq
  lastAck : c'.lastAck = c.lastAck
  queue : c'.unacked.map marked = c.unacked.map marked ∨
    c'.unacked.map marked = c.unacked.map fun e => (e.segment, false)
  packets : ∀ pkt ∈ pkts, Repeats c.unacked pkt

theorem segments_of_forgotten {entries entries' : List RetxEntry}
    (h : entries'.map marked = entries.map marked ∨
      entries'.map marked = entries.map fun e => (e.segment, false)) :
    entries'.map segment = entries.map segment := by
  rcases h with hsame | hforgot
  · exact segments_of_marked hsame
  · have hfst := congrArg (List.map Prod.fst) hforgot
    rwa [List.map_map, List.map_map] at hfst

theorem retransmitUnacked_timesOut :
    TimesOut c (c.retransmitUnacked now draw).1 (c.retransmitUnacked now draw).2 := by
  have hforget : (forgetSACKs now c.rto c.unacked).map marked =
        c.unacked.map marked ∨
      (forgetSACKs now c.rto c.unacked).map marked =
        c.unacked.map fun e => (e.segment, false) := by
    unfold forgetSACKs
    split
    next hnil => exact .inl (by rw [hnil])
    next =>
      split
      · exact .inr (by rw [List.map_map]; rfl)
      · exact .inl rfl
  have hderived := derived_of_segments (segments_of_forgotten hforget)
  unfold retransmitUnacked
  split
  · exact ⟨.inl rfl, rfl, rfl, rfl, .inl rfl, by simp⟩
  split
  · exact ⟨.inl rfl, rfl, rfl, rfl, .inl rfl, by simp⟩
  dsimp only
  split
  · exact ⟨.inl rfl, rfl, rfl, rfl, hforget, by simp⟩
  next e entries hresend =>
    obtain ⟨hmem, hmarked⟩ := resendFirst_spec hresend
    split
    · -- the retry budget is spent: only an RST leaves
      refine ⟨.inr rfl, rfl, rfl, rfl, hforget, fun pkt hpkt hflag => ?_⟩
      split at hpkt
      · simp [List.mem_singleton.mp hpkt] at hflag
      · cases hpkt
    · refine ⟨.inl rfl, rfl, rfl, rfl, hforget.imp hmarked.trans hmarked.trans, fun pkt hpkt => ?_⟩
      split at hpkt
      · rw [List.mem_singleton.mp hpkt]
        exact (repeats_packet hmem).of_derived hderived
      · cases hpkt

theorem retransmitUnacked_segments : (c.retransmitUnacked now draw).1.unacked.map segment =
      c.unacked.map segment :=
  segments_of_forgotten (c.retransmitUnacked_timesOut now draw).queue

theorem retransmitUnacked_resends :
    Resends c (c.retransmitUnacked now draw).1 (c.retransmitUnacked now draw).2 :=
  ⟨(c.retransmitUnacked_timesOut now draw).sendSeq,
    derived_of_segments (c.retransmitUnacked_segments now draw),
    (c.retransmitUnacked_timesOut now draw).packets⟩

end Connection

end PilotProtocol.Stream
