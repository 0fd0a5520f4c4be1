import Mathlib.Data.List.ReduceOption
import PilotProtocol.Library.Run
import PilotProtocol.Stream.Endpoint

/-! # What a connection hears from its peer

An endpoint together with the stream its peer sends, whose first byte has the unwrapped
number `base`. A packet that arrives comes with the offset of its sequence number in
that stream. The offsets of the FINs and the time of the last packet are recorded; the
code reads neither.
-/

namespace PilotProtocol.Stream

open Library Endpoint StreamPacket

namespace StreamPacket

def isFIN (pkt : StreamPacket) : Bool := !pkt.syn && pkt.fin

def isData (pkt : StreamPacket) : Bool :=
  !pkt.syn && !pkt.fin && !pkt.rst && pkt.ack && !pkt.payload.isEmpty &&
    (decodeSACK pkt.payload).isNone

end StreamPacket

structure Reception where
  endpoint : Endpoint
  base : Nat
  stream : Bytes
  fins : List Nat
  lastPacket : Nat

namespace Reception

inductive Input
  | arrive (pkt : StreamPacket) (off now accepted : Nat)
  | expireHeldFIN (now : Nat)
  | ackTimer
  | read
  | transmitSegment (data : Bytes) (now : Nat) (sendOk : Bool)
  | retransmitUnacked (now draw : Nat)
  | closeConnection (stopping : Bool) (now : Nat)
  /-- The zero-window limit, or shutdown. -/
  | abort

def handle (finHoldIdle : Nat) (s : Reception) : Input → Endpoint × List Sent
  | .arrive pkt _ now accepted => s.endpoint.handleStreamPacket pkt now accepted
  | .expireHeldFIN now => s.endpoint.expireHeldFIN finHoldIdle now
  | .ackTimer => { s.endpoint with quickACKs := quickACKBudget }.sendDelayedACK
  | .read => ({ s.endpoint with taken := s.endpoint.taken + 1 }, [])
  | .transmitSegment data now sendOk => s.endpoint.transmitSegment data now sendOk
  | .retransmitUnacked now draw => s.endpoint.retransmitUnacked now draw
  | .closeConnection stopping now => s.endpoint.closeConnection stopping now
  | .abort => (s.endpoint.setState .closed, [])

def heardFINs (s : Reception) : Input → List Nat
  | .arrive pkt off _ _ => if pkt.isFIN then off :: s.fins else s.fins
  | _ => s.fins

def heardAt (s : Reception) : Input → Nat
  | .arrive _ _ now _ => now
  | _ => s.lastPacket

def step (finHoldIdle : Nat) (s : Reception) (i : Input) : Reception :=
  { s with
    endpoint := (s.handle finHoldIdle i).1
    fins := s.heardFINs i
    lastPacket := s.heardAt i }

def delivered (s : Reception) : Bytes := s.endpoint.receiver.delivered

/-- The packet is one that the peer sends: its SYN-ACK has the number before the first
byte, a data segment carries the stream from its offset on, and data and FINs come with
numbers less than half the sequence space away from the next expected one. -/
def Admissible (s : Reception) : Input → Prop
  | .arrive pkt off _ _ =>
    (pkt.syn = true → pkt.ack = true → pkt.seq + 1 = wrap s.base) ∧
    (pkt.isFIN = true ∨ pkt.isData = true → pkt.seq = wrap (s.base + off) ∧
      (s.endpoint.state = .established → Near off s.delivered.length)) ∧
    (pkt.isData = true → Carries (s.stream.map some) off pkt.payload)
  | _ => True

instance (s : Reception) (i : Input) : Decidable (s.Admissible i) := by
  cases i <;> dsimp only [Admissible] <;> infer_instance

/-- The connection of a dial that waits for its SYN-ACK, or one that has just been accepted. -/
structure Fresh (s : Reception) : Prop where
  recvClosed : s.endpoint.receiver.recvClosed = false
  recvBuf : s.endpoint.receiver.recvBuf = []
  oooBuf : s.endpoint.receiver.oooBuf = []
  finPending : s.endpoint.finPending = false
  fins : s.fins = []
  state : s.endpoint.state = .synSent ∨ s.endpoint.state = .established ∧
    s.endpoint.receiver.expectedSeq = wrap s.base ∧ s.endpoint.recvAck = wrap s.base

/-! ## The invariant -/

structure SameReceiving (e e' : Endpoint) : Prop where
  state : e'.state = e.state
  receiver : e'.receiver = e.receiver
  recvAck : e'.recvAck = e.recvAck
  finPending : e'.finPending = e.finPending
  finSeq : e'.finSeq = e.finSeq

/-- Before the SYN-ACK nothing has come in; afterwards the receiver is in order with the
stream, and a FIN that is held lies ahead of what has been delivered. -/
structure Keeps (base : Nat) (stream : Bytes) (fins : List Nat) (e : Endpoint) : Prop where
  waiting : e.state = .synSent → e.receiver.recvClosed = false ∧ e.receiver.recvBuf = [] ∧
    e.receiver.oooBuf = [] ∧ e.finPending = false
  receiving : e.state = .established → e.receiver.recvClosed = false ∧
    e.recvAck = e.receiver.expectedSeq ∧ e.receiver.Inv (stream.map some) base
  held : e.state = .established → e.finPending = true →
    ∃ f ∈ fins, e.finSeq = wrap (base + f) ∧ e.receiver.delivered.length < f ∧
      f < e.receiver.delivered.length + 2 ^ 31

def Inv (s : Reception) : Prop := Keeps s.base s.stream s.fins s.endpoint

variable {s : Reception} {pkt : StreamPacket} {now finHoldIdle : Nat} {e : Endpoint} {i : Input}

theorem Fresh.inv (h : s.Fresh) : s.Inv := by
  refine ⟨fun _ => ⟨h.recvClosed, h.recvBuf, h.oooBuf, h.finPending⟩, fun hest => ?_, ?_⟩
  · rcases h.state with hsyn | ⟨-, hexpected, hack⟩
    · simp [hsyn] at hest
    · refine ⟨h.recvClosed, hack.trans hexpected.symm, ?_⟩
      exact ⟨by simp [hexpected, Receiver.delivered, h.recvBuf],
        by simp [Receiver.delivered, h.recvBuf], by simp [h.oooBuf], by simp [h.oooBuf]⟩
  · intro _ hpending
    simp [h.finPending] at hpending

namespace Keeps

variable {base : Nat} {stream : Bytes} {fins fins' : List Nat} {e e' : Endpoint}

theorem same (h : Keeps base stream fins e) (hsame : SameReceiving e e') :
    Keeps base stream fins e' := by
  obtain ⟨hstate, hreceiver, hack, hpending, hseq⟩ := hsame
  refine ⟨?_, ?_, ?_⟩
  · rw [hstate, hreceiver, hpending]
    exact h.waiting
  · rw [hstate, hreceiver, hack]
    exact h.receiving
  · rw [hstate, hreceiver, hpending, hseq]
    exact h.held

theorem mono (h : Keeps base stream fins e) (hsub : fins ⊆ fins') : Keeps base stream fins' e := by
  refine ⟨h.waiting, h.receiving, fun hest hpending => ?_⟩
  obtain ⟨f, hf, hheld⟩ := h.held hest hpending
  exact ⟨f, hsub hf, hheld⟩

theorem of_ended (hsyn : e.state ≠ .synSent) (hest : e.state ≠ .established) :
    Keeps base stream fins e :=
  ⟨fun h => absurd h hsyn, fun h => absurd h hest, fun h => absurd h hest⟩

theorem stopFINHold (h : Keeps base stream fins e) : Keeps base stream fins e.stopFINHold := by
  refine ⟨fun hsyn => ?_, h.receiving, nofun⟩
  obtain ⟨hclosed, hbuf, hooo, -⟩ := h.waiting hsyn
  exact ⟨hclosed, hbuf, hooo, rfl⟩

theorem acceptFIN (finSeq : Seq) (now : Nat) :
    Keeps base stream fins (e.acceptFIN finSeq now).1 := by
  apply of_ended <;> exact nofun

end Keeps

/-! ## One packet -/

def NoFINAck (sent : List Sent) : Prop := ∀ seq ackNum, .finAck seq ackNum ∉ sent

/-- What handling a packet comes to. -/
inductive Handles (pkt : StreamPacket) (now accepted : Nat) (e : Endpoint) :
    Endpoint × List Sent → Prop
  /-- The packet has nothing for the receiving side. -/
  | nothing {r : Endpoint × List Sent} (same : SameReceiving e r.1) (quiet : NoFINAck r.2)
      (fin : pkt.isFIN = false) (data : pkt.isData = true → e.state ≠ .established) :
      Handles pkt now accepted e r
  | synAck (syn : pkt.syn = true) (ack : pkt.ack = true) (waiting : e.state = .synSent) :
      Handles pkt now accepted e (e.handleSynAck pkt)
  | fin (fin : pkt.isFIN = true) : Handles pkt now accepted e (e.handleFIN pkt now)
  | rst : Handles pkt now accepted e (e.handleRST, [])
  | data {a : Endpoint} {sent : List Sent} (data : pkt.isData = true)
      (est : e.state = .established) (same : SameReceiving e a) (quiet : NoFINAck sent) :
      Handles pkt now accepted e
        ((a.handleData pkt now accepted).1, sent ++ (a.handleData pkt now accepted).2)

theorem handleACK_handles (hsyn : pkt.syn = false) (hfin : pkt.fin = false)
    (hrst : pkt.rst = false) (hack : pkt.ack = true) (now accepted : Nat) :
    Handles pkt now accepted e (e.handleACK pkt now accepted) := by
  have hsame : SameReceiving e (e.acknowledge pkt now).1 :=
    ⟨e.acknowledge_state pkt now, rfl, rfl, rfl, rfl⟩
  have hsent : NoFINAck (e.acknowledge pkt now).2 := finAck_not_mem_segments _
  have hisFIN : pkt.isFIN = false := by simp [isFIN, hfin]
  unfold handleACK handlePayload
  cases hblocks : decodeSACK pkt.payload with
  | some blocks =>
    refine .nothing ⟨hsame.state, rfl, rfl, rfl, rfl⟩ ?_ hisFIN ?_
    · simpa using hsent
    · simp [isData, hblocks]
  | none =>
    cases hempty : pkt.payload.isEmpty with
    | true =>
      refine .nothing hsame ?_ hisFIN ?_
      · simpa using hsent
      · simp [isData, hempty]
    | false =>
      by_cases hest : e.state = .established
      · refine .data ?_ hest hsame hsent
        simp [isData, hsyn, hfin, hrst, hack, hempty, hblocks]
      · have hother : (e.acknowledge pkt now).1.handleData pkt now accepted =
            ((e.acknowledge pkt now).1, []) := if_pos (hsame.state ▸ hest)
        refine .nothing ?_ ?_ hisFIN fun _ => hest
        · simpa [hother] using hsame
        · simpa [hother] using hsent

theorem packet_handles (e : Endpoint) (pkt : StreamPacket) (now accepted : Nat) :
    Handles pkt now accepted e (e.handleStreamPacket pkt now accepted) := by
  have hignored (hfin : pkt.isFIN = false) (hdata : pkt.isData = false) :
      Handles pkt now accepted e (e, []) :=
    .nothing ⟨rfl, rfl, rfl, rfl, rfl⟩ (by simp [NoFINAck]) hfin (by simp [hdata])
  unfold handleStreamPacket
  cases hsyn : pkt.syn with
  | true =>
    have hfin : pkt.isFIN = false := by simp [isFIN, hsyn]
    have hdata : pkt.isData = false := by simp [isData, hsyn]
    cases hack : pkt.ack with
    | true =>
      by_cases hwaiting : e.state = .synSent
      · exact .synAck hsyn hack hwaiting
      · have hsame : e.handleSynAck pkt = (e, []) := if_pos hwaiting
        simpa [hsame] using hignored hfin hdata
    | false => exact hignored hfin hdata
  | false =>
    cases hfin : pkt.fin with
    | true => exact .fin (by simp [isFIN, hsyn, hfin])
    | false =>
      cases hrst : pkt.rst with
      | true => exact .rst
      | false =>
        cases hack : pkt.ack with
        | true => exact handleACK_handles hsyn hfin hrst hack now accepted
        | false => exact hignored (by simp [isFIN, hfin]) (by simp [isData, hack])

/-- Data that is delivered ends the connection with the FIN that was held, or is
acknowledged. -/
theorem handleData_cases (hest : e.state = .established) (pkt : StreamPacket) (now accepted : Nat) :
    let d := e.deliver pkt now accepted
    let r := e.handleData pkt now accepted
    d.finReady = true ∧ r = d.stopFINHold.acceptFIN e.finSeq now ∨
      d.finReady = false ∧ SameReceiving d r.1 ∧ NoFINAck r.2 ∧
        (d.finPending = true → r.1.finHeard = now) ∧ r.1.stats.sackRecv = e.stats.sackRecv := by
  intro d
  unfold handleData
  rw [if_neg (not_not_intro hest)]
  by_cases hready : d.finReady = true
  · exact .inl ⟨hready, if_pos hready⟩
  · obtain ⟨_, _, _, _, hacked, hstats⟩ := ackDelivery_eq
      { d with finHeard := if d.finPending then now else d.finHeard }
    refine .inr ⟨Bool.not_eq_true _ ▸ hready, ?_⟩
    simp only [show (e.deliver pkt now accepted).finReady = false from Bool.not_eq_true _ ▸ hready]
    refine ⟨?_, finAck_not_mem_ackDelivery _, fun hpending => ?_, ?_⟩
    · rw [if_neg Bool.false_ne_true, hacked]
      exact ⟨rfl, rfl, rfl, rfl, rfl⟩
    · rw [if_neg Bool.false_ne_true, hacked]
      exact if_pos hpending
    · rwa [if_neg Bool.false_ne_true, hacked]

/-- Waits for its SYN-ACK or is established: its own side has not closed. -/
def isOpen (e : Endpoint) : Prop := e.state = .synSent ∨ e.state = .established

/-- A FIN with this sequence number has been heard, and everything before it delivered. -/
def Reached (base : Nat) (stream : Bytes) (fins : List Nat) (r : Receiver) (seq : Seq) : Prop :=
  ∃ f ∈ fins, seq = wrap (base + f) ∧ f ≤ r.delivered.length ∧ r.delivered <+: stream

/-- What handling a packet in `e` comes to: the invariant, a FIN-ACK only for a FIN that
delivery has reached, and TIME_WAIT only with a FIN-ACK. -/
structure Handled (base : Nat) (stream : Bytes) (fins : List Nat) (e : Endpoint)
    (r : Endpoint × List Sent) : Prop where
  keeps : Keeps base stream fins r.1
  reached : isOpen e → ∀ seq ackNum, .finAck seq ackNum ∈ r.2 →
    ∃ finSeq, ackNum = finSeq + 1 ∧ Reached base stream fins r.1.receiver finSeq
  announced : isOpen e → r.1.state = .timeWait → ∃ seq ackNum, .finAck seq ackNum ∈ r.2

theorem beginning_of_map_some {xs ys : Bytes} (h : xs.map some <+: ys.map some) : xs <+: ys := by
  obtain ⟨rest, hrest⟩ := h
  refine ⟨rest.reduceOption, ?_⟩
  have hreduced := congrArg List.reduceOption hrest
  simpa [List.reduceOption_append, List.reduceOption] using hreduced

section Packets

variable {base : Nat} {stream : Bytes} {fins : List Nat} {e : Endpoint}

theorem Handled.quiet {r : Endpoint × List Sent} (hkeeps : Keeps base stream fins r.1)
    (hstate : isOpen e → r.1.state ≠ .timeWait)
    (hsent : NoFINAck r.2) : Handled base stream fins e r where
  keeps := hkeeps
  reached := fun _ seq ackNum hmem => absurd hmem (hsent seq ackNum)
  announced := fun hopen htime => absurd htime (hstate hopen)

theorem isOpen.ne_timeWait (h : isOpen e) : e.state ≠ .timeWait := by
  rcases h with h | h <;> rw [h] <;> exact nofun

theorem delivered_beginning {r : Receiver} (h : r.Inv (stream.map some) base) :
    r.delivered <+: stream :=
  beginning_of_map_some h.delivered

variable {now off : Nat} {pkt : StreamPacket}

theorem handled_acceptFIN {finSeq : Seq}
    (hreached : isOpen e → Reached base stream fins e.receiver finSeq) :
    Handled base stream fins e (e.acceptFIN finSeq now) where
  keeps := .acceptFIN finSeq now
  reached := by
    intro hopen seq ackNum hmem
    have hne : e.stopFINHold.closeRecvBuf.state ≠ .timeWait := hopen.ne_timeWait
    simp only [acceptFIN, enterTimeWait, if_neg hne, List.mem_singleton,
      Sent.finAck.injEq] at hmem
    exact ⟨finSeq, hmem.2, hreached hopen⟩
  announced := by
    intro hopen _
    have hne : e.stopFINHold.closeRecvBuf.state ≠ .timeWait := hopen.ne_timeWait
    refine ⟨e.sender.sendSeq, finSeq + 1, ?_⟩
    simp only [acceptFIN, enterTimeWait, if_neg hne, List.mem_singleton]
    rfl

theorem handled_synAck (h : Keeps base stream fins e) (hseq : pkt.seq + 1 = wrap base)
    (hsyn : e.state = .synSent) : Handled base stream fins e (e.handleSynAck pkt) := by
  unfold handleSynAck
  rw [if_neg (not_not_intro hsyn)]
  obtain ⟨hclosed, hbuf, hooo, hpending⟩ := h.waiting hsyn
  refine .quiet ⟨nofun, fun _ => ⟨hclosed, rfl, ?_⟩, ?_⟩
    nofun (by simp [NoFINAck])
  · exact ⟨by simp [hseq, Receiver.delivered, hbuf], by simp [Receiver.delivered, hbuf],
      by simp [hooo], by simp [hooo]⟩
  · intro _ hheld
    exact absurd (hpending.symm.trans hheld) (by decide)

theorem keeps_holdFIN (h : Keeps base stream fins e) (now : Nat)
    (hearly : e.early (wrap (base + off)) = true)
    (hnear : e.state = .established → Near off e.receiver.delivered.length) :
    Keeps base stream (off :: fins) (e.holdFIN (wrap (base + off)) now) := by
  simp only [early, Bool.and_eq_true, decide_eq_true_eq, Bool.not_eq_true'] at hearly
  obtain ⟨⟨hest, -⟩, hafter⟩ := hearly
  obtain ⟨hclosed, hack, hinv⟩ := h.receiving hest
  rw [hinv.expected, seqAfter_wrap ((hnear hest).add_left base), decide_eq_true_eq] at hafter
  refine ⟨fun hsyn => ?_, h.receiving, fun _ _ => ?_⟩
  · simp [show e.state = .synSent from hsyn] at hest
  · cases hpending : e.finPending with
    | false =>
      refine ⟨off, .head _, ?_, Nat.lt_of_add_lt_add_left hafter, (hnear hest).1⟩
      simp [holdFIN, hpending]
    | true =>
      obtain ⟨f, hf, hseq, hheld⟩ := h.held hest hpending
      refine ⟨f, List.mem_cons_of_mem off hf, ?_, hheld⟩
      simpa [holdFIN, hpending] using hseq

/-- A FIN that does not overtake data is handled at once, a FIN that does is held. Before
the SYN-ACK, where nothing tells the two apart, it must not come. -/
theorem handled_FIN (h : Keeps base stream fins e) (hseq : pkt.seq = wrap (base + off))
    (hnear : e.state = .established → Near off e.receiver.delivered.length)
    (hsyn : e.state ≠ .synSent) : Handled base stream (off :: fins) e (e.handleFIN pkt now) := by
  unfold handleFIN
  rw [hseq]
  by_cases hearly : e.early (wrap (base + off)) = true
  · rw [if_pos hearly]
    have hheld := keeps_holdFIN h now hearly hnear
    exact .quiet (hheld.same ⟨rfl, rfl, rfl, rfl, rfl⟩) isOpen.ne_timeWait
      (finAck_not_mem_sendDelayedACK _)
  · rw [if_neg hearly]
    refine handled_acceptFIN fun hopen => ?_
    have hest : e.state = .established := hopen.resolve_left hsyn
    obtain ⟨hclosed, -, hinv⟩ := h.receiving hest
    simp only [early, hest, hclosed, hinv.expected,
      seqAfter_wrap ((hnear hest).add_left base)] at hearly
    simp only [decide_true, Bool.not_false, Bool.and_true, Bool.true_and, decide_eq_true_eq] at hearly
    exact ⟨off, .head _, rfl, by omega, delivered_beginning hinv⟩

theorem seqAfter_recvAck {d : Endpoint} {f : Nat} (hack : d.recvAck = d.receiver.expectedSeq)
    (hinv : d.receiver.Inv (stream.map some) base) (hnear : Near f d.receiver.delivered.length) :
    seqAfter (wrap (base + f)) d.recvAck = decide (d.receiver.delivered.length < f) := by
  rw [hack, hinv.expected, seqAfter_wrap (hnear.add_left base), decide_eq_decide]
  exact Nat.add_lt_add_iff_left

section Data

variable (h : Keeps base stream fins e) (hseq : pkt.seq = wrap (base + off))
  (hcarries : Carries (stream.map some) off pkt.payload) (hest : e.state = .established)
  (hnear : Near off e.receiver.delivered.length) (accepted : Nat)

include h hseq hcarries hest hnear

theorem deliver_spec (now : Nat) :
    let d := e.deliver pkt now accepted
    d.receiver.recvClosed = false ∧ d.recvAck = d.receiver.expectedSeq ∧
      d.receiver.Inv (stream.map some) base ∧
      (e.finPending = true → ∃ f ∈ fins, e.finSeq = wrap (base + f) ∧
        Near f d.receiver.delivered.length) := by
  obtain ⟨hclosed, -, hinv⟩ := h.receiving hest
  have hdelivered := Receiver.deliverInOrder_inv hinv hcarries hnear accepted
  have hadvance := Receiver.deliverInOrder_advance hinv hcarries hnear accepted
  rw [← hseq] at hdelivered hadvance
  refine ⟨(Receiver.deliverInOrder_recvClosed ..).trans hclosed, Receiver.deliverInOrder_ack ..,
    hdelivered, fun hpending => ?_⟩
  obtain ⟨f, hf, hfseq, hlo, hhi⟩ := h.held hest hpending
  refine ⟨f, hf, hfseq, ?_⟩
  show Near f (e.receiver.deliverInOrder pkt.seq pkt.payload accepted).1.delivered.length
  exact ⟨by omega, by omega⟩

theorem handled_data : Handled base stream fins e (e.handleData pkt now accepted) := by
  obtain ⟨hclosed, hack, hinv, hheld⟩ := deliver_spec h hseq hcarries hest hnear accepted now
  rcases handleData_cases hest pkt now accepted with
    ⟨hready, heq⟩ | ⟨hready, hsame, hsent, -⟩
  · rw [heq]
    simp only [finReady, Bool.and_eq_true, Bool.not_eq_true'] at hready
    obtain ⟨f, hf, hfseq, hfnear⟩ := hheld hready.1
    have hreach : Reached base stream fins (e.deliver pkt now accepted).receiver e.finSeq := by
      have hcompare := seqAfter_recvAck hack hinv hfnear
      rw [← hfseq, show seqAfter e.finSeq _ = false from hready.2] at hcompare
      exact ⟨f, hf, hfseq, Nat.not_lt.mp (of_decide_eq_false hcompare.symm),
        delivered_beginning hinv⟩
    have haccepted : Handled base stream fins (e.deliver pkt now accepted).stopFINHold
        ((e.deliver pkt now accepted).stopFINHold.acceptFIN e.finSeq now) :=
      handled_acceptFIN fun _ => hreach
    exact ⟨haccepted.keeps, haccepted.reached, haccepted.announced⟩
  · have hkept : Keeps base stream fins (e.deliver pkt now accepted) := by
      refine ⟨fun hsyn => ?_, fun _ => ⟨hclosed, hack, hinv⟩, fun _ hpending => ?_⟩
      · exact absurd (hest.symm.trans hsyn) (by decide)
      · obtain ⟨f, hf, hfseq, hfnear⟩ := hheld hpending
        have hcompare := seqAfter_recvAck hack hinv hfnear
        rw [finReady, hpending, Bool.true_and, Bool.not_eq_false'] at hready
        rw [← hfseq, show seqAfter e.finSeq _ = true from hready] at hcompare
        exact ⟨f, hf, hfseq, of_decide_eq_true hcompare.symm, hfnear.1⟩
    refine .quiet (hkept.same hsame) (fun _ htime => ?_) hsent
    exact absurd ((hsame.state.trans hest).symm.trans htime) (by decide)

end Data

theorem handled_RST : Handled base stream fins e (e.handleRST, []) := by
  refine .quiet (.of_ended ?_ ?_) ?_ (by simp [NoFINAck])
  · exact nofun
  · exact nofun
  · exact nofun

theorem Handled.after {a : Endpoint} {r : Endpoint × List Sent} (h : Handled base stream fins a r)
    (hstate : a.state = e.state) {sent : List Sent} (hsent : NoFINAck sent) :
    Handled base stream fins e (r.1, sent ++ r.2) := by
  have hopen : isOpen e → isOpen a := by
    unfold isOpen
    rw [hstate]
    exact id
  refine ⟨h.keeps, fun ho seq ackNum hmem => ?_, fun ho htime => ?_⟩
  · exact h.reached (hopen ho) seq ackNum ((List.mem_append.mp hmem).resolve_left (hsent seq ackNum))
  · obtain ⟨seq, ackNum, hmem⟩ := h.announced (hopen ho) htime
    exact ⟨seq, ackNum, List.mem_append_right _ hmem⟩

end Packets

/-! ## Runs -/

def NoFINBeforeSynAck (s : Reception) : Input → Prop
  | .arrive pkt _ _ _ => pkt.isFIN = true → s.endpoint.state ≠ .synSent
  | _ => True

instance (s : Reception) (i : Input) : Decidable (s.NoFINBeforeSynAck i) := by
  cases i <;> dsimp only [NoFINBeforeSynAck] <;> infer_instance

/-- While a FIN is held the peer sends nothing but data and FINs. -/
def OnlyStreamWhileHeld (s : Reception) : Input → Prop
  | .arrive pkt _ _ _ => s.endpoint.finPending = true → pkt.isFIN = true ∨ pkt.isData = true
  | _ => True

/-- The step runs `acceptFIN` for a FIN with this sequence number. -/
def Accepts (finHoldIdle : Nat) (s : Reception) (i : Input) (finSeq : Seq) : Prop :=
  ∃ seq, .finAck seq (finSeq + 1) ∈ (s.handle finHoldIdle i).2

/-- A packet makes an open connection accept a FIN, and enter TIME_WAIT, only when a FIN
with that number has been heard and every byte before it is in the receive buffer;
beside packets only the hold timer accepts a FIN. -/
def FINAfterData (finHoldIdle : Nat) (s : Reception) : Input → Prop
  | i@(.arrive ..) => isOpen s.endpoint →
      (∀ finSeq, s.Accepts finHoldIdle i finSeq →
        Reached s.base s.stream (s.step finHoldIdle i).fins (s.step finHoldIdle i).endpoint.receiver
          finSeq) ∧
      ((s.step finHoldIdle i).endpoint.state = .timeWait → ∃ finSeq, s.Accepts finHoldIdle i finSeq)
  | .expireHeldFIN _ => True
  | i => ∀ finSeq, ¬ s.Accepts finHoldIdle i finSeq

/-- The hold timer accepts a FIN only after `finHoldIdle` without a packet. -/
def SilentBeforeExpiry (finHoldIdle : Nat) (s : Reception) : Input → Prop
  | i@(.expireHeldFIN now) => ∀ finSeq, s.Accepts finHoldIdle i finSeq →
      finHoldIdle ≤ now - s.lastPacket
  | _ => True

theorem handled_packet (h : s.Inv) {off accepted : Nat}
    (hok : s.Admissible (.arrive pkt off now accepted))
    (hcareful : s.NoFINBeforeSynAck (.arrive pkt off now accepted)) :
    Handled s.base s.stream (s.heardFINs (.arrive pkt off now accepted)) s.endpoint
      (s.endpoint.handleStreamPacket pkt now accepted) := by
  obtain ⟨hsynAck, hplaced, hcarries⟩ := hok
  have hkeeps : Keeps s.base s.stream (s.heardFINs (.arrive pkt off now accepted)) s.endpoint := by
    refine Keeps.mono h ?_
    simp only [heardFINs]
    split
    · exact List.subset_cons_self off s.fins
    · exact List.Subset.refl s.fins
  have hcases := packet_handles s.endpoint pkt now accepted
  generalize s.endpoint.handleStreamPacket pkt now accepted = r at hcases ⊢
  cases hcases with
  | nothing hsame hsent =>
    refine .quiet (hkeeps.same hsame) (fun hopen => ?_) hsent
    rw [hsame.state]
    exact hopen.ne_timeWait
  | synAck hsyn hack hwaiting => exact handled_synAck hkeeps (hsynAck hsyn hack) hwaiting
  | fin hfin =>
    obtain ⟨hseq, hnear⟩ := hplaced (.inl hfin)
    rw [heardFINs, if_pos hfin]
    exact handled_FIN h hseq hnear (hcareful hfin)
  | rst => exact handled_RST
  | data hdata hest hsame hsent =>
    obtain ⟨hseq, hnear⟩ := hplaced (.inr hdata)
    refine (handled_data (hkeeps.same hsame) hseq (hcarries hdata) (hsame.state.trans hest) ?_
      accepted).after hsame.state hsent
    rw [hsame.receiver]
    exact hnear hest

theorem keeps_expireHeldFIN {base : Nat} {stream : Bytes} {fins : List Nat}
    (h : Keeps base stream fins e) (finHoldIdle now : Nat) :
    Keeps base stream fins (e.expireHeldFIN finHoldIdle now).1 := by
  unfold expireHeldFIN
  split
  · exact h
  split
  · exact h.stopFINHold
  split
  · exact h
  · exact .acceptFIN _ now

theorem keeps_retransmitUnacked {base : Nat} {stream : Bytes} {fins : List Nat}
    (h : Keeps base stream fins e) (now draw : Nat) :
    Keeps base stream fins (e.retransmitUnacked now draw).1 := by
  rcases (e.sender.retransmitUnacked_timesOut now draw).state with hstate | hstate
  · exact h.same ⟨hstate, rfl, rfl, rfl, rfl⟩
  · refine .of_ended ?_ ?_
    · exact fun hsyn => (nomatch hstate.symm.trans hsyn)
    · exact fun hest => (nomatch hstate.symm.trans hest)

theorem step_inv (h : s.Inv) (hok : s.Admissible i ∧ s.NoFINBeforeSynAck i) :
    (s.step finHoldIdle i).Inv := by
  cases i with
  | arrive pkt off now accepted => exact (handled_packet h hok.1 hok.2).keeps
  | expireHeldFIN now => exact keeps_expireHeldFIN h finHoldIdle now
  | ackTimer | read | transmitSegment data now sendOk => exact h.same ⟨rfl, rfl, rfl, rfl, rfl⟩
  | retransmitUnacked now draw => exact keeps_retransmitUnacked h now draw
  | closeConnection stopping now => refine .of_ended ?_ ?_ <;> exact nofun
  | abort => refine .of_ended ?_ ?_ <;> exact nofun

theorem step_finAfterData (h : s.Inv) (hok : s.Admissible i ∧ s.NoFINBeforeSynAck i) :
    s.FINAfterData finHoldIdle i := by
  cases i with
  | arrive pkt off now accepted =>
    intro hopen
    have hhandled := handled_packet h hok.1 hok.2
    refine ⟨?_, fun htime => ?_⟩
    · rintro finSeq ⟨seq, hmem⟩
      obtain ⟨finSeq', heq, hreached⟩ := hhandled.reached hopen seq _ hmem
      rwa [add_right_cancel heq]
    · obtain ⟨seq, ackNum, hmem⟩ := hhandled.announced hopen htime
      obtain ⟨finSeq, rfl, -⟩ := hhandled.reached hopen seq ackNum hmem
      exact ⟨finSeq, seq, hmem⟩
  | expireHeldFIN now => trivial
  | ackTimer => rintro finSeq ⟨seq, hmem⟩; exact finAck_not_mem_sendDelayedACK _ _ _ hmem
  | read | abort => rintro finSeq ⟨seq, hmem⟩; cases hmem
  | transmitSegment data now sendOk | retransmitUnacked now draw | closeConnection stopping now =>
    rintro finSeq ⟨seq, hmem⟩
    exact finAck_not_mem_segments _ _ _ hmem

/-! ## The hold timer -/

/-- A FIN that is held was heard of with the last packet. -/
def HeardLast (s : Reception) : Prop :=
  s.endpoint.state = .established → s.endpoint.finPending = true →
    s.endpoint.finHeard = s.lastPacket

theorem packet_heard {accepted : Nat}
    (hstream : e.finPending = true → pkt.isFIN = true ∨ pkt.isData = true)
    (hest : (e.handleStreamPacket pkt now accepted).1.state = .established)
    (hpending : (e.handleStreamPacket pkt now accepted).1.finPending = true) :
    (e.handleStreamPacket pkt now accepted).1.finHeard = now := by
  have hcases := packet_handles e pkt now accepted
  generalize e.handleStreamPacket pkt now accepted = r at hcases hest hpending ⊢
  cases hcases with
  | nothing hsame _ hfin hdata =>
    rcases hstream (hsame.finPending.symm.trans hpending) with hisFIN | hisData
    · exact absurd (hfin.symm.trans hisFIN) (by decide)
    · exact absurd (hsame.state.symm.trans hest) (hdata hisData)
  | synAck hsyn hack hwaiting =>
    rw [handleSynAck, if_neg (not_not_intro hwaiting)] at hpending
    simpa [isFIN, isData, hsyn] using hstream hpending
  | fin =>
    unfold handleFIN at hpending ⊢
    split at hpending
    next hearly => rw [if_pos hearly]; rfl
    next => cases hpending
  | rst => cases hpending
  | data _ hopen hsame =>
    rcases handleData_cases (hsame.state.trans hopen) pkt now accepted with
      ⟨-, heq⟩ | ⟨-, hkept, -, hheard, -⟩
    · rw [heq] at hpending
      cases hpending
    · exact hheard (hkept.finPending.symm.trans hpending)

theorem step_heardLast (h : s.HeardLast) (hok : s.OnlyStreamWhileHeld i) :
    (s.step finHoldIdle i).HeardLast := by
  intro hest hpending
  cases i with
  | arrive pkt off now accepted => exact packet_heard hok hest hpending
  | expireHeldFIN now =>
    change (s.endpoint.expireHeldFIN finHoldIdle now).1.state = _ at hest
    change (s.endpoint.expireHeldFIN finHoldIdle now).1.finPending = _ at hpending
    show (s.endpoint.expireHeldFIN finHoldIdle now).1.finHeard = s.lastPacket
    unfold expireHeldFIN at hest hpending ⊢
    split_ifs at hest hpending ⊢
    · exact h hest hpending
    · cases hpending
    · exact h hest hpending
    · cases hpending
  | ackTimer | read | transmitSegment data now sendOk => exact h hest hpending
  | retransmitUnacked now draw =>
    rcases (s.endpoint.sender.retransmitUnacked_timesOut now draw).state with hstate | hstate
    · exact h (hstate.symm.trans hest) hpending
    · exact (nomatch hstate.symm.trans hest)
  | closeConnection stopping now | abort => cases hest

theorem step_silent (h : s.HeardLast) : s.SilentBeforeExpiry finHoldIdle i := by
  cases i with
  | expireHeldFIN now =>
    rintro finSeq ⟨seq, hmem⟩
    change _ ∈ (s.endpoint.expireHeldFIN finHoldIdle now).2 at hmem
    unfold expireHeldFIN at hmem
    split_ifs at hmem with hheld hstate hearly
    · cases hmem
    · cases hmem
    · cases hmem
    · have hlast := h (not_not.mp hstate) (by simpa using hheld)
      rw [← hlast]
      exact Nat.not_lt.mp hearly
  | _ => trivial

/-- In every run of a connection that hears from its peer, with no FIN before the
SYN-ACK, a packet makes it accept a FIN only once everything before the FIN has been
delivered. The hold timer accepts a FIN only after `finHoldIdle` without a packet, if
the peer sends nothing but data and FINs while a FIN is held. -/
theorem fin_accepted_after_data {finHoldIdle : Nat} {s : Reception} (hs : s.Fresh)
    {inputs : List Input} (hok : AllSteps (step finHoldIdle) Admissible s inputs)
    (hsyn : AllSteps (step finHoldIdle) NoFINBeforeSynAck s inputs) :
    AllSteps (step finHoldIdle) (FINAfterData finHoldIdle) s inputs ∧
    (AllSteps (step finHoldIdle) OnlyStreamWhileHeld s inputs →
      AllSteps (step finHoldIdle) (SilentBeforeExpiry finHoldIdle) s inputs) := by
  refine ⟨?_, fun hstream => ?_⟩
  · exact run_every_step (fun _ _ h hi => step_inv h hi) (fun _ _ h hi => step_finAfterData h hi)
      hs.inv (hok.and hsyn)
  · have hfirst : s.HeardLast := fun _ hpending => by
      simp [hs.finPending] at hpending
    exact run_every_step (fun _ _ h hi => step_heardLast h hi) (fun _ _ h _ => step_silent h)
      hfirst hstream

/-! ## User data in an ACK packet -/

/-- The cumulative ACK of an established connection is its next expected number. -/
def Synced (e : Endpoint) : Prop := e.state = .established → e.recvAck = e.receiver.expectedSeq

namespace Synced

variable {e e' : Endpoint}

theorem same (h : Synced e) (hsame : SameReceiving e e') : Synced e' := by
  unfold Synced
  rwa [hsame.state, hsame.recvAck, hsame.receiver]

theorem handleStreamPacket (h : Synced e) (pkt : StreamPacket) (now accepted : Nat) :
    Synced (e.handleStreamPacket pkt now accepted).1 := by
  have hcases := packet_handles e pkt now accepted
  generalize e.handleStreamPacket pkt now accepted = r at hcases ⊢
  cases hcases with
  | nothing hsame => exact h.same hsame
  | synAck _ _ hwaiting =>
    rw [handleSynAck, if_neg (not_not_intro hwaiting)]
    exact fun _ => rfl
  | fin =>
    unfold handleFIN
    split
    · exact h
    · exact nofun
  | rst => exact nofun
  | data _ hopen hsame =>
    rcases handleData_cases (hsame.state.trans hopen) pkt now accepted with
      ⟨-, heq⟩ | ⟨-, hkept, -⟩
    · rw [heq]
      exact nofun
    · exact same (fun _ => Receiver.deliverInOrder_ack ..) hkept

end Synced

theorem step_synced (i : Input) (h : Synced s.endpoint) :
    Synced (s.step finHoldIdle i).endpoint := by
  cases i with
  | arrive pkt off now accepted => exact h.handleStreamPacket pkt now accepted
  | expireHeldFIN now =>
    show Synced (s.endpoint.expireHeldFIN finHoldIdle now).1
    unfold expireHeldFIN
    split_ifs
    · exact h
    · exact h
    · exact h
    · exact nofun
  | ackTimer | read | transmitSegment data now sendOk => exact h
  | retransmitUnacked now draw =>
    rcases (s.endpoint.sender.retransmitUnacked_timesOut now draw).state with hstate | hstate
    · exact h.same ⟨hstate, rfl, rfl, rfl, rfl⟩
    · exact fun hest => (nomatch hstate.symm.trans hest)
  | closeConnection stopping now | abort => exact nofun

theorem Fresh.synced (h : s.Fresh) : Synced s.endpoint := by
  intro hest
  rcases h.state with hsyn | ⟨-, hexpected, hack⟩
  · exact (nomatch hsyn.symm.trans hest)
  · exact hack.trans hexpected.symm

theorem handleData_eq (pkt : StreamPacket) (now accepted : Nat) (hest : e.state = .established) :
    let delivered := e.receiver.deliverInOrder pkt.seq pkt.payload accepted
    let e' := (e.handleData pkt now accepted).1
    e'.receiver.recvBuf = delivered.1.recvBuf ∧ e'.recvAck = delivered.2 ∧
      e'.stats.sackRecv = e.stats.sackRecv := by
  intro delivered e'
  rcases handleData_cases hest pkt now accepted with
    ⟨-, heq⟩ | ⟨-, hsame, -, -, hstats⟩
  · rw [show e' = _ from congrArg Prod.fst heq]
    exact ⟨rfl, rfl, rfl⟩
  · exact ⟨congrArg Receiver.recvBuf hsame.receiver, hsame.recvAck, hstats⟩

theorem handleStreamPacket_ack {pkt : StreamPacket} (now accepted : Nat)
    (hflags : pkt.syn = false ∧ pkt.fin = false ∧ pkt.rst = false ∧ pkt.ack = true) :
    (e.handleStreamPacket pkt now accepted).1 =
      ((e.acknowledge pkt now).1.handlePayload pkt now accepted).1 := by
  obtain ⟨hsyn, hfin, hrst, hack⟩ := hflags
  simp [handleStreamPacket, hsyn, hfin, hrst, hack, handleACK]

/-- In every state a connection reaches, an in-order data segment is pushed to the receive
buffer and acknowledged, and no SACK is processed, exactly if its payload is not a valid
SACK; otherwise the receive buffer and the acknowledgement stay as they are. -/
theorem payload_delivered (finHoldIdle : Nat) {s : Reception} (hs : s.Fresh) (inputs : List Input)
    {pkt : StreamPacket} (now : Nat) {accepted : Nat}
    (hflags : pkt.syn = false ∧ pkt.fin = false ∧ pkt.rst = false ∧ pkt.ack = true)
    (hne : pkt.payload ≠ []) :
    let e := (inputs.foldl (step finHoldIdle) s).endpoint
    e.state = .established → e.receiver.expectedSeq = pkt.seq →
    e.receiver.recvClosed = false → 0 < accepted → e.receiver.oooBuf = [] →
    let e' := (e.handleStreamPacket pkt now accepted).1
    (e'.receiver.recvBuf = e.receiver.recvBuf ++ [pkt.payload] ∧
      e'.recvAck = e.recvAck + UInt32.ofNat pkt.payload.length ∧
      e'.stats.sackRecv = e.stats.sackRecv ↔ decodeSACK pkt.payload = none) ∧
    (decodeSACK pkt.payload ≠ none →
      e'.receiver.recvBuf = e.receiver.recvBuf ∧ e'.recvAck = e.recvAck) := by
  intro e hest hseq hopen hroom hooo e'
  have hsynced : Synced e :=
    run_invariant_all (fun s : Reception => Synced s.endpoint) (fun _ i h => step_synced i h) inputs hs.synced
  have heq : e' = ((e.acknowledge pkt now).1.handlePayload pkt now accepted).1 :=
    handleStreamPacket_ack now accepted hflags
  unfold handlePayload at heq
  cases hblocks : decodeSACK pkt.payload with
  | some blocks =>
    rw [hblocks] at heq
    have hkept : e'.receiver.recvBuf = e.receiver.recvBuf ∧ e'.recvAck = e.recvAck := by
      rw [heq]
      exact ⟨rfl, rfl⟩
    refine ⟨iff_of_false (fun hpushed => ?_) nofun, fun _ => hkept⟩
    exact List.cons_ne_nil _ _ (List.self_eq_append_right.mp (hkept.1.symm.trans hpushed.1))
  | none =>
    rw [hblocks, if_neg (by simpa using hne)] at heq
    have hdelivered : (e.receiver.deliverInOrder pkt.seq pkt.payload accepted).1 = _ :=
      Receiver.deliverInOrder_expected hseq hopen hooo hroom
    obtain ⟨hbuf, hackNum, hstats⟩ := handleData_eq (e := (e.acknowledge pkt now).1) pkt now
      accepted ((e.acknowledge_state pkt now).trans hest)
    refine ⟨iff_of_true ?_ rfl, fun hsack => absurd rfl hsack⟩
    rw [heq]
    refine ⟨hbuf.trans (congrArg Receiver.recvBuf hdelivered), ?_, hstats⟩
    rw [hackNum, Receiver.deliverInOrder_ack, hsynced hest, hseq]
    exact congrArg Receiver.expectedSeq hdelivered

namespace Sample

/-- A dial that waits for its SYN-ACK; its peer sends one byte, with number 1. -/
def dialed : Reception where
  endpoint := (new 0).setState .synSent
  base := 1
  stream := [7]
  fins := []
  lastPacket := 0

def accepted : Reception where
  endpoint := { (new 0).setState .established with
    recvAck := 1
    receiver := ⟨1, [], false, []⟩ }
  base := 1
  stream := [7]
  fins := []
  lastPacket := 0

theorem accepted_fresh : accepted.Fresh := ⟨rfl, rfl, rfl, rfl, rfl, .inr ⟨rfl, rfl, rfl⟩⟩

def synAck : StreamPacket := ⟨true, true, false, false, 0, 1, 512, []⟩
def fin : StreamPacket := ⟨false, false, true, false, 2, 0, 0, []⟩
def data : StreamPacket := ⟨false, true, false, false, 1, 0, 512, [7]⟩
def emptyACK : StreamPacket := ⟨false, true, false, false, 2, 0, 512, []⟩

theorem dialed_fresh : dialed.Fresh := ⟨rfl, rfl, rfl, rfl, rfl, .inl rfl⟩

def overtaken : List Input := [.arrive synAck 0 1 0, .arrive fin 1 2 0, .arrive data 0 3 1]

/-- The FIN is held until the data has come. -/
theorem overtaken_accepted : (overtaken.foldl (step 15) dialed).endpoint.state = .timeWait ∧
    (overtaken.foldl (step 15) dialed).delivered = [7] ∧
    AllSteps (step 15) (FINAfterData 15) dialed overtaken :=
  ⟨by decide, by decide, (fin_accepted_after_data dialed_fresh (by decide) (by decide)).1⟩

/-- A FIN that overtakes the SYN-ACK is accepted with nothing delivered; and a FIN that is
held expires although the peer has just been heard from. -/
theorem early_fin_accepted :
    dialed.Fresh ∧ AllSteps (step 15) Admissible dialed [.arrive fin 1 1 0] ∧
    ((dialed.step 15 (.arrive fin 1 1 0)).endpoint.state = .timeWait ∧
      (dialed.step 15 (.arrive fin 1 1 0)).endpoint.receiver.recvClosed = true ∧
      dialed.Accepts 15 (.arrive fin 1 1 0) 2 ∧
      (dialed.step 15 (.arrive fin 1 1 0)).delivered = []) ∧
    ¬ AllSteps (step 15) (FINAfterData 15) dialed [.arrive fin 1 1 0] ∧
    let held : List Input :=
      [.arrive synAck 0 1 0, .arrive fin 1 2 0, .arrive emptyACK 1 16 0, .expireHeldFIN 17]
    AllSteps (step 15) Admissible dialed held ∧
      ¬ AllSteps (step 15) (SilentBeforeExpiry 15) dialed held := by
  have haccepts : dialed.Accepts 15 (.arrive fin 1 1 0) 2 := ⟨0, by decide⟩
  refine ⟨dialed_fresh, by decide, ⟨by decide, by decide, haccepts, by decide⟩, ?_, by decide, ?_⟩
  · rintro ⟨hafter, -⟩
    obtain ⟨f, hf, -, hle, -⟩ := (hafter (.inl rfl)).1 2 haccepts
    rw [List.mem_singleton.mp hf] at hle
    exact absurd hle (by decide)
  · rintro ⟨-, -, -, hsilent, -⟩
    exact absurd (hsilent 2 ⟨0, by decide⟩) (by decide)

theorem data_delivered :
    (accepted.endpoint.handleStreamPacket data 1 1).1.receiver.recvBuf = [[7]] :=
  ((payload_delivered 15 accepted_fresh [] 1 ⟨rfl, rfl, rfl, rfl⟩ (by decide) rfl rfl rfl
    (by decide) rfl).1.mpr (by decide)).1

def disguised : StreamPacket :=
  ⟨false, true, false, false, 1, 0, 512, [83, 65, 67, 75, 1, 0, 0, 0, 2, 0, 0, 0, 3]⟩

/-- User data that spells a SACK is lost: it is processed as one, not delivered and not
acknowledged. -/
theorem disguised_lost : accepted.Fresh ∧ accepted.endpoint.state = .established ∧
    accepted.endpoint.receiver.expectedSeq = disguised.seq ∧ accepted.endpoint.receiver.oooBuf = [] ∧
    disguised.payload ≠ [] ∧ disguised.payload.length ≤ sendSegmentSize ∧
    (let e := (accepted.endpoint.handleStreamPacket disguised 1 512).1
    e.receiver.recvBuf = [] ∧ e.recvAck = accepted.endpoint.recvAck ∧ e.stats.sackRecv = 1) ∧
    -- the sender's own code puts these bytes in a data segment
    (Connection.new 1).transmitSegment disguised.payload 0 true =
      (((Connection.new 1).transmitSegment disguised.payload 0 true).1,
        [⟨.ack, disguised.seq, disguised.payload⟩]) :=
  ⟨accepted_fresh, by decide, by decide, by decide, by decide, by decide, by decide, rfl⟩

end Sample

end Reception

end PilotProtocol.Stream
