import PilotProtocol.Stream.Vouching

/-! # SACK marks

The stream of `System` with the packets of the other direction: ACKs that carry the
receiver's blocks, and data of the other side's user, which arrive at the sender in any
order, any number of times and arbitrarily late. An entry is marked only if the receiver
has its segment. The system also records the place of each entry in the sequence space and,
of each ACK, how much had been delivered when it was made.
-/

namespace PilotProtocol.Stream

open Library Receiver Connection RetxEntry

structure AckPacket where
  payload : Bytes
  off : Nat
  deriving DecidableEq

structure Sacking where
  sys : System
  /-- The offsets of the entries of the retransmission queue; not used for a FIN. -/
  origin : List Nat
  acks : List AckPacket

namespace Sacking

inductive Input
  | stream (i : System.Input)
  | sendSACK
  /-- An arrival with an ACK that is made between its phases 1 and 3. -/
  | sackDuring (pkt : Packet) (accepted : Nat)
  | sendData (payload : Bytes)
  | arriveAck (pkt : AckPacket)

def originAfter (s : Sacking) : System.Input → List Nat
  | .transmitSegment _ _ _ => s.origin ++ [s.sys.seqSpace.length]
  | .closeConnection stopping now =>
    if (s.sys.sender.closeConnection stopping now).1.unacked.length = s.sys.sender.unacked.length
    then s.origin else s.origin ++ [0]
  | .releaseHeldFIN now =>
    if (s.sys.sender.releaseHeldFIN now).1.unacked.length = s.sys.sender.unacked.length
    then s.origin else s.origin ++ [0]
  | .processAck ack pureACK now =>
    if (s.sys.sender.processAck ack pureACK now).1.unacked.length = s.sys.sender.unacked.length
    then s.origin
    else ((s.sys.sender.unacked.zip s.origin).filter fun p => !covers ack p.1).map Prod.snd
  | _ => s.origin

def emit (s : Sacking) (payload : Bytes) : Sacking :=
  { s with acks := s.acks ++ [⟨payload, s.sys.receiver.delivered.length⟩] }

def step (s : Sacking) : Input → Sacking
  | .stream i => { s with sys := s.sys.step i, origin := s.originAfter i }
  | .sendSACK => s.emit (encodeSACK s.sys.receiver.sackBlocks)
  | .sackDuring pkt accepted =>
    match pkt.flag with
    | .ack =>
      { s.emit (encodeSACK (s.sys.receiver.collecting pkt.seq pkt.payload).sackBlocks) with
        sys := s.sys.step (.arrive pkt accepted) }
    | .fin | .rst => s
  | .sendData payload => s.emit payload
  | .arriveAck pkt =>
    match decodeSACK pkt.payload with
    | none => s
    | some blocks => { s with sys := s.sys.step (.processSACK blocks) }

/-- The stream-delivery setting, with user payloads that do not decode as SACK; blocks come
from ACKs only. -/
def Unbounded (s : Sacking) : Input → Prop
  | .stream (.transmitSegment data now sendOk) =>
    s.sys.Admissible (.transmitSegment data now sendOk) ∧ decodeSACK data = none
  | .stream (.processSACK _) => False
  | .stream i => s.sys.Admissible i
  | .sackDuring pkt accepted => s.sys.Admissible (.arrive pkt accepted)
  | .sendData payload => decodeSACK payload = none
  | .arriveAck pkt => pkt ∈ s.acks
  | .sendSACK => True

/-- When an ACK arrives, the sender is less than one turn of the sequence space past what it
acknowledges. -/
def Timely (s : Sacking) : Input → Prop
  | .arriveAck pkt => s.sys.seqSpace.length < pkt.off + 2 ^ 32
  | _ => True

structure Fresh (s : Sacking) : Prop where
  sys : s.sys.Fresh
  origin : s.origin = []
  acks : s.acks = []

/-! ## The invariant -/

def Has (sys : System) (seg : Segment) : Prop := Got sys.base sys.receiver seg

/-- A data entry at its place, which the receiver has if it is marked. -/
def EntryOk (sys : System) (e : (Seq × Bytes × Bool) × Bool) (off : Nat) : Prop :=
  e.1.2.2 = false →
    e.1.1 = wrap (sys.base + off) ∧ ⟨off, e.1.2.1⟩ ∈ sys.segments ∧
      (e.2 = true → Has sys ⟨off, e.1.2.1⟩)

def AckOk (sys : System) (pkt : AckPacket) : Prop :=
  pkt.off ≤ sys.receiver.delivered.length ∧
    ∀ blocks, decodeSACK pkt.payload = some blocks →
      ∀ b ∈ blocks, Vouches sys.segments sys.base (Has sys) pkt.off sys.seqSpace.length b

structure Inv (s : Sacking) : Prop where
  sys : s.sys.Inv
  ordered : Ordered s.sys.segments
  ends : ∀ seg ∈ s.sys.segments, seg.off + seg.data.length ≤ s.sys.seqSpace.length
  holds : Holds s.sys.segments s.sys.base s.sys.receiver
  queue : List.Forall₂ (EntryOk s.sys) (s.sys.sender.unacked.map marked) s.origin
  acks : ∀ pkt ∈ s.acks, AckOk s.sys pkt

theorem Fresh.inv {s : Sacking} (h : s.Fresh) : s.Inv where
  sys := h.sys.inv
  ordered := by rw [h.sys.segments]; exact List.Pairwise.nil
  ends := by simp [h.sys.segments]
  holds := ⟨by simp [h.sys.oooBuf], by simp [h.sys.segments]⟩
  queue := by rw [h.sys.unacked, h.origin]; exact .nil
  acks := by simp [h.acks]

/-! ## Steps forward -/

/-- The sequence space, the segments and what the receiver has only grow. -/
structure Advances (sys sys' : System) : Prop where
  base : sys'.base = sys.base
  kept : sys.segments ⊆ sys'.segments
  late : ∀ seg ∈ sys'.segments, seg ∈ sys.segments ∨ sys.seqSpace.length ≤ seg.off
  space : sys.seqSpace.length ≤ sys'.seqSpace.length
  delivered : sys.receiver.delivered.length ≤ sys'.receiver.delivered.length
  has : ∀ seg ∈ sys.segments, Has sys seg → Has sys' seg

variable {s : Sacking} {sys sys' : System}

theorem Advances.of_eq (hbase : sys'.base = sys.base) (hsegments : sys'.segments = sys.segments)
    (hspace : sys.seqSpace.length ≤ sys'.seqSpace.length)
    (hreceiver : sys'.receiver = sys.receiver) : Advances sys sys' where
  base := hbase
  kept := hsegments ▸ List.Subset.refl _
  late seg hseg := .inl (hsegments ▸ hseg)
  space := hspace
  delivered := by rw [hreceiver]
  has seg _ hhas := by
    unfold Has at hhas ⊢
    rwa [hbase, hreceiver]

theorem EntryOk.advance {e : (Seq × Bytes × Bool) × Bool} {off : Nat} (h : EntryOk sys e off)
    (ha : Advances sys sys') : EntryOk sys' e off := by
  intro hfin
  obtain ⟨hseq, hseg, hmark⟩ := h hfin
  exact ⟨ha.base ▸ hseq, ha.kept hseg, fun hm => ha.has _ hseg (hmark hm)⟩

theorem AckOk.advance {pkt : AckPacket} (h : AckOk sys pkt) (ha : Advances sys sys') :
    AckOk sys' pkt := by
  refine ⟨h.1.trans ha.delivered, fun blocks hblocks b hb => ?_⟩
  rw [ha.base]
  exact (h.2 blocks hblocks b hb).mono ha.space ha.has ha.late

theorem Inv.sender_step (h : s.Inv) {sys' : System} {origin' : List Nat} (hsys : sys'.Inv)
    (hbase : sys'.base = s.sys.base) (hsegments : sys'.segments = s.sys.segments)
    (hspace : s.sys.seqSpace.length ≤ sys'.seqSpace.length)
    (hreceiver : sys'.receiver = s.sys.receiver)
    (hqueue : List.Forall₂ (EntryOk s.sys) (sys'.sender.unacked.map marked) origin') :
    Inv { s with sys := sys', origin := origin' } :=
  have ha : Advances s.sys sys' := .of_eq hbase hsegments hspace hreceiver
  { sys := hsys
    ordered := by rw [hsegments]; exact h.ordered
    ends := by rw [hsegments]; exact fun seg hseg => (h.ends seg hseg).trans hspace
    holds := by rw [hsegments, hbase, hreceiver]; exact h.holds
    queue := hqueue.imp fun _ _ he => he.advance ha
    acks := fun pkt hpkt => (h.acks pkt hpkt).advance ha }

/-! ## The queue -/

theorem forall₂_filter {R : (Seq × Bytes × Bool) × Bool → Nat → Prop} {p : RetxEntry → Bool}
    {entries : List RetxEntry} {origin : List Nat}
    (h : List.Forall₂ R (entries.map marked) origin) :
    List.Forall₂ R ((entries.filter p).map marked)
      (((entries.zip origin).filter fun q => p q.1).map Prod.snd) := by
  induction entries generalizing origin with
  | nil =>
    cases h
    exact .nil
  | cons e rest ih =>
    cases h with
    | cons hhead htail =>
      rw [List.zip_cons_cons]
      by_cases hp : p e = true
      · rw [List.filter_cons_of_pos hp, List.filter_cons, if_pos hp]
        exact .cons hhead (ih htail)
      · rw [List.filter_cons_of_neg hp, List.filter_cons, if_neg hp]
        exact ih htail

theorem queue_processAck (h : s.Inv) (ack : Seq) (pureACK : Bool) (now : Nat) :
    List.Forall₂ (EntryOk s.sys) ((s.sys.sender.processAck ack pureACK now).1.unacked.map marked)
      (s.originAfter (.processAck ack pureACK now)) := by
  unfold originAfter
  dsimp only
  rcases s.sys.sender.processAck_restamps ack pureACK now with ⟨-, hsame⟩ | ⟨-, hcovered⟩
  · have hlength := congrArg List.length hsame.queue
    rw [List.length_map, List.length_map] at hlength
    rw [if_pos hlength, hsame.queue]
    exact h.queue
  · rw [hcovered.queue]
    have hlength := congrArg List.length hcovered.queue
    rw [List.length_map, List.length_map] at hlength
    split
    next heq =>
      have hall : (s.sys.sender.ackedUpTo ack).unacked = s.sys.sender.unacked :=
        List.filter_sublist.eq_of_length (hlength.symm.trans heq)
      rw [hall]
      exact h.queue
    next => exact forall₂_filter h.queue

theorem queue_retransmitUnacked (h : s.Inv) (now draw : Nat) : List.Forall₂ (EntryOk s.sys)
      ((s.sys.sender.retransmitUnacked now draw).1.unacked.map marked) s.origin := by
  rcases (s.sys.sender.retransmitUnacked_timesOut now draw).queue with hsame | hforgot
  · rw [hsame]
    exact h.queue
  · rw [hforgot, List.forall₂_map_left_iff]
    refine (List.forall₂_map_left_iff.mp h.queue).imp fun e off he hfin => ?_
    obtain ⟨hseq, hseg, -⟩ := he hfin
    exact ⟨hseq, hseg, nofun⟩

theorem queue_fin (h : s.Inv) {entries : List RetxEntry} (hfin : entries = s.sys.sender.unacked ∨
      ∃ e : RetxEntry, e.isFIN = true ∧ entries = s.sys.sender.unacked ++ [e]) :
    List.Forall₂ (EntryOk s.sys) (entries.map marked)
      (if entries.length = s.sys.sender.unacked.length then s.origin else s.origin ++ [0]) := by
  rcases hfin with rfl | ⟨e, hfin, rfl⟩
  · rw [if_pos rfl]
    exact h.queue
  · rw [if_neg (by simp), List.map_append]
    refine List.rel_append h.queue (.cons (fun hdata => ?_) .nil)
    simp [show e.marked.1.2.2 = e.isFIN from rfl, hfin] at hdata

theorem closeConnection_fin (c : Connection) (stopping : Bool) (now : Nat) :
    (c.closeConnection stopping now).1.unacked = c.unacked ∨
      ∃ e : RetxEntry, e.isFIN = true ∧ (c.closeConnection stopping now).1.unacked = c.unacked ++ [e] := by
  unfold closeConnection
  split
  next hresult =>
    split at hresult
    · split at hresult
      · cases hresult
        exact .inl rfl
      · cases hresult
        exact .inr ⟨_, rfl, rfl⟩
    · cases hresult
      exact .inl rfl

theorem releaseHeldFIN_fin (c : Connection) (now : Nat) :
    (c.releaseHeldFIN now).1.unacked = c.unacked ∨
      ∃ e : RetxEntry, e.isFIN = true ∧ (c.releaseHeldFIN now).1.unacked = c.unacked ++ [e] := by
  unfold releaseHeldFIN
  split
  · exact .inl rfl
  · split
    · exact .inl rfl
    · exact .inr ⟨_, rfl, rfl⟩

/-! ## The stream -/

section

variable (h : s.Inv)
include h

theorem Inv.delivered_le : s.sys.receiver.delivered.length ≤ s.sys.seqSpace.length := by
  simpa using h.sys.receiver.delivered.length_le

theorem Inv.transmit {data : Bytes} (now : Nat) (sendOk : Bool)
    (hdata : data.length ≤ maxPayload) : (s.step (.stream (.transmitSegment data now sendOk))).Inv := by
  have hspace : (s.sys.step (.transmitSegment data now sendOk)).seqSpace.length =
      s.sys.seqSpace.length + data.length := by simp [System.step]
  have hnew : (⟨s.sys.seqSpace.length, data⟩ : Segment) ∈
      s.sys.segments ++ [⟨s.sys.seqSpace.length, data⟩] :=
    List.mem_append_right _ (List.mem_singleton_self _)
  have ha : Advances s.sys (s.sys.step (.transmitSegment data now sendOk)) := {
    base := rfl
    kept := List.subset_append_left _ _
    late := fun seg hseg => (List.mem_append.mp hseg).imp_right fun hsame => by
      rw [List.mem_singleton.mp hsame]
    space := by omega
    delivered := le_rfl
    has := fun _ _ hhas => hhas }
  refine ⟨h.sys.transmit now sendOk hdata, ?_, ?_, ⟨?_, ?_⟩, ?_, ?_⟩
  · refine List.pairwise_append.mpr ⟨h.ordered, List.pairwise_singleton _ _, ?_⟩
    intro a ha b hb
    rw [List.mem_singleton.mp hb]
    exact h.ends a ha
  · intro seg hseg
    rcases List.mem_append.mp hseg with hold | hsame
    · exact (h.ends seg hold).trans ha.space
    · rw [List.mem_singleton.mp hsame]
      exact hspace.ge
  · intro x hx
    obtain ⟨seg, hseg, hcopy⟩ := h.holds.copies x hx
    exact ⟨seg, List.mem_append_left _ hseg, hcopy⟩
  · intro seg hseg
    rcases List.mem_append.mp hseg with hold | hsame
    · exact h.holds.whole seg hold
    · rw [List.mem_singleton.mp hsame]
      exact .inr h.delivered_le
  · have hentry : EntryOk (s.sys.step (.transmitSegment data now sendOk))
        ((s.sys.sender.sendSeq, data, false), false) s.sys.seqSpace.length :=
      fun _ => ⟨h.sys.sendSeq, hnew, fun hmark => absurd hmark Bool.false_ne_true⟩
    have hqueue := List.rel_append (h.queue.imp fun _ _ he => he.advance ha) (.cons hentry .nil)
    rw [show (s.step (.stream (.transmitSegment data now sendOk))).sys.sender.unacked.map
        marked = s.sys.sender.unacked.map marked ++
          [((s.sys.sender.sendSeq, data, false), false)] from List.map_append]
    exact hqueue
  · exact fun pkt hpkt => (h.acks pkt hpkt).advance ha

theorem Inv.advances_arrive {pkt : Packet} (accepted : Nat) {seg : Segment}
    (hflag : pkt.flag = .ack) (hseg : seg ∈ s.sys.segments) (hcopy : s.sys.IsCopy pkt seg)
    (hnear : Near seg.off s.sys.receiver.delivered.length) :
    Advances s.sys (s.sys.step (.arrive pkt accepted)) ∧
    Holds s.sys.segments s.sys.base (s.sys.step (.arrive pkt accepted)).receiver ∧
    ∀ t ∈ s.sys.segments, Got s.sys.base (s.sys.receiver.collecting pkt.seq pkt.payload) t →
        Has (s.sys.step (.arrive pkt accepted)) t := by
  obtain ⟨hseq, hpayload⟩ := hcopy
  have hcarries := h.sys.carried seg hseg
  have hstep : s.sys.step (.arrive pkt accepted) =
      { s.sys with
        receiver := (s.sys.receiver.deliverInOrder (wrap (s.sys.base + seg.off)) seg.data accepted).1 } := by
    simp only [System.step, hflag, hseq, hpayload]
  have hgot : ∀ t ∈ s.sys.segments, _ → _ := fun t ht =>
    deliverInOrder_got h.sys.receiver h.ordered h.holds hseg hcarries hnear accepted ht
  rw [hstep, hseq, hpayload]
  refine ⟨⟨rfl, List.Subset.refl _, fun _ hin => .inl hin, le_rfl, ?_, ?_⟩, ?_, ?_⟩
  · exact (deliverInOrder_advance h.sys.receiver hcarries hnear accepted).1
  · exact fun t ht hhas => hgot t ht (.inl hhas)
  · exact deliverInOrder_holds h.sys.receiver h.ordered h.holds hseg hcarries hnear accepted
  · exact fun t ht hhas => hgot t ht (.inr hhas)

theorem Inv.arrive {pkt : Packet} {accepted : Nat} (hok : s.sys.Admissible (.arrive pkt accepted)) :
    Inv { s with sys := s.sys.step (.arrive pkt accepted) } := by
  have hsys := System.step_inv h.sys hok
  cases hflag : pkt.flag with
  | ack =>
    obtain ⟨seg, hseg, hcopy, hnear⟩ := hok.2 hflag
    obtain ⟨ha, hholds, -⟩ := h.advances_arrive accepted hflag hseg hcopy hnear
    have hstep : (s.sys.step (.arrive pkt accepted)).segments = s.sys.segments ∧
        (s.sys.step (.arrive pkt accepted)).seqSpace = s.sys.seqSpace ∧
        (s.sys.step (.arrive pkt accepted)).sender = s.sys.sender := by
      simp [System.step, hflag]
    obtain ⟨hsegments, hspace, hsender⟩ := hstep
    refine ⟨hsys, ?_, ?_, ?_, ?_, fun pkt hpkt => (h.acks pkt hpkt).advance ha⟩
    · rw [hsegments]
      exact h.ordered
    · rw [hsegments, hspace]
      exact h.ends
    · rwa [hsegments, ha.base]
    · rw [hsender]
      exact h.queue.imp fun _ _ he => he.advance ha
  | fin | rst => simpa [System.step, hflag] using h

theorem Inv.stream {i : System.Input} (hok : s.Unbounded (.stream i)) :
    (s.step (.stream i)).Inv := by
  cases i with
  | transmitSegment data now sendOk => exact h.transmit now sendOk hok.1
  | closeConnection stopping now =>
    refine h.sender_step (System.step_inv h.sys hok) rfl rfl ?_ rfl
      (queue_fin h (closeConnection_fin s.sys.sender stopping now))
    simp only [System.step]
    split <;> simp
  | releaseHeldFIN now =>
    exact h.sender_step (System.step_inv h.sys hok) rfl rfl le_rfl rfl
      (queue_fin h (releaseHeldFIN_fin s.sys.sender now))
  | setState state => exact h.sender_step (System.step_inv h.sys hok) rfl rfl le_rfl rfl h.queue
  | processAck ack pureACK now =>
    exact h.sender_step (System.step_inv h.sys hok) rfl rfl le_rfl rfl
      (queue_processAck h ack pureACK now)
  | processSACK blocks => cases hok
  | retransmitUnacked now draw =>
    exact h.sender_step (System.step_inv h.sys hok) rfl rfl le_rfl rfl
      (queue_retransmitUnacked h now draw)
  | arrive pkt accepted => exact h.arrive hok
  | closeRecvBuf =>
    have ha : Advances s.sys (s.sys.step .closeRecvBuf) :=
      ⟨rfl, List.Subset.refl _, fun _ hin => .inl hin, le_rfl, le_rfl, fun _ _ hhas => hhas⟩
    exact ⟨System.step_inv (i := .closeRecvBuf) h.sys trivial, h.ordered, h.ends,
      ⟨h.holds.copies, h.holds.whole⟩, h.queue.imp fun _ _ he => he.advance ha, fun pkt hpkt => (h.acks pkt hpkt).advance ha⟩

/-! ## ACKs -/

theorem Inv.emit {payload : Bytes}
    (hok : AckOk s.sys ⟨payload, s.sys.receiver.delivered.length⟩) : (s.emit payload).Inv := by
  refine ⟨h.sys, h.ordered, h.ends, h.holds, h.queue, fun pkt hpkt => ?_⟩
  rcases List.mem_append.mp hpkt with hold | hnew
  · exact h.acks pkt hold
  · rwa [List.mem_singleton.mp hnew]

theorem Inv.payload_le : ∀ seg ∈ s.sys.segments, seg.data.length ≤ maxPayload :=
  fun seg hseg => (h.sys.carried seg hseg).2

theorem Inv.sendSACK : (s.step .sendSACK).Inv := by
  refine h.emit ⟨le_rfl, fun blocks hblocks => ?_⟩
  rw [decodeSACK_sackBlocks hblocks]
  exact sackBlocks_vouch h.sys.receiver.expected h.holds h.ordered h.payload_le h.ends

theorem Inv.sendData {payload : Bytes} (hok : decodeSACK payload = none) :
    (s.step (.sendData payload)).Inv := by
  refine h.emit ⟨le_rfl, fun blocks hblocks => ?_⟩
  simp [hok] at hblocks

theorem Inv.sackDuring {pkt : Packet} {accepted : Nat}
    (hok : s.sys.Admissible (.arrive pkt accepted)) : (s.step (.sackDuring pkt accepted)).Inv := by
  simp only [step]
  cases hflag : pkt.flag with
  | fin | rst => exact h
  | ack =>
    obtain ⟨seg, hseg, hcopy, hnear⟩ := hok.2 hflag
    obtain ⟨ha, -, hgot⟩ := h.advances_arrive accepted hflag hseg hcopy hnear
    have harrive := h.arrive hok
    have hcollecting := s.sys.receiver.collecting_delivered pkt.seq pkt.payload
    have hholds : Holds s.sys.segments s.sys.base
        (s.sys.receiver.collecting pkt.seq pkt.payload) := by
      rw [hcopy.1, hcopy.2]
      exact collecting_holds h.sys.receiver h.holds hseg hnear
    have hexpected : (s.sys.receiver.collecting pkt.seq pkt.payload).expectedSeq =
        wrap (s.sys.base + (s.sys.receiver.collecting pkt.seq pkt.payload).delivered.length) := by
      rw [hcollecting.1, hcollecting.2]
      exact h.sys.receiver.expected
    refine ⟨harrive.sys, harrive.ordered, harrive.ends, harrive.holds, harrive.queue, fun a ha' => ?_⟩
    rcases List.mem_append.mp ha' with hold | hnew
    · exact (h.acks a hold).advance ha
    · rw [List.mem_singleton.mp hnew]
      refine ⟨ha.delivered, fun blocks hblocks b hb => ?_⟩
      rw [decodeSACK_sackBlocks hblocks] at hb
      have hvouch := sackBlocks_vouch hexpected hholds h.ordered h.payload_le h.ends b hb
      rw [hcollecting.1] at hvouch
      rw [ha.base]
      exact hvouch.mono ha.space hgot ha.late

theorem Inv.has_of_sackCovers {pkt : AckPacket} (hpkt : AckOk s.sys pkt)
    (htimely : s.sys.seqSpace.length < pkt.off + 2 ^ 32) {blocks : List SACKBlock}
    (hblocks : decodeSACK pkt.payload = some blocks) {e : RetxEntry} {off : Nat}
    (hseq : e.seq = wrap (s.sys.base + off)) (hseg : ⟨off, e.data⟩ ∈ s.sys.segments)
    (hcovers : blocks.any (sackCovers · e) = true) : Has s.sys ⟨off, e.data⟩ := by
  by_cases hdata : e.data = []
  · exact .inl hdata
  rcases h.holds.whole _ hseg with hend | hahead
  · exact .inr (.inl hend)
  · obtain ⟨b, hb, hcover⟩ := List.any_eq_true.mp hcovers
    obtain ⟨left, right, rfl, hlo, hle, hright, hall⟩ := hpkt.2 blocks hblocks b hb
    have hold := hpkt.1
    have hends : off + e.data.length ≤ s.sys.seqSpace.length := h.ends _ hseg
    have hfrom : s.sys.receiver.delivered.length ≤ off := hahead
    obtain ⟨hoff, hreach⟩ := reaches_of_sackCovers hseq hdata (hold.trans hfrom)
      (hends.trans_lt htimely) hlo hle (hright.trans_lt htimely) hcover
    exact hall _ hseg hoff hreach

theorem Inv.arriveAck {pkt : AckPacket} (hpkt : pkt ∈ s.acks)
    (htimely : s.sys.seqSpace.length < pkt.off + 2 ^ 32) : (s.step (.arriveAck pkt)).Inv := by
  simp only [step]
  cases hblocks : decodeSACK pkt.payload with
  | none => exact h
  | some blocks =>
    refine h.sender_step (System.step_inv (i := .processSACK blocks) h.sys trivial) rfl rfl
      le_rfl rfl ?_
    simp only [System.step, processSACK, List.map_map]
    rw [List.forall₂_map_left_iff]
    refine (List.forall₂_map_left_iff.mp h.queue).imp fun e off he => ?_
    by_cases hcovers : blocks.any (sackCovers · e) = true
    · rw [Function.comp_apply, if_pos hcovers]
      intro hfin
      obtain ⟨hseq, hseg, -⟩ := he hfin
      exact ⟨hseq, hseg, fun _ =>
        h.has_of_sackCovers (h.acks pkt hpkt) htimely hblocks hseq hseg hcovers⟩
    · rwa [Function.comp_apply, if_neg hcovers]

/-! ## Runs -/

theorem step_inv {i : Input} (hok : s.Unbounded i ∧ s.Timely i) : (s.step i).Inv := by
  cases i with
  | stream i => exact h.stream hok.1
  | sendSACK => exact h.sendSACK
  | sackDuring pkt accepted => exact h.sackDuring hok.1
  | sendData payload => exact h.sendData hok.1
  | arriveAck pkt => exact h.arriveAck hok.1 hok.2

end

/-- In every run in which no ACK arrives a turn of the sequence space late, the receiver has
delivered, or holds whole in its reorder buffer, the segment of every data entry that is
marked, at the time of the mark and ever after. -/
theorem sacked_received (hfresh : s.Fresh) {inputs : List Input}
    (hok : AllSteps step (fun s i => s.Unbounded i ∧ s.Timely i) s inputs) :
    (inputs.foldl step s).sys.sender.unacked.length = (inputs.foldl step s).origin.length ∧
    ∀ p ∈ (inputs.foldl step s).sys.sender.unacked.zip (inputs.foldl step s).origin,
      p.1.isFIN = false → p.1.sacked = true →
      p.1.seq = wrap ((inputs.foldl step s).sys.base + p.2) ∧
      (⟨p.2, p.1.data⟩ : Segment) ∈ (inputs.foldl step s).sys.segments ∧
      Has (inputs.foldl step s).sys ⟨p.2, p.1.data⟩ := by
  have hinv := run_invariant Inv (fun _ _ h hi => step_inv h hi) hfresh.inv hok
  have hqueue := List.forall₂_map_left_iff.mp hinv.queue
  refine ⟨hqueue.length_eq, fun p hp hfin hmark => ?_⟩
  obtain ⟨hseq, hseg, hhas⟩ := (List.forall₂_iff_zip.mp hqueue).2 hp hfin
  exact ⟨hseq, hseg, hhas hmark⟩

def freshPair : Sacking where
  sys := { System.wrappingPair with
    base := 0, sender := .new (wrap 0), receiver := ⟨wrap 0, [], false, []⟩ }
  origin := []
  acks := []

theorem freshPair_fresh : freshPair.Fresh := ⟨⟨rfl, rfl, rfl, rfl, rfl, rfl, rfl, rfl⟩, rfl, rfl⟩

/-- The second of two segments arrives first and is acknowledged selectively. -/
def overtaken : List Input :=
  [.stream (.transmitSegment [1] 0 true), .stream (.transmitSegment [2] 0 true),
    .stream (.arrive ⟨.ack, 1, [2]⟩ 1), .sendSACK]

def earlyAck : AckPacket := ⟨encodeSACK [⟨1, 2⟩], 0⟩

theorem overtaken_ok :
    AllSteps step (fun s i => s.Unbounded i ∧ s.Timely i) freshPair overtaken := by
  refine ⟨⟨⟨?_, rfl⟩, trivial⟩, ⟨⟨?_, rfl⟩, trivial⟩, ⟨⟨by decide, fun _ => ?_⟩, trivial⟩,
    ⟨trivial, trivial⟩, trivial⟩
  · exact (by decide : 1 ≤ maxPayload)
  · exact (by decide : 1 ≤ maxPayload)
  · exact ⟨⟨1, [2]⟩, by decide, ⟨by decide, by decide⟩, ⟨by decide, by decide⟩⟩

theorem earlyAck_mem : earlyAck ∈ (overtaken.foldl step freshPair).acks := by decide +kernel

def acknowledged : List Input := overtaken ++ [.arriveAck earlyAck]

theorem overtaken_marked :
    (acknowledged.foldl step freshPair).sys.sender.unacked.map sacked = [false, true] ∧
    ∀ p ∈ (acknowledged.foldl step freshPair).sys.sender.unacked.zip
        (acknowledged.foldl step freshPair).origin, p.1.isFIN = false → p.1.sacked = true →
      Has (acknowledged.foldl step freshPair).sys ⟨p.2, p.1.data⟩ := by
  have htimely : (overtaken.foldl step freshPair).sys.seqSpace.length < earlyAck.off + 2 ^ 32 := by
    decide +kernel
  have hok : AllSteps step (fun s i => s.Unbounded i ∧ s.Timely i) freshPair acknowledged :=
    allSteps_append.mpr ⟨overtaken_ok, ⟨earlyAck_mem, htimely⟩, trivial⟩
  exact ⟨by decide +kernel, fun p hp hfin hmark =>
    ((sacked_received freshPair_fresh hok).2 p hp hfin hmark).2.2⟩

/-! ## An ACK from the last round of the sequence space

After the ACK of `overtaken` the stream goes once round the sequence space, one long
segment after the other, and then the ACK arrives.
-/

theorem exists_filler : ∃ data : Bytes, data.length = 65535 ∧ decodeSACK data = none := by
  refine ⟨List.replicate 65535 0, List.length_replicate, ?_⟩
  unfold decodeSACK
  rw [if_pos (.inr (by rw [List.take_replicate]; decide))]

def fill (data : Bytes) (k : Nat) : List Input :=
  [.stream (.transmitSegment data 0 true), .stream (.arrive ⟨.ack, wrap (2 + k * 65535), data⟩ 1)]

def filled (data : Bytes) (n : Nat) : List Input := (List.range n).flatMap (fill data)

/-- `k` long segments have been sent and delivered. -/
structure Filled (k : Nat) (s : Sacking) : Prop where
  inv : s.Inv
  base : s.sys.base = 0
  space : s.sys.seqSpace.length = 2 + k * 65535
  delivered : s.sys.receiver.delivered.length = 2 + k * 65535
  oooBuf : s.sys.receiver.oooBuf = []
  recvClosed : s.sys.receiver.recvClosed = false
  ack : earlyAck ∈ s.acks

theorem Filled.transmit {k : Nat} (h : Filled k s) {data : Bytes} (hdata : data.length ≤ maxPayload)
    (hsack : decodeSACK data = none) : (s.Unbounded (.stream (.transmitSegment data 0 true)) ∧
      s.Timely (.stream (.transmitSegment data 0 true))) ∧
    (s.step (.stream (.transmitSegment data 0 true))).Inv :=
  ⟨⟨⟨hdata, hsack⟩, trivial⟩, h.inv.transmit 0 true hdata⟩

section Filler

variable {data : Bytes} (hdata : data.length = 65535) (hsack : decodeSACK data = none)

include hdata hsack

theorem Filled.fill {k : Nat} (h : Filled k s) :
    AllSteps step (fun s i => s.Unbounded i ∧ s.Timely i) s (Sacking.fill data k) ∧
    Filled (k + 1) ((Sacking.fill data k).foldl step s) := by
  obtain ⟨hok, hinv⟩ := h.transmit hdata.le hsack
  have hwrap : wrap (s.sys.base + s.sys.seqSpace.length) = wrap (2 + k * 65535) := by
    rw [h.base, h.space, Nat.zero_add]
  have hpkt : (⟨.ack, wrap (2 + k * 65535), data⟩ : Packet) ∈
      (s.step (.stream (.transmitSegment data 0 true))).sys.wire := by
    refine List.mem_append_right _ (List.mem_singleton.mpr ?_)
    rw [h.inv.sys.sendSeq, hwrap]
  have hcopy : (s.step (.stream (.transmitSegment data 0 true))).sys.IsCopy
      ⟨.ack, wrap (2 + k * 65535), data⟩ ⟨s.sys.seqSpace.length, data⟩ := ⟨hwrap.symm, rfl⟩
  have hadm : (s.step (.stream (.transmitSegment data 0 true))).sys.Admissible
      (.arrive ⟨.ack, wrap (2 + k * 65535), data⟩ 1) := by
    refine ⟨hpkt, fun _ => ⟨_, List.mem_append_right _ (List.mem_singleton_self _), hcopy, ?_⟩⟩
    show Near s.sys.seqSpace.length s.sys.receiver.delivered.length
    rw [h.space, h.delivered]
    exact ⟨Nat.lt_add_of_pos_right (by decide), Nat.lt_add_of_pos_right (by decide)⟩
  have hexpected : s.sys.receiver.expectedSeq = wrap (2 + k * 65535) := by
    rw [h.inv.sys.receiver.expected, h.base, h.delivered, Nat.zero_add]
  have hdelivered : (s.sys.receiver.deliverInOrder (wrap (2 + k * 65535)) data 1).1 = _ :=
    deliverInOrder_expected hexpected h.recvClosed h.oooBuf Nat.one_pos
  refine ⟨⟨hok, ⟨hadm, trivial⟩, trivial⟩, hinv.arrive hadm, h.base, ?_, ?_,
    (congrArg Receiver.oooBuf hdelivered).trans h.oooBuf,
    (congrArg Receiver.recvClosed hdelivered).trans h.recvClosed, h.ack⟩
  · show (s.sys.seqSpace ++ data.map some).length = _
    rw [List.length_append, List.length_map, h.space, hdata]
    omega
  · show (s.sys.receiver.deliverInOrder _ data 1).1.delivered.length = _
    rw [hdelivered]
    have hlength : (s.sys.receiver.recvBuf ++ [data]).flatten.length =
        s.sys.receiver.delivered.length + 65535 := by
      simp [Receiver.delivered, hdata]
    refine hlength.trans ?_
    rw [h.delivered]
    omega

theorem Filled.filled {s : Sacking} (h : Filled 0 s) (n : Nat) :
    AllSteps step (fun s i => s.Unbounded i ∧ s.Timely i) s (Sacking.filled data n) ∧
    Filled n ((Sacking.filled data n).foldl step s) := by
  induction n with
  | zero => exact ⟨trivial, h⟩
  | succ n ih =>
    have hsplit : Sacking.filled data (n + 1) = Sacking.filled data n ++ Sacking.fill data n := by
      unfold Sacking.filled
      rw [List.range_succ, List.flatMap_append, List.flatMap_singleton]
    obtain ⟨hok, hfilled⟩ := ih.2.fill hdata hsack
    rw [hsplit, List.foldl_append]
    exact ⟨allSteps_append.mpr ⟨ih.1, hok⟩, hfilled⟩

end Filler

/-- The first segment arrives too, and both are delivered. -/
def caughtUp : List Input := overtaken ++ [.stream (.arrive ⟨.ack, 0, [1]⟩ 2)]

theorem caughtUp_ok : AllSteps step (fun s i => s.Unbounded i ∧ s.Timely i) freshPair caughtUp := by
  refine allSteps_append.mpr ⟨overtaken_ok, ⟨⟨by decide +kernel, fun _ => ?_⟩, trivial⟩, trivial⟩
  exact ⟨⟨0, [1]⟩, by decide +kernel, ⟨by decide +kernel, rfl⟩, by decide +kernel⟩

theorem caughtUp_filled : Filled 0 (caughtUp.foldl step freshPair) where
  inv := run_invariant Inv (fun _ _ h hi => step_inv h hi) freshPair_fresh.inv caughtUp_ok
  base := by decide +kernel
  space := by decide +kernel
  delivered := by decide +kernel
  oooBuf := by decide +kernel
  recvClosed := by decide +kernel
  ack := by decide +kernel

def sentAgain : List Input := [.stream (.transmitSegment [3] 0 true), .arriveAck earlyAck]

theorem Filled.late_mark (h : Filled 65537 s) :
    ∃ p ∈ (sentAgain.foldl step s).sys.sender.unacked.zip (sentAgain.foldl step s).origin,
      p.1.isFIN = false ∧ p.1.sacked = true ∧
        ¬ Has (sentAgain.foldl step s).sys ⟨p.2, p.1.data⟩ := by
  have hlength := h.inv.queue.length_eq
  rw [List.length_map] at hlength
  have hseq : s.sys.sender.sendSeq = 1 := by
    rw [h.inv.sys.sendSeq, h.base, h.space]
    decide
  have hdecode : decodeSACK earlyAck.payload = some [⟨1, 2⟩] :=
    decodeSACK_encodeSACK (List.cons_ne_nil _ _) (by decide)
  have hcovers : sackCovers ⟨1, 2⟩ ⟨[3], 1, 0, 0, 1, false, false⟩ = true := by decide
  refine ⟨(⟨[3], 1, 0, 0, 1, true, false⟩, s.sys.seqSpace.length), ?_, rfl, rfl, ?_⟩
  · simp only [sentAgain, List.foldl_cons, List.foldl_nil, step, hdecode, System.step, System.sent,
      processSACK, transmitSegment, trackSend, originAfter,
      List.map_append, hseq]
    rw [List.zip_append (by rw [List.length_map]; exact hlength)]
    refine List.mem_append_right _ ?_
    simp [hcovers]
  · rintro (hnil | hend | ⟨hooo, -⟩)
    · cases hnil
    · simp only [sentAgain, List.foldl_cons, List.foldl_nil, step, hdecode, System.step, System.sent] at hend
      rw [h.delivered, h.space] at hend
      simp at hend
    · simp only [sentAgain, List.foldl_cons, List.foldl_nil, step, hdecode, System.step, System.sent] at hooo
      simp [h.oooBuf] at hooo

theorem Filled.late_run {front : List Input}
    (hok : AllSteps step (fun s i => s.Unbounded i ∧ s.Timely i) freshPair front)
    (h : Filled 65537 (front.foldl step freshPair)) :
    AllSteps step Unbounded freshPair (front ++ sentAgain) ∧
    ∃ p ∈ ((front ++ sentAgain).foldl step freshPair).sys.sender.unacked.zip
        ((front ++ sentAgain).foldl step freshPair).origin, p.1.isFIN = false ∧ p.1.sacked = true ∧
        ¬ Has ((front ++ sentAgain).foldl step freshPair).sys ⟨p.2, p.1.data⟩ := by
  have hdata : ([3] : Bytes).length ≤ maxPayload := by decide
  obtain ⟨htransmit, -⟩ := h.transmit hdata rfl
  rw [List.foldl_append]
  refine ⟨allSteps_append.mpr ⟨hok.imp fun _ _ hstep => hstep.1, ?_⟩, h.late_mark⟩
  exact ⟨htransmit.1, h.ack, trivial⟩

/-- An ACK that comes one round of the sequence space late marks an entry of which the
receiver has nothing. -/
theorem late_ack_marks_missing :
    freshPair.Fresh ∧ ∃ inputs : List Input, AllSteps step Unbounded freshPair inputs ∧
    ∃ p ∈ (inputs.foldl step freshPair).sys.sender.unacked.zip (inputs.foldl step freshPair).origin,
      p.1.isFIN = false ∧ p.1.sacked = true ∧
        ¬ Has (inputs.foldl step freshPair).sys ⟨p.2, p.1.data⟩ := by
  obtain ⟨data, hdata, hsack⟩ := exists_filler
  have hround := caughtUp_filled.filled hdata hsack 65537
  generalize Sacking.filled data 65537 = round at hround
  obtain ⟨hok, hfilled⟩ := hround
  rw [← List.foldl_append] at hfilled
  have hfirst := allSteps_append.mpr ⟨caughtUp_ok, hok⟩
  exact ⟨freshPair_fresh, caughtUp ++ round ++ sentAgain, hfilled.late_run hfirst⟩

end Sacking

end PilotProtocol.Stream
