import Mathlib.Data.List.ReduceOption
import PilotProtocol.Library.Run
import PilotProtocol.Stream.Reassembly
import PilotProtocol.Stream.Retransmission

/-! # Exact delivery over a lossy network

One sending connection and one receiver, joined by a network that keeps every
packet ever put on it: a packet that never arrives is lost, one that arrives
twice is duplicated, and the order of arrivals is free. The system also records
the sequence space given out and the segments transmitted, which the code does
not read.
-/

namespace PilotProtocol.Stream

open Library

/-- A transmitted data segment at its offset in the sequence space. -/
structure Segment where
  off : Nat
  data : Bytes
  deriving DecidableEq

structure System where
  /-- The unwrapped number of the first byte. -/
  base : Nat
  sender : Connection
  receiver : Receiver
  wire : List Packet
  seqSpace : SeqSpace
  segments : List Segment

namespace System

/-- What the sender may do, and what may arrive. `accepted` is the number of pushes
that phase 2 makes before one times out. -/
inductive Input
  | transmitSegment (data : Bytes) (now : Nat) (sendOk : Bool)
  | closeConnection (stopping : Bool) (now : Nat)
  | releaseHeldFIN (now : Nat)
  | setState (state : ConnState)
  | processAck (ack : Seq) (pureACK : Bool) (now : Nat)
  | processSACK (blocks : List SACKBlock)
  | retransmitUnacked (now draw : Nat)
  | arrive (pkt : Packet) (accepted : Nat)
  | closeRecvBuf

def sent (s : System) (result : Connection × List Packet) : System :=
  { s with sender := result.1, wire := s.wire ++ result.2 }

def step (s : System) : Input → System
  | .transmitSegment data now sendOk =>
    { s.sent (s.sender.transmitSegment data now sendOk) with
      seqSpace := s.seqSpace ++ data.map some
      segments := s.segments ++ [⟨s.seqSpace.length, data⟩] }
  | .closeConnection stopping now =>
    { s.sent (s.sender.closeConnection stopping now) with
      seqSpace := if s.sender.state = .established then s.seqSpace ++ [none] else s.seqSpace }
  | .releaseHeldFIN now => s.sent (s.sender.releaseHeldFIN now)
  | .setState state => { s with sender := { s.sender with state := state } }
  | .processAck ack pureACK now => s.sent (s.sender.processAck ack pureACK now)
  | .processSACK blocks => { s with sender := s.sender.processSACK blocks }
  | .retransmitUnacked now draw => s.sent (s.sender.retransmitUnacked now draw)
  | .arrive pkt accepted =>
    match pkt.flag with
    | .ack =>
      { s with receiver := (s.receiver.deliverInOrder pkt.seq pkt.payload accepted).1 }
    | .fin | .rst => s
  | .closeRecvBuf => { s with receiver := s.receiver.closeRecvBuf }

def IsCopy (s : System) (pkt : Packet) (seg : Segment) : Prop :=
  pkt.seq = wrap (s.base + seg.off) ∧ pkt.payload = seg.data

/-- Segments are at most `maxPayload` bytes long, and what arrives is a copy, on the
wire, of a segment less than half the sequence space away from the next expected byte. -/
def Admissible (s : System) : Input → Prop
  | .transmitSegment data _ _ => data.length ≤ maxPayload
  | .arrive pkt _ =>
    pkt ∈ s.wire ∧ (pkt.flag = .ack →
      ∃ seg ∈ s.segments, s.IsCopy pkt seg ∧ Near seg.off s.receiver.delivered.length)
  | _ => True

/-- Nothing has been sent; both sides agree on the first sequence number. -/
structure Fresh (s : System) : Prop where
  sendSeq : s.sender.sendSeq = wrap s.base
  unacked : s.sender.unacked = []
  expectedSeq : s.receiver.expectedSeq = wrap s.base
  oooBuf : s.receiver.oooBuf = []
  recvBuf : s.receiver.recvBuf = []
  wire : s.wire = []
  seqSpace : s.seqSpace = []
  segments : s.segments = []

structure Inv (s : System) : Prop where
  sendSeq : s.sender.sendSeq = wrap (s.base + s.seqSpace.length)
  carried : ∀ seg ∈ s.segments, Carries s.seqSpace seg.off seg.data
  payloads : s.seqSpace.reduceOption = (s.segments.map (·.data)).flatten
  tracked : ∀ e ∈ s.sender.unacked, e.isFIN = false →
    ∃ seg ∈ s.segments, e.seq = wrap (s.base + seg.off) ∧ e.data = seg.data
  copies : ∀ pkt ∈ s.wire, pkt.flag = .ack → ∃ seg ∈ s.segments, s.IsCopy pkt seg
  receiver : s.receiver.Inv s.seqSpace s.base

variable {s : System}

theorem Fresh.inv (h : s.Fresh) : s.Inv where
  sendSeq := by simp [h.sendSeq, h.seqSpace]
  carried := by simp [h.segments]
  payloads := by simp [h.seqSpace, h.segments, List.reduceOption]
  tracked := by simp [h.unacked]
  copies := by simp [h.wire]
  receiver := {
    expected := by simp [h.expectedSeq, Receiver.delivered, h.recvBuf]
    delivered := by simp [Receiver.delivered, h.recvBuf]
    window := by simp [h.oooBuf]
    bound := by simp [h.oooBuf] }

/-! ## One step -/

section

variable (h : s.Inv)
include h

theorem Inv.resends {c : Connection} {pkts : List Packet}
    (hr : Resends s.sender c pkts) : (s.sent (c, pkts)).Inv := by
  refine { h with sendSeq := hr.sendSeq.trans h.sendSeq, tracked := ?_, copies := ?_ }
  · intro e' he' hfin
    obtain ⟨e, he, hseq, hdata, hsame⟩ := hr.unacked e' he'
    obtain ⟨seg, hseg, hpos, hpayload⟩ := h.tracked e he (hsame.symm.trans hfin)
    exact ⟨seg, hseg, hseq.trans hpos, hdata.trans hpayload⟩
  · intro pkt hpkt hflag
    rcases List.mem_append.mp hpkt with hold | hnew
    · exact h.copies pkt hold hflag
    · obtain ⟨e, he, hfin, hseq, hdata⟩ := hr.packets pkt hnew hflag
      obtain ⟨seg, hseg, hpos, hpayload⟩ := h.tracked e he hfin
      exact ⟨seg, hseg, hseq.trans hpos, hdata.trans hpayload⟩

theorem Inv.transmit {data : Bytes} (now : Nat) (sendOk : Bool)
    (hdata : data.length ≤ maxPayload) : (s.step (.transmitSegment data now sendOk)).Inv := by
  have hext : s.seqSpace <+: s.seqSpace ++ data.map some := List.prefix_append _ _
  have hnew : Carries (s.seqSpace ++ data.map some) s.seqSpace.length data :=
    ⟨by rw [List.drop_left], hdata⟩
  have hlast : (⟨s.seqSpace.length, data⟩ : Segment) ∈ s.segments ++ [⟨s.seqSpace.length, data⟩] :=
    List.mem_append_right _ (List.mem_singleton_self _)
  refine ⟨?_, ?_, ?_, ?_, ?_, h.receiver.mono hext⟩
  · simp only [step, sent, Connection.transmitSegment, Connection.trackSend, h.sendSeq, endSeq_wrap,
      List.length_append, List.length_map, Nat.add_assoc]
  · intro seg hseg
    rcases List.mem_append.mp hseg with hold | hsame
    · exact (h.carried seg hold).mono hext
    · rwa [List.mem_singleton.mp hsame]
  · simp only [step, List.reduceOption_append, h.payloads, List.map_append, List.flatten_append]
    simp [List.reduceOption]
  · intro e he hfin
    rcases List.mem_append.mp he with hold | hsame
    · obtain ⟨seg, hseg, hpos⟩ := h.tracked e hold hfin
      exact ⟨seg, List.mem_append_left _ hseg, hpos⟩
    · rw [List.mem_singleton.mp hsame]
      exact ⟨_, hlast, h.sendSeq, rfl⟩
  · intro pkt hpkt hflag
    rcases List.mem_append.mp hpkt with hold | hsent
    · obtain ⟨seg, hseg, hcopy⟩ := h.copies pkt hold hflag
      exact ⟨seg, List.mem_append_left _ hseg, hcopy⟩
    · refine ⟨_, hlast, ?_⟩
      cases sendOk with
      | false => cases hsent
      | true =>
        rw [List.mem_singleton.mp hsent]
        exact ⟨h.sendSeq, rfl⟩

theorem Inv.sendFIN (seq : Seq) (now : Nat) : (s.sent (s.sender.sendFIN seq now)).Inv := by
  refine { h with tracked := ?_, copies := ?_ }
  · intro e he hfin
    rcases List.mem_append.mp he with hold | hsame
    · exact h.tracked e hold hfin
    · simp [List.mem_singleton.mp hsame] at hfin
  · intro pkt hpkt hflag
    rcases List.mem_append.mp hpkt with hold | hsent
    · exact h.copies pkt hold hflag
    · simp [List.mem_singleton.mp hsent] at hflag

theorem Inv.reserveFIN : { s with
      sender := { s.sender with sendSeq := s.sender.sendSeq + 1 }
      seqSpace := s.seqSpace ++ [none] : System }.Inv where
  sendSeq := by
    have hone := wrap_add (s.base + s.seqSpace.length) 1
    simp only [h.sendSeq, List.length_append, List.length_singleton, ← Nat.add_assoc]
    exact hone
  carried := fun seg hseg => (h.carried seg hseg).mono (List.prefix_append _ _)
  payloads := by simpa [List.reduceOption_append] using h.payloads
  tracked := h.tracked
  copies := h.copies
  receiver := h.receiver.mono (List.prefix_append _ _)

theorem Inv.closeConnection (stopping : Bool) (now : Nat) :
    (s.step (.closeConnection stopping now)).Inv := by
  simp only [step, Connection.closeConnection]
  by_cases hstate : s.sender.state = .established
  · rw [if_pos hstate, if_pos hstate]
    by_cases hhold : (s.sender.unackedHasData && !stopping) = true
    · rw [if_pos hhold]
      exact { h.reserveFIN with copies := by simp only [sent, List.append_nil]; exact h.copies }
    · rw [if_neg hhold]
      exact { h.reserveFIN.sendFIN s.sender.sendSeq now with }
  · rw [if_neg hstate, if_neg hstate]
    exact { h with copies := by simp only [sent, List.append_nil]; exact h.copies }

theorem Inv.releaseHeldFIN (now : Nat) : (s.step (.releaseHeldFIN now)).Inv := by
  simp only [step, Connection.releaseHeldFIN]
  have hreleased : { s with sender := { s.sender with heldFIN := none } : System }.Inv := { h with }
  cases s.sender.heldFIN with
  | none => simpa [sent] using h
  | some seq =>
    simp only
    split
    · simpa [sent] using hreleased
    · exact hreleased.sendFIN seq now

theorem Inv.arrive {pkt : Packet} (accepted : Nat)
    (hok : s.Admissible (.arrive pkt accepted)) : (s.step (.arrive pkt accepted)).Inv := by
  simp only [step]
  cases hflag : pkt.flag with
  | ack =>
    obtain ⟨seg, hseg, ⟨hseq, hpayload⟩, hnear⟩ := hok.2 hflag
    have hcarries := h.carried seg hseg
    have hreceiver := Receiver.deliverInOrder_inv h.receiver hcarries hnear accepted
    rw [← hseq, ← hpayload] at hreceiver
    exact { h with receiver := hreceiver }
  | fin | rst => exact h

theorem step_inv {i : Input} (hok : s.Admissible i) : (s.step i).Inv := by
  cases i with
  | transmitSegment data now sendOk => exact h.transmit now sendOk hok
  | closeConnection stopping now => exact h.closeConnection stopping now
  | releaseHeldFIN now => exact h.releaseHeldFIN now
  | setState state => exact { h with }
  | processAck ack pureACK now => exact h.resends (s.sender.processAck_resends ack pureACK now)
  | processSACK blocks => simpa [sent, step] using h.resends (s.sender.processSACK_resends blocks)
  | retransmitUnacked now draw => exact h.resends (s.sender.retransmitUnacked_resends now draw)
  | arrive pkt accepted => exact h.arrive accepted hok
  | closeRecvBuf => exact { h with receiver := Receiver.closeRecvBuf_inv h.receiver }

/-! ## Whole runs -/

theorem Inv.delivered_isPrefixOf : s.receiver.delivered <+: (s.segments.map (·.data)).flatten := by
  obtain ⟨tail, htail⟩ := h.receiver.delivered
  have hreduced := congrArg List.reduceOption htail
  rw [List.reduceOption_append, h.payloads] at hreduced
  refine ⟨tail.reduceOption, ?_⟩
  rw [← hreduced]
  simp [List.reduceOption]

end

theorem run_inv (hs : s.Fresh) {inputs : List Input} (hok : AllSteps step Admissible s inputs) :
    (inputs.foldl step s).Inv :=
  run_invariant Inv (fun _ _ h hi => step_inv h hi) hs.inv hok

/-- In every run from a fresh pair, whatever is lost, duplicated, delayed or reordered
and wherever the receive buffer is full, what has been pushed to the receive buffer is
at all times a beginning of what was transmitted; the expected sequence number is the
wrapped count of it, and the wire holds nothing but copies of transmitted segments. -/
theorem delivery_exact {s : System} (hs : s.Fresh) {inputs : List Input}
    (hok : AllSteps step Admissible s inputs) :
    let final := inputs.foldl step s
    final.receiver.recvBuf.flatten <+: (final.segments.map (·.data)).flatten ∧
    final.receiver.expectedSeq = wrap (final.base + final.receiver.recvBuf.flatten.length) ∧
    ∀ pkt ∈ final.wire, pkt.flag = .ack → ∃ seg ∈ final.segments, final.IsCopy pkt seg := by
  have hinv := run_inv hs hok
  exact ⟨hinv.delivered_isPrefixOf, hinv.receiver.expected, hinv.copies⟩

/-- A pair whose first byte has the last sequence number before the wrap. -/
def wrappingPair : System where
  base := 2 ^ 32 - 1
  sender := Connection.new (wrap (2 ^ 32 - 1))
  receiver := ⟨wrap (2 ^ 32 - 1), [], false, []⟩
  wire := []
  seqSpace := []
  segments := []

/-- The second of two segments overtakes the first, is parked again when its push times
out, and arrives once more. -/
def overtaking : List Input :=
  [.transmitSegment [1, 2] 1 true, .transmitSegment [3] 2 true,
    .arrive ⟨.ack, 1, [3]⟩ 9, .arrive ⟨.ack, 4294967295, [1, 2]⟩ 1, .arrive ⟨.ack, 1, [3]⟩ 9]

theorem overtaking_delivered :
    (overtaking.foldl step wrappingPair).receiver.recvBuf = [[1, 2], [3]] ∧
    (overtaking.foldl step wrappingPair).receiver.recvBuf.flatten <+:
      ((overtaking.foldl step wrappingPair).segments.map (·.data)).flatten := by
  have hfresh : wrappingPair.Fresh := ⟨rfl, rfl, rfl, rfl, rfl, rfl, rfl, rfl⟩
  have hfirst : ([1, 2] : Bytes).length ≤ maxPayload := by decide
  have hsecond : ([3] : Bytes).length ≤ maxPayload := by decide
  refine ⟨by decide, (delivery_exact hfresh ?_).1⟩
  refine ⟨hfirst, hsecond, ⟨by decide, fun _ => ?_⟩, ⟨by decide, fun _ => ?_⟩,
    ⟨by decide, fun _ => ?_⟩, trivial⟩
  · exact ⟨⟨2, [3]⟩, by decide, ⟨by decide, by decide⟩, ⟨by decide, by decide⟩⟩
  · exact ⟨⟨0, [1, 2]⟩, by decide, ⟨by decide, by decide⟩, ⟨by decide, by decide⟩⟩
  · exact ⟨⟨2, [3]⟩, by decide, ⟨by decide, by decide⟩, ⟨by decide, by decide⟩⟩

end System

end PilotProtocol.Stream
