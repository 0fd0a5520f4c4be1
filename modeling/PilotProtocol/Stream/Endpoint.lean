import PilotProtocol.Stream.Retransmission
import PilotProtocol.Stream.SACK

/-! # One end of a connection

`Endpoint` joins the sending and the receiving half of a connection with the fields of
the packet handler: the cumulative ACK, the hold on the peer's FIN, the delayed ACK.
`handleStreamPacket` is the part of the source's function that runs on the connection
the packet was matched to; a SYN, which may make a new one, belongs to the table.
Timers are not fields: the function of a timer may run at any time.
-/

namespace PilotProtocol.Stream

open Library

def recvBufSize : Nat := 512
def delayedACKThreshold : Nat := 2
def quickACKBudget : Nat := 32

structure StreamPacket where
  syn : Bool
  ack : Bool
  fin : Bool
  rst : Bool
  seq : Seq
  ackNum : Seq
  window : UInt16
  payload : Bytes
  deriving DecidableEq

/-- What the handler puts on the wire: a packet of the sending half, an ACK, a FIN-ACK. -/
inductive Sent
  | segment (pkt : Packet)
  | ack (seq ackNum : Seq) (window : Nat) (payload : Bytes)
  | finAck (seq ackNum : Seq)
  deriving DecidableEq

structure Stats where
  bytesRecv : Nat := 0
  segsRecv : Nat := 0
  sackRecv : Nat := 0
  sackSent : Nat := 0

structure Endpoint where
  sender : Connection
  receiver : Receiver
  /-- How many of the slices pushed to `RecvBuf` have been taken out. -/
  taken : Nat
  recvAck : Seq
  peerRecvWin : Int
  lastActivity : Nat
  keepaliveUnacked : Nat
  finPending : Bool
  finSeq : Seq
  finHeard : Nat
  pendingACKs : Nat
  quickACKs : Nat
  ackTimer : Bool
  stats : Stats

def Connection.releaseHeldFINIfAcked (c : Connection) (now : Nat) : Connection × List Packet :=
  if c.heldFIN.isSome && !c.unackedHasData then c.releaseHeldFIN now else (c, [])

/-- `CloseConnection` up to its last write of the state: the FIN's number is taken, and the
FIN sent or held. -/
def Connection.reserveFIN (c : Connection) (stopping : Bool) (now : Nat) : Connection × List Packet :=
  if c.state = .established then
    let reserved := { c with sendSeq := c.sendSeq + 1 }
    if c.unackedHasData && !stopping then ({ reserved with heldFIN := some c.sendSeq }, [])
    else reserved.sendFIN c.sendSeq now
  else (c, [])

namespace Endpoint

def new (now : Nat) : Endpoint where
  sender := { Connection.new 0 with state := .closed, hasRetxSend := false }
  receiver := ⟨0, [], false, []⟩
  taken := 0
  recvAck := 0
  peerRecvWin := -1
  lastActivity := now
  keepaliveUnacked := 0
  finPending := false
  finSeq := 0
  finHeard := 0
  pendingACKs := 0
  quickACKs := quickACKBudget
  ackTimer := false
  stats := {}

variable (e : Endpoint) (pkt : StreamPacket) (now accepted : Nat)

def state : ConnState := e.sender.state

def setState (state : ConnState) : Endpoint := { e with sender := { e.sender with state := state } }

def closeRecvBuf : Endpoint := { e with receiver := e.receiver.closeRecvBuf }

def recvWindow : Nat := min (recvBufSize - (e.receiver.recvBuf.length - e.taken)) 0xFFFF

def windowBytes (window : UInt16) : Int := window.toNat * sendSegmentSize

def sendDelayedACK : Endpoint × List Sent :=
  let blocks := e.receiver.sackBlocks
  ({ e with
    ackTimer := false
    pendingACKs := 0
    stats := { e.stats with sackSent := e.stats.sackSent + blocks.length } },
    [.ack e.sender.sendSeq e.recvAck e.recvWindow (encodeSACK blocks)])

/-! ## The peer's FIN -/

def stopFINHold : Endpoint := { e with finPending := false }

/-- The critical section of `acceptFIN` that writes the state, and the answer: a FIN-ACK
goes out only for the first FIN. -/
def enterTimeWait (finSeq : Seq) (now : Nat) : Endpoint × List Sent :=
  let unacked := if e.state = .finWait then [] else e.sender.unacked
  ({ e with
    sender := { e.sender with state := .timeWait, unacked := unacked }
    lastActivity := if e.state = .timeWait then e.lastActivity else now
    keepaliveUnacked := 0 },
    if e.state = .timeWait then [] else [.finAck e.sender.sendSeq (finSeq + 1)])

def acceptFIN (finSeq : Seq) (now : Nat) : Endpoint × List Sent :=
  e.stopFINHold.closeRecvBuf.enterTimeWait finSeq now

def early (seq : Seq) : Bool :=
  e.state = .established && !e.receiver.recvClosed && seqAfter seq e.receiver.expectedSeq

/-- The first copy's sequence number stays. -/
def holdFIN (seq : Seq) (now : Nat) : Endpoint :=
  { e with
    finPending := true
    finSeq := if e.finPending then e.finSeq else seq
    finHeard := now }

def handleFIN (now : Nat) : Endpoint × List Sent :=
  if e.early pkt.seq then (e.holdFIN pkt.seq now).sendDelayedACK else e.acceptFIN pkt.seq now

def expireHeldFIN (finHoldIdle now : Nat) : Endpoint × List Sent :=
  if !e.finPending then (e, [])
  else if e.state ≠ .established then (e.stopFINHold, [])
  else if now - e.finHeard < finHoldIdle then (e, [])
  else e.stopFINHold.acceptFIN e.finSeq now

/-! ## The other packets -/

def handleSynAck : Endpoint × List Sent :=
  if e.state ≠ .synSent then (e, [])
  else
    let e := { e.setState .established with
      recvAck := pkt.seq + 1
      receiver := { e.receiver with expectedSeq := pkt.seq + 1 }
      peerRecvWin := windowBytes pkt.window }
    (e, [.ack e.sender.sendSeq e.recvAck e.recvWindow []])

def handleRST : Endpoint := (e.setState .closed).stopFINHold.closeRecvBuf

/-- A packet counts for duplicate-ACK detection if it carries no user data and, SACKs
apart, leaves the advertised window as it was. -/
def isPureACK : Bool :=
  (decodeSACK pkt.payload).isSome ||
    (pkt.payload.isEmpty && decide (windowBytes pkt.window = e.peerRecvWin))

def acknowledge (now : Nat) : Endpoint × List Sent :=
  let (acked, resent) := e.sender.processAck pkt.ackNum (e.isPureACK pkt) now
  let (sender, fin) := acked.releaseHeldFINIfAcked now
  ({ e with
    sender := sender
    lastActivity := now
    keepaliveUnacked := 0
    peerRecvWin := windowBytes pkt.window },
    (resent ++ fin).map .segment)

def processSACK (blocks : List SACKBlock) : Endpoint :=
  { e with
    sender := e.sender.processSACK blocks
    stats := { e.stats with sackRecv := e.stats.sackRecv + blocks.length } }

/-- The ACK for a delivered segment: at once with SACK blocks or for every second segment,
at once for a lone one while the budget lasts, otherwise by the timer. -/
def ackDelivery : Endpoint × List Sent :=
  if !e.receiver.oooBuf.isEmpty then e.sendDelayedACK
  else
    let e := { e with pendingACKs := e.pendingACKs + 1 }
    if delayedACKThreshold ≤ e.pendingACKs then e.sendDelayedACK
    else if 0 < e.quickACKs then { e with quickACKs := e.quickACKs - 1 }.sendDelayedACK
    else ({ e with ackTimer := true }, [])

/-- `DeliverInOrder` and the cumulative ACK it gives. -/
def deliver : Endpoint :=
  let (receiver, cumAck) := e.receiver.deliverInOrder pkt.seq pkt.payload accepted
  { e with
    receiver := receiver
    recvAck := cumAck
    lastActivity := now
    stats := { e.stats with
      bytesRecv := e.stats.bytesRecv + pkt.payload.length
      segsRecv := e.stats.segsRecv + 1 } }

def finReady : Bool := e.finPending && !seqAfter e.finSeq e.recvAck

def handleData : Endpoint × List Sent :=
  if e.state ≠ .established then (e, [])
  else
    let e := e.deliver pkt now accepted
    if e.finReady then e.stopFINHold.acceptFIN e.finSeq now
    else { e with finHeard := if e.finPending then now else e.finHeard }.ackDelivery

/-- The payload of an ACK packet: SACK blocks, user data or nothing. -/
def handlePayload : Endpoint × List Sent :=
  match decodeSACK pkt.payload with
  | some blocks => (e.processSACK blocks, [])
  | none => if pkt.payload.isEmpty then (e, []) else e.handleData pkt now accepted

def handleACK : Endpoint × List Sent :=
  let (acked, sent) := e.acknowledge pkt now
  let (handled, answers) := acked.handlePayload pkt now accepted
  (handled, sent ++ answers)

def handleStreamPacket : Endpoint × List Sent :=
  if pkt.syn then if pkt.ack then e.handleSynAck pkt else (e, [])
  else if pkt.fin then e.handleFIN pkt now
  else if pkt.rst then (e.handleRST, [])
  else if pkt.ack then e.handleACK pkt now accepted
  else (e, [])

/-! ## The local side -/

def transmitSegment (data : Bytes) (now : Nat) (sendOk : Bool) : Endpoint × List Sent :=
  let (sender, pkts) := e.sender.transmitSegment data now sendOk
  ({ e with sender := sender }, pkts.map .segment)

def retransmitUnacked (now draw : Nat) : Endpoint × List Sent :=
  let (sender, pkts) := e.sender.retransmitUnacked now draw
  ({ e with sender := sender }, pkts.map .segment)

/-- The last critical section of `CloseConnection`, which does not look at the state. -/
def finishClose (now : Nat) : Endpoint := { e.setState .finWait with lastActivity := now }

def beginClose (stopping : Bool) (now : Nat) : Endpoint × List Sent :=
  let (sender, pkts) := e.sender.reserveFIN stopping now
  ({ { e with sender := sender }.stopFINHold.closeRecvBuf with ackTimer := false },
    pkts.map .segment)

def closeConnection (stopping : Bool) (now : Nat) : Endpoint × List Sent :=
  ((e.beginClose stopping now).1.finishClose now, (e.beginClose stopping now).2)

/-! ## What the handlers leave alone -/

theorem releaseHeldFIN_state (c : Connection) (now : Nat) :
    (c.releaseHeldFIN now).1.state = c.state := by
  unfold Connection.releaseHeldFIN
  split
  · rfl
  · split <;> rfl

variable (e : Endpoint)

@[simp] theorem acknowledge_state (pkt : StreamPacket) (now : Nat) :
    (e.acknowledge pkt now).1.state = e.state := by
  have hacked := e.sender.processAck_state pkt.ackNum (e.isPureACK pkt) now
  show ((e.sender.processAck pkt.ackNum (e.isPureACK pkt) now).1.releaseHeldFINIfAcked now).1.state =
    e.sender.state
  unfold Connection.releaseHeldFINIfAcked
  split
  · rw [releaseHeldFIN_state, hacked]
  · exact hacked

@[simp] theorem beginClose_state (stopping : Bool) (now : Nat) :
    (e.beginClose stopping now).1.state = e.state := by
  show (e.sender.reserveFIN stopping now).1.state = e.sender.state
  unfold Connection.reserveFIN
  split
  · split <;> rfl
  · rfl

theorem ackDelivery_eq : ∃ pending quick timer stats, e.ackDelivery.1 = { e with
      pendingACKs := pending, quickACKs := quick, ackTimer := timer, stats := stats } ∧
      stats.sackRecv = e.stats.sackRecv := by
  unfold ackDelivery
  split
  · exact ⟨_, _, _, _, rfl, rfl⟩
  dsimp only
  split
  · exact ⟨_, _, _, _, rfl, rfl⟩
  split
  · exact ⟨_, _, _, _, rfl, rfl⟩
  · exact ⟨_, _, _, _, rfl, rfl⟩

theorem finAck_not_mem_sendDelayedACK (seq ackNum : Seq) :
    .finAck seq ackNum ∉ e.sendDelayedACK.2 := by
  simp [sendDelayedACK]

theorem finAck_not_mem_ackDelivery (seq ackNum : Seq) : .finAck seq ackNum ∉ e.ackDelivery.2 := by
  unfold ackDelivery
  dsimp only
  split_ifs <;> simp [sendDelayedACK]

theorem finAck_not_mem_segments (pkts : List Packet) (seq ackNum : Seq) :
    .finAck seq ackNum ∉ pkts.map Sent.segment := by
  simp

end Endpoint

end PilotProtocol.Stream
