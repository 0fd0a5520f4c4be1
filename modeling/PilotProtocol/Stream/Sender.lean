import PilotProtocol.Library.BigEndian
import PilotProtocol.Library.Serial

/-! # The sending half of a connection

`Connection` holds the fields that sending, acknowledgement and retransmission
read and write. Every operation returns the new connection and the packets it
puts on the wire; wake-up channels and counters of statistics carry no data and
are left out, as are the header fields that no operation here reads back.
-/

namespace PilotProtocol.Stream

open Library

abbrev Seq := UInt32

def seqAfter (a b : Seq) : Bool := decide (0 < (a - b).toInt32)

def seqAfterOrEqual (a b : Seq) : Bool := a == b || seqAfter a b

def endSeq (seq : Seq) (data : Bytes) : Seq := seq + UInt32.ofNat data.length

def sendSegmentSize : Nat := 1152
def maxSegmentSize : Nat := 4096
def initialCongWin : Nat := 10 * maxSegmentSize
def maxCongWin : Nat := 1024 * 1024
def maxRetxAttempts : Nat := 8
def clockGranularity : Nat := 10000000
def rtoMin : Nat := 200000000
def rtoMax : Nat := 10000000000

inductive Flag
  | ack
  | fin
  | rst
  deriving DecidableEq

structure Packet where
  flag : Flag
  seq : Seq
  payload : Bytes
  deriving DecidableEq

inductive ConnState
  | closed
  | listen
  | synSent
  | synReceived
  | established
  | finWait
  | closeWait
  | timeWait
  deriving DecidableEq

/-- Times are in nanoseconds; 0 is the zero time. -/
structure RetxEntry where
  data : Bytes
  seq : Seq
  sentAt : Nat
  origSentAt : Nat
  attempts : Nat
  sacked : Bool
  isFIN : Bool

structure SACKBlock where
  left : Seq
  right : Seq

structure Connection where
  state : ConnState
  sendSeq : Seq
  heldFIN : Option Seq
  unacked : List RetxEntry
  lastAck : Seq
  dupAckCount : Nat
  congWin : Int
  ssThresh : Int
  inRecovery : Bool
  fastRecovery : Bool
  recoveryPoint : Seq
  srtt : Nat
  rttvar : Nat
  rto : Nat
  lastRetxTime : Nat
  /-- `RetxSend` is non-nil. -/
  hasRetxSend : Bool

namespace RetxEntry

def endSeq (e : RetxEntry) : Seq := Stream.endSeq e.seq e.data

/-- The packet that repeats an entry: a FIN without payload, or the data. -/
def packet (e : RetxEntry) : Packet :=
  if e.isFIN then ⟨.fin, e.seq, []⟩ else ⟨.ack, e.seq, e.data⟩

def resent (now : Nat) (e : RetxEntry) : RetxEntry :=
  { e with attempts := e.attempts + 1, sentAt := now }

end RetxEntry

namespace Connection

def new (seq : Seq) : Connection where
  state := .established
  sendSeq := seq
  heldFIN := none
  unacked := []
  lastAck := seq
  dupAckCount := 0
  congWin := initialCongWin
  ssThresh := maxCongWin / 2
  inRecovery := false
  fastRecovery := false
  recoveryPoint := 0
  srtt := 0
  rttvar := 0
  rto := 1000000000
  lastRetxTime := 0
  hasRetxSend := true

/-! ## Sending -/

variable (c : Connection) (now : Nat)

def trackSend (seq : Seq) (data : Bytes) (now : Nat) : Connection :=
  { c with unacked := c.unacked ++ [⟨data, seq, now, now, 1, false, false⟩] }

/-- The segment is tracked before it is sent, so a tunnel error, which is also the
returned error, leaves it to the retransmission loop. -/
def transmitSegment (data : Bytes) (now : Nat) (sendOk : Bool) : Connection × List Packet :=
  ({ c with sendSeq := endSeq c.sendSeq data }.trackSend c.sendSeq data now,
    if sendOk then [⟨.ack, c.sendSeq, data⟩] else [])

def sendFIN (seq : Seq) (now : Nat) : Connection × List Packet :=
  ({ c with unacked := c.unacked ++ [⟨[0], seq, now, now, 1, false, true⟩] }, [⟨.fin, seq, []⟩])

def unackedHasData : Bool := c.unacked.any fun e => !e.isFIN

/-- Reserves the FIN's sequence number; the FIN is held while data is unacknowledged,
unless the daemon is stopping. -/
def closeConnection (stopping : Bool) (now : Nat) : Connection × List Packet :=
  let (c', pkts) :=
    if c.state = .established then
      let reserved := { c with sendSeq := c.sendSeq + 1 }
      if c.unackedHasData && !stopping then ({ reserved with heldFIN := some c.sendSeq }, [])
      else reserved.sendFIN c.sendSeq now
    else (c, [])
  ({ c' with state := .finWait }, pkts)

def releaseHeldFIN : Connection × List Packet :=
  match c.heldFIN with
  | none => (c, [])
  | some seq =>
    let released := { c with heldFIN := none }
    if c.state = .timeWait ∨ c.state = .closed then (released, [])
    else released.sendFIN seq now

/-! ## Retransmission -/

def bytesInFlight : Nat := ((c.unacked.filter fun e => !e.sacked).map (·.data.length)).sum

def flightSize : Nat := (c.unacked.map (·.data.length)).sum

def lossSSThresh : Int := max (c.flightSize / 2 : Nat) (2 * maxSegmentSize : Nat)

/-- The first entry that meets `p`, and the queue with that entry sent again. -/
def resendFirst (p : RetxEntry → Bool) (now : Nat) (entries : List RetxEntry) :
    Option (RetxEntry × List RetxEntry) :=
  match entries.find? p with
  | none => none
  | some e => some (e, entries.modify (entries.findIdx p) (·.resent now))

/-- `none` when nothing was sent. -/
def fastRetransmit : Option (Connection × Packet) :=
  if c.hasRetxSend then
    match resendFirst (fun e => !e.sacked) now c.unacked with
    | none => none
    | some (e, entries) =>
      if maxRetxAttempts ≤ e.attempts then none
      else some ({ c with unacked := entries }, e.packet)
  else none

/-- Forgets the SACK marks once the head, marked, has gone a whole timeout. -/
def forgetSACKs (now rto : Nat) (entries : List RetxEntry) : List RetxEntry :=
  match entries with
  | [] => []
  | first :: _ =>
    if first.sacked && decide (rto < now - first.sentAt) then
      entries.map fun e => { e with sacked := false }
    else entries

/-- The doubled timeout with its jitter, `draw` standing for the random number. -/
def backedOffRTO (rto draw : Nat) : Nat :=
  let doubled := min (rto * 2) rtoMax
  min (doubled + draw % (doubled / 4)) rtoMax

def retransmitUnacked (now draw : Nat) : Connection × List Packet :=
  if c.unacked = [] then (c, [])
  else if c.lastRetxTime ≠ 0 ∧ now - c.lastRetxTime < c.rto then (c, [])
  else
    let c := { c with unacked := forgetSACKs now c.rto c.unacked }
    match resendFirst (fun e => !e.sacked && decide (c.rto < now - e.sentAt)) now c.unacked with
    | none => (c, [])
    | some (e, entries) =>
      if maxRetxAttempts ≤ e.attempts then
        ({ c with state := .closed }, if c.hasRetxSend then [⟨.rst, 0, []⟩] else [])
      else
        ({ c with
          ssThresh := c.lossSSThresh
          inRecovery := true
          recoveryPoint := c.sendSeq
          congWin := maxSegmentSize
          rto := backedOffRTO c.rto draw
          unacked := entries
          dupAckCount := 0
          fastRecovery := false
          lastRetxTime := now },
        if c.hasRetxSend then [e.packet] else [])

/-! ## Acknowledgements -/

def updateRTT (rtt : Nat) : Connection :=
  let srtt := if c.srtt = 0 then rtt else c.srtt * 7 / 8 + rtt / 8
  let rttvar :=
    if c.srtt = 0 then rtt / 2
    else c.rttvar * 3 / 4 + (max (c.srtt - rtt) (rtt - c.srtt)) / 4
  { c with
    srtt := srtt
    rttvar := rttvar
    rto := min (max (srtt + max (rttvar * 4) clockGranularity) rtoMin) rtoMax }

/-- One segment's worth of growth for a duplicate ACK in fast recovery. -/
def inflate : Connection := { c with congWin := min (c.congWin + sendSegmentSize) maxCongWin }

def enterFastRecovery : Connection :=
  { c with
    ssThresh := c.lossSSThresh
    inRecovery := true
    recoveryPoint := c.sendSeq
    fastRecovery := true
    congWin := c.lossSSThresh + 3 * sendSegmentSize }

def duplicateAck : Connection × List Packet :=
  if c.bytesInFlight = 0 then (c, [])
  else
    let c := { c with dupAckCount := c.dupAckCount + 1 }
    if c.dupAckCount < 3 ∧ c.inRecovery ∧ c.fastRecovery ∧ c.unacked ≠ [] then (c.inflate, [])
    else if c.dupAckCount = 3 ∧ c.unacked ≠ [] then
      match c.fastRetransmit now with
      | none => (c, [])
      | some (c, pkt) =>
        if !c.inRecovery || seqAfter c.sendSeq c.recoveryPoint then (c.enterFastRecovery, [pkt])
        else if c.inRecovery && c.fastRecovery then (c.inflate, [pkt])
        else (c, [pkt])
    else if 3 < c.dupAckCount ∧ c.inRecovery ∧ c.unacked ≠ [] ∧ c.fastRecovery then
      (c.inflate, [])
    else (c, [])

def covers (ack : Seq) (e : RetxEntry) : Bool := seqAfterOrEqual ack e.endSeq

def bytesAcked (ack : Seq) : Nat :=
  ((c.unacked.filter fun e => covers ack e && !e.sacked && !e.isFIN).map (·.data.length)).sum

/-- At most one round-trip sample per ACK, and none if a resent segment is covered. -/
def sampleRTT (ack : Seq) (now : Nat) : Connection :=
  if c.unacked.any fun e => decide (1 < e.attempts) && covers ack e then c
  else
    match c.unacked.find? fun e => covers ack e && e.attempts == 1 with
    | none => c
    | some e => c.updateRTT (now - if e.origSentAt = 0 then e.sentAt else e.origSentAt)

/-- Drops the covered entries and restarts the timers of the rest. -/
def removeAcked (ack : Seq) (now : Nat) (entries : List RetxEntry) : List RetxEntry :=
  (entries.filter fun e => !covers ack e).map fun e =>
    if e.sacked then e else { e with sentAt := now }

def fastRetransmitOrSkip : Connection × List Packet :=
  match c.fastRetransmit now with
  | none => (c, [])
  | some (c, pkt) => (c, [pkt])

def deflate (acked : Nat) : Connection :=
  let win := c.congWin - acked + if sendSegmentSize ≤ acked then (sendSegmentSize : Int) else 0
  { c with congWin := max win c.ssThresh }

/-- What a new ACK does to a recovery that was on before it. -/
def recoverOnAck (wasInRecovery wasFastRecovery : Bool) (acked now : Nat) :
    Connection × List Packet :=
  if wasFastRecovery && wasInRecovery then
    if c.inRecovery then (c.deflate acked).fastRetransmitOrSkip now
    else ({ c with congWin := c.ssThresh }, [])
  else if wasInRecovery && c.inRecovery then c.fastRetransmitOrSkip now
  else (c, [])

def growCongWin (acked : Nat) : Connection :=
  let grown :=
    if c.congWin < c.ssThresh then c.congWin + min acked (2 * maxSegmentSize)
    else
      c.congWin + max (Int.tdiv ((maxSegmentSize * min acked maxSegmentSize : Nat) : Int) c.congWin) 1
  { c with congWin := min grown maxCongWin }

def exitRecovery (ack : Seq) : Connection :=
  if c.inRecovery && seqAfterOrEqual ack c.recoveryPoint then
    { c with inRecovery := false, fastRecovery := false }
  else c

def newAck (ack : Seq) (now : Nat) : Connection × List Packet :=
  let acked := c.bytesAcked ack
  let advanced :=
    ({ c with lastAck := ack, dupAckCount := 0, lastRetxTime := 0 }.exitRecovery ack).sampleRTT ack now
  let cleaned := { advanced with unacked := removeAcked ack now advanced.unacked }
  let (c', pkts) := cleaned.recoverOnAck c.inRecovery c.fastRecovery acked now
  if 0 < acked ∧ ¬ (c.fastRecovery ∧ c.inRecovery ∧ c'.inRecovery) then (c'.growCongWin acked, pkts)
  else (c', pkts)

def processAck (ack : Seq) (pureACK : Bool) (now : Nat) : Connection × List Packet :=
  if seqAfter c.lastAck ack then (c, [])
  else if ack = c.lastAck then
    if pureACK then c.duplicateAck now else (c, [])
  else c.newAck ack now

def sackCovers (b : SACKBlock) (e : RetxEntry) : Bool :=
  !seqAfterOrEqual e.seq b.right && !seqAfterOrEqual b.left e.endSeq

def processSACK (blocks : List SACKBlock) : Connection :=
  { c with
    unacked := c.unacked.map fun e =>
      if blocks.any (sackCovers · e) then { e with sacked := true } else e }

end Connection

end PilotProtocol.Stream
