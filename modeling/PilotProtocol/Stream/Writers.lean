import PilotProtocol.Stream.Retransmission

/-! # Writers, flushers and closers of one connection

The goroutines that give out sequence numbers: callers of `SendData`, which take turns at
`WriteMu`, the flusher of a held tail, and callers of `CloseConnection`. A step is one
critical section; a number is reserved under `Mu` and its segment tracked under `RetxMu`,
so other steps may come between the two. The system also counts the numbers given out and
tracked, which the code does not read.
-/

namespace PilotProtocol.Stream

open Library

def maxNagleBuf : Nat := 64 * maxSegmentSize

def nagleWritePiece : Nat := 56 * sendSegmentSize

def Connection.nagleHoldsTail (c : Connection) : Bool :=
  c.unacked.any fun e =>
    !e.sacked && !e.isFIN && decide (e.data.length ≠ 0) && decide (e.data.length < sendSegmentSize)

inductive SendError
  | connClosed
  /-- The tunnel could not send; the segment is tracked and will be sent again. -/
  | tunnel
  deriving DecidableEq

/-- The caller of `SendData` that has `WriteMu`. -/
inductive Writer
  | none
  /-- About to buffer a piece of what is left. -/
  | piece (rest : Bytes) (tailNow : Bool)
  /-- About to flush, with what is left after the piece that is buffered. -/
  | flush (rest : Bytes) (tailNow : Bool)
  /-- Its flush has `SendMu`. -/
  | flushing (rest : Bytes) (tailNow : Bool)
  | flushed (rest : Bytes) (tailNow : Bool) (err : Option SendError)
  /-- Without Nagle's algorithm: about to send a segment of what is left. -/
  | immediate (rest : Bytes)
  | immediateWaiting (seg rest : Bytes)
  | immediateTracking (seq : Seq) (seg rest : Bytes)
  deriving DecidableEq

/-- How far the goroutine that has `SendMu` is. -/
inductive Point
  | top
  /-- It has taken a segment from the buffer; `tail` is whether it was the short rest. -/
  | waiting (seg : Bytes) (tail : Bool)
  | tracking (seq : Seq) (seg : Bytes) (tail : Bool)
  deriving DecidableEq

/-- The goroutine that has `SendMu`. -/
inductive Holder
  | none
  | writer (force : Bool) (p : Point)
  | flusher (force : Bool) (p : Point)
  /-- A close sends the held tail. -/
  | closer (rest : Bytes) (p : Point)
  deriving DecidableEq

/-- A caller of `CloseConnection` without `SendMu`. -/
inductive Closer
  | entered
  | trying (tries : Nat)
  | tailSent
  | reserving (hold : Bool)
  | sendingFIN (seq : Seq)
  | finishing
  deriving DecidableEq

structure Sending where
  conn : Connection
  noDelay : Bool
  nagleBuf : Bytes
  tailFlusher : Bool
  /-- The writes that wait for `WriteMu`. -/
  queue : List Bytes
  writer : Writer
  holder : Holder
  /-- The flushers that sleep, each with whether its timer has run out. -/
  flushers : List Bool
  closers : List Closer
  /-- The FINs that were held and are about to be sent. -/
  released : List Seq
  /-- The number after the last one given out, unwrapped. -/
  next : Nat
  /-- The number after the last one that is or was in the queue, unwrapped. -/
  tracked : Nat
  /-- Where each data segment begins, and its length. -/
  given : List (Nat × Nat)
  fins : List Nat

namespace Sending

inductive Input
  | enter (data : Bytes)
  | lockWrite (data : Bytes)
  | sendDataPiece
  | lockSend
  | returned
  /-- A flusher wakes, by its timer or not, and takes `SendMu`. -/
  | wake (force timer : Bool)
  | stopFlusher (force : Bool)
  | look
  /-- A segment's number is reserved; a writer waits until the window is open. -/
  | reserve (window : Bool)
  /-- The writer's wait ends without a window; `probed` is whether by the probe limit. -/
  | giveUp (probed : Bool)
  | track (now : Nat) (sendOk : Bool)
  | immediateNext
  | immediateReserve (window : Bool)
  | immediateGiveUp (probed : Bool)
  | immediateTrack (now : Nat) (sendOk : Bool)
  | close
  | closer (c : Closer) (stopping : Bool) (now : Nat)
  | releaseHeldFIN
  | sendFIN (seq : Seq) (now : Nat)
  | processAck (ack : Seq) (pureACK : Bool) (now : Nat)
  | processSACK (blocks : List SACKBlock)
  | retransmitUnacked (now draw : Nat)
  /-- A packet, the sweeper or a timeout ends the connection. -/
  | setState (state : ConnState)

def established (s : Sending) : Bool := s.conn.state = .established

variable (s : Sending)

def setConn (c : Connection) : Sending := { s with conn := c }

def reserve (data : Bytes) : Sending :=
  { s with
    conn := { s.conn with sendSeq := endSeq s.conn.sendSeq data }
    next := s.next + data.length
    given := s.given ++ [(s.next, data.length)] }

def track (seq : Seq) (data : Bytes) (now : Nat) : Sending :=
  { s with conn := s.conn.trackSend seq data now, tracked := s.tracked + data.length }

def sendFIN (seq : Seq) (now : Nat) : Sending :=
  { s with conn := (s.conn.sendFIN seq now).1, tracked := s.tracked + 1 }

/-! ## Writers -/

def lockWrite (data : Bytes) : Sending :=
  let s' := { s with queue := s.queue.erase data }
  if s.established then
    { s' with
      writer :=
        if s.noDelay then .immediate data else .piece data (decide (sendSegmentSize ≤ data.length)) }
  else s'

/-- `ErrSendBufFull` ends the write. -/
def sendDataPiece (rest : Bytes) (tailNow : Bool) : Sending :=
  let n := if nagleWritePiece < rest.length then nagleWritePiece else rest.length
  if maxNagleBuf < s.nagleBuf.length + n then { s with writer := .none }
  else { s with nagleBuf := s.nagleBuf ++ rest.take n, writer := .flush (rest.drop n) tailNow }

/-- After a flush: the end of the write, the next piece, or the flush again after an error
of the tunnel. -/
def returned (rest : Bytes) (tailNow : Bool) : Option SendError → Sending
  | some .connClosed => { s with writer := .none }
  | some .tunnel =>
    if s.established then { s with writer := .flush rest tailNow } else { s with writer := .none }
  | none =>
    if rest ≠ [] ∧ s.established = true then { s with writer := .piece rest tailNow }
    else { s with writer := .none }

def endFlush (err : Option SendError) : Sending :=
  match s.writer with
  | .flushing rest tailNow => { s with holder := .none, writer := .flushed rest tailNow err }
  | _ => { s with holder := .none }

/-- A wait for the window ends with `ErrConnClosed`. -/
def abort (probed : Bool) : Sending :=
  if probed then s.setConn { s.conn with state := .closed } else s

/-! ## The goroutine that has `SendMu` -/

def lookWriter (force : Bool) : Sending :=
  if s.nagleBuf = [] then s.endFlush none
  else if sendSegmentSize ≤ s.nagleBuf.length then
    { s with
      nagleBuf := s.nagleBuf.drop sendSegmentSize
      holder := .writer force (.waiting (s.nagleBuf.take sendSegmentSize) false) }
  else if !force && s.conn.nagleHoldsTail then
    { s.endFlush none with
      tailFlusher := true
      flushers := if s.tailFlusher then s.flushers else false :: s.flushers }
  else { s with nagleBuf := [], holder := .writer force (.waiting s.nagleBuf true) }

def lookFlusher (force : Bool) : Sending :=
  if s.nagleBuf = [] then { s with holder := .none, tailFlusher := false }
  else if sendSegmentSize ≤ s.nagleBuf.length ∨ (!force && s.conn.nagleHoldsTail) = true then
    { s with holder := .none, flushers := force :: s.flushers }
  else
    { s with
      nagleBuf := []
      tailFlusher := false
      holder := .flusher force (.waiting s.nagleBuf true) }

def lookCloser (rest : Bytes) : Sending :=
  if rest = [] then { s with holder := .none, closers := .tailSent :: s.closers }
  else
    { s with
      holder := .closer (rest.drop sendSegmentSize) (.waiting (rest.take sendSegmentSize) false) }

def look : Sending :=
  match s.holder with
  | .writer force .top => s.lookWriter force
  | .flusher force .top => s.lookFlusher force
  | .closer rest .top => s.lookCloser rest
  | _ => s

/-- Only a writer waits for the window. -/
def reserveNext (window : Bool) : Sending :=
  match s.holder with
  | .writer force (.waiting seg tail) =>
    if window then
      { s.reserve seg with holder := .writer force (.tracking s.conn.sendSeq seg tail) }
    else s
  | .flusher force (.waiting seg tail) =>
    { s.reserve seg with holder := .flusher force (.tracking s.conn.sendSeq seg tail) }
  | .closer rest (.waiting seg tail) =>
    { s.reserve seg with holder := .closer rest (.tracking s.conn.sendSeq seg tail) }
  | _ => s

def trackNext (now : Nat) (sendOk : Bool) : Sending :=
  match s.holder with
  | .writer force (.tracking seq seg tail) =>
    let s' := s.track seq seg now
    if !sendOk then s'.endFlush (some .tunnel)
    else if tail then s'.endFlush none
    else { s' with holder := .writer force .top }
  | .flusher _ (.tracking seq seg _) => { s.track seq seg now with holder := .none }
  | .closer rest (.tracking seq seg _) => { s.track seq seg now with holder := .closer rest .top }
  | _ => s

/-! ## Closers -/

/-- Reserves the FIN's number and holds the FIN, in one critical section. -/
def reserveFIN (hold : Bool) : Sending :=
  let s' := { s with next := s.next + 1, fins := s.fins ++ [s.next] }
  if hold then
    { s' with
      conn := { s.conn with sendSeq := s.conn.sendSeq + 1, heldFIN := some s.conn.sendSeq }
      closers := .finishing :: s.closers }
  else
    { s' with
      conn := { s.conn with sendSeq := s.conn.sendSeq + 1 }
      closers := .sendingFIN s.conn.sendSeq :: s.closers }

def closerNext (stopping : Bool) (now : Nat) : Closer → Sending
  | .entered =>
    { s with closers := (if s.established then .trying 0 else .tailSent) :: s.closers }
  | .trying tries =>
    match s.holder with
    | .none => { s with nagleBuf := [], holder := .closer s.nagleBuf .top }
    | _ => { s with closers := (if tries < 20 then .trying (tries + 1) else .tailSent) :: s.closers }
  | .tailSent => { s with closers := .reserving (s.conn.unackedHasData && !stopping) :: s.closers }
  | .reserving hold =>
    if s.established then s.reserveFIN hold else { s with closers := .finishing :: s.closers }
  | .sendingFIN seq => { s.sendFIN seq now with closers := .finishing :: s.closers }
  | .finishing => s.setConn { s.conn with state := .finWait }

def releaseHeldFIN : Sending :=
  match s.conn.heldFIN with
  | none => s
  | some seq =>
    let s' := s.setConn { s.conn with heldFIN := none }
    if s.conn.state = .timeWait ∨ s.conn.state = .closed then s'
    else { s' with released := seq :: s'.released }

/-! ## Steps -/

def step : Input → Sending
  | .enter data => if s.established then { s with queue := s.queue ++ [data] } else s
  | .lockWrite data =>
    match s.writer with
    | .none => if data ∈ s.queue then s.lockWrite data else s
    | _ => s
  | .sendDataPiece =>
    match s.writer with
    | .piece rest tailNow => s.sendDataPiece rest tailNow
    | _ => s
  | .lockSend =>
    match s.writer, s.holder with
    | .flush rest tailNow, .none =>
      { s with writer := .flushing rest tailNow, holder := .writer tailNow .top }
    | _, _ => s
  | .returned =>
    match s.writer with
    | .flushed rest tailNow err => s.returned rest tailNow err
    | _ => s
  | .wake force timer =>
    match s.holder with
    | .none =>
      if force ∈ s.flushers then
        { s with flushers := s.flushers.erase force, holder := .flusher (force || timer) .top }
      else s
    | _ => s
  | .stopFlusher force =>
    if force ∈ s.flushers then { s with flushers := s.flushers.erase force, tailFlusher := false }
    else s
  | .look => s.look
  | .reserve window => s.reserveNext window
  | .giveUp probed =>
    match s.holder with
    | .writer _ (.waiting _ _) => (s.abort probed).endFlush (some .connClosed)
    | _ => s
  | .track now sendOk => s.trackNext now sendOk
  | .immediateNext =>
    match s.writer with
    | .immediate rest =>
      if rest = [] then { s with writer := .none }
      else
        { s with
          writer := .immediateWaiting (rest.take sendSegmentSize) (rest.drop sendSegmentSize) }
    | _ => s
  | .immediateReserve window =>
    match s.writer with
    | .immediateWaiting seg rest =>
      if window then
        { s.reserve seg with writer := .immediateTracking s.conn.sendSeq seg rest }
      else s
    | _ => s
  | .immediateGiveUp probed =>
    match s.writer with
    | .immediateWaiting _ _ => { s.abort probed with writer := .none }
    | _ => s
  | .immediateTrack now sendOk =>
    match s.writer with
    | .immediateTracking seq seg rest =>
      { s.track seq seg now with writer := if sendOk then .immediate rest else .none }
    | _ => s
  | .close => { s with closers := .entered :: s.closers }
  | .closer c stopping now =>
    if c ∈ s.closers then { s with closers := s.closers.erase c }.closerNext stopping now c else s
  | .releaseHeldFIN => s.releaseHeldFIN
  | .sendFIN seq now =>
    if seq ∈ s.released then { s with released := s.released.erase seq }.sendFIN seq now else s
  | .processAck ack pureACK now => s.setConn (s.conn.processAck ack pureACK now).1
  | .processSACK blocks => s.setConn (s.conn.processSACK blocks)
  | .retransmitUnacked now draw => s.setConn (s.conn.retransmitUnacked now draw).1
  | .setState state =>
    if state = .established then s else s.setConn { s.conn with state := state }

end Sending

end PilotProtocol.Stream
