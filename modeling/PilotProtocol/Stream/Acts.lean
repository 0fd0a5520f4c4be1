import PilotProtocol.Stream.Writers

/-! # What one step of the writers does

For each step of the goroutines that send on a connection, the state it leaves: one case for
each way in which a critical section can end. What holds of the numbers, of the queue and of
the bytes over whole runs is read off these cases.
-/

namespace PilotProtocol.Stream

open Library

def Point.reserved : Point → List (Seq × Bytes)
  | .tracking seq seg _ => [(seq, seg)]
  | _ => []

def Holder.reserved : Holder → List (Seq × Bytes)
  | .none => []
  | .writer _ p => p.reserved
  | .flusher _ p => p.reserved
  | .closer _ p => p.reserved

def Writer.reserved : Writer → List (Seq × Bytes)
  | .immediateTracking seq seg _ => [(seq, seg)]
  | _ => []

theorem Holder.reserved_eq_nil {h : Holder}
    (hwriter : ∀ force seq seg tail, h = .writer force (.tracking seq seg tail) → False)
    (hflusher : ∀ force seq seg tail, h = .flusher force (.tracking seq seg tail) → False)
    (hcloser : ∀ rest seq seg tail, h = .closer rest (.tracking seq seg tail) → False) :
    h.reserved = [] := by
  cases h with
  | none => rfl
  | writer force p =>
    cases p with
    | tracking seq seg tail => exact (hwriter _ _ _ _ rfl).elim
    | _ => rfl
  | flusher force p =>
    cases p with
    | tracking seq seg tail => exact (hflusher _ _ _ _ rfl).elim
    | _ => rfl
  | closer rest p =>
    cases p with
    | tracking seq seg tail => exact (hcloser _ _ _ _ rfl).elim
    | _ => rfl

def Writer.endFlush (err : Option SendError) : Writer → Writer
  | .flushing rest tailNow => .flushed rest tailNow err
  | w => w

@[simp, grind =] theorem Writer.endFlush_reserved {w : Writer} {err : Option SendError} :
    (w.endFlush err).reserved = w.reserved := by
  cases w <;> rfl

def Closer.fin : Closer → Option Seq
  | .sendingFIN seq => some seq
  | _ => none

/-- What `SendData` returned: no error, or one, with whether the connection was then
ESTABLISHED. -/
inductive Result
  | ok
  | failed (established : Bool)
  deriving DecidableEq

namespace Sending

def reserved (s : Sending) : List (Seq × Bytes) := s.writer.reserved ++ s.holder.reserved

def numbered (s : Sending) : Input → List Bytes
  | .reserve window =>
    match s.holder with
    | .writer _ (.waiting seg _) => if window then [seg] else []
    | .flusher _ (.waiting seg _) => [seg]
    | .closer _ (.waiting seg _) => [seg]
    | _ => []
  | .immediateReserve window =>
    match s.writer with
    | .immediateWaiting seg _ => if window then [seg] else []
    | _ => []
  | _ => []

/-- How many numbers the step gives out, for data or for a FIN. -/
def sizes (s : Sending) (i : Input) : List Nat :=
  match i with
  | .closer (.reserving hold) _ _ =>
    if .reserving hold ∈ s.closers ∧ s.established = true then [1] else []
  | _ => (s.numbered i).map List.length

/-- How much of a write `SendData` buffers at a time. -/
def pieceSize (rest : Bytes) : Nat :=
  if nagleWritePiece < rest.length then nagleWritePiece else rest.length

def taken (s : Sending) : Input → Bytes
  | .sendDataPiece =>
    match s.writer with
    | .piece rest _ =>
      if maxNagleBuf < s.nagleBuf.length + pieceSize rest then [] else rest.take (pieceSize rest)
    | _ => []
  | .immediateReserve window =>
    match s.writer with
    | .immediateWaiting seg _ => if window then seg else []
    | _ => []
  | _ => []

def dropped (s : Sending) : Input → Bytes
  | .giveUp _ =>
    match s.holder with
    | .writer _ (.waiting seg _) => seg
    | _ => []
  | _ => []

/-- The segments that the step puts into the queue and hands to the tunnel. -/
def sends (s : Sending) : Input → List (Seq × Bytes)
  | .track _ _ => s.holder.reserved
  | .immediateTrack _ _ => s.writer.reserved
  | _ => []

def begins (s : Sending) : Input → Option Bytes
  | .lockWrite data =>
    match s.writer with
    | .none => if s.queue.contains data then some data else none
    | _ => none
  | _ => none

/-- What the write in progress returns with the step, if it does. -/
def result (s : Sending) : Input → Option Result
  | .sendDataPiece =>
    match s.writer with
    | .piece rest _ =>
      if maxNagleBuf < s.nagleBuf.length + pieceSize rest then some (.failed s.established)
      else none
    | _ => none
  | .returned =>
    match s.writer with
    | .flushed _ _ (some .connClosed) => some (.failed s.established)
    | .flushed _ _ (some .tunnel) => if s.established then none else some (.failed false)
    | .flushed rest _ none =>
      if rest = [] then some .ok else if s.established then none else some (.failed false)
    | _ => none
  | .immediateNext =>
    match s.writer with
    | .immediate rest => if rest = [] then some .ok else none
    | _ => none
  | .immediateGiveUp probed =>
    match s.writer with
    | .immediateWaiting _ _ => some (.failed (s.established && !probed))
    | _ => none
  | .immediateTrack _ sendOk =>
    match s.writer with
    | .immediateTracking _ _ _ => if sendOk then none else some (.failed s.established)
    | _ => none
  | _ => none

/-- The step neither numbers or sends a segment nor takes or drops bytes, and no write begins or
ends in it. -/
structure Idle (s : Sending) (i : Input) : Prop where
  numbered : s.numbered i = [] := by rfl
  sizes : s.sizes i = [] := by rfl
  taken : s.taken i = [] := by rfl
  dropped : s.dropped i = [] := by rfl
  sends : s.sends i = [] := by rfl
  begins : s.begins i = none := by rfl
  result : s.result i = none := by rfl

theorem sendDataPiece_eq (s : Sending) (rest : Bytes) (tailNow : Bool) :
    s.sendDataPiece rest tailNow =
      if maxNagleBuf < s.nagleBuf.length + pieceSize rest then { s with writer := .none }
      else
        { s with
          nagleBuf := s.nagleBuf ++ rest.take (pieceSize rest)
          writer := .flush (rest.drop (pieceSize rest)) tailNow } := rfl

theorem endFlush_eq (s : Sending) (err : Option SendError) :
    s.endFlush err = { s with writer := s.writer.endFlush err, holder := .none } := by
  unfold endFlush
  cases hw : s.writer <;> simp [Writer.endFlush, ← hw]

def aborted (s : Sending) (probed : Bool) : Connection :=
  { s.conn with state := if probed then .closed else s.conn.state }

theorem abort_eq (s : Sending) (probed : Bool) :
    s.abort probed = { s with conn := s.aborted probed } := by
  cases probed <;> rfl

attribute [grind =] reserve track sendFIN setConn

inductive Acts (s : Sending) : Input → Sending → Prop
  | stay {i : Input} (hidle : s.Idle i) : Acts s i s
  | enter {data : Bytes} : Acts s (.enter data) { s with queue := s.queue ++ [data] }
  | lockWrite {data : Bytes} (h : s.writer = .none) (hqueued : data ∈ s.queue)
      (hestablished : s.established = true) :
      Acts s (.lockWrite data) { s with
        queue := s.queue.erase data
        writer :=
          if s.noDelay then .immediate data
          else .piece data (decide (sendSegmentSize ≤ data.length)) }
  | lockClosed {data : Bytes} (h : s.writer = .none) (hqueued : data ∈ s.queue)
      (hclosed : s.established = false) :
      Acts s (.lockWrite data) { s with queue := s.queue.erase data }
  | bufFull {rest : Bytes} {tailNow : Bool} (h : s.writer = .piece rest tailNow)
      (hfull : maxNagleBuf < s.nagleBuf.length + pieceSize rest) :
      Acts s .sendDataPiece { s with writer := .none }
  | buffer {rest : Bytes} {tailNow : Bool} (h : s.writer = .piece rest tailNow)
      (hfits : ¬ maxNagleBuf < s.nagleBuf.length + pieceSize rest) :
      Acts s .sendDataPiece { s with
        nagleBuf := s.nagleBuf ++ rest.take (pieceSize rest)
        writer := .flush (rest.drop (pieceSize rest)) tailNow }
  | lockSend {rest : Bytes} {tailNow : Bool} (h : s.writer = .flush rest tailNow)
      (hfree : s.holder = .none) :
      Acts s .lockSend { s with writer := .flushing rest tailNow, holder := .writer tailNow .top }
  | returned {rest : Bytes} {tailNow : Bool} {err : Option SendError} {w : Writer}
      (h : s.writer = .flushed rest tailNow err)
      (hw : w = .none ∧ (s.result .returned).isSome = true ∨
        s.result .returned = none ∧ (err = some .tunnel ∧ w = .flush rest tailNow ∨
          err = none ∧ rest ≠ [] ∧ w = .piece rest tailNow)) :
      Acts s .returned { s with writer := w }
  | wake {force timer : Bool} (hmem : force ∈ s.flushers) (hfree : s.holder = .none) :
      Acts s (.wake force timer) { s with
        flushers := s.flushers.erase force
        holder := .flusher (force || timer) .top }
  | stopFlusher {force : Bool} :
      Acts s (.stopFlusher force) { s with
        flushers := s.flushers.erase force
        tailFlusher := false }
  | takeFull {force : Bool} (h : s.holder = .writer force .top) (hne : s.nagleBuf ≠ [])
      (hfull : sendSegmentSize ≤ s.nagleBuf.length) :
      Acts s .look { s with
        nagleBuf := s.nagleBuf.drop sendSegmentSize
        holder := .writer force (.waiting (s.nagleBuf.take sendSegmentSize) false) }
  | takeTail {force : Bool} (h : s.holder = .writer force .top) (hne : s.nagleBuf ≠ []) :
      Acts s .look { s with nagleBuf := [], holder := .writer force (.waiting s.nagleBuf true) }
  | drained {force : Bool} (h : s.holder = .writer force .top) (hempty : s.nagleBuf = []) :
      Acts s .look { s with writer := s.writer.endFlush none, holder := .none }
  | hold (h : s.holder = .writer false .top) (hshort : s.nagleBuf.length < sendSegmentSize)
      (hne : s.nagleBuf ≠ []) :
      Acts s .look { s with
        writer := s.writer.endFlush none
        holder := .none
        tailFlusher := true
        flushers := if s.tailFlusher then s.flushers else false :: s.flushers }
  | flusherDone {force : Bool} (h : s.holder = .flusher force .top) (hempty : s.nagleBuf = []) :
      Acts s .look { s with holder := .none, tailFlusher := false }
  | flusherHolds {force : Bool} (h : s.holder = .flusher force .top) (hne : s.nagleBuf ≠ []) :
      Acts s .look { s with holder := .none, flushers := force :: s.flushers }
  | flusherTakes {force : Bool} (h : s.holder = .flusher force .top) (hne : s.nagleBuf ≠ []) :
      Acts s .look { s with
        nagleBuf := []
        tailFlusher := false
        holder := .flusher force (.waiting s.nagleBuf true) }
  | closerDone (h : s.holder = .closer [] .top) :
      Acts s .look { s with holder := .none, closers := .tailSent :: s.closers }
  | closerTakes {rest : Bytes} (h : s.holder = .closer rest .top) (hne : rest ≠ []) :
      Acts s .look { s with
        holder := .closer (rest.drop sendSegmentSize) (.waiting (rest.take sendSegmentSize) false) }
  | reserveWriter {force tail : Bool} {seg : Bytes} (h : s.holder = .writer force (.waiting seg tail)) :
      Acts s (.reserve true) { s.reserve seg with
        holder := .writer force (.tracking s.conn.sendSeq seg tail) }
  | reserveFlusher {force tail window : Bool} {seg : Bytes}
      (h : s.holder = .flusher force (.waiting seg tail)) :
      Acts s (.reserve window) { s.reserve seg with
        holder := .flusher force (.tracking s.conn.sendSeq seg tail) }
  | reserveCloser {rest seg : Bytes} {tail window : Bool}
      (h : s.holder = .closer rest (.waiting seg tail)) :
      Acts s (.reserve window) { s.reserve seg with
        holder := .closer rest (.tracking s.conn.sendSeq seg tail) }
  | giveUp {force tail probed : Bool} {seg : Bytes} (h : s.holder = .writer force (.waiting seg tail)) :
      Acts s (.giveUp probed) { s with
        conn := s.aborted probed
        writer := s.writer.endFlush (some .connClosed)
        holder := .none }
  | trackFailed {force tail : Bool} {seq : Seq} {seg : Bytes} {now : Nat}
      (h : s.holder = .writer force (.tracking seq seg tail)) :
      Acts s (.track now false) { s.track seq seg now with
        writer := s.writer.endFlush (some .tunnel)
        holder := .none }
  | trackTail {force : Bool} {seq : Seq} {seg : Bytes} {now : Nat}
      (h : s.holder = .writer force (.tracking seq seg true)) :
      Acts s (.track now true) { s.track seq seg now with
        writer := s.writer.endFlush none
        holder := .none }
  | trackFull {force : Bool} {seq : Seq} {seg : Bytes} {now : Nat}
      (h : s.holder = .writer force (.tracking seq seg false)) :
      Acts s (.track now true) { s.track seq seg now with holder := .writer force .top }
  | trackFlusher {force tail sendOk : Bool} {seq : Seq} {seg : Bytes} {now : Nat}
      (h : s.holder = .flusher force (.tracking seq seg tail)) :
      Acts s (.track now sendOk) { s.track seq seg now with holder := .none }
  | trackCloser {rest seg : Bytes} {tail sendOk : Bool} {seq : Seq} {now : Nat}
      (h : s.holder = .closer rest (.tracking seq seg tail)) :
      Acts s (.track now sendOk) { s.track seq seg now with holder := .closer rest .top }
  | immediateNext {rest : Bytes} {w : Writer} (h : s.writer = .immediate rest)
      (hw : w = .none ∧ rest = [] ∨ rest ≠ [] ∧
        w = .immediateWaiting (rest.take sendSegmentSize) (rest.drop sendSegmentSize)) :
      Acts s .immediateNext { s with writer := w }
  | immediateReserve {seg rest : Bytes} (h : s.writer = .immediateWaiting seg rest) :
      Acts s (.immediateReserve true) { s.reserve seg with
        writer := .immediateTracking s.conn.sendSeq seg rest }
  | immediateGiveUp {seg rest : Bytes} {probed : Bool} (h : s.writer = .immediateWaiting seg rest) :
      Acts s (.immediateGiveUp probed) { s with conn := s.aborted probed, writer := .none }
  | immediateTrack {seq : Seq} {seg rest : Bytes} {now : Nat} {sendOk : Bool}
      (h : s.writer = .immediateTracking seq seg rest) :
      Acts s (.immediateTrack now sendOk) { s.track seq seg now with
        writer := if sendOk then .immediate rest else .none }
  | close : Acts s .close { s with closers := .entered :: s.closers }
  | closer {c c' : Closer} {stopping : Bool} {now : Nat} (hc : c ∈ s.closers)
      (hfin : c.fin = none) (hfin' : c'.fin = none)
      (hsizes : s.sizes (.closer c stopping now) = []) :
      Acts s (.closer c stopping now) { s with closers := c' :: s.closers.erase c }
  | takeAll {tries : Nat} {stopping : Bool} {now : Nat} (hc : .trying tries ∈ s.closers)
      (hfree : s.holder = .none) :
      Acts s (.closer (.trying tries) stopping now) { s with
        closers := s.closers.erase (.trying tries)
        nagleBuf := []
        holder := .closer s.nagleBuf .top }
  | reserveFIN {hold stopping : Bool} {now : Nat} (hc : .reserving hold ∈ s.closers)
      (hestablished : s.established = true) :
      Acts s (.closer (.reserving hold) stopping now) { s with
        conn := { s.conn with
          sendSeq := s.conn.sendSeq + 1
          heldFIN := if hold then some s.conn.sendSeq else s.conn.heldFIN }
        next := s.next + 1
        fins := s.fins ++ [s.next]
        closers := (if hold then .finishing else .sendingFIN s.conn.sendSeq) ::
          s.closers.erase (.reserving hold) }
  | closerFIN {seq : Seq} {stopping : Bool} {now : Nat} (hc : .sendingFIN seq ∈ s.closers) :
      Acts s (.closer (.sendingFIN seq) stopping now) { s.sendFIN seq now with
        closers := .finishing :: s.closers.erase (.sendingFIN seq) }
  | finishing {stopping : Bool} {now : Nat} (hc : .finishing ∈ s.closers) :
      Acts s (.closer .finishing stopping now) { s with
        conn := { s.conn with state := .finWait }
        closers := s.closers.erase .finishing }
  | releaseHeldFIN {seq : Seq} {released : List Seq} (h : s.conn.heldFIN = some seq)
      (hreleased : s.conn.state = .timeWait ∨ s.conn.state = .closed ∨ released = seq :: s.released) :
      Acts s .releaseHeldFIN { s with conn := { s.conn with heldFIN := none }, released }
  | sendFIN {seq : Seq} {now : Nat} (h : seq ∈ s.released) :
      Acts s (.sendFIN seq now) { s.sendFIN seq now with released := s.released.erase seq }
  | processAck {ack : Seq} {pureACK : Bool} {now : Nat} :
      Acts s (.processAck ack pureACK now) (s.setConn (s.conn.processAck ack pureACK now).1)
  | processSACK {blocks : List SACKBlock} :
      Acts s (.processSACK blocks) (s.setConn (s.conn.processSACK blocks))
  | retransmitUnacked {now draw : Nat} :
      Acts s (.retransmitUnacked now draw) (s.setConn (s.conn.retransmitUnacked now draw).1)
  | setState {state : ConnState} (h : state ≠ .established) :
      Acts s (.setState state) (s.setConn { s.conn with state := state })

namespace Acts

variable (s : Sending)

theorem look : Acts s .look s.look := by
  unfold Sending.look
  split
  next force h =>
    unfold lookWriter
    rw [endFlush_eq]
    split
    next hempty => exact .drained h hempty
    next hne =>
      split
      next hfull => exact .takeFull h hne hfull
      next hshort =>
        split
        next hhold =>
          cases force with
          | true => cases hhold
          | false => exact .hold h (Nat.lt_of_not_le hshort) hne
        next => exact .takeTail h hne
  next force h =>
    unfold lookFlusher
    split
    next hempty => exact .flusherDone h hempty
    next hne =>
      split
      · exact .flusherHolds h hne
      · exact .flusherTakes h hne
  next rest h =>
    unfold lookCloser
    split
    next hempty =>
      rw [hempty] at h
      exact .closerDone h
    next hne => exact .closerTakes h hne
  next => exact .stay {}

theorem reserveNext (window : Bool) : Acts s (.reserve window) (s.reserveNext window) := by
  unfold Sending.reserveNext
  split
  next h =>
    cases window with
    | true => exact .reserveWriter h
    | false => exact .stay { numbered := by simp [numbered, h], sizes := by simp [sizes, numbered, h] }
  next h => exact .reserveFlusher h
  next h => exact .reserveCloser h
  next =>
    exact .stay {
      numbered := by simp only [numbered]
      sizes := by simp only [sizes, numbered, List.map_nil] }

theorem trackNext (now : Nat) (sendOk : Bool) : Acts s (.track now sendOk) (s.trackNext now sendOk) := by
  unfold Sending.trackNext
  split
  next tail h =>
    simp only [endFlush_eq]
    cases sendOk with
    | false => exact .trackFailed h
    | true =>
      cases tail with
      | true => exact .trackTail h
      | false => exact .trackFull h
  next h => exact .trackFlusher h
  next h => exact .trackCloser h
  next hwriter hflusher hcloser =>
    exact .stay { sends := Holder.reserved_eq_nil hwriter hflusher hcloser }

theorem returnedNext {rest : Bytes} {tailNow : Bool} {err : Option SendError}
    (h : s.writer = .flushed rest tailNow err) : Acts s .returned (s.returned rest tailNow err) := by
  unfold Sending.returned
  split
  · exact .returned h (.inl ⟨rfl, by simp [result, h]⟩)
  · split
    next hopen => exact .returned h (.inr ⟨by simp [result, h, hopen], .inl ⟨rfl, rfl⟩⟩)
    next hclosed => exact .returned h (.inl ⟨rfl, by simp [result, h, hclosed]⟩)
  · split
    next hmore => exact .returned h (.inr ⟨by simp [result, h, hmore], .inr ⟨rfl, hmore.1, rfl⟩⟩)
    next hover =>
      refine .returned h (.inl ⟨rfl, ?_⟩)
      by_cases hempty : rest = []
      · simp [result, h, hempty]
      · simp [result, h, hempty, show ¬ s.established = true from fun hopen => hover ⟨hempty, hopen⟩]

theorem closerNext {c : Closer} (stopping : Bool) (now : Nat) (hc : c ∈ s.closers) :
    Acts s (.closer c stopping now)
      ({ s with closers := s.closers.erase c }.closerNext stopping now c) := by
  cases c with
  | entered =>
    refine .closer hc rfl ?_ rfl
    split <;> rfl
  | trying tries =>
    unfold Sending.closerNext
    dsimp only
    split
    next hfree => exact .takeAll hc hfree
    next =>
      refine .closer hc rfl ?_ rfl
      split <;> rfl
  | tailSent => exact .closer hc rfl rfl rfl
  | reserving hold =>
    unfold Sending.closerNext
    dsimp only
    split
    next hestablished =>
      have hreserved : Acts s (.closer (.reserving hold) stopping now) _ :=
        .reserveFIN hc hestablished
      unfold Sending.reserveFIN
      cases hold <;> exact hreserved
    next hclosed => exact .closer hc rfl rfl (if_neg fun h => hclosed h.2)
  | sendingFIN seq => exact .closerFIN hc
  | finishing => exact .finishing hc

theorem releaseNext : Acts s .releaseHeldFIN s.releaseHeldFIN := by
  unfold Sending.releaseHeldFIN
  split
  · exact .stay {}
  next h =>
    split
    next hover => exact .releaseHeldFIN h (hover.imp_right .inl)
    next => exact .releaseHeldFIN h (.inr (.inr rfl))

end Acts

theorem step_acts (s : Sending) (i : Input) : Acts s i (s.step i) := by
  cases i <;> simp only [step]
  case look => exact .look s
  case reserve window => exact .reserveNext s window
  case track now sendOk => exact .trackNext s now sendOk
  case releaseHeldFIN => exact .releaseNext s
  case close => exact .close
  case processAck ack pureACK now => exact .processAck
  case processSACK blocks => exact .processSACK
  case retransmitUnacked now draw => exact .retransmitUnacked
  case enter data =>
    split
    · exact .enter
    · exact .stay {}
  case lockWrite data =>
    split
    next h =>
      split
      next hqueued =>
        unfold lockWrite
        split
        next hestablished => exact .lockWrite h hqueued hestablished
        next hclosed => exact .lockClosed h hqueued (Bool.eq_false_iff.mpr hclosed)
      next hqueued => exact .stay { begins := by simp [begins, h, hqueued] }
    next => exact .stay { begins := by simp only [begins] }
  case sendDataPiece =>
    split
    next h =>
      rw [sendDataPiece_eq]
      split
      next hfull => exact .bufFull h hfull
      next hfits => exact .buffer h hfits
    next => exact .stay { taken := by simp only [taken], result := by simp only [result] }
  case lockSend =>
    split
    next h hfree => exact .lockSend h hfree
    next => exact .stay {}
  case returned =>
    split
    next h => exact .returnedNext s h
    next hother =>
      refine .stay { result := ?_ }
      unfold result
      dsimp only
      split <;> first | rfl | exact (hother _ _ _ ‹_›).elim
  case wake force timer =>
    split
    next hfree =>
      split
      next hmem => exact .wake hmem hfree
      next => exact .stay {}
    next => exact .stay {}
  case stopFlusher force =>
    split
    · exact .stopFlusher
    · exact .stay {}
  case giveUp probed =>
    split
    next h =>
      rw [endFlush_eq, abort_eq]
      exact .giveUp h
    next => exact .stay { dropped := by simp only [dropped] }
  case immediateNext =>
    split
    next h =>
      split
      next hempty => exact .immediateNext h (.inl ⟨rfl, hempty⟩)
      next hne => exact .immediateNext h (.inr ⟨hne, rfl⟩)
    next => exact .stay { result := by simp only [result] }
  case immediateReserve window =>
    split
    next h =>
      cases window with
      | true => exact .immediateReserve h
      | false =>
        exact .stay {
          numbered := by simp [numbered, h]
          sizes := by simp [sizes, numbered, h]
          taken := by simp [taken, h] }
    next =>
      exact .stay {
        numbered := by simp only [numbered]
        sizes := by simp only [sizes, numbered, List.map_nil]
        taken := by simp only [taken] }
  case immediateGiveUp probed =>
    split
    next h =>
      rw [abort_eq]
      exact .immediateGiveUp h
    next => exact .stay { result := by simp only [result] }
  case immediateTrack now sendOk =>
    split
    next h => exact .immediateTrack h
    next => exact .stay { sends := by simp only [sends, Writer.reserved], result := by simp only [result] }
  case closer c stopping now =>
    split
    next hc => exact .closerNext s stopping now hc
    next hnone =>
      refine .stay { sizes := ?_ }
      unfold sizes
      split
      next heq =>
        cases heq
        exact if_neg fun h => hnone h.1
      next => rfl
  case sendFIN seq now =>
    split
    next h => exact .sendFIN h
    next => exact .stay {}
  case setState state =>
    split
    · exact .stay {}
    next h => exact .setState h

end Sending

end PilotProtocol.Stream
