import PilotProtocol.Stream.Sender

/-! # The receiving half of a connection

`deliverInOrder` takes one arriving segment through the three phases of the
source: collect what has become contiguous, push it to the receive buffer until
a push times out, commit what was pushed and re-buffer the rest. The receive
buffer is modelled by everything ever pushed to it.
-/

namespace PilotProtocol.Stream

open Library

def maxOOOBuf : Nat := 128

structure RecvSegment where
  seq : Seq
  data : Bytes
  deriving DecidableEq

def RecvSegment.endSeq (seg : RecvSegment) : Seq := Stream.endSeq seg.seq seg.data

structure Receiver where
  expectedSeq : Seq
  oooBuf : List RecvSegment
  recvClosed : Bool
  /-- Every slice pushed to `RecvBuf`, oldest first. -/
  recvBuf : List Bytes

namespace Receiver

def hasOOOSeg (r : Receiver) (seq : Seq) : Bool := r.oooBuf.any (·.seq == seq)

/-- The drain loop: the buffered segments that continue the stream at `nextSeq`, and
the buffer without them. Each turn removes one segment, so the buffer's length
bounds the number of turns. -/
def drain : (turns : Nat) → (nextSeq : Seq) → (buf : List RecvSegment) →
    List RecvSegment × List RecvSegment
  | 0, _, buf => ([], buf)
  | turns + 1, nextSeq, buf =>
    match buf.find? (·.seq == nextSeq) with
    | none => ([], buf)
    | some seg =>
      let (collected, rest) := drain turns seg.endSeq (buf.eraseP (·.seq == nextSeq))
      (seg :: collected, rest)

/-- Phase 1: the segments to deliver and the reorder buffer without them. -/
def collect (r : Receiver) (seq : Seq) (data : Bytes) : List RecvSegment × List RecvSegment :=
  if seq = r.expectedSeq then
    let (collected, rest) := drain r.oooBuf.length (endSeq seq data) r.oooBuf
    (⟨seq, data⟩ :: collected, rest)
  else if seqAfter seq r.expectedSeq && !r.hasOOOSeg seq && decide (r.oooBuf.length < maxOOOBuf) then
    ([], r.oooBuf ++ [⟨seq, data⟩])
  else ([], r.oooBuf)

def dropOOOBefore (expected : Seq) (buf : List RecvSegment) : List RecvSegment :=
  buf.filter fun seg => seqAfterOrEqual seg.seq expected

/-- Phase 3, with `delivered` the number of segments pushed in phase 2. The arriving
segment, at index 0, is never re-buffered: its sender repeats it. -/
def commit (r : Receiver) (toDeliver buf : List RecvSegment) (delivered : Nat) : Receiver :=
  let expected := (toDeliver.take delivered).foldl (fun _ seg => seg.endSeq) r.expectedSeq
  { r with
    expectedSeq := expected
    oooBuf := dropOOOBefore expected (buf ++ toDeliver.drop (max delivered 1))
    recvBuf := r.recvBuf ++ (toDeliver.take delivered).map (·.data) }

/-- `accepted` is the number of pushes that go through before one times out. -/
def deliverInOrder (r : Receiver) (seq : Seq) (data : Bytes) (accepted : Nat) : Receiver × Seq :=
  if r.recvClosed then (r, r.expectedSeq)
  else
    let (toDeliver, buf) := r.collect seq data
    let r' := r.commit toDeliver buf accepted
    (r', r'.expectedSeq)

def closeRecvBuf (r : Receiver) : Receiver := { r with recvClosed := true }

/-! ## What the drain loop does -/

theorem eraseP_length_of_find? {p : RecvSegment → Bool} {buf : List RecvSegment} {seg : RecvSegment}
    (h : buf.find? p = some seg) : (buf.eraseP p).length + 1 = buf.length := by
  have hmem := List.mem_of_find?_eq_some h
  have hp := List.find?_some h
  have hlen := List.length_eraseP_of_mem hmem hp
  have hpos := List.length_pos_of_mem hmem
  omega

theorem drain_length (turns : Nat) (nextSeq : Seq) (buf : List RecvSegment) :
    (drain turns nextSeq buf).1.length + (drain turns nextSeq buf).2.length = buf.length := by
  induction turns generalizing nextSeq buf with
  | zero => simp [drain]
  | succ turns ih =>
    unfold drain
    cases hf : buf.find? (·.seq == nextSeq) with
    | none => simp
    | some seg =>
      have hrest := ih seg.endSeq (buf.eraseP (·.seq == nextSeq))
      have herase := eraseP_length_of_find? hf
      simp only [List.length_cons]
      omega

theorem drain_rest_subset (turns : Nat) (nextSeq : Seq) (buf : List RecvSegment) :
    (drain turns nextSeq buf).2 ⊆ buf := by
  induction turns generalizing nextSeq buf with
  | zero => exact List.Subset.refl buf
  | succ turns ih =>
    unfold drain
    cases buf.find? (·.seq == nextSeq) with
    | none => exact List.Subset.refl buf
    | some seg => exact List.Subset.trans (ih _ _) List.eraseP_subset

end Receiver

end PilotProtocol.Stream
