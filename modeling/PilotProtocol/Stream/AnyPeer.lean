import PilotProtocol.Stream.Tiling

/-! # Reassembly of whatever arrives

The peer may send any segments at all: overlapping, repeated or at odds with each other.
What the receiver pushes is a chain all the same, each segment beginning where the one before
it ended, because only such segments are collected; and what it puts back into the reorder
buffer it took out of it.
-/

namespace PilotProtocol.Stream

open Library Receiver

/-- The segments follow one another from `start` to `stop`. -/
def Follows : Seq → List RecvSegment → Seq → Prop
  | start, [], stop => start = stop
  | start, seg :: rest, stop => seg.seq = start ∧ Follows seg.endSeq rest stop

theorem Follows.append {start mid stop : Seq} {segs segs' : List RecvSegment}
    (h : Follows start segs mid) (h' : Follows mid segs' stop) : Follows start (segs ++ segs') stop := by
  induction segs generalizing start with
  | nil =>
    cases h
    exact h'
  | cons seg rest ih => exact ⟨h.1, ih h.2⟩

theorem Follows.take {start stop : Seq} {segs : List RecvSegment} (h : Follows start segs stop)
    (k : Nat) : Follows start (segs.take k) ((segs.take k).foldl (fun _ seg => seg.endSeq) start) := by
  induction segs generalizing start k with
  | nil =>
    rw [List.take_nil]
    rfl
  | cons seg rest ih =>
    cases k with
    | zero => rfl
    | succ k => exact ⟨h.1, ih h.2 k⟩

theorem Follows.stop_eq {start stop : Seq} {segs : List RecvSegment} (h : Follows start segs stop) :
    stop = start + UInt32.ofNat (totalLength segs) := by
  induction segs generalizing start with
  | nil =>
    rw [totalLength_nil, show UInt32.ofNat 0 = 0 from rfl, add_zero]
    exact h.symm
  | cons seg rest ih =>
    rw [ih h.2, totalLength_cons, UInt32.ofNat_add, ← add_assoc, ← h.1]
    rfl

/-! ## The drain loop -/

/-- The variables of the loop of phase 1. -/
structure DrainState where
  nextSeq : Seq
  toDeliver : List RecvSegment
  oooBuf : List RecvSegment

/-- One turn: the first segment found at `nextSeq` moves; `none` is the break. -/
def DrainState.turn (st : DrainState) : Option DrainState :=
  match st.oooBuf.find? (·.seq == st.nextSeq) with
  | none => none
  | some seg =>
    some ⟨seg.endSeq, st.toDeliver ++ [seg], st.oooBuf.eraseP (·.seq == st.nextSeq)⟩

/-- The loop, entered at the first state, breaks at the second. -/
inductive DrainsTo : DrainState → DrainState → Prop
  | stop {st : DrainState} (h : st.turn = none) : DrainsTo st st
  | turn {st st' out : DrainState} (h : st.turn = some st') (hrest : DrainsTo st' out) :
      DrainsTo st out

theorem drainsTo_drain {turns : Nat} (nextSeq : Seq) (front : List RecvSegment)
    {buf : List RecvSegment} (h : buf.length ≤ turns) : ∃ stop, DrainsTo ⟨nextSeq, front, buf⟩
      ⟨stop, front ++ (drain turns nextSeq buf).1, (drain turns nextSeq buf).2⟩ := by
  induction turns generalizing nextSeq front buf with
  | zero =>
    have hnil : buf = [] := List.length_eq_zero_iff.mp (Nat.le_zero.mp h)
    subst hnil
    unfold drain
    rw [List.append_nil]
    exact ⟨nextSeq, .stop rfl⟩
  | succ turns ih =>
    unfold drain
    cases hf : buf.find? (·.seq == nextSeq) with
    | none =>
      rw [List.append_nil]
      refine ⟨nextSeq, .stop ?_⟩
      simp only [DrainState.turn, hf]
    | some seg =>
      have herase := eraseP_length_of_find? hf
      have hturns : (buf.eraseP (·.seq == nextSeq)).length ≤ turns := by omega
      obtain ⟨stop, hrest⟩ := ih seg.endSeq (front ++ [seg]) hturns
      rw [List.append_assoc, List.singleton_append] at hrest
      refine ⟨stop, .turn ?_ hrest⟩
      simp only [DrainState.turn, hf]

theorem drain_follows (turns : Nat) (nextSeq : Seq) (buf : List RecvSegment) :
    ∃ stop, Follows nextSeq (drain turns nextSeq buf).1 stop := by
  induction turns generalizing nextSeq buf with
  | zero => exact ⟨nextSeq, rfl⟩
  | succ turns ih =>
    unfold drain
    cases hf : buf.find? (·.seq == nextSeq) with
    | none => exact ⟨nextSeq, rfl⟩
    | some seg =>
      obtain ⟨stop, hrest⟩ := ih seg.endSeq (buf.eraseP (·.seq == nextSeq))
      exact ⟨stop, by simpa using List.find?_some hf, hrest⟩

namespace Receiver

variable {r : Receiver} {seq : Seq} {data : Bytes}

/-- What a call pushes to `RecvBuf`, with the sequence numbers. -/
def pushedBy (r : Receiver) (seq : Seq) (data : Bytes) (accepted : Nat) : List RecvSegment :=
  if r.recvClosed then [] else (r.collect seq data).1.take accepted

theorem deliverInOrder_recvBuf (r : Receiver) (seq : Seq) (data : Bytes) (accepted : Nat) :
    (r.deliverInOrder seq data accepted).1.recvBuf =
      r.recvBuf ++ (r.pushedBy seq data accepted).map (·.data) := by
  unfold deliverInOrder pushedBy
  split
  · rw [List.map_nil, List.append_nil]
  · rfl

theorem collect_follows (r : Receiver) (seq : Seq) (data : Bytes) :
    ∃ stop, Follows r.expectedSeq (r.collect seq data).1 stop := by
  unfold collect
  split
  next heq =>
    obtain ⟨stop, hdrained⟩ := drain_follows r.oooBuf.length (endSeq seq data) r.oooBuf
    exact ⟨stop, heq, hdrained⟩
  next =>
    split
    · exact ⟨r.expectedSeq, rfl⟩
    · exact ⟨r.expectedSeq, rfl⟩

theorem pushedBy_follows (r : Receiver) (seq : Seq) (data : Bytes) (accepted : Nat) :
    Follows r.expectedSeq (r.pushedBy seq data accepted)
      (r.deliverInOrder seq data accepted).1.expectedSeq := by
  unfold deliverInOrder pushedBy
  split
  · rfl
  · obtain ⟨stop, hfollows⟩ := r.collect_follows seq data
    exact hfollows.take accepted

/-- The numbers in the reorder buffer differ, and it is within its bound. -/
def Tidy (buf : List RecvSegment) : Prop := (buf.map (·.seq)).Nodup ∧ buf.length ≤ maxOOOBuf

theorem Tidy.subperm {buf buf' : List RecvSegment} (h : Tidy buf) (hsub : buf'.Subperm buf) :
    Tidy buf' := by
  refine ⟨?_, hsub.length_le.trans h.2⟩
  obtain ⟨mid, hperm, hsublist⟩ := hsub
  exact (hperm.map _).nodup_iff.mp (h.1.sublist (hsublist.map _))

theorem collect_tidy (h : Tidy r.oooBuf) (seq : Seq) (data : Bytes) (accepted : Nat) :
    Tidy ((r.collect seq data).2 ++ (r.collect seq data).1.drop (max accepted 1)) := by
  unfold collect
  split
  next =>
    -- the arriving segment, first in the list, is never put back
    have hperm := drain_perm r.oooBuf.length (endSeq seq data) r.oooBuf
    have hdrop : max accepted 1 = (max accepted 1 - 1) + 1 := by omega
    apply h.subperm
    rw [hdrop, List.drop_succ_cons]
    refine List.Subperm.trans ?_ (List.perm_append_comm.trans hperm.symm).subperm
    exact (List.Sublist.append_left (List.drop_sublist _ _) _).subperm
  next =>
    split
    next hbuffer =>
      simp only [Bool.and_eq_true, Bool.not_eq_true', decide_eq_true_eq] at hbuffer
      obtain ⟨⟨-, hnew⟩, hroom⟩ := hbuffer
      rw [List.drop_nil, List.append_nil]
      refine ⟨?_, ?_⟩
      · rw [List.map_append, List.nodup_append]
        refine ⟨h.1, List.nodup_singleton _, ?_⟩
        rintro x hx y hy rfl
        rw [List.map_singleton, List.mem_singleton] at hy
        obtain ⟨seg, hseg, hseq⟩ := List.mem_map.mp hx
        rw [hy] at hseq
        have hhas : r.hasOOOSeg seq = true := List.any_eq_true.mpr ⟨seg, hseg, beq_iff_eq.mpr hseq⟩
        simp [hhas] at hnew
      · rwa [List.length_append, List.length_singleton]
    next => rwa [List.drop_nil, List.append_nil]

end Receiver

/-! ## Runs -/

/-- A receiver with the segments it has pushed, oldest first. -/
structure Reassembly where
  receiver : Receiver
  pushed : List RecvSegment

namespace Reassembly

inductive Input
  | deliverInOrder (seq : Seq) (data : Bytes) (accepted : Nat)
  | closeRecvBuf

def step (s : Reassembly) : Input → Reassembly
  | .deliverInOrder seq data accepted =>
    { receiver := (s.receiver.deliverInOrder seq data accepted).1
      pushed := s.pushed ++ s.receiver.pushedBy seq data accepted }
  | .closeRecvBuf => { s with receiver := s.receiver.closeRecvBuf }

def fresh (start : Seq) : Reassembly := ⟨⟨start, [], false, []⟩, []⟩

structure Inv (start : Seq) (s : Reassembly) : Prop where
  tidy : Tidy s.receiver.oooBuf
  ahead : ∀ seg ∈ s.receiver.oooBuf, seqAfterOrEqual seg.seq s.receiver.expectedSeq = true
  recvBuf : s.receiver.recvBuf = s.pushed.map (·.data)
  follows : Follows start s.pushed s.receiver.expectedSeq

theorem fresh_inv (start : Seq) : Inv start (fresh start) where
  tidy := ⟨List.nodup_nil, Nat.zero_le _⟩
  ahead := nofun
  recvBuf := rfl
  follows := rfl

theorem Inv.step {start : Seq} {s : Reassembly} (h : Inv start s) (i : Input) :
    Inv start (s.step i) := by
  cases i with
  | closeRecvBuf => exact ⟨h.tidy, h.ahead, h.recvBuf, h.follows⟩
  | deliverInOrder seq data accepted =>
    refine ⟨?_, ?_, ?_, ?_⟩
    · unfold Reassembly.step deliverInOrder
      dsimp only
      split
      · exact h.tidy
      · exact (collect_tidy h.tidy seq data accepted).subperm List.filter_sublist.subperm
    · unfold Reassembly.step deliverInOrder
      dsimp only
      split
      · exact h.ahead
      · exact fun seg hseg => (List.mem_filter.mp hseg).2
    · unfold Reassembly.step
      rw [deliverInOrder_recvBuf, h.recvBuf, List.map_append]
    · exact h.follows.append (s.receiver.pushedBy_follows seq data accepted)

/-- Whatever arrives and whichever deliveries time out, after each call the reorder buffer is
within its bound, its numbers differ and lie at or after `ExpectedSeq`, what has been pushed
is a chain of as many bytes as `ExpectedSeq` has moved, and the loop of a further call
breaks. -/
theorem reassembly_survives_any_peer (start : Seq) (inputs : List Input) :
    let s := inputs.foldl step (fresh start)
    s.receiver.oooBuf.length ≤ maxOOOBuf ∧
    (s.receiver.oooBuf.map (·.seq)).Nodup ∧
    (∀ seg ∈ s.receiver.oooBuf, seqAfterOrEqual seg.seq s.receiver.expectedSeq = true) ∧
    s.receiver.recvBuf = s.pushed.map (·.data) ∧
    Follows start s.pushed s.receiver.expectedSeq ∧
    UInt32.ofNat s.receiver.recvBuf.flatten.length = s.receiver.expectedSeq - start ∧
    ∀ seq data, ∃ stop toDeliver oooBuf,
      DrainsTo ⟨endSeq seq data, [⟨seq, data⟩], s.receiver.oooBuf⟩ ⟨stop, toDeliver, oooBuf⟩ ∧
      (seq = s.receiver.expectedSeq → s.receiver.collect seq data = (toDeliver, oooBuf)) := by
  have h : Inv start (inputs.foldl step (fresh start)) :=
    run_invariant_all (Inv start) (fun s i hs => hs.step i) inputs (fresh_inv start)
  generalize inputs.foldl step (fresh start) = s at h ⊢
  refine ⟨h.tidy.2, h.tidy.1, h.ahead, h.recvBuf, h.follows, ?_, fun seq data => ?_⟩
  · rw [h.recvBuf, h.follows.stop_eq, add_sub_cancel_left]
    rfl
  · obtain ⟨stop, hdrains⟩ := drainsTo_drain (endSeq seq data) [⟨seq, data⟩]
      (Nat.le_refl s.receiver.oooBuf.length)
    refine ⟨stop, _, _, hdrains, fun heq => ?_⟩
    unfold collect
    rw [if_pos heq]
    rfl

end Reassembly

end PilotProtocol.Stream
