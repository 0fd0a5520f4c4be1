import PilotProtocol.Library.Intervals
import PilotProtocol.Stream.AnyPeer
import PilotProtocol.Stream.SACK

/-! # SACK blocks and the reorder buffer

Seen from `ExpectedSeq` a buffered segment is an interval of offsets. As long as the offsets
stay in the lower half of the sequence space, the wrapping comparisons order them, and the
merge of `SACKBlocks` is the merge of intervals.
-/

namespace PilotProtocol.Stream

open Library Intervals

/-! ## Offsets -/

def offset (expected seq : Seq) : Nat := (seq - expected).toNat

theorem wrap_offset (expected seq : Seq) : wrap (expected.toNat + offset expected seq) = seq := by
  unfold wrap offset
  rw [UInt32.ofNat_add, UInt32.ofNat_toNat, UInt32.ofNat_toNat, add_sub_cancel]

theorem offset_inj {expected a b : Seq} (h : offset expected a = offset expected b) : a = b := by
  rw [← wrap_offset expected a, h, wrap_offset]

section Compare

variable {expected a b : Seq} (hnear : Near (offset expected a) (offset expected b))
include hnear

theorem seqAfter_offset : seqAfter a b = decide (offset expected b < offset expected a) := by
  have h := seqAfter_wrap (hnear.add_left expected.toNat)
  rw [wrap_offset, wrap_offset] at h
  rw [h, decide_eq_decide]
  omega

theorem seqAfterOrEqual_offset :
    seqAfterOrEqual a b = decide (offset expected b ≤ offset expected a) := by
  have h := seqAfterOrEqual_wrap (hnear.add_left expected.toNat)
  rw [wrap_offset, wrap_offset] at h
  rw [h, decide_eq_decide]
  omega

end Compare

def SACKBlock.range (expected : Seq) (b : SACKBlock) : Nat × Nat :=
  (offset expected b.left, offset expected b.right)

def RecvSegment.range (expected : Seq) (seg : RecvSegment) : Nat × Nat :=
  (offset expected seg.seq, offset expected seg.seq + seg.data.length)

/-- The segment starts within half the sequence space after `expected` and holds some bytes,
fewer than half the sequence space. -/
def RecvSegment.Ahead (expected : Seq) (seg : RecvSegment) : Prop :=
  offset expected seg.seq < 2 ^ 31 ∧ seg.data ≠ [] ∧ seg.data.length < 2 ^ 31

instance (expected : Seq) (seg : RecvSegment) : Decidable (seg.Ahead expected) :=
  inferInstanceAs (Decidable (_ ∧ _ ∧ _))

theorem RecvSegment.offset_endSeq {expected : Seq} {seg : RecvSegment} (h : seg.Ahead expected) :
    offset expected seg.endSeq = offset expected seg.seq + seg.data.length := by
  obtain ⟨hoff, -, hlen⟩ := h
  have hsplit : seg.endSeq - expected = (seg.seq - expected) + UInt32.ofNat seg.data.length :=
    add_sub_right_comm _ _ _
  unfold offset at hoff ⊢
  rw [hsplit, UInt32.toNat_add, UInt32.toNat_ofNat']
  omega

/-! ## The sort -/

namespace Receiver

variable {r : Receiver} {expected : Seq}

theorem notAfter_iff {a b : RecvSegment} (ha : a.Ahead expected) (hb : b.Ahead expected) :
    notAfter a b ↔ offset expected a.seq ≤ offset expected b.seq := by
  have hnear : Near (offset expected a.seq) (offset expected b.seq) :=
    ⟨by have := ha.1; omega, by have := hb.1; omega⟩
  unfold notAfter
  rw [seqAfter_offset hnear, decide_eq_false_iff_not, Nat.not_lt]

theorem pairwise_offset {buf : List RecvSegment} (hahead : ∀ seg ∈ buf, seg.Ahead expected) :
    (buf.insertionSort notAfter).Pairwise
      fun a b => offset expected a.seq ≤ offset expected b.seq := by
  have hmap := List.map_insertionSort (r := notAfter) (s := fun m n : Nat => m ≤ n)
    (fun seg => offset expected seg.seq) buf fun a ha b hb => notAfter_iff (hahead a ha) (hahead b hb)
  have hsorted := List.pairwise_insertionSort (fun m n : Nat => m ≤ n)
    (buf.map fun seg => offset expected seg.seq)
  rw [← hmap] at hsorted
  exact List.pairwise_map.mp hsorted

theorem sorted_unique {buf sorted : List RecvSegment} (hahead : ∀ seg ∈ buf, seg.Ahead expected)
    (hdistinct : (buf.map (·.seq)).Nodup) (hperm : sorted.Perm buf)
    (hsorted : sorted.Pairwise notAfter) : sorted = buf.insertionSort notAfter := by
  have hmem : ∀ seg ∈ sorted, seg ∈ buf := fun seg => hperm.mem_iff.mp
  have hoffsets : sorted.Pairwise fun a b => offset expected a.seq ≤ offset expected b.seq :=
    hsorted.imp_of_mem fun ha hb h =>
      (notAfter_iff (hahead _ (hmem _ ha)) (hahead _ (hmem _ hb))).mp h
  apply List.Perm.eq_of_pairwise ?_ hoffsets (pairwise_offset hahead)
    (hperm.trans (List.perm_insertionSort notAfter buf).symm)
  intro a b ha hb hab hba
  apply List.inj_on_of_nodup_map hdistinct (hmem a ha)
    ((List.perm_insertionSort notAfter buf).mem_iff.mp hb)
  exact offset_inj (Nat.le_antisymm hab hba)

/-! ## The merge -/

theorem range_extend {cur : SACKBlock} {seg : RecvSegment} (hseg : seg.Ahead expected)
    (hnear : Near (offset expected seg.endSeq) (offset expected cur.right)) :
    (if seqAfter seg.endSeq cur.right then { cur with right := seg.endSeq } else cur).range expected =
      ((cur.range expected).1, max (cur.range expected).2 (seg.range expected).2) := by
  have hend : (seg.range expected).2 = offset expected seg.endSeq :=
    (RecvSegment.offset_endSeq hseg).symm
  rw [seqAfter_offset hnear, hend]
  by_cases hgrow : offset expected cur.right < offset expected seg.endSeq
  · rw [if_pos (decide_eq_true hgrow)]
    exact Prod.ext rfl (Nat.max_eq_right (Nat.le_of_lt hgrow)).symm
  · rw [if_neg (by simpa using hgrow)]
    exact Prod.ext rfl (Nat.max_eq_left (Nat.le_of_not_lt hgrow)).symm

/-- On offsets the merge of the source is the merge of intervals, if the current block ends
less than half the sequence space after each segment that is left. -/
theorem range_mergeBlocks {cur : SACKBlock} {segs : List RecvSegment}
    (hahead : ∀ seg ∈ segs, seg.Ahead expected)
    (hsorted : segs.Pairwise fun a b => offset expected a.seq ≤ offset expected b.seq)
    (hright : ∀ seg ∈ segs, (cur.range expected).2 < offset expected seg.seq + 2 ^ 31) :
    (mergeBlocks cur segs).map (·.range expected) =
      merge (cur.range expected) (segs.map (·.range expected)) := by
  induction segs generalizing cur with
  | nil => rfl
  | cons seg rest ih =>
    have hseg := hahead seg (.head _)
    have hrest : ∀ x ∈ rest, x.Ahead expected := fun x hx => hahead x (.tail _ hx)
    obtain ⟨hfirst, hpairwise⟩ := List.pairwise_cons.mp hsorted
    have hcur : offset expected cur.right < offset expected seg.seq + 2 ^ 31 := hright seg (.head _)
    have hoff := hseg.1
    have hlen := hseg.2.2
    have hend := RecvSegment.offset_endSeq hseg
    have hnear : Near (offset expected cur.right) (offset expected seg.seq) := ⟨by omega, by omega⟩
    have hends : ∀ x ∈ rest, (seg.range expected).2 < offset expected x.seq + 2 ^ 31 := by
      intro x hx
      have hle := hfirst x hx
      show offset expected seg.seq + seg.data.length < _
      omega
    rw [List.map_cons]
    unfold mergeBlocks merge
    have hmeets : seqAfterOrEqual cur.right seg.seq =
        decide ((seg.range expected).1 ≤ (cur.range expected).2) := seqAfterOrEqual_offset hnear
    simp only [hmeets, decide_eq_true_eq]
    by_cases htouch : (seg.range expected).1 ≤ (cur.range expected).2
    · have hnear' : Near (offset expected seg.endSeq) (offset expected cur.right) := by
        have hle : offset expected seg.seq ≤ offset expected cur.right := htouch
        exact ⟨by omega, by omega⟩
      rw [if_pos htouch, if_pos htouch, ih hrest hpairwise,
        range_extend hseg hnear']
      intro x hx
      rw [range_extend hseg hnear']
      exact Nat.max_lt.mpr ⟨hright x (.tail _ hx), hends x hx⟩
    · have hblock : (SACKBlock.mk seg.seq seg.endSeq).range expected = seg.range expected :=
        Prod.ext rfl hend
      rw [if_neg htouch, if_neg htouch, List.map_cons, ih hrest hpairwise, hblock]
      rwa [hblock]

/-- The blocks before the list is cut to the four highest. -/
def mergedBlocks (r : Receiver) : List SACKBlock :=
  match r.oooBuf.insertionSort notAfter with
  | [] => []
  | first :: rest => mergeBlocks ⟨first.seq, first.endSeq⟩ rest

theorem sackBlocks_eq_drop (r : Receiver) :
    r.sackBlocks = r.mergedBlocks.drop (r.mergedBlocks.length - maxSACKBlocks) := by
  unfold sackBlocks mergedBlocks
  cases r.oooBuf.insertionSort notAfter with
  | nil | cons first rest => rfl

theorem length_sackBlocks (r : Receiver) :
    r.sackBlocks.length = min maxSACKBlocks r.mergedBlocks.length := by
  rw [sackBlocks_eq_drop, List.length_drop]
  omega

theorem range_mergedBlocks (hahead : ∀ seg ∈ r.oooBuf, seg.Ahead r.expectedSeq) :
    r.oooBuf = [] ∧ r.mergedBlocks = [] ∨
    ∃ first rest, (r.oooBuf.insertionSort notAfter).map (·.range r.expectedSeq) = first :: rest ∧
      r.mergedBlocks.map (·.range r.expectedSeq) = merge first rest := by
  have hperm := List.perm_insertionSort notAfter r.oooBuf
  have hsorted := pairwise_offset hahead
  unfold mergedBlocks
  cases hsort : r.oooBuf.insertionSort notAfter with
  | nil =>
    rw [hsort] at hperm
    exact .inl ⟨hperm.symm.eq_nil, rfl⟩
  | cons first rest =>
    rw [hsort] at hperm hsorted
    have hin : ∀ seg ∈ first :: rest, seg.Ahead r.expectedSeq :=
      fun seg hseg => hahead seg (hperm.mem_iff.mp hseg)
    have hfirst := hin first (.head _)
    obtain ⟨hle, hpairwise⟩ := List.pairwise_cons.mp hsorted
    have hblock : (SACKBlock.mk first.seq first.endSeq).range r.expectedSeq =
        first.range r.expectedSeq := Prod.ext rfl (RecvSegment.offset_endSeq hfirst)
    refine .inr ⟨_, _, rfl, ?_⟩
    rw [range_mergeBlocks (fun seg hseg => hin seg (.tail _ hseg)) hpairwise, hblock]
    intro seg hseg
    have hfrom := hle seg hseg
    have hlen := hfirst.2.2
    rw [hblock]
    show offset r.expectedSeq first.seq + first.data.length < _
    omega

end Receiver

/-! ## What the blocks say -/

/-- The numbers from the left end up to the right one, around the sequence space. -/
def SACKBlock.Covers (b : SACKBlock) (p : Seq) : Prop := offset b.left p < offset b.left b.right

def RecvSegment.Covers (seg : RecvSegment) (p : Seq) : Prop := offset seg.seq p < seg.data.length

theorem offset_eq (expected a p : Seq) :
    offset a p = (2 ^ 32 - offset expected a + offset expected p) % 2 ^ 32 := by
  unfold offset
  rw [← UInt32.toNat_sub, sub_sub_sub_cancel_right]

theorem offset_lt (expected p : Seq) : offset expected p < 2 ^ 32 := (p - expected).toNat_lt

theorem SACKBlock.covers_iff {expected : Seq} {b : SACKBlock}
    (h : (b.range expected).1 < (b.range expected).2) (p : Seq) :
    b.Covers p ↔ (b.range expected).1 ≤ offset expected p ∧ offset expected p < (b.range expected).2 := by
  have hp := offset_lt expected p
  have hright := offset_lt expected b.right
  unfold SACKBlock.Covers SACKBlock.range at *
  rw [offset_eq expected b.left p, offset_eq expected b.left b.right]
  omega

theorem RecvSegment.covers_iff {expected : Seq} {seg : RecvSegment} (h : seg.Ahead expected) (p : Seq) :
    seg.Covers p ↔
      (seg.range expected).1 ≤ offset expected p ∧ offset expected p < (seg.range expected).2 := by
  obtain ⟨hoff, -, hlen⟩ := h
  have hp := offset_lt expected p
  unfold RecvSegment.Covers RecvSegment.range
  rw [offset_eq expected seg.seq p]
  omega

namespace Receiver

variable {r : Receiver}

section Merged

variable (hahead : ∀ seg ∈ r.oooBuf, seg.Ahead r.expectedSeq)
include hahead

theorem sorted_ranges :
    ((r.oooBuf.insertionSort notAfter).map (·.range r.expectedSeq)).Pairwise fun i j => i.1 ≤ j.1 :=
  List.pairwise_map.mpr (pairwise_offset hahead)

theorem mergedBlocks_left_lt_right :
    ∀ b ∈ r.mergedBlocks, (b.range r.expectedSeq).1 < (b.range r.expectedSeq).2 := by
  intro b hb
  rcases range_mergedBlocks hahead with ⟨-, hnone⟩ | ⟨first, rest, hsegs, hblocks⟩
  · simp [hnone] at hb
  · have hin : ∀ i ∈ first :: rest, i.1 < i.2 := by
      intro i hi
      rw [← hsegs, List.mem_map] at hi
      obtain ⟨seg, hseg, rfl⟩ := hi
      have hpos := List.length_pos_of_ne_nil (hahead seg (List.mem_insertionSort _ |>.mp hseg)).2.1
      exact Nat.lt_add_of_pos_right hpos
    have hmem : b.range r.expectedSeq ∈ merge first rest := by
      rw [← hblocks]
      exact List.mem_map_of_mem hb
    exact left_lt_right_of_mem_merge (hin first (.head _))
      (fun i hi => hin i (.tail _ hi)) _ hmem

theorem mergedBlocks_apart :
    r.mergedBlocks.Pairwise fun b b' => (b.range r.expectedSeq).2 < (b'.range r.expectedSeq).1 := by
  rcases range_mergedBlocks hahead with ⟨-, hnone⟩ | ⟨first, rest, hsegs, hblocks⟩
  · rw [hnone]
    exact .nil
  · have hsorted := sorted_ranges hahead
    rw [hsegs] at hsorted
    have hapart : (merge first rest).Pairwise fun i j => i.2 < j.1 :=
      merge_apart (List.pairwise_cons.mp hsorted).2
    rw [← hblocks] at hapart
    exact List.pairwise_map.mp hapart

theorem mergedBlocks_covers (p : Seq) :
    (∃ b ∈ r.mergedBlocks, b.Covers p) ↔ ∃ seg ∈ r.oooBuf, seg.Covers p := by
  have hleft : (∃ b ∈ r.mergedBlocks, b.Covers p) ↔
      Covered (r.mergedBlocks.map (·.range r.expectedSeq)) (offset r.expectedSeq p) := by
    rw [covered_map]
    exact exists_congr fun b => and_congr_right fun hb =>
      SACKBlock.covers_iff (mergedBlocks_left_lt_right hahead b hb) p
  have hright : (∃ seg ∈ r.oooBuf, seg.Covers p) ↔
      Covered ((r.oooBuf.insertionSort notAfter).map (·.range r.expectedSeq))
        (offset r.expectedSeq p) := by
    rw [covered_map]
    refine exists_congr fun seg => ?_
    rw [List.mem_insertionSort]
    exact and_congr_right fun hseg => RecvSegment.covers_iff (hahead seg hseg) p
  rw [hleft, hright]
  rcases range_mergedBlocks hahead with ⟨hempty, hnone⟩ | ⟨first, rest, hsegs, hblocks⟩
  · rw [hempty, hnone]
    exact Iff.rfl
  · have hsorted := sorted_ranges hahead
    rw [hsegs] at hsorted
    obtain ⟨hfirst, hrest⟩ := List.pairwise_cons.mp hsorted
    rw [hsegs, hblocks]
    exact covered_merge hfirst hrest

end Merged

theorem decodeSACK_encodeSACK_sackBlocks (r : Receiver) :
    (decodeSACK (encodeSACK r.sackBlocks)).getD [] = r.sackBlocks := by
  by_cases hnone : r.sackBlocks = []
  · rw [hnone]
    rfl
  · have hlen := length_sackBlocks r
    rw [decodeSACK_encodeSACK hnone (by omega)]
    rfl

/-- The merged blocks are increasing with a gap between any two, and they cover what the
buffered segments cover; the last four of them are returned and survive the encoding.
Whatever algorithm sorts the segments, the order is the one of the model. -/
theorem sackBlocks_exact (r : Receiver) (hdistinct : (r.oooBuf.map (·.seq)).Nodup)
    (hahead : ∀ seg ∈ r.oooBuf, seg.Ahead r.expectedSeq) :
    (∀ sorted : List RecvSegment, sorted.Perm r.oooBuf → sorted.Pairwise notAfter →
      sorted = r.oooBuf.insertionSort notAfter) ∧
    (∀ b ∈ r.mergedBlocks, offset r.expectedSeq b.left < offset r.expectedSeq b.right) ∧
    (r.mergedBlocks.Pairwise fun b b' => offset r.expectedSeq b.right < offset r.expectedSeq b'.left) ∧
    (∀ p, (∃ b ∈ r.mergedBlocks, b.Covers p) ↔ ∃ seg ∈ r.oooBuf, seg.Covers p) ∧
    r.sackBlocks = r.mergedBlocks.drop (r.mergedBlocks.length - maxSACKBlocks) ∧
    r.sackBlocks.length = min maxSACKBlocks r.mergedBlocks.length ∧
    (decodeSACK (encodeSACK r.sackBlocks)).getD [] = r.sackBlocks :=
  ⟨fun _ hperm hsorted => sorted_unique hahead hdistinct hperm hsorted,
    mergedBlocks_left_lt_right hahead, mergedBlocks_apart hahead, mergedBlocks_covers hahead,
    sackBlocks_eq_drop r, length_sackBlocks r, decodeSACK_encodeSACK_sackBlocks r⟩

/-- Six segments across the wrap of the sequence space: one nested in another, one overlapping
it, one that abuts, three alone. -/
def scattered : Receiver where
  expectedSeq := 4294967290
  oooBuf := [⟨4294967295, [5, 6, 7, 8]⟩, ⟨4294967292, [2]⟩, ⟨1, [7]⟩, ⟨2, [8, 9]⟩, ⟨4, [10]⟩,
    ⟨7, [13]⟩, ⟨10, [16]⟩, ⟨13, [19]⟩]
  recvClosed := false
  recvBuf := []

theorem scattered_blocks : (scattered.mergedBlocks.map fun b => (b.left, b.right)) =
      [(4294967292, 4294967293), (4294967295, 5), (7, 8), (10, 11), (13, 14)] ∧
    (decodeSACK (encodeSACK scattered.sackBlocks)).getD [] = scattered.sackBlocks ∧
    scattered.sackBlocks.length = 4 := by
  obtain ⟨-, -, -, -, -, hlength, hdecode⟩ := sackBlocks_exact scattered (by decide) (by decide)
  exact ⟨by decide, hdecode, hlength⟩

end Receiver

/-! ## Reached buffers -/

theorem Receiver.mem_collect {r : Receiver} {seq : Seq} {data : Bytes} {k : Nat} {x : RecvSegment}
    (hx : x ∈ (r.collect seq data).2 ++ (r.collect seq data).1.drop k) :
    x ∈ r.oooBuf ∨ x = ⟨seq, data⟩ := by
  unfold collect at hx
  split at hx
  next =>
    have hperm := drain_perm r.oooBuf.length (endSeq seq data) r.oooBuf
    rw [hperm.mem_iff, List.mem_append]
    rcases List.mem_append.mp hx with hrest | hback
    · exact .inl (.inr hrest)
    · rcases List.mem_cons.mp (List.mem_of_mem_drop hback) with hfirst | hdrained
      · exact .inr hfirst
      · exact .inl (.inl hdrained)
  next =>
    split at hx
    · simpa using hx
    · rw [List.drop_nil, List.append_nil] at hx
      exact .inl hx

namespace Reassembly

/-- The payloads of packets: not empty, with a length of sixteen bits. -/
def Input.Payload : Input → Prop
  | .deliverInOrder _ data _ => data ≠ [] ∧ data.length ≤ maxPayload
  | .closeRecvBuf => True

theorem step_payload (s : Reassembly) (i : Input)
    (hs : ∀ seg ∈ s.receiver.oooBuf, seg.data ≠ [] ∧ seg.data.length ≤ maxPayload) (hi : i.Payload) :
    ∀ seg ∈ (s.step i).receiver.oooBuf, seg.data ≠ [] ∧ seg.data.length ≤ maxPayload := by
  intro seg hseg
  cases i with
  | closeRecvBuf => exact hs seg hseg
  | deliverInOrder seq data accepted =>
    unfold step Receiver.deliverInOrder at hseg
    dsimp only at hseg
    split at hseg
    · exact hs seg hseg
    · rcases Receiver.mem_collect (List.mem_filter.mp hseg).1 with hold | rfl
      · exact hs seg hold
      · exact hi

theorem reached_ahead (start : Seq) (inputs : List Input) (hpayload : ∀ i ∈ inputs, i.Payload) :
    let r := (inputs.foldl step (fresh start)).receiver
    (r.oooBuf.map (·.seq)).Nodup ∧ ∀ seg ∈ r.oooBuf, seg.Ahead r.expectedSeq := by
  have h : Inv start (inputs.foldl step (fresh start)) :=
    run_invariant_all (Inv start) (fun s i hs => hs.step i) inputs (fresh_inv start)
  have hdata : ∀ seg ∈ (inputs.foldl step (fresh start)).receiver.oooBuf,
      seg.data ≠ [] ∧ seg.data.length ≤ maxPayload := by
    apply run_invariant _ step_payload _ (allSteps_of_inputs step (fresh start) hpayload)
    intro seg hseg
    cases hseg
  refine ⟨h.tidy.1, fun seg hseg => ⟨?_, (hdata seg hseg).1, ?_⟩⟩
  · exact (seqAfterOrEqual_iff _ _).mp (h.ahead seg hseg)
  · exact Nat.lt_of_le_of_lt (hdata seg hseg).2 (by decide)

/-- Whatever segments a peer sends, the blocks returned for them are apart, acknowledge
buffered bytes only, all of them if they are fewer than four, and survive the encoding. -/
theorem sackBlocks_reached (start : Seq) (inputs : List Input)
    (hpayload : ∀ i ∈ inputs, i.Payload) :
    let r := (inputs.foldl step (fresh start)).receiver
    (r.sackBlocks.Pairwise fun b b' =>
      offset r.expectedSeq b.right < offset r.expectedSeq b'.left) ∧
    (∀ p, (∃ b ∈ r.sackBlocks, b.Covers p) → ∃ seg ∈ r.oooBuf, seg.Covers p) ∧
    (r.sackBlocks.length < maxSACKBlocks →
      ∀ p, (∃ seg ∈ r.oooBuf, seg.Covers p) → ∃ b ∈ r.sackBlocks, b.Covers p) ∧
    (decodeSACK (encodeSACK r.sackBlocks)).getD [] = r.sackBlocks := by
  intro r
  have hahead := (reached_ahead start inputs hpayload).2
  have hcovers := Receiver.mergedBlocks_covers hahead
  have hlength := r.length_sackBlocks
  have hsub : r.sackBlocks.Sublist r.mergedBlocks := r.sackBlocks_eq_drop ▸ List.drop_sublist _ _
  refine ⟨(Receiver.mergedBlocks_apart hahead).sublist hsub, fun p ⟨b, hb, hp⟩ => ?_, fun hlt p hp => ?_,
    r.decodeSACK_encodeSACK_sackBlocks⟩
  · exact (hcovers p).mp ⟨b, hsub.subset hb, hp⟩
  · rw [hsub.eq_of_length (by omega)]
    exact (hcovers p).mpr hp

theorem sackBlocks_reached_gap :
    let r := ([.deliverInOrder 5 [1, 2] 0, .deliverInOrder 9 [3] 0].foldl step (fresh 0)).receiver
    r.sackBlocks.map (·.right) = [7, 10] ∧ (decodeSACK (encodeSACK r.sackBlocks)).getD [] = r.sackBlocks :=
  ⟨by decide, (sackBlocks_reached 0 _ (by simp [Input.Payload, maxPayload])).2.2.2⟩

end Reassembly

end PilotProtocol.Stream
