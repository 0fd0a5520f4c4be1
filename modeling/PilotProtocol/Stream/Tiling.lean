import Mathlib.Data.List.Pairwise
import PilotProtocol.Stream.Delivery

/-! # Whole segments

The transmitted segments lie side by side in the sequence space. The receiver takes them
whole: what it has delivered ends where a segment ends, and each buffered segment is a copy
of a transmitted one. A segment that the receiver has, delivered or in its reorder buffer,
it does not lose again, also where a delivery times out.
-/

namespace PilotProtocol.Stream

open Library

def Ordered (segments : List Segment) : Prop :=
  segments.Pairwise fun a b => a.off + a.data.length ≤ b.off

theorem Ordered.disjoint {segments : List Segment} (h : Ordered segments) {a b : Segment}
    (ha : a ∈ segments) (hb : b ∈ segments) (hne : a ≠ b) :
    a.off + a.data.length ≤ b.off ∨ b.off + b.data.length ≤ a.off := by
  have hsymm : Std.Symm fun a b : Segment =>
      a.off + a.data.length ≤ b.off ∨ b.off + b.data.length ≤ a.off := ⟨fun _ _ => Or.symm⟩
  have hpairwise : segments.Pairwise fun a b =>
      a.off + a.data.length ≤ b.off ∨ b.off + b.data.length ≤ a.off := h.imp .inl
  exact hpairwise.forall ha hb hne

def Segment.received (base : Nat) (seg : Segment) : RecvSegment := ⟨wrap (base + seg.off), seg.data⟩

/-! ## What a poll of the buffer collects -/

theorem perm_cons_eraseP {p : RecvSegment → Bool} {buf : List RecvSegment} {x : RecvSegment}
    (h : buf.find? p = some x) : buf.Perm (x :: buf.eraseP p) := by
  induction buf with
  | nil => cases h
  | cons y rest ih =>
    by_cases hy : p y = true
    · rw [List.find?_cons_of_pos hy] at h
      cases h
      rw [List.eraseP_cons_of_pos hy]
    · rw [List.find?_cons_of_neg hy] at h
      rw [List.eraseP_cons_of_neg hy]
      exact ((ih h).cons y).trans (.swap x y _)

theorem drain_perm (turns : Nat) (nextSeq : Seq) (buf : List RecvSegment) :
    buf.Perm ((Receiver.drain turns nextSeq buf).1 ++ (Receiver.drain turns nextSeq buf).2) := by
  induction turns generalizing nextSeq buf with
  | zero => exact .refl _
  | succ turns ih =>
    unfold Receiver.drain
    cases hf : buf.find? (·.seq == nextSeq) with
    | none => exact .refl _
    | some x => exact (perm_cons_eraseP hf).trans ((ih _ _).cons x)

namespace Contiguous

variable {space : SeqSpace} {base off : Nat} {segs : List RecvSegment}

theorem mem (h : Contiguous space base off segs) {x : RecvSegment} (hx : x ∈ segs) :
    ∃ q, x.seq = wrap (base + q) ∧ off ≤ q ∧ q + x.data.length ≤ off + totalLength segs := by
  induction segs generalizing off with
  | nil => cases hx
  | cons first rest ih =>
    rw [totalLength_cons]
    rcases List.mem_cons.mp hx with rfl | hrest
    · exact ⟨off, h.1, le_rfl, by omega⟩
    · obtain ⟨q, hq, hlo, hhi⟩ := ih h.2.2 hrest
      exact ⟨q, hq, by omega, by omega⟩

theorem cover (h : Contiguous space base off segs) {p : Nat} (hlo : off ≤ p)
    (hhi : p < off + totalLength segs) :
    ∃ x ∈ segs, ∃ q, x.seq = wrap (base + q) ∧ off ≤ q ∧ q ≤ p ∧ p < q + x.data.length ∧
      q + x.data.length ≤ off + totalLength segs := by
  induction segs generalizing off with
  | nil =>
    rw [totalLength_nil] at hhi
    omega
  | cons first rest ih =>
    rw [totalLength_cons] at hhi ⊢
    by_cases hfirst : p < off + first.data.length
    · exact ⟨first, .head _, off, h.1, le_rfl, hlo, hfirst, by omega⟩
    · obtain ⟨x, hx, q, hq, hqlo, hqp, hpq, hend⟩ := ih h.2.2 (by omega) (by omega)
      exact ⟨x, .tail _ hx, q, hq, by omega, hqp, hpq, by omega⟩

end Contiguous

namespace Receiver

/-- A copy of a transmitted segment that lies at most half the sequence space ahead. -/
def IsAhead (segments : List Segment) (base off : Nat) (x : RecvSegment) : Prop :=
  ∃ seg ∈ segments, x = seg.received base ∧ off ≤ seg.off ∧ seg.off < off + 2 ^ 31

structure Holds (segments : List Segment) (base : Nat) (r : Receiver) : Prop where
  copies : ∀ x ∈ r.oooBuf, IsAhead segments base r.delivered.length x
  whole : ∀ seg ∈ segments,
    seg.off + seg.data.length ≤ r.delivered.length ∨ r.delivered.length ≤ seg.off

/-- The receiver has every byte of the segment: delivered, or the whole of it buffered. -/
def Got (base : Nat) (r : Receiver) (seg : Segment) : Prop :=
  seg.data = [] ∨ seg.off + seg.data.length ≤ r.delivered.length ∨
    (seg.received base ∈ r.oooBuf ∧ r.delivered.length ≤ seg.off ∧
      seg.off < r.delivered.length + 2 ^ 31)

variable {space : SeqSpace} {segments : List Segment} {base : Nat} {r : Receiver}

theorem place_unique {d p q : Nat} (hwrap : wrap (base + p) = wrap (base + q)) (hp : d ≤ p)
    (hp' : p < d + 2 ^ 31) (hq : d ≤ q) (hq' : q < d + 2 ^ 31) : p = q := by
  have hnear : Near (base + p) (base + q) := ⟨by omega, by omega⟩
  have heq := (wrap_inj_of_near hnear).mp hwrap
  omega

theorem collect_copies (h : Inv space base r) (hh : Holds segments base r) {seg : Segment}
    (hseg : seg ∈ segments) (hnear : Near seg.off r.delivered.length) :
    (∀ x ∈ (r.collect (wrap (base + seg.off)) seg.data).1,
      IsAhead segments base r.delivered.length x) ∧
    (∀ x ∈ (r.collect (wrap (base + seg.off)) seg.data).2,
      IsAhead segments base r.delivered.length x) ∧
    ∀ x ∈ r.oooBuf, x ∈ (r.collect (wrap (base + seg.off)) seg.data).2 ∨
      x ∈ (r.collect (wrap (base + seg.off)) seg.data).1.drop 1 := by
  have hnear' : Near (base + seg.off) (base + r.delivered.length) := hnear.add_left base
  unfold collect
  rw [h.expected, seqAfter_wrap hnear']
  by_cases heq : seg.off = r.delivered.length
  · rw [if_pos (by rw [heq])]
    have hperm := drain_perm r.oooBuf.length (endSeq (wrap (base + seg.off)) seg.data) r.oooBuf
    refine ⟨fun x hx => ?_, fun x hx => ?_, fun x hx => ?_⟩
    · rcases List.mem_cons.mp hx with rfl | hdrained
      · exact ⟨seg, hseg, rfl, heq.ge, by omega⟩
      · exact hh.copies x (hperm.mem_iff.mpr (List.mem_append_left _ hdrained))
    · exact hh.copies x (hperm.mem_iff.mpr (List.mem_append_right _ hx))
    · exact (List.mem_append.mp (hperm.mem_iff.mp hx)).symm
  · have hne : wrap (base + seg.off) ≠ wrap (base + r.delivered.length) := by
      rw [Ne, wrap_inj_of_near hnear']
      omega
    rw [if_neg hne]
    by_cases hbuffer : (decide (base + r.delivered.length < base + seg.off) &&
        !r.hasOOOSeg (wrap (base + seg.off)) && decide (r.oooBuf.length < maxOOOBuf)) = true
    · rw [if_pos hbuffer]
      simp only [Bool.and_eq_true, decide_eq_true_eq] at hbuffer
      refine ⟨nofun, fun x hx => ?_, fun x hx => ?_⟩
      · rcases List.mem_append.mp hx with hold | hnew
        · exact hh.copies x hold
        · rw [List.mem_singleton.mp hnew]
          exact ⟨seg, hseg, rfl, by omega, hnear.1⟩
      · exact .inl (List.mem_append_left _ hx)
    · rw [if_neg hbuffer]
      exact ⟨nofun, hh.copies, fun x hx => .inl hx⟩

/-! ## The commit -/

section Commit

variable {toDeliver buf : List RecvSegment} (accepted : Nat) (h : Inv space base r)
  (hordered : Ordered segments) (hh : Holds segments base r)
  (hchain : Contiguous space base r.delivered.length toDeliver)
  (hsmall : totalLength toDeliver < 2 ^ 31)
  (hcopies : ∀ x ∈ toDeliver, IsAhead segments base r.delivered.length x)

include hordered hh hchain hsmall hcopies

theorem commit_whole : ∀ seg ∈ segments,
    seg.off + seg.data.length ≤ (r.commit toDeliver buf accepted).delivered.length ∨
      (r.commit toDeliver buf accepted).delivered.length ≤ seg.off := by
  intro seg hseg
  rw [commit_delivered_length]
  have hpushed := totalLength_take_le toDeliver accepted
  rcases hh.whole seg hseg with hend | hoff
  · exact .inl (by omega)
  · by_cases hahead : r.delivered.length + totalLength (toDeliver.take accepted) ≤ seg.off
    · exact .inr hahead
    · -- the segment that was pushed over the start of this one is this one
      obtain ⟨x, hx, q, hq, hlo, hqp, hpq, hend⟩ :=
        (hchain.take accepted).cover hoff (Nat.lt_of_not_le hahead)
      obtain ⟨seg', hseg', rfl, hoff', hwindow'⟩ := hcopies x (List.mem_of_mem_take hx)
      have hplace : seg'.off = q := place_unique hq hoff' hwindow' hlo (by omega)
      have hlen : (seg'.received base).data.length = seg'.data.length := rfl
      by_cases hsame : seg = seg'
      · exact .inl (by rw [hsame]; omega)
      · rcases hordered.disjoint hseg hseg' hsame with hbefore | hafter
        · exact .inl (by omega)
        · omega

include h

omit hordered hh hcopies in
theorem commit_keeps {seg : Segment}
    (hmem : seg.received base ∈ buf ++ toDeliver.drop (max accepted 1))
    (hwindow : r.delivered.length ≤ seg.off ∧ seg.off < r.delivered.length + 2 ^ 31) :
    seg.received base ∈ (r.commit toDeliver buf accepted).oooBuf ↔
      (r.commit toDeliver buf accepted).delivered.length ≤ seg.off := by
  have hexpected : (toDeliver.take accepted).foldl (fun _ seg => seg.endSeq) r.expectedSeq =
      wrap (base + (r.delivered.length + totalLength (toDeliver.take accepted))) := by
    rw [h.expected, (hchain.take accepted).foldl_endSeq, Nat.add_assoc]
  have hpushed := totalLength_take_le toDeliver accepted
  have hnear : Near (base + seg.off)
      (base + (r.delivered.length + totalLength (toDeliver.take accepted))) :=
    ⟨by omega, by omega⟩
  have hafter : seqAfterOrEqual (seg.received base).seq
      (wrap (base + (r.delivered.length + totalLength (toDeliver.take accepted)))) =
      decide (base + (r.delivered.length + totalLength (toDeliver.take accepted)) ≤ base + seg.off) :=
    seqAfterOrEqual_wrap hnear
  rw [commit_delivered_length]
  simp only [commit, dropOOOBefore, hexpected, List.mem_filter, hmem, hafter, true_and,
    decide_eq_true_eq]
  omega

theorem commit_holds (hbuf : ∀ x ∈ buf, IsAhead segments base r.delivered.length x) :
    Holds segments base (r.commit toDeliver buf accepted) where
  copies := by
    intro x hx
    have hmem := (List.mem_filter.mp hx).1
    have hahead : IsAhead segments base r.delivered.length x := by
      rcases List.mem_append.mp hmem with hold | hrest
      · exact hbuf x hold
      · exact hcopies x (List.mem_of_mem_drop hrest)
    obtain ⟨seg, hseg, rfl, hwindow⟩ := hahead
    have hlo := (commit_keeps accepted h hchain hsmall hmem hwindow).mp hx
    have hlength := r.commit_delivered_length toDeliver buf accepted
    exact ⟨seg, hseg, rfl, hlo, by omega⟩
  whole := commit_whole accepted hordered hh hchain hsmall hcopies

theorem commit_got {seg : Segment} (hseg : seg ∈ segments)
    (hmem : seg.received base ∈ buf ∨ seg.received base ∈ toDeliver.drop 1)
    (hwindow : r.delivered.length ≤ seg.off ∧ seg.off < r.delivered.length + 2 ^ 31) :
    Got base (r.commit toDeliver buf accepted) seg := by
  have hlength := r.commit_delivered_length toDeliver buf accepted
  have hwhole : seg.off + seg.data.length ≤ (r.commit toDeliver buf accepted).delivered.length ∨
      (r.commit toDeliver buf accepted).delivered.length ≤ seg.off :=
    commit_whole accepted hordered hh hchain hsmall hcopies seg hseg
  rcases hwhole with hend | hahead
  · exact .inr (.inl hend)
  · have hkept : seg.received base ∈ buf ++ toDeliver.drop (max accepted 1) →
        Got base (r.commit toDeliver buf accepted) seg := by
      intro hin
      have hooo := (commit_keeps accepted h hchain hsmall hin hwindow).mpr hahead
      exact .inr (.inr ⟨hooo, hahead, by omega⟩)
    rcases hmem with hold | hcollected
    · exact hkept (List.mem_append_left _ hold)
    · rcases List.mem_append.mp ((List.take_append_drop accepted toDeliver).symm ▸
        List.mem_of_mem_drop hcollected) with hpushed | hrest
      · obtain ⟨q, hq, hlo, hhi⟩ := (hchain.take accepted).mem hpushed
        have hlen : (seg.received base).data.length = seg.data.length := rfl
        have hplace : seg.off = q := place_unique hq hwindow.1 hwindow.2 hlo (by omega)
        exact .inr (.inl (by omega))
      · refine hkept (List.mem_append_right _ ?_)
        rcases Nat.le_total accepted 1 with hle | hge
        · rwa [Nat.max_eq_right hle]
        · rwa [Nat.max_eq_left hge]

end Commit

/-! ## An arrival -/

/-- The receiver between phase 1 and phase 3 of an arrival, when its lock is free. -/
def collecting (r : Receiver) (seq : Seq) (data : Bytes) : Receiver :=
  if r.recvClosed then r else { r with oooBuf := (r.collect seq data).2 }

theorem collecting_delivered (r : Receiver) (seq : Seq) (data : Bytes) :
    (r.collecting seq data).delivered = r.delivered ∧
      (r.collecting seq data).expectedSeq = r.expectedSeq := by
  unfold collecting
  split <;> exact ⟨rfl, rfl⟩

section Arrival

variable {seg : Segment} (h : Inv space base r) (hordered : Ordered segments)
  (hh : Holds segments base r) (hseg : seg ∈ segments)
  (hcarries : Carries space seg.off seg.data) (hnear : Near seg.off r.delivered.length)

include h hh hseg hnear

theorem collecting_holds : Holds segments base (r.collecting (wrap (base + seg.off)) seg.data) := by
  unfold collecting
  split
  · exact hh
  · exact ⟨(collect_copies h hh hseg hnear).2.1, hh.whole⟩

include hordered hcarries

theorem deliverInOrder_holds (accepted : Nat) :
    Holds segments base (r.deliverInOrder (wrap (base + seg.off)) seg.data accepted).1 := by
  unfold deliverInOrder
  split
  · exact hh
  · obtain ⟨hchain, -, hcount⟩ := collect_spec h hcarries hnear
    obtain ⟨hcopies, hbuf, -⟩ := collect_copies h hh hseg hnear
    exact commit_holds accepted h hordered hh hchain (totalLength_lt hchain hcount) hcopies hbuf

/-- A segment that the receiver has, before the arrival or after its phase 1, it still has
when the arrival is done. -/
theorem deliverInOrder_got (accepted : Nat) {t : Segment} (ht : t ∈ segments)
    (hgot : Got base r t ∨ Got base (r.collecting (wrap (base + seg.off)) seg.data) t) :
    Got base (r.deliverInOrder (wrap (base + seg.off)) seg.data accepted).1 t := by
  unfold collecting at hgot
  unfold deliverInOrder
  by_cases hclosed : r.recvClosed = true
  · rw [if_pos hclosed] at hgot ⊢
    exact hgot.elim id id
  · rw [if_neg hclosed] at hgot ⊢
    obtain ⟨hchain, -, hcount⟩ := collect_spec h hcarries hnear
    obtain ⟨hcopies, -, hkept⟩ := collect_copies h hh hseg hnear
    have hsmall := totalLength_lt hchain hcount
    have hdelivered : ∀ n, n ≤ r.delivered.length →
        n ≤ (r.commit (r.collect (wrap (base + seg.off)) seg.data).1
          (r.collect (wrap (base + seg.off)) seg.data).2 accepted).delivered.length := by
      intro n hn
      rw [commit_delivered_length]
      omega
    rcases hgot with (hnil | hend | ⟨hooo, hwindow⟩) | (hnil | hend | ⟨hooo, hwindow⟩)
    · exact .inl hnil
    · exact .inr (.inl (hdelivered _ hend))
    · exact commit_got accepted h hordered hh hchain hsmall hcopies ht (hkept _ hooo) hwindow
    · exact .inl hnil
    · exact .inr (.inl (hdelivered _ hend))
    · exact commit_got accepted h hordered hh hchain hsmall hcopies ht (.inl hooo) hwindow

end Arrival

end Receiver

end PilotProtocol.Stream
