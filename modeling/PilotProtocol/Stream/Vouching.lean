import PilotProtocol.Stream.SACK
import PilotProtocol.Stream.Tiling

/-! # What a SACK block vouches for

A block that the receiver makes from its reorder buffer is a stretch of the sequence space,
and the receiver has every segment that reaches into it: sorted by their wrapped numbers the
buffered segments are sorted by their places, and the merge only joins segments that touch.
-/

namespace PilotProtocol.Stream

open Library

/-- The block is a stretch of the sequence space between `lo` and `hi`, and every segment
that reaches into it is there. -/
def Vouches (segments : List Segment) (base : Nat) (has : Segment → Prop) (lo hi : Nat)
    (b : SACKBlock) : Prop :=
  ∃ left right, b = ⟨wrap (base + left), wrap (base + right)⟩ ∧ lo ≤ left ∧ left ≤ right ∧
    right ≤ hi ∧ ∀ seg ∈ segments, seg.off < right → left < seg.off + seg.data.length → has seg

theorem Vouches.mono {segments segments' : List Segment} {base lo hi hi' : Nat}
    {has has' : Segment → Prop} {b : SACKBlock} (h : Vouches segments base has lo hi b)
    (hhi : hi ≤ hi') (hhas : ∀ seg ∈ segments, has seg → has' seg)
    (hnew : ∀ seg ∈ segments', seg ∈ segments ∨ hi ≤ seg.off) :
    Vouches segments' base has' lo hi' b := by
  obtain ⟨left, right, hb, hlo, hle, hright, hall⟩ := h
  refine ⟨left, right, hb, hlo, hle, hright.trans hhi, fun seg hseg hoff hend => ?_⟩
  rcases hnew seg hseg with hold | hlate
  · exact hhas seg hold (hall seg hold hoff hend)
  · omega

/-- Neither comparison alone is right over a whole turn of the sequence space. Where one of
them goes wrong, the other fails: the segment and the block are then half a turn apart at
both ends. -/
theorem reaches_of_sackCovers {base lo off left right : Nat} {e : RetxEntry}
    (hseq : e.seq = wrap (base + off)) (hdata : e.data ≠ []) (hoff : lo ≤ off)
    (hend : off + e.data.length < lo + 2 ^ 32) (hleft : lo ≤ left) (hle : left ≤ right)
    (hright : right < lo + 2 ^ 32)
    (h : Connection.sackCovers ⟨wrap (base + left), wrap (base + right)⟩ e = true) :
    off < right ∧ left < off + e.data.length := by
  have hlen := List.length_pos_iff.mpr hdata
  unfold Connection.sackCovers RetxEntry.endSeq at h
  rw [hseq, endSeq_wrap, Bool.and_eq_true, Bool.not_eq_true', Bool.not_eq_true',
    ← Bool.not_eq_true, ← Bool.not_eq_true, seqAfterOrEqual_iff, seqAfterOrEqual_iff,
    toNat_wrap_sub, toNat_wrap_sub] at h
  omega

namespace Receiver

variable {space : SeqSpace} {segments : List Segment} {base hi : Nat} {r : Receiver}

def place (r : Receiver) (x : RecvSegment) : Nat :=
  r.delivered.length + (x.seq - r.expectedSeq).toNat

theorem place_received (hexpected : r.expectedSeq = wrap (base + r.delivered.length)) {seg : Segment}
    (hlo : r.delivered.length ≤ seg.off) (hhi : seg.off < r.delivered.length + 2 ^ 31) :
    r.place (seg.received base) = seg.off := by
  unfold place Segment.received
  rw [hexpected, toNat_wrap_sub]
  omega

theorem got_of_overlap (hordered : Ordered segments) {seg t : Segment} (hseg : seg ∈ segments)
    (ht : t ∈ segments) (hooo : seg.received base ∈ r.oooBuf) (hlo : r.delivered.length ≤ seg.off)
    (hhi : seg.off < r.delivered.length + 2 ^ 31) (hoff : t.off < seg.off + seg.data.length)
    (hend : seg.off < t.off + t.data.length ∨ seg.off ≤ t.off) : Got base r t := by
  by_cases hsame : t = seg
  · rw [hsame]
    exact .inr (.inr ⟨hooo, hlo, hhi⟩)
  · rcases hordered.disjoint ht hseg hsame with hbefore | hafter
    · rcases hend with hreach | hfrom
      · omega
      · exact .inl (List.length_eq_zero_iff.mp (by omega))
    · omega

section Blocks

variable (hexpected : r.expectedSeq = wrap (base + r.delivered.length))
  (hh : Holds segments base r) (hordered : Ordered segments)
  (hlen : ∀ seg ∈ segments, seg.data.length ≤ maxPayload)
  (hends : ∀ seg ∈ segments, seg.off + seg.data.length ≤ hi)

include hexpected hh

theorem pairwise_place :
    (r.oooBuf.insertionSort notAfter).Pairwise fun x y => r.place x ≤ r.place y := by
  have hiff : ∀ x ∈ r.oooBuf, ∀ y ∈ r.oooBuf, notAfter x y ↔ r.place x ≤ r.place y := by
    intro x hx y hy
    obtain ⟨a, -, rfl, hlo, hhi⟩ := hh.copies x hx
    obtain ⟨b, -, rfl, hlo', hhi'⟩ := hh.copies y hy
    have hnear : Near (base + a.off) (base + b.off) := ⟨by omega, by omega⟩
    rw [place_received hexpected hlo hhi, place_received hexpected hlo' hhi']
    unfold notAfter Segment.received
    rw [seqAfter_wrap hnear, decide_eq_false_iff_not]
    omega
  have hmap := List.map_insertionSort (r := notAfter) (s := fun m n : Nat => m ≤ n) r.place r.oooBuf hiff
  have hsorted := List.pairwise_insertionSort (fun m n : Nat => m ≤ n) (r.oooBuf.map r.place)
  rw [← hmap] at hsorted
  exact List.pairwise_map.mp hsorted

include hordered hlen hends

theorem mergeBlocks_vouch {xs : List RecvSegment} {left right : Nat}
    (hxs : ∀ x ∈ xs, x ∈ r.oooBuf) (hsorted : xs.Pairwise fun x y => r.place x ≤ r.place y)
    (hlo : r.delivered.length ≤ left) (hle : left ≤ right) (hright : right ≤ hi)
    (hfrom : ∀ x ∈ xs, right ≤ r.place x + maxPayload)
    (hcur : ∀ t ∈ segments, t.off < right → left < t.off + t.data.length → Got base r t) :
    ∀ b ∈ mergeBlocks ⟨wrap (base + left), wrap (base + right)⟩ xs,
      Vouches segments base (Got base r) r.delivered.length hi b := by
  induction xs generalizing left right with
  | nil =>
    intro b hb
    rw [List.mem_singleton.mp hb]
    exact ⟨left, right, rfl, hlo, hle, hright, hcur⟩
  | cons x rest ih =>
    have hooo := hxs x (.head _)
    obtain ⟨seg, hseg, rfl, hseglo, hseghi⟩ := hh.copies x hooo
    obtain ⟨hfirst, hrest⟩ := List.pairwise_cons.mp hsorted
    have hplace := place_received hexpected hseglo hseghi
    have hpayload := hlen seg hseg
    have hbound := hfrom _ (.head _)
    have hin : ∀ x ∈ rest, x ∈ r.oooBuf := fun x hx => hxs x (.tail _ hx)
    have hsmall : maxPayload < 2 ^ 31 := by decide
    have hnear : Near (base + right) (base + seg.off) := ⟨by omega, by omega⟩
    have hend : (seg.received base).endSeq = wrap (base + (seg.off + seg.data.length)) := by
      unfold RecvSegment.endSeq Segment.received
      rw [endSeq_wrap, Nat.add_assoc]
    have hseq : (seg.received base).seq = wrap (base + seg.off) := rfl
    unfold mergeBlocks
    rw [hseq, hend]
    rw [seqAfterOrEqual_wrap hnear]
    by_cases htouch : seg.off ≤ right
    · have hnear' : Near (base + (seg.off + seg.data.length)) (base + right) := ⟨by omega, by omega⟩
      rw [if_pos (by simpa using htouch), seqAfter_wrap hnear']
      by_cases hgrow : right < seg.off + seg.data.length
      · rw [if_pos (by simpa using hgrow)]
        refine ih hin hrest hlo (by omega) (hends seg hseg) (fun y hy => ?_) fun t ht hoff hreach => ?_
        · have := hfirst y hy
          omega
        · by_cases hold : t.off < right
          · exact hcur t ht hold hreach
          · exact got_of_overlap hordered hseg ht hooo hseglo hseghi hoff
              (.inr (by omega))
      · rw [if_neg (by simpa using hgrow)]
        exact ih hin hrest hlo hle hright (fun y hy => hfrom y (.tail _ hy)) hcur
    · rw [if_neg (by simpa using htouch)]
      intro b hb
      rcases List.mem_cons.mp hb with rfl | hb
      · exact ⟨left, right, rfl, hlo, hle, hright, hcur⟩
      · refine ih hin hrest hseglo (Nat.le_add_right _ _) (hends seg hseg) (fun y hy => ?_)
          (fun t ht hoff hreach => ?_) b hb
        · have := hfirst y hy
          omega
        · exact got_of_overlap hordered hseg ht hooo hseglo hseghi hoff (.inl hreach)

theorem sackBlocks_vouch :
    ∀ b ∈ r.sackBlocks, Vouches segments base (Got base r) r.delivered.length hi b := by
  have hsorted := pairwise_place hexpected hh
  have hmem : ∀ x ∈ r.oooBuf.insertionSort notAfter, x ∈ r.oooBuf :=
    fun x hx => (List.mem_insertionSort notAfter).mp hx
  unfold sackBlocks
  cases hsort : r.oooBuf.insertionSort notAfter with
  | nil => exact nofun
  | cons first rest =>
    rw [hsort] at hsorted hmem
    have hooo := hmem first (.head _)
    obtain ⟨seg, hseg, rfl, hlo, hhi⟩ := hh.copies first hooo
    obtain ⟨hfirst, hrest⟩ := List.pairwise_cons.mp hsorted
    rw [place_received hexpected hlo hhi] at hfirst
    have hpayload := hlen seg hseg
    have hend : (seg.received base).endSeq = wrap (base + (seg.off + seg.data.length)) := by
      unfold RecvSegment.endSeq Segment.received
      rw [endSeq_wrap, Nat.add_assoc]
    intro b hb
    dsimp only at hb
    rw [hend] at hb
    refine mergeBlocks_vouch hexpected hh hordered hlen hends
      (fun x hx => hmem x (.tail _ hx)) hrest hlo (Nat.le_add_right _ _)
      (hends seg hseg) (fun y hy => ?_) (fun t ht hoff hreach => ?_) b (List.mem_of_mem_drop hb)
    · have := hfirst y hy
      omega
    · exact got_of_overlap hordered hseg ht hooo hlo hhi hoff (.inl hreach)

end Blocks

theorem sackBlocks_length (r : Receiver) : r.sackBlocks.length ≤ maxSACKBlocks := by
  unfold sackBlocks
  split
  · exact Nat.zero_le _
  · rw [List.length_drop]
    omega

theorem decodeSACK_sackBlocks {blocks : List SACKBlock}
    (h : decodeSACK (encodeSACK r.sackBlocks) = some blocks) : blocks = r.sackBlocks := by
  by_cases hnil : r.sackBlocks = []
  · rw [hnil] at h
    cases h
  · rw [decodeSACK_encodeSACK hnil r.sackBlocks_length] at h
    exact (Option.some.inj h).symm

end Receiver

end PilotProtocol.Stream
