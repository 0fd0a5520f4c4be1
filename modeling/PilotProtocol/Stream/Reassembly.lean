import PilotProtocol.Stream.Receiver

/-! # Reassembly over an unwrapped sequence space

The sequence numbers a sender has given out form a list: a payload byte for
each number that carries one, `none` for a FIN. A segment is placed in it by
its offset, and the invariant of the receiver speaks about offsets only. The
reorder buffer lies less than half the sequence space ahead of what has been
delivered, so that comparing wrapped numbers compares offsets.
-/

namespace PilotProtocol.Stream

open Library

theorem seqAfter_wrap {p q : Nat} (h : Near p q) : seqAfter (wrap p) (wrap q) = decide (q < p) := by
  unfold seqAfter
  rw [decide_eq_decide]
  exact wrap_sub_pos_of_near h

theorem seqAfterOrEqual_wrap {p q : Nat} (h : Near p q) :
    seqAfterOrEqual (wrap p) (wrap q) = decide (q ≤ p) := by
  unfold seqAfterOrEqual
  rw [seqAfter_wrap h, Bool.eq_iff_iff]
  simp only [Bool.or_eq_true, beq_iff_eq, wrap_inj_of_near h, decide_eq_true_eq]
  omega

theorem seqAfterOrEqual_iff (a b : Seq) : seqAfterOrEqual a b = true ↔ (a - b).toNat < 2 ^ 31 := by
  have hzero : a = b ↔ (a - b).toNat = 0 := by
    rw [← sub_eq_zero, ← UInt32.toNat_inj]
    exact Iff.rfl
  unfold seqAfterOrEqual seqAfter
  rw [Bool.or_eq_true, beq_iff_eq, decide_eq_true_eq, toInt32_pos, hzero]
  omega

theorem endSeq_wrap (pos : Nat) (data : Bytes) : endSeq (wrap pos) data = wrap (pos + data.length) :=
  wrap_add pos data.length

def maxPayload : Nat := 65535

abbrev SeqSpace := List (Option UInt8)

/-- `data` is what the sequence space holds from `off` on. -/
def Carries (space : SeqSpace) (off : Nat) (data : Bytes) : Prop :=
  data.map some <+: space.drop off ∧ data.length ≤ maxPayload

instance (space : SeqSpace) (off : Nat) (data : Bytes) : Decidable (Carries space off data) :=
  inferInstanceAs (Decidable (data.map some <+: space.drop off ∧ data.length ≤ maxPayload))

theorem Carries.mono {space space' : SeqSpace} {off : Nat} {data : Bytes}
    (h : Carries space off data) (hext : space <+: space') : Carries space' off data :=
  ⟨h.1.trans (hext.drop off), h.2⟩

theorem Carries.append_front {space : SeqSpace} {front data : Bytes} (hfront : front.map some <+: space)
    (h : Carries space front.length data) : (front ++ data).map some <+: space := by
  obtain ⟨tail, rfl⟩ := hfront
  have hdata := h.1
  rw [List.drop_left' (by simp)] at hdata
  rw [List.map_append]
  exact List.prefix_append_right_inj _ |>.mpr hdata

/-- The segments follow one another from offset `off` on. -/
def Contiguous (space : SeqSpace) (base : Nat) : Nat → List RecvSegment → Prop
  | _, [] => True
  | off, seg :: rest =>
    seg.seq = wrap (base + off) ∧ Carries space off seg.data ∧
      Contiguous space base (off + seg.data.length) rest

def totalLength (segs : List RecvSegment) : Nat := (segs.map (·.data)).flatten.length

@[simp] theorem totalLength_nil : totalLength [] = 0 := rfl

@[simp] theorem totalLength_cons (seg : RecvSegment) (rest : List RecvSegment) :
    totalLength (seg :: rest) = seg.data.length + totalLength rest := by
  simp [totalLength]

namespace Contiguous

variable {space : SeqSpace} {base off : Nat} {segs : List RecvSegment}

theorem take (h : Contiguous space base off segs) (k : Nat) :
    Contiguous space base off (segs.take k) := by
  induction segs generalizing off k with
  | nil => simpa using h
  | cons seg rest ih =>
    cases k with
    | zero => trivial
    | succ k => exact ⟨h.1, h.2.1, ih h.2.2 k⟩

theorem totalLength_le (h : Contiguous space base off segs) :
    totalLength segs ≤ segs.length * maxPayload := by
  induction segs generalizing off with
  | nil => simp
  | cons seg rest ih =>
    have hrest := ih h.2.2
    have hseg := h.2.1.2
    rw [totalLength_cons, List.length_cons, Nat.add_mul]
    omega

theorem append_front {front : Bytes} (hfront : front.map some <+: space)
    (h : Contiguous space base front.length segs) :
    (front ++ (segs.map (·.data)).flatten).map some <+: space := by
  induction segs generalizing front with
  | nil => simpa using hfront
  | cons seg rest ih =>
    rw [List.map_cons, List.flatten_cons, ← List.append_assoc]
    apply ih (Carries.append_front hfront h.2.1)
    rw [List.length_append]
    exact h.2.2

theorem foldl_endSeq (h : Contiguous space base off segs) :
    segs.foldl (fun _ seg => seg.endSeq) (wrap (base + off)) = wrap (base + off + totalLength segs) := by
  induction segs generalizing off with
  | nil => rfl
  | cons seg rest ih =>
    have hend : seg.endSeq = wrap (base + (off + seg.data.length)) := by
      unfold RecvSegment.endSeq
      rw [h.1, endSeq_wrap, Nat.add_assoc]
    rw [List.foldl_cons, hend, ih h.2.2, totalLength_cons]
    congr 1
    omega

theorem mem_drop (h : Contiguous space base off segs) {k : Nat} {seg : RecvSegment}
    (hseg : seg ∈ segs.drop k) : ∃ q, seg.seq = wrap (base + q) ∧ Carries space q seg.data ∧
      off + totalLength (segs.take k) ≤ q ∧ q ≤ off + totalLength segs := by
  induction segs generalizing off k with
  | nil => simp at hseg
  | cons first rest ih =>
    cases k with
    | zero =>
      rcases List.mem_cons.mp hseg with rfl | hrest
      · exact ⟨off, h.1, h.2.1, by simp, by omega⟩
      · obtain ⟨q, hq, hc, hlo, hhi⟩ := ih h.2.2 (k := 0) hrest
        rw [totalLength_cons]
        exact ⟨q, hq, hc, by simp at hlo ⊢; omega, by omega⟩
    | succ k =>
      obtain ⟨q, hq, hc, hlo, hhi⟩ := ih h.2.2 (k := k) hseg
      rw [List.take_succ_cons, totalLength_cons, totalLength_cons]
      exact ⟨q, hq, hc, by omega, by omega⟩

end Contiguous

/-- A buffered segment of the stream, at most half the sequence space ahead of `off`. -/
def InWindow (space : SeqSpace) (base off : Nat) (seg : RecvSegment) : Prop :=
  ∃ q, seg.seq = wrap (base + q) ∧ Carries space q seg.data ∧ off ≤ q ∧ q < off + 2 ^ 31

theorem InWindow.mono {space space' : SeqSpace} {base off : Nat} {seg : RecvSegment}
    (h : InWindow space base off seg) (hext : space <+: space') : InWindow space' base off seg := by
  obtain ⟨q, hq, hc, hlo, hhi⟩ := h
  exact ⟨q, hq, hc.mono hext, hlo, hhi⟩

theorem drain_contiguous {space : SeqSpace} {base off next turns : Nat} {buf : List RecvSegment}
    (hbuf : ∀ seg ∈ buf, InWindow space base off seg) (hlo : off ≤ next)
    (hhi : next + turns * maxPayload < off + 2 ^ 31) :
    Contiguous space base next (Receiver.drain turns (wrap (base + next)) buf).1 := by
  induction turns generalizing next buf with
  | zero => trivial
  | succ turns ih =>
    unfold Receiver.drain
    cases hf : buf.find? (·.seq == wrap (base + next)) with
    | none => trivial
    | some seg =>
      obtain ⟨q, hq, hcarries, hqlo, hqhi⟩ := hbuf seg (List.mem_of_find?_eq_some hf)
      have hmatch : seg.seq = wrap (base + next) := by simpa using List.find?_some hf
      have hlen := hcarries.2
      rw [Nat.add_mul] at hhi
      -- both offsets lie in the window, so equal numbers mean equal offsets
      have hnear : Near (base + q) (base + next) := ⟨by omega, by omega⟩
      have hqn : q = next := by
        have hpos := (wrap_inj_of_near hnear).mp (hq.symm.trans hmatch)
        omega
      subst hqn
      have hend : seg.endSeq = wrap (base + (q + seg.data.length)) := by
        unfold RecvSegment.endSeq
        rw [hmatch, endSeq_wrap, Nat.add_assoc]
      refine ⟨hmatch, hcarries, ?_⟩
      rw [hend]
      apply ih
      · exact fun s hs => hbuf s (List.mem_of_mem_eraseP hs)
      · omega
      · omega

/-! ## The invariant of the receiver -/

namespace Receiver

def delivered (r : Receiver) : Bytes := r.recvBuf.flatten

structure Inv (space : SeqSpace) (base : Nat) (r : Receiver) : Prop where
  expected : r.expectedSeq = wrap (base + r.delivered.length)
  delivered : r.delivered.map some <+: space
  window : ∀ seg ∈ r.oooBuf, InWindow space base r.delivered.length seg
  bound : r.oooBuf.length ≤ maxOOOBuf

variable {space : SeqSpace} {base off : Nat} {r : Receiver} {buf : List RecvSegment} {data : Bytes}

theorem Inv.mono {space' : SeqSpace} (h : Inv space base r) (hext : space <+: space') :
    Inv space' base r where
  expected := h.expected
  delivered := h.delivered.trans hext
  window := fun seg hseg => (h.window seg hseg).mono hext
  bound := h.bound

theorem dropOOOBefore_inWindow {off' : Nat} (hbuf : ∀ seg ∈ buf, InWindow space base off seg)
    (hlo : off ≤ off') (hhi : off' < off + 2 ^ 31) :
    ∀ seg ∈ dropOOOBefore (wrap (base + off')) buf, InWindow space base off' seg := by
  intro seg hseg
  obtain ⟨hmem, hafter⟩ := List.mem_filter.mp hseg
  obtain ⟨q, hq, hcarries, hqlo, hqhi⟩ := hbuf seg hmem
  have hnear : Near (base + q) (base + off') := ⟨by omega, by omega⟩
  rw [hq, seqAfterOrEqual_wrap hnear, decide_eq_true_eq] at hafter
  exact ⟨q, hq, hcarries, by omega, by omega⟩

/-- At most one arriving and `maxOOOBuf` buffered segments move the stream forward. -/
theorem totalLength_lt {toDeliver : List RecvSegment} (hchain : Contiguous space base off toDeliver)
    (hcount : buf.length + (toDeliver.length - 1) ≤ maxOOOBuf) :
    totalLength toDeliver < 2 ^ 31 := by
  have hlen : toDeliver.length ≤ maxOOOBuf + 1 := by omega
  calc totalLength toDeliver ≤ toDeliver.length * maxPayload := hchain.totalLength_le
    _ ≤ (maxOOOBuf + 1) * maxPayload := Nat.mul_le_mul_right maxPayload hlen
    _ < 2 ^ 31 := by decide

theorem totalLength_take_le (segs : List RecvSegment) (k : Nat) :
    totalLength (segs.take k) ≤ totalLength segs := by
  induction segs generalizing k with
  | nil => simp
  | cons seg rest ih =>
    cases k with
    | zero => simp
    | succ k =>
      have hrest := ih k
      rw [List.take_succ_cons, totalLength_cons, totalLength_cons]
      omega

theorem commit_delivered (r : Receiver) (toDeliver buf : List RecvSegment) (accepted : Nat) :
    (r.commit toDeliver buf accepted).delivered =
      r.delivered ++ ((toDeliver.take accepted).map (·.data)).flatten := by
  simp [commit, Receiver.delivered]

theorem commit_delivered_length (r : Receiver) (toDeliver buf : List RecvSegment) (accepted : Nat) :
    (r.commit toDeliver buf accepted).delivered.length =
      r.delivered.length + totalLength (toDeliver.take accepted) := by
  rw [commit_delivered, List.length_append, totalLength]

theorem commit_inv (h : Inv space base r) {toDeliver : List RecvSegment} (accepted : Nat)
    (hchain : Contiguous space base r.delivered.length toDeliver)
    (hbuf : ∀ seg ∈ buf, InWindow space base r.delivered.length seg)
    (hcount : buf.length + (toDeliver.length - 1) ≤ maxOOOBuf) :
    Inv space base (r.commit toDeliver buf accepted) := by
  have hpushed := hchain.take accepted
  have hlength := r.commit_delivered_length toDeliver buf accepted
  have hexpected : (toDeliver.take accepted).foldl (fun _ seg => seg.endSeq) r.expectedSeq =
      wrap (base + (r.delivered.length + totalLength (toDeliver.take accepted))) := by
    rw [h.expected, hpushed.foldl_endSeq, Nat.add_assoc]
  have hsmall := totalLength_lt hchain hcount
  have hpushedSmall := totalLength_take_le toDeliver accepted
  have hall : ∀ seg ∈ buf ++ toDeliver.drop (max accepted 1),
      InWindow space base r.delivered.length seg := by
    intro seg hseg
    rcases List.mem_append.mp hseg with hold | hrest
    · exact hbuf seg hold
    · obtain ⟨q, hq, hcarries, hqlo, hqhi⟩ := hchain.mem_drop hrest
      exact ⟨q, hq, hcarries, by omega, by omega⟩
  refine ⟨?_, ?_, ?_, ?_⟩
  · rwa [hlength]
  · rw [commit_delivered]
    exact Contiguous.append_front h.delivered hpushed
  · rw [hlength]
    have hkept := dropOOOBefore_inWindow hall (Nat.le_add_right _ _)
      (Nat.add_lt_add_left (Nat.lt_of_le_of_lt hpushedSmall hsmall) r.delivered.length)
    rwa [← hexpected] at hkept
  · have hfilter : (r.commit toDeliver buf accepted).oooBuf.length ≤
        (buf ++ toDeliver.drop (max accepted 1)).length := List.length_filter_le _ _
    rw [List.length_append, List.length_drop] at hfilter
    omega

section

variable (h : Inv space base r) (hcarries : Carries space off data) (hnear : Near off r.delivered.length)
include h hcarries hnear

theorem collect_spec :
    Contiguous space base r.delivered.length (r.collect (wrap (base + off)) data).1 ∧
    (∀ seg ∈ (r.collect (wrap (base + off)) data).2, InWindow space base r.delivered.length seg) ∧
    (r.collect (wrap (base + off)) data).2.length +
      ((r.collect (wrap (base + off)) data).1.length - 1) ≤ maxOOOBuf := by
  have hnear' : Near (base + off) (base + r.delivered.length) := hnear.add_left base
  have hbound := h.bound
  unfold collect
  rw [h.expected, seqAfter_wrap hnear']
  by_cases heq : off = r.delivered.length
  · subst heq
    rw [if_pos rfl, endSeq_wrap, Nat.add_assoc]
    have hroom : r.delivered.length + data.length + r.oooBuf.length * maxPayload <
        r.delivered.length + 2 ^ 31 := by
      have hdata := hcarries.2
      have hmul : r.oooBuf.length * maxPayload ≤ maxOOOBuf * maxPayload :=
        Nat.mul_le_mul_right maxPayload hbound
      have hconst : maxPayload + maxOOOBuf * maxPayload < 2 ^ 31 := by decide
      omega
    have hlength := drain_length r.oooBuf.length (wrap (base + (r.delivered.length + data.length)))
      r.oooBuf
    refine ⟨⟨rfl, hcarries, ?_⟩, ?_, ?_⟩
    · exact drain_contiguous h.window (Nat.le_add_right _ _) hroom
    · exact fun seg hseg => h.window seg (drain_rest_subset _ _ _ hseg)
    · simp only [List.length_cons]
      omega
  · have hne : wrap (base + off) ≠ wrap (base + r.delivered.length) := by
      rw [Ne, wrap_inj_of_near hnear']
      omega
    rw [if_neg hne]
    by_cases hbuffer : (decide (base + r.delivered.length < base + off) &&
        !r.hasOOOSeg (wrap (base + off)) && decide (r.oooBuf.length < maxOOOBuf)) = true
    · rw [if_pos hbuffer]
      simp only [Bool.and_eq_true, decide_eq_true_eq] at hbuffer
      refine ⟨trivial, ?_, ?_⟩
      · intro seg hseg
        rcases List.mem_append.mp hseg with hold | hnew
        · exact h.window seg hold
        · rw [List.mem_singleton.mp hnew]
          exact ⟨off, rfl, hcarries, by omega, hnear.1⟩
      · simp only [List.length_append, List.length_singleton, List.length_nil]
        omega
    · rw [if_neg hbuffer]
      exact ⟨trivial, h.window, by simpa using hbound⟩

theorem deliverInOrder_inv (accepted : Nat) :
    Inv space base (r.deliverInOrder (wrap (base + off)) data accepted).1 := by
  unfold deliverInOrder
  by_cases hclosed : r.recvClosed = true
  · rwa [if_pos hclosed]
  · rw [if_neg hclosed]
    obtain ⟨hchain, hbuf, hcount⟩ := collect_spec h hcarries hnear
    exact commit_inv h accepted hchain hbuf hcount

theorem deliverInOrder_advance (accepted : Nat) :
    let r' := (r.deliverInOrder (wrap (base + off)) data accepted).1
    r.delivered.length ≤ r'.delivered.length ∧
      r'.delivered.length < r.delivered.length + 2 ^ 31 := by
  unfold deliverInOrder
  by_cases hclosed : r.recvClosed = true
  · rw [if_pos hclosed]
    exact ⟨le_rfl, Nat.lt_add_of_pos_right (by decide)⟩
  · rw [if_neg hclosed]
    obtain ⟨hchain, -, hcount⟩ := collect_spec h hcarries hnear
    have hsmall := totalLength_lt hchain hcount
    have hpushed := totalLength_take_le (r.collect (wrap (base + off)) data).1 accepted
    simp only [commit_delivered_length]
    omega

end

theorem deliverInOrder_ack (r : Receiver) (seq : Seq) (data : Bytes) (accepted : Nat) :
    (r.deliverInOrder seq data accepted).2 = (r.deliverInOrder seq data accepted).1.expectedSeq := by
  unfold deliverInOrder
  split <;> rfl

theorem deliverInOrder_recvClosed (r : Receiver) (seq : Seq) (data : Bytes) (accepted : Nat) :
    (r.deliverInOrder seq data accepted).1.recvClosed = r.recvClosed := by
  unfold deliverInOrder
  split <;> rfl

theorem deliverInOrder_expected {seq : Seq} {accepted : Nat} (hseq : r.expectedSeq = seq)
    (hopen : r.recvClosed = false) (hooo : r.oooBuf = []) (hroom : 0 < accepted) :
    (r.deliverInOrder seq data accepted).1 =
      { r with expectedSeq := endSeq seq data, recvBuf := r.recvBuf ++ [data] } := by
  obtain ⟨count, rfl⟩ : ∃ count, accepted = count + 1 := ⟨accepted - 1, by omega⟩
  simp [deliverInOrder, hopen, collect, hseq, hooo, drain, commit, dropOOOBefore, RecvSegment.endSeq]

theorem closeRecvBuf_inv (h : Inv space base r) :
    Inv space base r.closeRecvBuf := ⟨h.expected, h.delivered, h.window, h.bound⟩

end Receiver

end PilotProtocol.Stream
