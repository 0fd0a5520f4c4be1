import PilotProtocol.Stream.Congestion
import PilotProtocol.Stream.SendOrder

/-! # Acknowledgements of what was never sent

`ProcessAck` compares the number of an ACK with `LastAck` only. As long as each ACK is of
something that was sent, or looks old, `LastAck` stays at or before `SendSeq`; one ACK past it
takes `LastAck` there, and the ACKs that follow look old.
-/

namespace PilotProtocol.Stream

open Library Connection

theorem seqAfter_eq_false (a b : Seq) : seqAfter a b = false ↔ (b - a).toNat ≤ 2 ^ 31 := by
  have ha := a.toNat_lt
  have hb := b.toNat_lt
  unfold seqAfter
  rw [decide_eq_false_iff_not, toInt32_pos, UInt32.toNat_sub, UInt32.toNat_sub]
  omega

namespace Connection

variable {c : Connection}

/-! ## What an ACK does to `LastAck` -/

theorem processAck_lastAck (c : Connection) (ack : Seq) (pureACK : Bool) (now : Nat) :
    (c.processAck ack pureACK now).1.lastAck = if seqAfter c.lastAck ack then c.lastAck else ack := by
  rcases c.processAck_restamps ack pureACK now with ⟨hold | hsame, h⟩ | ⟨⟨hnew, -⟩, h⟩
  · rw [h.lastAck, hold]
    rfl
  · rw [h.lastAck, hsame, ite_self]
  · rw [h.lastAck, hnew]
    rfl

theorem processAck_retires {ack : Seq} (hnew : ack ≠ c.lastAck) (hold : seqAfter c.lastAck ack = false)
    (pureACK : Bool) (now : Nat) : (c.processAck ack pureACK now).1.unacked.map RetxEntry.segment =
      (c.unacked.filter fun e => !covers ack e).map RetxEntry.segment := by
  unfold processAck
  rw [if_neg (by rw [hold]; exact Bool.false_ne_true), if_neg hnew]
  exact segments_of_marked (c.newAck_restamps ack now).queue

def outstanding (c : Connection) : Nat := (c.sendSeq - c.lastAck).toNat

theorem lastAck_not_after (c : Connection) :
    seqAfter c.lastAck c.sendSeq = false ↔ c.outstanding ≤ 2 ^ 31 :=
  seqAfter_eq_false c.lastAck c.sendSeq

end Connection

namespace Sending

variable {s : Sending}

def acks : Input → List Seq
  | .processAck ack _ _ => [ack]
  | _ => []

/-- An ACK past `SendSeq` is one that looks old; and no more numbers are given out than half
the sequence space after `LastAck`. -/
def Within (s : Sending) (i : Input) : Prop :=
  (s.sizes i = [] ∨ s.conn.outstanding + (s.sizes i).sum ≤ 2 ^ 31) ∧
    ∀ ack ∈ acks i, seqAfter ack s.conn.sendSeq = true → seqAfter s.conn.lastAck ack = true

instance instDecidableWithin (s : Sending) (i : Input) : Decidable (s.Within i) :=
  -- by the list of the ACKs, not by all numbers
  @instDecidableAnd _ _ inferInstance (List.decidableBAll _ (acks i))

theorem processAck_within (h : seqAfter s.conn.lastAck s.conn.sendSeq = false) (ack : Seq)
    (pureACK : Bool) (now : Nat) : seqAfter (s.conn.processAck ack pureACK now).1.lastAck
        (s.conn.processAck ack pureACK now).1.sendSeq = false ↔
      (seqAfter ack s.conn.sendSeq = true → seqAfter s.conn.lastAck ack = true) := by
  rw [processAck_lastAck, (s.conn.processAck_resends ack pureACK now).sendSeq]
  cases hold : seqAfter s.conn.lastAck ack with
  | true => exact ⟨fun _ _ => rfl, fun _ => h⟩
  | false =>
    rw [if_neg Bool.false_ne_true]
    cases seqAfter ack s.conn.sendSeq <;> simp

theorem sizes_cases (s : Sending) (i : Input) : s.sizes i = [] ∨ ∃ n, s.sizes i = [n] := by
  unfold sizes
  split
  · split
    · exact .inr ⟨1, rfl⟩
    · exact .inl rfl
  · rcases s.numbered_cases i with hnone | ⟨seg, hseg⟩
    · rw [hnone]
      exact .inl rfl
    · rw [hseg]
      exact .inr ⟨seg.length, rfl⟩

theorem step_within (s : Sending) (i : Input) (h : seqAfter s.conn.lastAck s.conn.sendSeq = false)
    (hwithin : s.Within i) : seqAfter (s.step i).conn.lastAck (s.step i).conn.sendSeq = false := by
  by_cases hack : ∃ ack pureACK now, i = .processAck ack pureACK now
  · obtain ⟨ack, pureACK, now, rfl⟩ := hack
    exact (processAck_within h ack pureACK now).mpr (hwithin.2 ack (.head _))
  · have hother : ∀ ack pureACK now, i ≠ .processAck ack pureACK now :=
      fun ack pureACK now hi => hack ⟨ack, pureACK, now, hi⟩
    have hroom := hwithin.1
    have hsendSeq := (step_effect s i).sendSeq
    rw [(step_tracks s i).lastAck hother, seqAfter_eq_false]
    rcases sizes_cases s i with hnone | ⟨n, hsize⟩
    · rw [hsendSeq, hnone]
      exact (s.conn.lastAck_not_after).mp h
    · rw [hsize] at hroom hsendSeq
      rw [hsendSeq]
      have hle : s.conn.outstanding + n ≤ 2 ^ 31 := by
        rcases hroom with hnil | hle
        · cases hnil
        · rwa [List.sum_singleton] at hle
      unfold outstanding at hle
      rw [List.foldl_cons, List.foldl_nil, add_sub_right_comm, UInt32.toNat_add, UInt32.toNat_ofNat']
      omega

def opened (noDelay : Bool) : Sending :=
  { established0 with conn := { new 1 with lastAck := 0 }, noDelay := noDelay, next := 1, tracked := 1 }

/-- In every state that such a run reaches `LastAck` is not past `SendSeq`. There a further
ACK keeps it so exactly if it is not past `SendSeq` or looks old; an ACK that looks old changes
nothing; and one of something outstanding becomes `LastAck` and takes the segments it covers,
and no others, out of the queue. -/
theorem lastAck_within_sendSeq (noDelay : Bool) (inputs : List Input)
    (hwithin : AllSteps step Within (opened noDelay) inputs) :
    let c := (inputs.foldl step (opened noDelay)).conn
    seqAfter c.lastAck c.sendSeq = false ∧
    ∀ ack pureACK now,
      let c' := (c.processAck ack pureACK now).1
      (seqAfter c'.lastAck c'.sendSeq = false ↔
        (seqAfter ack c.sendSeq = true → seqAfter c.lastAck ack = true)) ∧
      (seqAfter c.lastAck ack = true → c' = c) ∧
      (ack ≠ c.lastAck → (ack - c.lastAck).toNat ≤ c.outstanding →
        c'.lastAck = ack ∧
        c'.unacked.map RetxEntry.segment =
          (c.unacked.filter fun e => !covers ack e).map RetxEntry.segment) := by
  have hstart : seqAfter (opened noDelay).conn.lastAck (opened noDelay).conn.sendSeq = false := by
    cases noDelay <;> decide
  have h := run_invariant
    (fun s : Sending => seqAfter s.conn.lastAck s.conn.sendSeq = false) step_within hstart hwithin
  generalize inputs.foldl step (opened noDelay) = s at h ⊢
  refine ⟨h, fun ack pureACK now => ⟨processAck_within h ack pureACK now, fun hold => ?_, ?_⟩⟩
  · unfold processAck
    rw [if_pos hold]
  · intro hnew hle
    have hhalf := (s.conn.lastAck_not_after).mp h
    have hold : seqAfter s.conn.lastAck ack = false := (seqAfter_eq_false _ _).mpr (hle.trans hhalf)
    refine ⟨?_, processAck_retires hnew hold pureACK now⟩
    rw [processAck_lastAck, hold]
    rfl

def sent (data : Bytes) : List Input :=
  [.enter data, .lockWrite data, .sendDataPiece, .lockSend, .look, .reserve true, .track 5 true,
    .returned]

theorem genuine_ack_retires :
    (((sent [7, 8]).foldl step (opened false)).conn.processAck 3 true 6).1.lastAck = 3 ∧
    (((sent [7, 8]).foldl step (opened false)).conn.processAck 3 true 6).1.unacked.map
      RetxEntry.segment = [] := by
  have hwithin : AllSteps step Within (opened false) (sent [7, 8]) := by decide +kernel
  obtain ⟨hlast, hretires⟩ :=
    ((lastAck_within_sendSeq false (sent [7, 8]) hwithin).2 3 true 6).2.2 (by decide +kernel)
      (by decide +kernel)
  exact ⟨hlast, hretires.trans (by decide +kernel)⟩

/-- A late ACK from an earlier connection on the same ports, whose numbers had come further. -/
def lateAck : List Input := sent [7] ++ [.processAck 5000 true 6]

/-- It takes `LastAck` past `SendSeq` and empties the queue; of the next segment the genuine
ACK looks old. -/
theorem late_ack_taken : (lateAck.foldl step (opened false)).conn.lastAck = 5000 ∧
    (lateAck.foldl step (opened false)).conn.sendSeq = 2 ∧
    seqAfter (lateAck.foldl step (opened false)).conn.lastAck
      (lateAck.foldl step (opened false)).conn.sendSeq = true ∧
    ((sent [7]).foldl step (opened false)).conn.unacked.length = 1 ∧
    (lateAck.foldl step (opened false)).conn.unacked.length = 0 ∧
    (((lateAck ++ sent [8]).foldl step (opened false)).conn.processAck 3 true 9).1.unacked.length =
      1 := by
  decide +kernel

end Sending

end PilotProtocol.Stream
