import PilotProtocol.Library.Duration
import PilotProtocol.Library.Run
import PilotProtocol.Stream.Retransmission

/-! # The congestion window and the timers

Whatever order packets are sent, acknowledged, marked and timed out in, the congestion window
stays between one segment and its cap, and the timeout between its bounds. The window is set
in many branches of `ProcessAck`; what carries the bounds through all of them is that the
slow-start threshold stays between two segments and the cap of the window too.
-/

namespace PilotProtocol.Stream

open Library

def RetxEntry.rttAnchor (e : RetxEntry) : Nat := if e.origSentAt = 0 then e.sentAt else e.origSentAt

namespace Connection

/-- The fields of `InRange` are those a division or a timer depends on. -/
structure InRange (c : Connection) : Prop where
  congWin_ge : (maxSegmentSize : Int) ≤ c.congWin
  congWin_le : c.congWin ≤ maxCongWin
  ssThresh_ge : (2 * maxSegmentSize : Int) ≤ c.ssThresh
  ssThresh_le : c.ssThresh ≤ maxCongWin
  recovery : c.fastRecovery = true → c.inRecovery = true
  rto_ge : rtoMin ≤ c.rto
  rto_le : c.rto ≤ rtoMax
  srtt_lt : c.srtt < 2 ^ 59
  rttvar_lt : c.rttvar < 2 ^ 59

namespace InRange

variable {c : Connection}

theorem sizes : maxSegmentSize = 4096 ∧ sendSegmentSize = 1152 ∧ maxCongWin = 1048576 ∧
    rtoMin = 200000000 ∧ rtoMax = 10000000000 ∧ clockGranularity = 10000000 := by decide

theorem window (h : c.InRange) {win : Int} (hge : (maxSegmentSize : Int) ≤ win)
    (hle : win ≤ maxCongWin) : { c with congWin := win }.InRange :=
  { h with congWin_ge := hge, congWin_le := hle }

theorem inflate (h : c.InRange) : c.inflate.InRange := by
  obtain ⟨hmss, hseg, hmax, -⟩ := sizes
  have hge := h.congWin_ge
  apply h.window <;> omega

theorem lossSSThresh_ge (c : Connection) : (2 * maxSegmentSize : Int) ≤ c.lossSSThresh := by
  unfold lossSSThresh
  omega

theorem lossSSThresh_le (hflight : c.flightSize ≤ maxCongWin) :
    c.lossSSThresh + 3 * sendSegmentSize ≤ maxCongWin := by
  obtain ⟨hmss, hseg, hmax, -⟩ := sizes
  unfold lossSSThresh
  omega

theorem enterFastRecovery (h : c.InRange) (hflight : c.flightSize ≤ maxCongWin) :
    c.enterFastRecovery.InRange := by
  have hge := lossSSThresh_ge c
  have hle := lossSSThresh_le hflight
  unfold Connection.enterFastRecovery
  exact { h with
    congWin_ge := by dsimp only; omega
    congWin_le := hle
    ssThresh_ge := hge
    ssThresh_le := by dsimp only; omega
    recovery := fun _ => rfl }

theorem deflate (h : c.InRange) (acked : Nat) : (c.deflate acked).InRange := by
  have hle := h.congWin_le
  have hthresh := h.ssThresh_ge
  have hthresh' := h.ssThresh_le
  apply h.window
  · omega
  · split <;> omega

theorem growCongWin (h : c.InRange) (acked : Nat) : (c.growCongWin acked).InRange := by
  obtain ⟨hmss, hseg, hmax, -⟩ := sizes
  have hge := h.congWin_ge
  apply h.window
  · split <;> omega
  · omega

theorem updateRTT (h : c.InRange) {rtt : Nat} (hrtt : rtt < 2 ^ 59) : (c.updateRTT rtt).InRange := by
  obtain ⟨-, -, -, hmin, hmax, -⟩ := sizes
  have hsrtt := h.srtt_lt
  have hrttvar := h.rttvar_lt
  unfold Connection.updateRTT
  exact { h with
    rto_ge := by dsimp only; omega
    rto_le := by dsimp only; omega
    srtt_lt := by dsimp only; split <;> omega
    rttvar_lt := by dsimp only; split <;> omega }

theorem backedOffRTO {rto : Nat} (hge : rtoMin ≤ rto) (draw : Nat) :
    rtoMin ≤ backedOffRTO rto draw ∧ backedOffRTO rto draw ≤ rtoMax := by
  obtain ⟨-, -, -, hmin, hmax, -⟩ := sizes
  unfold Connection.backedOffRTO
  dsimp only
  generalize draw % (min (rto * 2) rtoMax / 4) = jitter
  omega

end InRange

/-! ## What each operation does to them -/

/-- The step keeps the ranges if `ok` holds; it counts no duplicate and leaves `RetxSend`
alone. -/
structure Adjusts (ok : Prop) (c c' : Connection) : Prop where
  inRange : ok → c.InRange → c'.InRange
  dupAckCount : c'.dupAckCount ≤ c.dupAckCount
  hasRetxSend : c'.hasRetxSend = c.hasRetxSend

namespace Adjusts

variable {ok : Prop} {c c' c'' : Connection}

theorem refl (c : Connection) : Adjusts ok c c := ⟨fun _ => id, le_rfl, rfl⟩

theorem trans (h : Adjusts ok c c') (h' : Adjusts ok c' c'') : Adjusts ok c c'' where
  inRange := fun hok hrange => h'.inRange hok (h.inRange hok hrange)
  dupAckCount := h'.dupAckCount.trans h.dupAckCount
  hasRetxSend := h'.hasRetxSend.trans h.hasRetxSend

theorem unacked (c : Connection) (entries : List RetxEntry) :
    Adjusts ok c { c with unacked := entries } :=
  ⟨fun _ h => { h with }, le_rfl, rfl⟩

theorem uncount (c : Connection) : Adjusts ok { c with dupAckCount := c.dupAckCount + 1 } c :=
  ⟨fun _ h => { h with }, Nat.le_succ _, rfl⟩

end Adjusts

variable {ok : Prop} {c : Connection}

variable {c' : Connection} {now : Nat} {ack : Seq}

theorem fastRetransmit_eq {pkt : Packet} (h : c.fastRetransmit now = some (c', pkt)) :
    ∃ entries, c' = { c with unacked := entries } := by
  unfold fastRetransmit at h
  split at h
  · cases hr : resendFirst (fun e => !e.sacked) now c.unacked with
    | none => simp [hr] at h
    | some pair =>
      simp only [hr] at h
      split at h
      · cases h
      · cases h
        exact ⟨_, rfl⟩
  · cases h

theorem fastRetransmit_adjusts {pkt : Packet} (h : c.fastRetransmit now = some (c', pkt)) :
    Adjusts ok c c' := by
  obtain ⟨entries, rfl⟩ := fastRetransmit_eq h
  exact .unacked c entries

theorem fastRetransmitOrSkip_adjusts (c : Connection) (now : Nat) :
    Adjusts ok c (c.fastRetransmitOrSkip now).1 := by
  unfold fastRetransmitOrSkip
  cases h : c.fastRetransmit now with
  | none => exact .refl c
  | some pair => exact fastRetransmit_adjusts h

theorem flightSize_of_segments
    (h : c'.unacked.map RetxEntry.segment = c.unacked.map RetxEntry.segment) :
    c'.flightSize = c.flightSize := by
  have hlengths := congrArg (List.map fun m => m.2.1.length) h
  rw [List.map_map, List.map_map] at hlengths
  exact congrArg List.sum hlengths

theorem duplicateAck_adjusts (hflight : ok → c.flightSize ≤ maxCongWin) (now : Nat) :
    Adjusts ok { c with dupAckCount := c.dupAckCount + 1 } (c.duplicateAck now).1 := by
  unfold duplicateAck
  split
  · exact .uncount c
  dsimp only
  split
  · exact ⟨fun _ h => h.inflate, le_rfl, rfl⟩
  split
  · cases hr : { c with dupAckCount := c.dupAckCount + 1 : Connection }.fastRetransmit now with
    | none => exact .refl _
    | some pair =>
      have hsent : Adjusts ok _ pair.1 := fastRetransmit_adjusts hr
      have hsame : pair.1.flightSize = c.flightSize :=
        flightSize_of_segments (segments_of_marked (fastRetransmit_restamps hr).queue)
      dsimp only
      split
      · exact hsent.trans ⟨fun hok h => h.enterFastRecovery (hsame ▸ hflight hok), le_rfl, rfl⟩
      split
      · exact hsent.trans ⟨fun _ h => h.inflate, le_rfl, rfl⟩
      · exact hsent
  split
  · exact ⟨fun _ h => h.inflate, le_rfl, rfl⟩
  · exact .refl _

theorem exitRecovery_adjusts (c : Connection) (ack : Seq) : Adjusts ok c (c.exitRecovery ack) := by
  unfold exitRecovery
  split
  · exact ⟨fun _ h => { h with recovery := fun hfast => absurd hfast Bool.false_ne_true },
      le_rfl, rfl⟩
  · exact .refl c

/-- The samples that an ACK may take are not negative and below `2 ^ 59` nanoseconds. -/
def SoundSamples (c : Connection) (ack : Seq) (now : Nat) : Prop :=
  ∀ e ∈ c.unacked, covers ack e = true → e.rttAnchor ≤ now ∧ now - e.rttAnchor < 2 ^ 59

instance (c : Connection) (ack : Seq) (now : Nat) : Decidable (c.SoundSamples ack now) :=
  inferInstanceAs (Decidable (∀ e ∈ c.unacked, _))

theorem sampleRTT_adjusts (hsamples : ok → c.SoundSamples ack now) :
    Adjusts ok c (c.sampleRTT ack now) := by
  unfold sampleRTT
  split
  · exact .refl c
  split
  · exact .refl c
  next e hfind =>
    have hcovers : covers ack e = true := by
      have hboth := List.find?_some hfind
      exact (Bool.and_eq_true _ _ ▸ hboth).1
    refine ⟨fun hok h => h.updateRTT ?_, le_rfl, rfl⟩
    exact (hsamples hok e (List.mem_of_find?_eq_some hfind) hcovers).2

theorem recoverOnAck_adjusts (c : Connection) (wasInRecovery wasFastRecovery : Bool)
    (acked now : Nat) : Adjusts ok c (c.recoverOnAck wasInRecovery wasFastRecovery acked now).1 := by
  unfold recoverOnAck
  split
  · split
    · have hdeflated : Adjusts ok c (c.deflate acked) := ⟨fun _ h => h.deflate acked, le_rfl, rfl⟩
      exact hdeflated.trans (fastRetransmitOrSkip_adjusts _ now)
    · refine ⟨fun _ h => h.window ?_ h.ssThresh_le, le_rfl, rfl⟩
      have hthresh := h.ssThresh_ge
      omega
  split
  · exact fastRetransmitOrSkip_adjusts c now
  · exact .refl c

/-- A new ACK up to the growth of the window, which divides by it. -/
def beforeGrowth (c : Connection) (ack : Seq) (now : Nat) : Connection × List Packet :=
  let advanced :=
    ({ c with lastAck := ack, dupAckCount := 0, lastRetxTime := 0 }.exitRecovery ack).sampleRTT ack now
  { advanced with unacked := removeAcked ack now advanced.unacked }.recoverOnAck c.inRecovery
    c.fastRecovery (c.bytesAcked ack) now

theorem newAck_eq (c : Connection) (ack : Seq) (now : Nat) : c.newAck ack now =
      let (c', pkts) := c.beforeGrowth ack now
      if 0 < c.bytesAcked ack ∧ ¬ (c.fastRecovery ∧ c.inRecovery ∧ c'.inRecovery) then
        (c'.growCongWin (c.bytesAcked ack), pkts)
      else (c', pkts) := rfl

theorem beforeGrowth_adjusts (hsamples : ok → c.SoundSamples ack now) :
    Adjusts ok c (c.beforeGrowth ack now).1 := by
  have hcounted : Adjusts ok c { c with lastAck := ack, dupAckCount := 0, lastRetxTime := 0 } :=
    ⟨fun _ h => { h with }, Nat.zero_le _, rfl⟩
  have hexited := hcounted.trans (exitRecovery_adjusts _ ack)
  have hsame : ok → (({ c with lastAck := ack, dupAckCount := 0, lastRetxTime := 0 } :
      Connection).exitRecovery ack).SoundSamples ack now := by
    unfold SoundSamples
    rwa [exitRecovery_unacked]
  have hadvanced := hexited.trans (sampleRTT_adjusts hsame)
  exact (hadvanced.trans (.unacked _ _)).trans (recoverOnAck_adjusts _ _ _ _ now)

theorem newAck_adjusts (hsamples : ok → c.SoundSamples ack now) :
    Adjusts ok c (c.newAck ack now).1 := by
  have hbefore := beforeGrowth_adjusts hsamples
  rw [newAck_eq]
  dsimp only
  split
  · exact hbefore.trans ⟨fun _ h => h.growCongWin _, le_rfl, rfl⟩
  · exact hbefore

theorem processAck_adjusts (hflight : ok → c.flightSize ≤ maxCongWin)
    (hsamples : ok → c.SoundSamples ack now) (pureACK : Bool) :
    Adjusts ok { c with dupAckCount := c.dupAckCount + 1 } (c.processAck ack pureACK now).1 := by
  unfold processAck
  split
  · exact .uncount c
  split
  · split
    · exact duplicateAck_adjusts hflight now
    · exact .uncount c
  · exact .trans (.uncount c) (newAck_adjusts hsamples)

theorem forgetSACKs_segments (now rto : Nat) (entries : List RetxEntry) :
    (forgetSACKs now rto entries).map RetxEntry.segment = entries.map RetxEntry.segment := by
  unfold forgetSACKs
  split
  · rfl
  split
  · apply map_map_of_eq
    exact fun _ => rfl
  · rfl

theorem forgetSACKs_late {rto : Nat} {e : RetxEntry} (hlate : rto < now - e.sentAt)
    (rest : List RetxEntry) :
    ∃ rest', forgetSACKs now rto (e :: rest) = { e with sacked := false } :: rest' := by
  unfold forgetSACKs
  dsimp only
  split
  · exact ⟨_, rfl⟩
  next hkept =>
    have hsacked : e.sacked = false := by simpa [hlate] using hkept
    have hsame : { e with sacked := false } = e := by rw [← hsacked]
    exact ⟨rest, by rw [hsame]⟩

theorem InRange.timeout (h : c.InRange) (hflight : c.flightSize ≤ maxCongWin) (draw : Nat) :
    { c with
      ssThresh := c.lossSSThresh
      inRecovery := true
      congWin := maxSegmentSize
      rto := Connection.backedOffRTO c.rto draw }.InRange := by
  have hge := lossSSThresh_ge c
  have hle := lossSSThresh_le hflight
  obtain ⟨hrto, hrto'⟩ := InRange.backedOffRTO h.rto_ge draw
  exact { h with
    congWin_ge := by dsimp only; omega
    congWin_le := by dsimp only; omega
    ssThresh_ge := hge
    ssThresh_le := by dsimp only; omega
    recovery := fun _ => rfl
    rto_ge := hrto
    rto_le := hrto' }

theorem retransmitUnacked_adjusts (hflight : ok → c.flightSize ≤ maxCongWin) (now draw : Nat) :
    Adjusts ok c (c.retransmitUnacked now draw).1 := by
  have hforgot : Adjusts ok c { c with unacked := forgetSACKs now c.rto c.unacked } := .unacked c _
  unfold retransmitUnacked
  split
  · exact .refl c
  split
  · exact .refl c
  dsimp only
  split
  · exact hforgot
  split
  · exact hforgot.trans ⟨fun _ h => { h with }, le_rfl, rfl⟩
  · refine hforgot.trans ⟨fun hok h => ?_, Nat.zero_le _, rfl⟩
    have hsame : ({ c with unacked := forgetSACKs now c.rto c.unacked } : Connection).flightSize ≤
        maxCongWin := by
      rw [flightSize_of_segments (forgetSACKs_segments now c.rto c.unacked)]
      exact hflight hok
    have htimeout := h.timeout hsame draw
    exact { htimeout with recovery := fun _ => rfl }

/-- With the head out of time, and the last timeout an RTO ago, the head is what is sent
again: its mark does not protect it, nor do the times of the others. -/
theorem retransmitUnacked_head {e : RetxEntry} {rest : List RetxEntry} (draw : Nat)
    (hqueue : c.unacked = e :: rest) (hlate : c.rto < now - e.sentAt)
    (hgate : c.lastRetxTime = 0 ∨ c.rto ≤ now - c.lastRetxTime) (hretx : c.hasRetxSend = true) :
    (e.attempts < maxRetxAttempts ∧ (c.retransmitUnacked now draw).2 = [e.packet] ∧
      ∃ rest', (c.retransmitUnacked now draw).1.unacked =
        { e with attempts := e.attempts + 1, sentAt := now, sacked := false } :: rest') ∨
    (maxRetxAttempts ≤ e.attempts ∧ (c.retransmitUnacked now draw).2 = [⟨.rst, 0, []⟩] ∧
      (c.retransmitUnacked now draw).1.state = .closed) := by
  obtain ⟨rest', hforgot⟩ := forgetSACKs_late hlate rest
  have hresend : resendFirst (fun x => !x.sacked && decide (c.rto < now - x.sentAt)) now
      (forgetSACKs now c.rto c.unacked) =
      some ({ e with sacked := false }, RetxEntry.resent now { e with sacked := false } :: rest') := by
    rw [hqueue, hforgot]
    unfold resendFirst
    rw [List.find?_cons_of_pos (by simpa using hlate)]
    rw [List.findIdx_cons, cond_eq_ite, if_pos (by simpa using hlate)]
    rfl
  have hstart : ¬ (c.lastRetxTime ≠ 0 ∧ now - c.lastRetxTime < c.rto) := by omega
  have hpacket : RetxEntry.packet { e with sacked := false } = e.packet := rfl
  unfold retransmitUnacked
  rw [if_neg (by rw [hqueue]; exact List.cons_ne_nil _ _), if_neg hstart]
  dsimp only
  rw [hresend]
  dsimp only
  by_cases hmax : maxRetxAttempts ≤ e.attempts
  · rw [if_pos hmax, if_pos hretx]
    exact .inr ⟨hmax, rfl, rfl⟩
  · rw [if_neg hmax, if_pos hretx, hpacket]
    exact .inl ⟨Nat.lt_of_not_le hmax, rfl, rest', rfl⟩

/-! ## Round trips in machine integers -/

/-- The new `SRTT` and `RTTVAR` as the source computes them, with 64-bit integers. -/
def smooth64 (srtt rttvar rtt : Int64) : Int64 × Int64 :=
  if srtt = 0 then (rtt, rtt / 2)
  else
    let diff := if srtt - rtt < 0 then -(srtt - rtt) else srtt - rtt
    (srtt * 7 / 8 + rtt / 8, rttvar * 3 / 4 + diff / 4)

/-- The timeout from the new `SRTT` and `RTTVAR`. -/
def timeout64 (srtt rttvar : Int64) : Int64 :=
  let kvar := if rttvar * 4 < .ofNat clockGranularity then .ofNat clockGranularity else rttvar * 4
  let rto := if srtt + kvar < .ofNat rtoMin then .ofNat rtoMin else srtt + kvar
  if .ofNat rtoMax < rto then .ofNat rtoMax else rto

theorem smooth64_eq (h : c.InRange) {rtt : Nat} (hrtt : rtt < 2 ^ 59) :
    smooth64 (.ofNat c.srtt) (.ofNat c.rttvar) (.ofNat rtt) =
      (.ofNat (c.updateRTT rtt).srtt, .ofNat (c.updateRTT rtt).rttvar) := by
  have hsrtt := h.srtt_lt
  have hrttvar := h.rttvar_lt
  have hhalf : Int64.ofNat rtt / 2 = Int64.ofNat (rtt / 2) :=
    ofNat64_div (n := 2) (by omega) (by omega)
  have heighth : Int64.ofNat rtt / 8 = Int64.ofNat (rtt / 8) :=
    ofNat64_div (n := 8) (by omega) (by omega)
  have hold : Int64.ofNat c.srtt * 7 / 8 = Int64.ofNat (c.srtt * 7 / 8) :=
    ofNat64_scale (k := 7) (d := 8) (by omega) (by omega)
  have hvar : Int64.ofNat c.rttvar * 3 / 4 = Int64.ofNat (c.rttvar * 3 / 4) :=
    ofNat64_scale (k := 3) (d := 4) (by omega) (by omega)
  have hdist := ofNat64_dist (m := c.srtt) (n := rtt) (by omega) (by omega)
  have hquarter : Int64.ofNat (max (c.srtt - rtt) (rtt - c.srtt)) / 4 =
      Int64.ofNat (max (c.srtt - rtt) (rtt - c.srtt) / 4) :=
    ofNat64_div (n := 4) (by omega) (by omega)
  unfold smooth64 updateRTT
  by_cases hfirst : c.srtt = 0
  · rw [if_pos ((ofNat64_eq_zero (by omega)).mpr hfirst), hhalf]
    simp only [if_pos hfirst]
  · rw [if_neg (mt (ofNat64_eq_zero (by omega)).mp hfirst)]
    simp only [if_neg hfirst]
    rw [hdist, hold, heighth, hvar, hquarter, ← Int64.ofNat_add, ← Int64.ofNat_add]

theorem timeout64_eq {srtt rttvar : Nat} (hsrtt : srtt < 2 ^ 59) (hrttvar : rttvar < 2 ^ 59) :
    timeout64 (.ofNat srtt) (.ofNat rttvar) =
      .ofNat (min (max (srtt + max (rttvar * 4) clockGranularity) rtoMin) rtoMax) := by
  obtain ⟨-, -, -, hmin, hmax, hclock⟩ := InRange.sizes
  have hfour : Int64.ofNat rttvar * 4 = Int64.ofNat (rttvar * 4) := (Int64.ofNat_mul _ _).symm
  unfold timeout64
  dsimp only
  rw [hfour, ofNat64_max (by omega) (by omega), ← Int64.ofNat_add, ofNat64_max (by omega) (by omega),
    ofNat64_min (by omega) (by omega)]

end Connection

/-! ## Runs -/

namespace Congestion

/-- What happens to a connection's queue, window and timers. `reserve` is a writer taking
sequence numbers, `setState` any change of the state. -/
inductive Input
  | trackSend (seq : Seq) (data : Bytes) (now : Nat)
  | sendFIN (seq : Seq) (now : Nat)
  | reserve (size : Nat)
  | processAck (ack : Seq) (pureACK : Bool) (now : Nat)
  | processSACK (blocks : List SACKBlock)
  | updateRTT (rtt : Nat)
  | retransmitUnacked (now draw : Nat)
  | setState (state : ConnState)

def step (c : Connection) : Input → Connection
  | .trackSend seq data now => c.trackSend seq data now
  | .sendFIN seq now => (c.sendFIN seq now).1
  | .reserve size => { c with sendSeq := c.sendSeq + UInt32.ofNat size }
  | .processAck ack pureACK now => (c.processAck ack pureACK now).1
  | .processSACK blocks => c.processSACK blocks
  | .updateRTT rtt => c.updateRTT rtt
  | .retransmitUnacked now draw => (c.retransmitUnacked now draw).1
  | .setState state => { c with state := state }

def started (state : ConnState) (seq lastAck : Seq) : Connection :=
  { Connection.new seq with state := state, lastAck := lastAck }

/-- No more than the largest window is in flight, and the samples are sound. -/
def Sound (c : Connection) (i : Input) : Prop :=
  c.flightSize ≤ maxCongWin ∧
    match i with
    | .processAck ack _ now => c.SoundSamples ack now
    | .updateRTT rtt => rtt < 2 ^ 59
    | _ => True

instance (c : Connection) (i : Input) : Decidable (Sound c i) := by
  cases i <;> dsimp only [Sound] <;> infer_instance

theorem started_inRange (state : ConnState) (seq lastAck : Seq) :
    (started state seq lastAck).InRange := by
  have hnew : (Connection.new 0).InRange := by
    constructor <;> decide
  exact { hnew with }

variable {inputs : List Input} (c : Connection) (i : Input)

theorem step_adjusts :
    Connection.Adjusts (Sound c i) { c with dupAckCount := c.dupAckCount + 1 } (step c i) := by
  cases i with
  | trackSend seq data now | sendFIN seq now | processSACK blocks =>
    exact .trans (.uncount c) (.unacked c _)
  | reserve size | setState state =>
    exact .trans (.uncount c)
      ⟨fun _ h => { h with }, le_rfl, rfl⟩
  | processAck ack pureACK now => exact Connection.processAck_adjusts And.left And.right pureACK
  | updateRTT rtt => exact .trans (.uncount c) ⟨fun hok h => h.updateRTT hok.2, le_rfl, rfl⟩
  | retransmitUnacked now draw =>
    exact .trans (.uncount c) (Connection.retransmitUnacked_adjusts And.left now draw)

theorem step_inRange (h : c.InRange) (hsound : Sound c i) : (step c i).InRange :=
  (step_adjusts c i).inRange hsound { h with }

theorem run_dupAckCount (inputs : List Input) :
    (inputs.foldl step c).dupAckCount ≤ c.dupAckCount + inputs.length := by
  induction inputs generalizing c with
  | nil => exact le_rfl
  | cons i rest ih =>
    have hstep : (step c i).dupAckCount ≤ c.dupAckCount + 1 := (step_adjusts c i).dupAckCount
    have hrest := ih (step c i)
    rw [List.foldl_cons, List.length_cons]
    omega

/-- In every run, as long as no more than the largest window is in flight and the samples are
sound, the window, the threshold and the timeout are within their bounds; so neither the
growth of the window divides by zero nor the jitter is drawn from an empty range, a sample's
arithmetic does not overflow, and the count of duplicates is no more than the steps. -/
theorem congestion_in_range (state : ConnState) (seq lastAck : Seq) (inputs : List Input)
    (hsound : AllSteps step Sound (started state seq lastAck) inputs) :
    let c := inputs.foldl step (started state seq lastAck)
    (maxSegmentSize : Int) ≤ c.congWin ∧ c.congWin ≤ maxCongWin ∧
    (2 * maxSegmentSize : Int) ≤ c.ssThresh ∧
    (c.fastRecovery = true → c.inRecovery = true) ∧
    c.dupAckCount ≤ inputs.length ∧ (inputs.length < 2 ^ 63 → 0 ≤ Int64.ofNat c.dupAckCount) ∧
    rtoMin ≤ c.rto ∧ c.rto ≤ rtoMax ∧
    (∀ ack now, c.SoundSamples ack now → 0 < (c.beforeGrowth ack now).1.congWin) ∧
    0 < min (c.rto * 2) rtoMax / 4 ∧
    ∀ rtt < 2 ^ 59,
      Connection.smooth64 (.ofNat c.srtt) (.ofNat c.rttvar) (.ofNat rtt) =
        (.ofNat (c.updateRTT rtt).srtt, .ofNat (c.updateRTT rtt).rttvar) ∧
      Connection.timeout64 (.ofNat (c.updateRTT rtt).srtt) (.ofNat (c.updateRTT rtt).rttvar) =
        .ofNat (c.updateRTT rtt).rto := by
  have hrange := run_invariant _ step_inRange (started_inRange state seq lastAck) hsound
  have hcount := run_dupAckCount (started state seq lastAck) inputs
  have hzero : (started state seq lastAck).dupAckCount = 0 := rfl
  obtain ⟨hmss, -, -, hmin, hmax, -⟩ := Connection.InRange.sizes
  have hrto := hrange.rto_ge
  refine ⟨hrange.congWin_ge, hrange.congWin_le, hrange.ssThresh_ge, hrange.recovery, by omega, ?_,
    hrange.rto_ge, hrange.rto_le, ?_, by omega, ?_⟩
  · intro hshort
    rw [Int64.le_iff_toInt_le, toInt_ofNat64 (by omega)]
    exact Int.natCast_nonneg _
  · intro ack now hsamples
    have hbefore := ((Connection.beforeGrowth_adjusts id).inRange hsamples hrange).congWin_ge
    omega
  · intro rtt hrtt
    have hnext := hrange.updateRTT hrtt
    exact ⟨Connection.smooth64_eq hrange hrtt, Connection.timeout64_eq hnext.srtt_lt hnext.rttvar_lt⟩

/-- Three segments, three duplicates of the last ACK, a timeout and an ACK of everything. -/
def lossy : List Input :=
  [.trackSend 1 [1, 2] 100, .trackSend 3 [3] 200, .trackSend 4 [4] 300, .reserve 4,
    .processAck 1 true 400, .processAck 1 true 500, .processAck 1 true 600, .processAck 1 true 700,
    .retransmitUnacked 2000000000 5, .processAck 5 true 3000000000, .updateRTT 40000000]

theorem lossy_in_range :
    let c := lossy.foldl step (started .established 1 1)
    (maxSegmentSize : Int) ≤ c.congWin ∧ c.congWin ≤ maxCongWin ∧ c.rto ≤ rtoMax := by
  obtain ⟨hge, hle, -, -, -, -, -, hrto, -⟩ :=
    congestion_in_range .established 1 1 lossy (by decide +kernel)
  exact ⟨hge, hle, hrto⟩

/-! ## The head of the queue -/

/-- The entry is what `TrackSend` or a FIN put into the queue, and is repeated as such. -/
def Original (inputs : List Input) (e : RetxEntry) : Prop :=
  (∃ now, .trackSend e.seq e.data now ∈ inputs) ∧ e.packet = ⟨.ack, e.seq, e.data⟩ ∨
  (∃ now, .sendFIN e.seq now ∈ inputs) ∧ e.packet = ⟨.fin, e.seq, []⟩

theorem Original.of_same {e e' : RetxEntry} (h : Original inputs e) (hsame : e.SameSegment e') :
    Original inputs e' := by
  obtain ⟨hseq, hdata, hfin⟩ := hsame
  unfold Original RetxEntry.packet at *
  rwa [hseq, hdata, hfin]

structure Sendable (inputs : List Input) (c : Connection) : Prop where
  original : ∀ e ∈ c.unacked, Original inputs e
  hasRetxSend : c.hasRetxSend = true

theorem Sendable.derived {c c' : Connection} (h : Sendable inputs c)
    (hqueue : Derived c.unacked c'.unacked) (hretx : c'.hasRetxSend = c.hasRetxSend) :
    Sendable inputs c' where
  original := by
    intro e' he'
    obtain ⟨e, he, hsame⟩ := hqueue e' he'
    exact (h.original e he).of_same hsame
  hasRetxSend := hretx.trans h.hasRetxSend

theorem step_sendable (h : Sendable inputs c) (hi : i ∈ inputs) : Sendable inputs (step c i) := by
  have hretx := (step_adjusts c i).hasRetxSend
  cases i with
  | trackSend seq data now =>
    refine ⟨fun e he => ?_, h.hasRetxSend⟩
    rcases List.mem_append.mp he with hold | hnew
    · exact h.original e hold
    · rw [List.mem_singleton.mp hnew]
      exact .inl ⟨⟨now, hi⟩, rfl⟩
  | sendFIN seq now =>
    refine ⟨fun e he => ?_, h.hasRetxSend⟩
    rcases List.mem_append.mp he with hold | hnew
    · exact h.original e hold
    · rw [List.mem_singleton.mp hnew]
      exact .inr ⟨⟨now, hi⟩, rfl⟩
  | reserve size | updateRTT rtt | setState state => exact h.derived (.refl _) rfl
  | processAck ack pureACK now =>
    exact h.derived (c.processAck_resends ack pureACK now).unacked hretx
  | processSACK blocks => exact h.derived (c.processSACK_resends blocks).unacked rfl
  | retransmitUnacked now draw =>
    exact h.derived (c.retransmitUnacked_resends now draw).unacked hretx

/-- In every state a run reaches: if the head of the queue is out of time and the last timeout
lies at least an RTO back, a timeout sends the head again, as it was first sent and nothing
else, or ends the connection with a RST if it was sent often enough. -/
theorem stuck_head_resent (state : ConnState) (seq lastAck : Seq) (inputs : List Input)
    (e : RetxEntry) (rest : List RetxEntry) (now draw : Nat) :
    let c := inputs.foldl step (started state seq lastAck)
    c.unacked = e :: rest → c.rto < now - e.sentAt →
    (c.lastRetxTime = 0 ∨ c.rto ≤ now - c.lastRetxTime) →
    (e.attempts < maxRetxAttempts ∧ (c.retransmitUnacked now draw).2 = [e.packet] ∧
      Original inputs e ∧
      ∃ rest', (c.retransmitUnacked now draw).1.unacked =
        { e with attempts := e.attempts + 1, sentAt := now, sacked := false } :: rest') ∨
    (maxRetxAttempts ≤ e.attempts ∧ (c.retransmitUnacked now draw).2 = [⟨.rst, 0, []⟩] ∧
      (c.retransmitUnacked now draw).1.state = .closed) := by
  have hstart : Sendable inputs (started state seq lastAck) := ⟨nofun, rfl⟩
  have hsendable := run_invariant (Sendable inputs) step_sendable hstart
    (allSteps_of_inputs step _ fun _ => id)
  intro c hqueue hlate hgate
  rcases Connection.retransmitUnacked_head draw hqueue hlate hgate hsendable.hasRetxSend with
    ⟨hattempts, hsent, hhead⟩ | hclosed
  · have horiginal := hsendable.original e (hqueue ▸ (.head _))
    exact .inl ⟨hattempts, hsent, horiginal, hhead⟩
  · exact .inr hclosed

/-- The peer SACKs the first of two segments and never acknowledges it. -/
def parked : List Input := [.trackSend 1 [7] 100, .trackSend 2 [8] 200, .processSACK [⟨1, 2⟩]]

theorem parked_head_resent :
    ((parked.foldl step (started .established 1 1)).retransmitUnacked 2000000000 0).2 =
      [⟨.ack, 1, [7]⟩] := by
  rcases stuck_head_resent .established 1 1 parked ⟨[7], 1, 100, 100, 1, true, false⟩
    [⟨[8], 2, 200, 200, 1, false, false⟩] 2000000000 0 rfl (by decide) (.inl rfl) with
    ⟨-, hsent, -⟩ | ⟨hmax, -⟩
  · exact hsent
  · exact absurd hmax (by decide)

end Congestion

end PilotProtocol.Stream
