import PilotProtocol.Watchdog.RxWatchdog

/-! # Dial wedges

A row of dial timeouts makes a tick recover softly and set the timeout counter back, so that
the next dials test the path. A tick that comes before they have and finds new packets takes
the transport for recovered, and the soft attempts start again. So they do when the hard exit
after the last of them is withheld.
-/

namespace PilotProtocol.RxWatchdog

open Library

def Action.checksExit : Action → Bool
  | .exitWithheld | .exit | .restartLoop => true
  | _ => false

/-- `unproven` is whether a soft recovery was made for a dial wedge and no dial has succeeded
since, `succeeded` whether one has at all, `reached` how many ticks have found a dial wedge
since the start or the last hard-exit check. -/
structure Dialing where
  st : RxWatchdogState
  recv : UInt64
  sent : UInt64
  dialTimeouts : UInt64
  exited : Bool
  unproven : Bool
  succeeded : Bool
  reached : Nat

namespace Dialing

inductive Input
  | packet
  | send
  /-- A dial times out, and no other has succeeded while it ran. -/
  | dialTimeout
  | dialSuccess
  | tick (now : GoTime) (registryOK : Nat) (exitLog : File)

def wedged (s : Dialing) : Bool := dialWedgeThreshold ≤ s.dialTimeouts

def ticked (s : Dialing) : RxWatchdogState × File × Action → Dialing
  | (st, _, .softRecover) =>
    { s with
      st
      dialTimeouts := 0
      unproven := s.unproven || s.wedged
      reached := if s.wedged then s.reached + 1 else s.reached }
  | (st, _, action) =>
    if action.checksExit then
      { s with st, exited := decide (action = .exit), reached := 0 }
    else { s with st }

variable (path : String) (startTime : GoTime)

def look (s : Dialing) (now : GoTime) (registryOK : Nat) (exitLog : File) :
    RxWatchdogState × File × Action :=
  rxWatchdogTick path exitLog startTime now ⟨0, 0, s.recv, s.sent, s.dialTimeouts, registryOK⟩ s.st

def step (s : Dialing) : Input → Dialing
  | .packet => { s with recv := s.recv + 1 }
  | .send => { s with sent := s.sent + 1 }
  | .dialTimeout => { s with dialTimeouts := s.dialTimeouts + 1 }
  | .dialSuccess => { s with dialTimeouts := 0, unproven := false, succeeded := true }
  | .tick now registryOK exitLog =>
    if s.exited then s else s.ticked (s.look path startTime now registryOK exitLog)

def silent (s : Dialing) (now : GoTime) : Bool :=
  s.recv == s.st.recvSeen && decide ((rxSilenceThreshold : Int) ≤ now.sub s.st.lastProgress) &&
    decide (rxSilenceMinSentDelta ≤ s.sent - s.st.sentAtProgress)

/-- The process has received a packet or slept, the registry has answered lately, and the
process is not young. -/
def mayExit (s : Dialing) (now : GoTime) (registryOK : Nat) : Bool :=
  let age := (⟨0, 0, s.recv, s.sent, s.dialTimeouts, registryOK⟩ : Reading).registryAge now
  (s.recv != 0 || s.st.suspendSeen) && decide (0 ≤ age) && decide (age ≤ rxWedgeRegistryFresh) &&
    decide ((rxWedgeMinUptime : Int) ≤ now.sub startTime)

/-- While a recovery is unproven, a tick that finds new packets also finds a dial wedge, and
one that comes to the hard-exit check may exit. -/
def Calm (s : Dialing) : Input → Prop
  | .tick now registryOK _ =>
    s.exited = false → s.unproven = true → 0 < s.st.softAttempts →
      (s.recv ≠ s.st.recvSeen → s.wedged = true) ∧
      (rxWatchdogSoftMax ≤ s.st.softAttempts → (s.wedged || s.silent now) = true →
        s.mayExit startTime now registryOK = true)
  | _ => True

/-- While no dial has succeeded, silence alone leaves no tick to recover softly. -/
def Undistracted (s : Dialing) : Input → Prop
  | .tick now _ _ =>
    s.exited = false → s.succeeded = false → s.st.softAttempts < rxWatchdogSoftMax →
      s.silent now = true → s.wedged = true
  | _ => True

/-- While a recovery is unproven, a tick does not publish `tunnel.rx_recovered`, and of the
resets only the restart-loop breaker's sets the soft attempts back. -/
def Unbroken (s : Dialing) : Input → Prop
  | .tick now registryOK exitLog =>
    let r := s.look path startTime now registryOK exitLog
    s.exited = false → s.unproven = true → 0 < s.st.softAttempts →
      r.2.2 ≠ .progress ∧ (r.1.softAttempts = 0 → r.2.2 = .restartLoop)
  | _ => True

/-- While no dial has succeeded, the `k`-th dial wedge is soft attempt `k`, and the one after
the last soft attempt comes to the hard-exit check. -/
def Climbs (s : Dialing) : Input → Prop
  | .tick now registryOK exitLog =>
    let r := s.look path startTime now registryOK exitLog
    s.exited = false → s.succeeded = false → s.wedged = true →
      if s.reached < rxWatchdogSoftMax then
        r.2.2 = .softRecover ∧ r.1.softAttempts = s.reached + 1
      else r.2.2.checksExit = true
  | _ => True

/-- What a tick answers, by what it finds. -/
inductive Answers (s : Dialing) (now : GoTime) (registryOK : Nat) :
    RxWatchdogState × File × Action → Prop
  | progress {st file} (hrecv : s.recv ≠ s.st.recvSeen) (hcalm : s.wedged = false)
      (hst : st.softAttempts = 0) : Answers s now registryOK (st, file, .progress)
  | none {st file} (hrecv : s.recv = s.st.recvSeen) (hcalm : (s.wedged || s.silent now) = false)
      (hst : st.softAttempts = s.st.softAttempts) : Answers s now registryOK (st, file, .none)
  | softRecover {st file} (hrecv : s.recv ≠ s.st.recvSeen → s.wedged = true)
      (hfound : (s.wedged || s.silent now) = true) (hroom : s.st.softAttempts < rxWatchdogSoftMax)
      (hst : st.softAttempts = s.st.softAttempts + 1) : Answers s now registryOK (st, file, .softRecover)
  | check {st file action} (hrecv : s.recv ≠ s.st.recvSeen → s.wedged = true)
      (hfound : (s.wedged || s.silent now) = true) (hfull : rxWatchdogSoftMax ≤ s.st.softAttempts)
      (haction : action = .exitWithheld ∧ s.mayExit startTime now registryOK = false ∧
          st.softAttempts = 0 ∨
        s.mayExit startTime now registryOK = true ∧ (action = .restartLoop ∧ st.softAttempts = 0 ∨
          action = .exit ∧ st.softAttempts = s.st.softAttempts)) :
      Answers s now registryOK (st, file, action)

structure Inv (s : Dialing) : Prop where
  reached : s.exited = false → s.succeeded = false → s.st.softAttempts = s.reached
  proven : s.succeeded = false → s.unproven = false → s.reached = 0

variable {path startTime} {s : Dialing} {r : RxWatchdogState × File × Action}

theorem escalate_answers {st : RxWatchdogState} (file : File) {now : GoTime} {registryOK : Nat}
    (hst : st.softAttempts = s.st.softAttempts) (hseen : st.recvSeen = s.recv)
    (hslept : st.suspendSeen = s.st.suspendSeen) (hrecv : s.recv ≠ s.st.recvSeen → s.wedged = true)
    (hfound : (s.wedged || s.silent now) = true) :
    s.Answers startTime now registryOK (escalate path file startTime now
      ⟨0, 0, s.recv, s.sent, s.dialTimeouts, registryOK⟩ st) := by
  unfold escalate
  dsimp only
  rw [hst, hseen, hslept]
  split_ifs with hroom hnever hstale hyoung hbreaker
  · exact .softRecover hrecv hfound hroom rfl
  all_goals refine .check hrecv hfound (Nat.le_of_not_lt hroom) ?_
  · exact .inl ⟨rfl, by simp [mayExit, hnever], rfl⟩
  · refine .inl ⟨rfl, ?_, rfl⟩
    rcases hstale with hstale | hstale <;> simp [mayExit, not_le.mpr hstale]
  · exact .inl ⟨rfl, by simp [mayExit, not_le.mpr hyoung], rfl⟩
  all_goals
    have hmay : s.mayExit startTime now registryOK = true := by
      simp only [not_or, not_lt] at hstale hyoung
      simp only [mayExit, Bool.and_eq_true, Bool.or_eq_true, bne_iff_ne, decide_eq_true_eq]
      refine ⟨⟨⟨?_, hstale.1⟩, hstale.2⟩, hyoung⟩
      by_contra hnot
      simp_all
  · exact .inr ⟨hmay, .inl ⟨rfl, rfl⟩⟩
  · exact .inr ⟨hmay, .inr ⟨rfl, hst⟩⟩

theorem look_answers (s : Dialing) (now : GoTime) (registryOK : Nat) (exitLog : File) :
    s.Answers startTime now registryOK (s.look path startTime now registryOK exitLog) := by
  unfold look rxWatchdogTick
  dsimp only
  by_cases hrecv : s.recv = s.st.recvSeen
  · rw [if_neg fun h => h.1 hrecv, if_neg (not_not_intro hrecv)]
    have hsilent : s.silent now = true ↔ (rxSilenceThreshold : Int) ≤ now.sub s.st.lastProgress ∧
        rxSilenceMinSentDelta ≤ s.sent - s.st.sentAtProgress := by
      simp [silent, hrecv]
    split
    next hcalm =>
      refine .none hrecv ?_ rfl
      rw [Bool.or_eq_false_iff, ← Bool.not_eq_true, ← Bool.not_eq_true, hsilent]
      exact ⟨by simpa [wedged] using hcalm.2, hcalm.1⟩
    next hfound =>
      refine escalate_answers exitLog rfl hrecv.symm rfl (fun h => absurd hrecv h) ?_
      by_contra hnot
      rw [Bool.or_eq_true, hsilent, not_or] at hnot
      exact hfound ⟨hnot.2, by simpa [wedged] using hnot.1⟩
  · cases hwedged : s.wedged with
    | false =>
      have hcalm : ¬ dialWedgeThreshold ≤ s.dialTimeouts := of_decide_eq_false hwedged
      rw [if_pos ⟨hrecv, hcalm⟩]
      exact .progress hrecv hwedged rfl
    | true =>
      have hthere : dialWedgeThreshold ≤ s.dialTimeouts := of_decide_eq_true hwedged
      rw [if_neg fun h => h.2 hthere, if_neg fun h => h.2 hthere, if_pos hrecv]
      exact escalate_answers exitLog rfl rfl rfl (fun _ => hwedged) (by rw [hwedged]; rfl)

/-- The condition is the exact one. -/
theorem unbroken_iff_calm (s : Dialing) (i : Input) :
    s.Unbroken path startTime i ↔ s.Calm startTime i := by
  cases i with
  | tick now registryOK exitLog =>
    refine imp_congr_right fun _ => imp_congr_right fun _ => imp_congr_right fun hsome => ?_
    have hr : s.Answers startTime now registryOK (s.look path startTime now registryOK exitLog) :=
      look_answers s now registryOK exitLog
    generalize s.look path startTime now registryOK exitLog = r at hr ⊢
    cases hr with
    | progress hrecv hcalm hst => simp [hrecv, hcalm]
    | none hrecv hcalm hst => simp [hrecv, hcalm, hst, Nat.ne_of_gt hsome]
    | softRecover hrecv hfound hroom hst => simpa [hst, Nat.not_le.mpr hroom] using hrecv
    | check hrecv hfound hfull haction =>
      rcases haction with ⟨rfl, hmay, hst⟩ | ⟨hmay, ⟨rfl, hst⟩ | ⟨rfl, hst⟩⟩
      · simp [hst, hmay, hfull, hfound]
      · simpa [hmay] using hrecv
      · simpa [hst, hmay, Nat.ne_of_gt hsome] using hrecv
  | _ => exact Iff.rfl

theorem Inv.climbs (h : s.Inv) (i : Input) : s.Climbs path startTime i := by
  cases i with
  | tick now registryOK exitLog =>
    intro hexited hs hwedged
    have hreached := h.reached hexited hs
    have hr : s.Answers startTime now registryOK (s.look path startTime now registryOK exitLog) :=
      look_answers s now registryOK exitLog
    generalize s.look path startTime now registryOK exitLog = r at hr ⊢
    cases hr with
    | progress hrecv hcalm hst => exact absurd (hwedged.symm.trans hcalm) (by decide)
    | none hrecv hcalm hst => simp [hwedged] at hcalm
    | softRecover hrecv hfound hroom hst =>
      rw [← hreached, if_pos hroom]
      exact ⟨rfl, hst⟩
    | check hrecv hfound hfull haction =>
      rw [← hreached, if_neg (Nat.not_lt.mpr hfull)]
      rcases haction with ⟨rfl, -⟩ | ⟨-, ⟨rfl, -⟩ | ⟨rfl, -⟩⟩ <;> rfl
  | _ => trivial

theorem Inv.tick (h : s.Inv) {now : GoTime} {registryOK : Nat} {r : RxWatchdogState × File × Action}
    (hexited : s.exited = false) (hr : s.Answers startTime now registryOK r)
    (hcalm : s.unproven = true → 0 < s.st.softAttempts → s.recv ≠ s.st.recvSeen → s.wedged = true)
    (hsilence : s.succeeded = false → s.st.softAttempts < rxWatchdogSoftMax →
      s.silent now = true → s.wedged = true) : (s.ticked r).Inv := by
  have hreached := h.reached hexited
  have hproven := h.proven
  cases hr with
  | progress hrecv hcalm' hst =>
    refine ⟨fun _ hs => hst.trans ?_, hproven⟩
    cases hunproven : s.unproven with
    | false => exact (hproven hs hunproven).symm
    | true =>
      by_contra hne
      have hpos : 0 < s.st.softAttempts := by
        rw [hreached hs]
        exact Nat.pos_of_ne_zero fun h0 => hne h0.symm
      simp [hcalm hunproven hpos hrecv] at hcalm'
  | none hrecv hcalm' hst => exact ⟨fun _ hs => hst.trans (hreached hs), hproven⟩
  | softRecover hrecv hfound hroom hst =>
    have hwedged (hs : s.succeeded = false) : s.wedged = true := by
      rcases Bool.or_eq_true_iff.mp hfound with hw | hsilent
      · exact hw
      · exact hsilence hs hroom hsilent
    refine ⟨fun _ hs => ?_, fun hs hunproven => ?_⟩
    · simp only [Dialing.ticked, hwedged hs, if_true]
      rw [hst, hreached hs]
    · simp [Dialing.ticked, hwedged hs] at hunproven
  | check hrecv hfound hfull haction =>
    rcases haction with ⟨rfl, -, hst⟩ | ⟨-, ⟨rfl, hst⟩ | ⟨rfl, -⟩⟩
    · exact ⟨fun _ _ => hst, fun _ _ => rfl⟩
    · exact ⟨fun _ _ => hst, fun _ _ => rfl⟩
    · exact ⟨nofun, fun _ _ => rfl⟩

theorem Inv.step (h : s.Inv) (i : Input) (hcalm : s.Calm startTime i)
    (hundistracted : s.Undistracted i) : (s.step path startTime i).Inv := by
  cases i with
  | dialSuccess => exact ⟨nofun, nofun⟩
  | tick now registryOK exitLog =>
    unfold Dialing.step
    dsimp only
    split
    · exact h
    next hexited =>
      have hexited := Bool.eq_false_of_not_eq_true hexited
      exact h.tick hexited (look_answers s now registryOK exitLog)
        (fun hu hpos => (hcalm hexited hu hpos).1) (hundistracted hexited)
  | _ => exact ⟨h.reached, h.proven⟩

/-- A dial wedge is not taken for over before a dial has succeeded exactly in the calm runs;
and in those in which silence does not distract, the wedges climb to the hard-exit check. -/
theorem dial_wedge_climbs (path : String) (startTime : GoTime) (s : Dialing) (inputs : List Input)
    (hstart : s.st.softAttempts = 0 ∧ s.unproven = false ∧ s.reached = 0) :
    (AllSteps (step path startTime) (Unbroken path startTime) s inputs ↔
      AllSteps (step path startTime) (Calm startTime) s inputs) ∧
    (AllSteps (step path startTime) (Calm startTime) s inputs →
      AllSteps (step path startTime) Undistracted s inputs →
      AllSteps (step path startTime) (Climbs path startTime) s inputs) := by
  refine ⟨⟨fun h => h.imp fun s i => (unbroken_iff_calm s i).mp,
    fun h => h.imp fun s i => (unbroken_iff_calm s i).mpr⟩, fun hcalm hundistracted => ?_⟩
  refine run_every_step (fun s i (h : s.Inv) hi => h.step i hi.1 hi.2)
    (fun s i h _ => h.climbs i) ?_ (hcalm.and hundistracted)
  exact ⟨by simp [hstart], by simp [hstart]⟩

def dialing : Dialing := ⟨⟨⟨0, none⟩, 0, 0, 0, false⟩, 0, 0, 0, false, false, false, 0⟩

def tickAt (now : Nat) : Input := .tick ⟨now, none⟩ 0 none

def wedge : List Input := List.replicate 4 .dialTimeout ++ [tickAt 30]

/-- Packets that come between the timeouts of a second wedge do not keep it from being the
second attempt. -/
theorem second_wedge_climbs :
    let s := (wedge ++ .packet :: wedge.take 4).foldl (step "" ⟨0, none⟩) dialing
    s.Climbs "" ⟨0, none⟩ (tickAt 30) ∧ s.Unbroken "" ⟨0, none⟩ (tickAt 30) ∧
      s.wedged = true ∧ s.reached = 1 := by
  obtain ⟨hunbroken, hclimbs⟩ :=
    dial_wedge_climbs "" ⟨0, none⟩ dialing (wedge ++ .packet :: wedge) ⟨rfl, rfl, rfl⟩
  have hcalm : AllSteps (step "" ⟨0, none⟩) (Calm ⟨0, none⟩) dialing (wedge ++ .packet :: wedge) :=
    ⟨trivial, trivial, trivial, trivial, fun _ h => absurd h (by decide), trivial, trivial, trivial,
      trivial, trivial, fun _ _ _ => ⟨fun _ => by decide, fun h => absurd h (by decide)⟩, trivial⟩
  have hrest := hclimbs hcalm ⟨trivial, trivial, trivial, trivial, fun _ _ _ _ => by decide, trivial,
    trivial, trivial, trivial, trivial, fun _ _ _ _ => by decide, trivial⟩
  exact ⟨hrest.2.2.2.2.2.2.2.2.2.2.1, (hunbroken.mpr hcalm).2.2.2.2.2.2.2.2.2.2.1, by decide, by decide⟩

/-- One packet after a soft recovery, and the next tick publishes `tunnel.rx_recovered` and
starts the soft attempts again. So does the fourth wedge in a row of a process that has not
received a packet yet. No dial has succeeded. -/
theorem packet_ends_wedge : (let s := (wedge ++ [Input.packet]).foldl (step "" ⟨0, none⟩) dialing
    let (st, _, action) := s.look "" ⟨0, none⟩ ⟨60, none⟩ 0 none
    s.exited = false ∧ s.unproven = true ∧ s.succeeded = false ∧ action = Action.progress ∧
      s.st.softAttempts = 1 ∧ st.softAttempts = 0) ∧
    let s := (wedge ++ wedge ++ wedge ++ wedge.take 4).foldl (step "" ⟨0, none⟩) dialing
    let (st, _, action) := s.look "" ⟨0, none⟩ ⟨60, none⟩ 0 none
    s.exited = false ∧ s.unproven = true ∧ s.succeeded = false ∧ action = Action.exitWithheld ∧
      s.st.softAttempts = 3 ∧ st.softAttempts = 0 := by
  decide

end Dialing

end PilotProtocol.RxWatchdog
