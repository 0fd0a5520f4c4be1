import PilotProtocol.Routing.Calls
import PilotProtocol.Stream.Dial

/-! # Dials that share a relay flag

All dials to one peer read and set the same relay flag. A dial that fails takes back the flag
that it has set itself, unless the peer is pinned. It does not know of the dials that have
found the flag meanwhile, and the pin is read in one step and the flag cleared in the next.
-/

namespace PilotProtocol.Dial.Flips

open Library
open KeyExchange (NodeID)
open Routing (Manager)

/-- Where a dial is, with the variables of its loop. -/
inductive Point
  | absent
  | entered
  /-- It has read the relay flag, and not yet the pin. -/
  | looked (relayActive : Bool)
  | waiting (v : Vars)
  /-- It has given up. -/
  | failing (v : Vars)
  /-- It has found the peer not pinned and is about to clear the flag. -/
  | clearing (v : Vars)
  | completed
  | failed
  deriving DecidableEq

namespace Point

def running : Point → Bool
  | .absent | .completed | .failed => false
  | _ => true

def relay : Point → Bool
  | .looked relayActive => relayActive
  | .waiting v | .failing v | .clearing v => v.relayActive
  | _ => false

def activatedHere : Point → Bool
  | .waiting v | .failing v | .clearing v => v.relayActivatedHere
  | _ => false

end Point

/-- What a dial's loop meets. -/
inductive Arm
  | cancel
  | outcome (established : Bool)
  | timer (a : Answers)

structure Dials where
  routing : Manager
  dials : Nat → Point
  /-- Another dial that saw or set relay mode has completed since this dial set it, which the
  code does not record. -/
  passed : Nat → Bool

inductive Input
  /-- The next section of a dial, or its begin. -/
  | dial (k : Nat) (arm : Arm)
  | other (c : Routing.Call)

variable (cfg : Config) (peer : NodeID)

def initial (routing : Manager) : Dials := ⟨routing, fun _ => .absent, fun _ => false⟩

def moved (s : Dials) (k : Nat) (p : Point) : Dials :=
  { s with dials := Function.update s.dials k p }

def flip (s : Dials) (k : Nat) : Dials :=
  { s with
    routing := s.routing.setRelayPeer peer true
    passed := Function.update s.passed k false }

def begin (s : Dials) (k : Nat) : Dials :=
  let s' := moved s k .entered
  if cfg.compat && !s.routing.isRelayPeer peer then
    { s' with routing := s.routing.setRelayPeer peer true }
  else s'

def loopVars (k : Nat) (relayActive relayPinned : Bool) : Vars where
  conn := k
  keyWaitUntil := dialKeyExchangeWait
  synQueued := false
  retries := 0
  directRetries := if relayActive && relayPinned then 0 else dialDirectRetries
  relayActive := relayActive
  relayActivatedHere := false
  rto := dialInitialRTO
  timerAt := dialInitialRTO

def timer (s : Dials) (k : Nat) (v : Vars) (a : Answers) : Dials :=
  let pending := a.keyPending 0
  if pending && decide (a.now < v.keyWaitUntil) then s
  else
    let (v, flipped) := State.countRetry cfg v a pending
    let s := if flipped then flip peer s k else s
    moved s k (if dialMaxRetries < v.retries then .failing v else .waiting v)

def complete (s : Dials) (k : Nat) (v : Vars) : Dials :=
  { moved s k .completed with
    passed := fun j => s.passed j || (v.relayActive && decide (j ≠ k)) }

def dial (s : Dials) (k : Nat) (arm : Arm) : Dials :=
  match s.dials k with
  | .absent => begin cfg peer s k
  | .entered => moved s k (.looked (s.routing.isRelayPeer peer))
  | .looked relayActive =>
    moved s k (.waiting (loopVars k relayActive (s.routing.isRelayPinned peer)))
  | .waiting v =>
    match arm with
    | .cancel => moved s k (.failing v)
    | .outcome true => complete s k v
    | .outcome false => moved s k .failed
    | .timer a => timer cfg peer s k v a
  | .failing v =>
    moved s k (if v.relayActivatedHere && !s.routing.isRelayPinned peer then .clearing v else .failed)
  | .clearing _ => { moved s k .failed with routing := s.routing.setRelayPeer peer false }
  | .completed | .failed => s

def step (s : Dials) : Input → Dials
  | .dial k arm => dial cfg peer s k arm
  | .other c => { s with routing := s.routing.call c }

/-- A step that clears the flag is of a dial that set it; no other dial that saw or set relay
mode has completed since or is still running, and the peer is not pinned. -/
def Spares (s : Dials) (i : Input) : Prop :=
  ∀ k arm v, i = .dial k arm → s.dials k = .clearing v →
    v.relayActivatedHere = true ∧ s.passed k = false ∧
    (∀ j, j ≠ k → (s.dials j).running = true → (s.dials j).relay = false) ∧
    s.routing.isRelayPinned peer = false

/-- A dial begins when no other dial to the peer is running, and nothing pins the peer while a
dial is about to clear its flag. -/
def Apart (s : Dials) : Input → Prop
  | .dial k _ => s.dials k = .absent → ∀ j, (s.dials j).running = false
  | .other c => ∀ k v, s.dials k = .clearing v → (s.routing.call c).isRelayPinned peer = false

/-! ## Dials apart -/

variable {cfg peer} {s s' : Dials} {k : Nat} {p : Point} {v : Vars}

/-- What is known of a dial that runs. -/
structure Alone (peer : NodeID) (s : Dials) (k : Nat) : Prop where
  others : ∀ j, j ≠ k → (s.dials j).running = false
  clearing : ∀ v, s.dials k = .clearing v →
    v.relayActivatedHere = true ∧ s.routing.isRelayPinned peer = false
  passed : (s.dials k).activatedHere = true → s.passed k = false

def Inv (peer : NodeID) (s : Dials) : Prop := ∀ k, (s.dials k).running = true → Alone peer s k

/-- Only the dial that moves has to be looked at. -/
theorem inv_of_moved (hothers : ∀ j, j ≠ k → (s.dials j).running = false)
    (hdials : s'.dials = Function.update s.dials k p) (hclearing : ∀ v, p = .clearing v →
      v.relayActivatedHere = true ∧ s'.routing.isRelayPinned peer = false)
    (hpassed : p.activatedHere = true → s'.passed k = false) : Inv peer s' := by
  have hrest : ∀ j, j ≠ k → (s'.dials j).running = false := by
    intro j hj
    rw [hdials, Function.update_of_ne hj]
    exact hothers j hj
  have hself : s'.dials k = p := by rw [hdials, Function.update_self]
  intro j hj
  by_cases hjk : j = k
  · subst hjk
    refine ⟨hrest, fun v hv => hclearing v (hself.symm.trans hv), ?_⟩
    rwa [hself]
  · simp [hrest j hjk] at hj

theorem countRetry_here (cfg : Config) (v : Vars) (a : Answers) (pending : Bool)
    (h : (State.countRetry cfg v a pending).2 = false) :
    (State.countRetry cfg v a pending).1.relayActivatedHere = v.relayActivatedHere := by
  unfold State.countRetry at h ⊢
  simp only [Bool.or_eq_false_iff] at h ⊢
  rw [if_neg (by rw [h.2]; exact Bool.false_ne_true), if_neg (by rw [h.1]; exact Bool.false_ne_true)]

theorem timer_inv (h : Inv peer s) (hv : s.dials k = .waiting v) (a : Answers) :
    Inv peer (timer cfg peer s k v a) := by
  have halone := h k (by rw [hv]; rfl)
  have hpassed := halone.passed
  rw [hv] at hpassed
  unfold timer
  dsimp only
  split
  · exact h
  · generalize hretry : State.countRetry cfg v a (a.keyPending 0) = r
    have hnot : ∀ v', (if dialMaxRetries < r.1.retries then Point.failing r.1 else .waiting r.1) =
        .clearing v' → False := by
      intro v' hv'
      split at hv' <;> cases hv'
    cases hflipped : r.2 with
    | true =>
      exact inv_of_moved (s := flip peer s k) halone.others rfl (fun v' hv' => (hnot v' hv').elim)
        fun _ => Function.update_self _ _ _
    | false =>
      have hhere := countRetry_here cfg v a (a.keyPending 0) (by rw [hretry]; exact hflipped)
      rw [hretry] at hhere
      refine inv_of_moved halone.others rfl (fun v' hv' => (hnot v' hv').elim) fun hp => ?_
      apply hpassed
      split at hp <;> exact hhere.symm.trans hp

theorem begin_inv (hothers : ∀ j, (s.dials j).running = false) : Inv peer (begin cfg peer s k) := by
  unfold begin
  split
  all_goals
    apply inv_of_moved (p := .entered) (fun j _ => hothers j) rfl
    · exact nofun
    · exact nofun

theorem dial_inv (h : Inv peer s) (arm : Arm)
    (hok : s.dials k = .absent → ∀ j, (s.dials j).running = false) :
    Inv peer (dial cfg peer s k arm) := by
  have halone (hrunning : (s.dials k).running = true) := h k hrunning
  unfold dial
  cases hp : s.dials k with
  | absent => exact begin_inv (hok hp)
  | completed | failed => exact h
  | entered | looked relayActive | clearing v =>
    have hothers := (halone (by rw [hp]; rfl)).others
    exact inv_of_moved hothers rfl nofun nofun
  | failing v =>
    obtain ⟨hothers, -, hpassed⟩ := halone (by rw [hp]; rfl)
    rw [hp] at hpassed
    refine inv_of_moved hothers rfl (fun v' hv' => ?_) fun hhere => ?_
    · split at hv'
      next hcheck =>
        cases hv'
        rwa [Bool.and_eq_true, Bool.not_eq_true'] at hcheck
      next => cases hv'
    · split at hhere
      next => exact hpassed hhere
      next => cases hhere
  | waiting v =>
    obtain ⟨hothers, -, hpassed⟩ := halone (by rw [hp]; rfl)
    rw [hp] at hpassed
    match arm with
    | .cancel => exact inv_of_moved hothers rfl nofun hpassed
    | .outcome true | .outcome false => exact inv_of_moved hothers rfl nofun nofun
    | .timer a => exact timer_inv h hp a

theorem step_inv (h : Inv peer s) (i : Input) (hok : Apart peer s i) :
    Inv peer (step cfg peer s i) := by
  cases i with
  | dial k arm => exact dial_inv h arm hok
  | other c =>
    intro k hk
    obtain ⟨hothers, hclearing, hpassed⟩ := h k hk
    exact ⟨hothers, fun v hv => ⟨(hclearing v hv).1, hok k v hv⟩, hpassed⟩

theorem Inv.spares (h : Inv peer s) (i : Input) : Spares peer s i := by
  rintro k arm v - hv
  obtain ⟨hothers, hclearing, hpassed⟩ := h k (by rw [hv]; rfl)
  obtain ⟨hhere, hpin⟩ := hclearing v hv
  refine ⟨hhere, hpassed (by rw [hv]; exact hhere), fun j hj hrunning => ?_, hpin⟩
  simp [hothers j hj] at hrunning

/-- While dials to the peer do not overlap and no pin comes between the two steps of a clean-up,
a dial that fails clears only its own flag. -/
theorem cleanup_spares_relay (cfg : Config) (peer : NodeID) (routing : Manager) (inputs : List Input)
    (hapart : AllSteps (step cfg peer) (Apart peer) (initial routing) inputs) :
    AllSteps (step cfg peer) (Spares peer) (initial routing) inputs := by
  have hstep : ∀ s i, Inv peer s → Apart peer s i → Inv peer (step cfg peer s i) :=
    fun _ i h hok => step_inv h i hok
  exact run_every_step hstep (fun _ i h _ => h.spares i) nofun hapart

def tick : Arm := .timer ⟨0, false, true, false, false, false, none, fun _ => false, false⟩

/-- Dial `k` finds the peer direct, switches it to the relay after its direct retries and is
cancelled. -/
def flipThenCancel (k : Nat) : List Input :=
  [.dial k tick, .dial k tick, .dial k tick, .dial k tick, .dial k tick, .dial k tick,
    .dial k .cancel, .dial k tick]

def completes (k : Nat) : List Input :=
  [.dial k tick, .dial k tick, .dial k tick, .dial k (.outcome true)]

theorem lone_dial_spares : AllSteps (step ⟨false, true⟩ 7) (Spares 7) (initial .new)
      (flipThenCancel 0 ++ [.dial 0 tick]) := by
  apply cleanup_spares_relay
  refine ⟨fun _ _ => rfl, ?_⟩
  refine ⟨?_, ?_, ?_, ?_, ?_, ?_, ?_, ?_, trivial⟩
  all_goals exact fun h => absurd h (by decide)

/-- A second dial completes over the relay and the first one, cancelled, then takes the relay
flag away; and a pin that comes after the check does not keep the flag. -/
theorem cleanup_takes_relay :
    let overlap := ((flipThenCancel 0).take 6 ++ completes 1 ++ (flipThenCancel 0).drop 6).foldl
      (step ⟨false, true⟩ 7) (initial .new)
    let pinned := (flipThenCancel 0 ++ [Input.other (.admitRelayFromBeacon 7)]).foldl
      (step ⟨false, true⟩ 7) (initial .new)
    (overlap.passed 0 = true ∧ overlap.routing.isRelayPeer 7 = true ∧
      (step ⟨false, true⟩ 7 overlap (.dial 0 tick)).routing.isRelayPeer 7 = false) ∧
    pinned.routing.isRelayPinned 7 = true ∧ pinned.routing.isRelayPeer 7 = true ∧
      (step ⟨false, true⟩ 7 pinned (.dial 0 tick)).routing.isRelayPeer 7 = false := by
  decide

end PilotProtocol.Dial.Flips
