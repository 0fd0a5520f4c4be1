import PilotProtocol.KeyExchange.Crypto
import PilotProtocol.Library.GoMap

/-! # The path watchdog

A tick looks at every peer that is Ready and in use. One that has been silent for too long is
probed, and its path is reset when the probes go unanswered, but not within the cooldown of
the last reset. The time of the last reset is part of the peer's state, and a tick that does
not find the peer Ready and in use drops the state, so the cooldown holds between two resets
only if every tick between them finds the peer so.
-/

namespace PilotProtocol.PathWatch

open Library
open KeyExchange (NodeID second)

def pathSilenceThreshold : Nat := 55 * second

def pathProbeMax : Nat := 3

def pathResetCooldown : Nat := 120 * second

structure PathPeerState where
  probesSent : Nat
  lastResetAt : Option Nat
  deriving DecidableEq

inductive PathWatchAction
  | healthy
  | probe
  | reset
  | cooldown
  | skip
  deriving DecidableEq

/-- `last` is when a frame of the peer was last decrypted. -/
def pathWatchPeer (last : Option Nat) (st : PathPeerState) (now : Nat) :
    PathPeerState × PathWatchAction :=
  match last with
  | none => (st, .skip)
  | some last =>
    if now - last < pathSilenceThreshold then ({ st with probesSent := 0 }, .healthy)
    else if st.lastResetAt.any fun at_ => decide (now - at_ < pathResetCooldown) then (st, .cooldown)
    else if st.probesSent < pathProbeMax then ({ st with probesSent := st.probesSent + 1 }, .probe)
    else (⟨0, some now⟩, .reset)

/-- What a tick reads: the time, the Ready peers in the order that the map gives them, those
that nobody uses, and when a frame was last decrypted from each. -/
structure Look where
  now : Nat
  ready : List NodeID
  idle : NodeID → Bool
  lastInboundDecrypt : NodeID → Option Nat

def Look.live (look : Look) : List NodeID := look.ready.filter fun node => !look.idle node

abbrev States := GoMap NodeID PathPeerState

def scan (look : Look) : States → List NodeID → States × List (NodeID × PathWatchAction)
  | states, [] => (states, [])
  | states, node :: rest =>
    let decided := pathWatchPeer (look.lastInboundDecrypt node)
      ((states.lookup node).getD ⟨0, none⟩) look.now
    let scanned := scan look (states.insert node decided.1) rest
    (scanned.1, (node, decided.2) :: scanned.2)

def pathWatchTick (states : States) (look : Look) : States × List (NodeID × PathWatchAction) :=
  let scanned := scan look states look.live
  (GoMap.keep (fun node _ => look.live.contains node) scanned.1, scanned.2)

def run (looks : List Look) : States :=
  looks.foldl (fun states look => (pathWatchTick states look).1) ∅

def Resets (states : States) (look : Look) (p : NodeID) : Prop :=
  (p, .reset) ∈ (pathWatchTick states look).2

instance instDecidableResets (states : States) (look : Look) (p : NodeID) :
    Decidable (Resets states look p) :=
  inferInstanceAs (Decidable (_ ∈ _))

/-! ## One tick -/

/-- The peer's last reset is remembered, and not before `t`. -/
def Since (t : Nat) (states : States) (p : NodeID) : Prop :=
  ∃ st at_, states.lookup p = some st ∧ st.lastResetAt = some at_ ∧ t ≤ at_

variable {look : Look} {states : States} {p : NodeID} {t : Nat}

theorem pathWatchPeer_spec (last : Option Nat) (st : PathPeerState) (now : Nat) :
    if (pathWatchPeer last st now).2 = .reset then
      (pathWatchPeer last st now).1.lastResetAt = some now ∧
        ∀ at_, st.lastResetAt = some at_ → pathResetCooldown ≤ now - at_
    else (pathWatchPeer last st now).1.lastResetAt = st.lastResetAt := by
  unfold pathWatchPeer
  cases last with
  | none => simp
  | some last =>
    simp only
    split
    · simp
    split
    · simp
    next hcooled =>
      split
      · simp
      refine ⟨rfl, fun at_ hat => ?_⟩
      simpa [hat] using hcooled

theorem mem_of_mem_scan {action : PathWatchAction} {nodes : List NodeID}
    (h : (p, action) ∈ (scan look states nodes).2) : p ∈ nodes := by
  induction nodes generalizing states with
  | nil => cases h
  | cons node rest ih =>
    rcases List.mem_cons.mp h with heq | hrest
    · cases heq
      exact .head _
    · exact .tail _ (ih hrest)

theorem pathResetCooldown_pos : 0 < pathResetCooldown := by decide

theorem Since.scanned {nodes : List NodeID} (h : Since t states p) :
    Since t (scan look states nodes).1 p ∧
      ((p, .reset) ∈ (scan look states nodes).2 → t + pathResetCooldown ≤ look.now) := by
  induction nodes generalizing states with
  | nil => exact ⟨h, nofun⟩
  | cons node rest ih =>
    obtain ⟨st, at_, hst, hat, hle⟩ := h
    have hspec := pathWatchPeer_spec (look.lastInboundDecrypt node)
      ((states.lookup node).getD ⟨0, none⟩) look.now
    unfold scan
    generalize pathWatchPeer (look.lastInboundDecrypt node)
      ((states.lookup node).getD ⟨0, none⟩) look.now = decided at hspec ⊢
    simp only [List.mem_cons, Prod.mk.injEq]
    by_cases hp : p = node
    · subst hp
      rw [hst, Option.getD_some] at hspec
      split at hspec
      · have hcooled := hspec.2 at_ hat
        have hpos := pathResetCooldown_pos
        have hnow : t + pathResetCooldown ≤ look.now := by omega
        have hnoted : Since t (states.insert p decided.1) p :=
          ⟨decided.1, look.now, AList.lookup_insert _, hspec.1, by omega⟩
        exact ⟨(ih hnoted).1, fun _ => hnow⟩
      next hother =>
        have hsame : Since t (states.insert p decided.1) p :=
          ⟨decided.1, at_, AList.lookup_insert _, hspec.trans hat, hle⟩
        obtain ⟨hkept, hreset⟩ := ih hsame
        exact ⟨hkept, fun hmem => hmem.elim (fun heq => absurd heq.2.symm hother) hreset⟩
    · have hother : Since t (states.insert node decided.1) p :=
        ⟨st, at_, (AList.lookup_insert_ne hp).trans hst, hat, hle⟩
      obtain ⟨hkept, hreset⟩ := ih hother
      exact ⟨hkept, fun hmem => hmem.elim (fun heq => absurd heq.1 hp) hreset⟩

theorem since_of_reset {nodes : List NodeID} (h : (p, .reset) ∈ (scan look states nodes).2) :
    Since look.now (scan look states nodes).1 p := by
  induction nodes generalizing states with
  | nil => cases h
  | cons node rest ih =>
    have hspec := pathWatchPeer_spec (look.lastInboundDecrypt node)
      ((states.lookup node).getD ⟨0, none⟩) look.now
    rcases List.mem_cons.mp h with heq | hrest
    · simp only [Prod.mk.injEq] at heq
      obtain ⟨rfl, hreset⟩ := heq
      rw [if_pos hreset.symm] at hspec
      exact (Since.scanned ⟨_, look.now, AList.lookup_insert _, hspec.1, le_rfl⟩).1
    · exact ih hrest

theorem Since.tick (h : Since t (scan look states look.live).1 p) (hlive : p ∈ look.live) :
    Since t (pathWatchTick states look).1 p := by
  obtain ⟨st, at_, hst, hrest⟩ := h
  refine ⟨st, at_, ?_, hrest⟩
  unfold pathWatchTick
  simp [GoMap.lookup_keep, hst, hlive]

theorem Since.run {looks : List Look} (h : Since t states p)
    (hlive : ∀ look ∈ looks, p ∈ look.live) :
    Since t (looks.foldl (fun states look => (pathWatchTick states look).1) states) p := by
  induction looks generalizing states with
  | nil => exact h
  | cons look rest ih =>
    apply ih
    · exact h.scanned.1.tick (hlive look (.head _))
    · exact fun later hmem => hlive later (.tail _ hmem)

/-- Two resets of a peer that every tick between them finds Ready and in use are at least the
cooldown apart, whatever ran before and whatever the ticks read. -/
theorem resets_cooldown_apart (before between : List Look) (first second : Look) (p : NodeID)
    (hfirst : Resets (run before) first p)
    (hsecond : Resets (run (before ++ first :: between)) second p)
    (hlive : ∀ look ∈ between, p ∈ look.live) : first.now + pathResetCooldown ≤ second.now := by
  have hremembered : Since first.now (pathWatchTick (run before) first).1 p :=
    (since_of_reset hfirst).tick (mem_of_mem_scan hfirst)
  have hsince : Since first.now (run (before ++ first :: between)) p := by
    unfold run
    rw [List.foldl_append, List.foldl_cons]
    exact hremembered.run hlive
  exact hsince.scanned.2 hsecond

/-! ## Runs -/

/-- A tick that finds node 1 Ready and in use, heard of last at `heard` seconds. -/
def readyLook (heard now : Nat) : Look where
  now := now * second
  ready := [1]
  idle := fun _ => false
  lastInboundDecrypt := fun _ => some (heard * second)

def goneLook (now : Nat) : Look where
  now := now * second
  ready := []
  idle := fun _ => false
  lastInboundDecrypt := fun _ => none

theorem silent_peer_reset_after_cooldown :
    (readyLook 0 90).now + pathResetCooldown ≤ (readyLook 0 240).now :=
  resets_cooldown_apart ([60, 70, 80].map (readyLook 0)) ([210, 220, 230].map (readyLook 0))
    (readyLook 0 90) (readyLook 0 240) 1 (by decide +kernel) (by decide +kernel) (by decide +kernel)

/-- Between a reset and the next one 90 seconds later: the session is gone at the first tick,
which forgets when the reset was; the peer comes back, one frame of it is decrypted and it
falls silent. -/
def afterReset : List Look := goneLook 100 :: [110, 120, 130, 140, 150, 160, 170].map (readyLook 95)

theorem reset_forgets_cooldown :
    ([60, 70, 80].map (readyLook 0) ++ readyLook 0 90 :: afterReset ++ [readyLook 95 180]).Pairwise
      (fun look later => look.now < later.now) ∧
    Resets (run ([60, 70, 80].map (readyLook 0))) (readyLook 0 90) 1 ∧
    Resets (run ([60, 70, 80].map (readyLook 0) ++ readyLook 0 90 :: afterReset)) (readyLook 95 180) 1 ∧
    (readyLook 95 180).now < (readyLook 0 90).now + pathResetCooldown := by
  decide +kernel

end PilotProtocol.PathWatch
