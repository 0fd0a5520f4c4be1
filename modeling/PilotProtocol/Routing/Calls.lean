import PilotProtocol.Library.Run
import PilotProtocol.Routing.Manager

/-! # Calls on the routing manager

The manager as its callers use it, each locked section one step. `MaybeFlipBlackhole` has
two: it reads the timestamps of a peer, and if it finds the peer silent it takes the lock
again to count a miss or to move the peer to the relay. Beside the manager stands a log of
what the callers have seen of each peer, newest first.
-/

namespace PilotProtocol.Routing

open Library KeyExchange

namespace Manager

def new : Manager := ⟨false, none, ∅, ∅, ∅, ∅, ∅, ∅, ∅, ∅, false⟩

variable (m : Manager) (node : NodeID)

/-- In no particular order. -/
def relayPeerIDs : List NodeID := (m.relayPeers.entries.filter (·.2)).map (·.1)

def relayPeerCount : Nat := m.relayPeers.len

/-! ## The results of the calls -/

def admitsRelayFromBeacon : Bool :=
  !((m.relayPeers.lookup node).isNone && decide (maxRelayPeers ≤ m.relayPeers.len))

/-- `HandleSendError` has seen the errors it takes, but the table has no room. -/
def refusesSendError (result : SendResult) : Bool :=
  decide (result = .unreachable) &&
    decide (sendErrThreshold ≤ (m.sendErrCount.lookup node).getD 0 + 1) &&
    !m.isRelayPeer node && !(m.handleSendError node result).isRelayPeer node

def clearsRelayOnDirect (addr : UDPAddr) : Bool :=
  !m.isFromBeacon (some addr) && m.isRelayPeer node && !m.isRelayPinned node &&
    decide (directClearsRequired ≤ (m.directClearCount.lookup node).getD 0 + 1)

/-- The unlocked part of `MaybeFlipBlackhole`: since when the peer is silent, if that is too
long. Otherwise the call returns whether the peer is in relay mode. -/
def silentTooLong (now : Nat) : Option Nat :=
  if m.isRelayPeer node || m.beaconAddr.isNone then none
  else (m.silentSince node).filter fun since => decide (directBlackholeThreshold < now - since)

/-- The locked part of `MaybeFlipBlackhole`: `shouldRelay`, `flipped` and the manager. -/
def flipBlackhole : Bool × Bool × Manager :=
  if m.isRelayPeer node then (true, false, m)
  else
    let misses := (m.blackholeMissCount.lookup node).getD 0 + 1
    if blackholeMissesRequired ≤ misses then
      (true, true, { m with
        relayPeers := m.relayPeers.insert node true
        relayPinned := m.relayPinned.insert node true
        blackholeMissCount := m.blackholeMissCount.insert node 0 })
    else (false, false, { m with blackholeMissCount := m.blackholeMissCount.insert node misses })

theorem maybeFlipBlackhole_eq (m : Manager) (node : NodeID) (now : Nat) :
    m.maybeFlipBlackhole node now =
      match m.silentTooLong node now with
      | none => (m.isRelayPeer node, m)
      | some _ => ((m.flipBlackhole node).1, (m.flipBlackhole node).2.2) := by
  unfold maybeFlipBlackhole silentTooLong flipBlackhole
  by_cases hrelay : m.isRelayPeer node = true
  · simp [hrelay]
  · by_cases hbeacon : m.beaconAddr.isNone = true
    · simp [hrelay, hbeacon]
    · cases hsince : m.silentSince node with
      | none => simp [hrelay, hbeacon]
      | some since =>
        by_cases hsilent : directBlackholeThreshold < now - since
        · by_cases hmisses :
              blackholeMissesRequired ≤ (m.blackholeMissCount.lookup node).getD 0 + 1
          · simp [hrelay, hbeacon, hsilent, hmisses, Nat.not_le_of_lt hsilent, Option.filter]
          · simp [hrelay, hbeacon, hsilent, hmisses, Nat.not_le_of_lt hsilent, Option.filter]
        · simp [hrelay, hbeacon, hsilent, Nat.le_of_not_lt hsilent, Option.filter]

end Manager

/-! ## Calls -/

inductive Call
  | setRelayPeer (node : NodeID) (relay : Bool)
  | setRelayPeerPinned (node : NodeID) (relay : Bool)
  | unpinRelayPeer (node : NodeID)
  | admitRelayFromBeacon (node : NodeID)
  | markRelayActivatedIfHadCrypto (node : NodeID) (hadCrypto : Bool)
  /-- A frame from the peer has been decrypted. -/
  | clearRelayOnDirect (node : NodeID) (addr : UDPAddr)
  | removePeer (node : NodeID)
  | recordDirectRecv (node : NodeID) (t : Nat)
  | recordOutboundSend (node : NodeID) (t : Nat)
  | clearSendErrCount (node : NodeID)
  | handleSendError (node : NodeID) (result : SendResult)
  | flipBlackhole (node : NodeID)
  deriving DecidableEq

def Call.node : Call → NodeID
  | .setRelayPeer node _ => node
  | .setRelayPeerPinned node _ => node
  | .unpinRelayPeer node => node
  | .admitRelayFromBeacon node => node
  | .markRelayActivatedIfHadCrypto node _ => node
  | .clearRelayOnDirect node _ => node
  | .removePeer node => node
  | .recordDirectRecv node _ => node
  | .recordOutboundSend node _ => node
  | .clearSendErrCount node => node
  | .handleSendError node _ => node
  | .flipBlackhole node => node

def Manager.call (m : Manager) : Call → Manager
  | .setRelayPeer node relay => m.setRelayPeer node relay
  | .setRelayPeerPinned node relay => m.setRelayPeerPinned node relay
  | .unpinRelayPeer node => m.unpinRelayPeer node
  | .admitRelayFromBeacon node => m.admitRelayFromBeacon node
  | .markRelayActivatedIfHadCrypto node hadCrypto =>
    (m.markRelayActivatedIfHadCrypto node hadCrypto).2.2
  | .clearRelayOnDirect node addr => m.clearRelayOnDirect node (some addr)
  | .removePeer node => m.removePeer node
  | .recordDirectRecv node t => m.recordDirectRecv node t
  | .recordOutboundSend node t => m.recordOutboundSend node t
  | .clearSendErrCount node => m.clearSendErrCount node
  | .handleSendError node result => m.handleSendError node result
  | .flipBlackhole node => (m.flipBlackhole node).2.2

def Call.forgets : Call → Bool
  | .setRelayPeer _ relay => !relay
  | .setRelayPeerPinned _ relay => !relay
  | .unpinRelayPeer _ => true
  | .removePeer _ => true
  | _ => false

namespace Manager

/-- An entry for the peer does not make the table larger than it may be. -/
def hasRoom (m : Manager) (node : NodeID) : Bool :=
  (m.relayPeers.lookup node).isSome || decide (m.relayPeers.len < maxRelayPeers)

/-- The call leaves no flag off, and adds an entry to a full table only if it checks. -/
def accountable (m : Manager) : Call → Bool
  | .setRelayPeer node relay => relay && m.hasRoom node
  | .setRelayPeerPinned node relay => relay && m.hasRoom node
  | .clearRelayOnDirect node addr => !m.clearsRelayOnDirect node addr
  | .flipBlackhole node => m.hasRoom node
  | _ => true

end Manager

/-! ## The system -/

inductive Event
  /-- A frame from the peer was decrypted; `direct` is whether it came by the direct path. -/
  | decrypted (node : NodeID) (direct : Bool)
  | enteredRelay (node : NodeID)
  /-- A send found the peer silent. -/
  | silent (node : NodeID)
  deriving DecidableEq

def Event.node : Event → NodeID
  | .decrypted node _ => node
  | .enteredRelay node => node
  | .silent node => node

/-- A call of `MaybeFlipBlackhole` between its two parts: since when it saw the peer silent,
and how many frames had been decrypted from the peer by then. -/
structure Look where
  node : NodeID
  since : Nat
  heard : Nat
  deriving DecidableEq

structure System where
  m : Manager
  now : Nat
  looks : List Look
  log : List Event

inductive Input
  | advance (d : Nat)
  | setBeaconAddr (addr : Option UDPAddr)
  | call (c : Call)
  | look (node : NodeID)
  | flip (look : Look)

def heard (log : List Event) (node : NodeID) : Nat :=
  log.countP fun e => e = .decrypted node true || e = .decrypted node false

def Call.events (m : Manager) (c : Call) : List Event :=
  (if !m.isRelayPeer c.node && (m.call c).isRelayPeer c.node then [.enteredRelay c.node] else []) ++
    match c with
    | .clearRelayOnDirect node addr => [.decrypted node (!m.isFromBeacon (some addr))]
    | _ => []

theorem Call.events_node {m : Manager} {c : Call} {e : Event} (he : e ∈ c.events m) :
    e.node = c.node := by
  rcases List.mem_append.mp he with he | he
  · split at he
    · rw [List.mem_singleton.mp he]
      rfl
    · cases he
  · cases c with
    | clearRelayOnDirect node addr =>
      rw [List.mem_singleton.mp he]
      rfl
    | _ => cases he

namespace System

def initial (now : Nat) : System := ⟨Manager.new, now, [], []⟩

def call (s : System) (c : Call) : System :=
  { s with m := s.m.call c, log := c.events s.m ++ s.log }

/-- A lone `flipBlackhole` call is no input: it ends a call that has looked. -/
def step (s : System) : Input → System
  | .advance d => { s with now := s.now + d }
  | .setBeaconAddr addr => { s with m := { s.m with beaconAddr := addr } }
  | .call (.flipBlackhole _) => s
  | .call c => s.call c
  | .look node =>
    match s.m.silentTooLong node s.now with
    | none => s
    | some since =>
      { s with
        looks := ⟨node, since, heard s.log node⟩ :: s.looks
        log := .silent node :: s.log }
  | .flip look =>
    if look ∈ s.looks then
      { s.call (.flipBlackhole look.node) with looks := s.looks.erase look }
    else s

def run (s : System) (inputs : List Input) : System := inputs.foldl step s

theorem step_cases (s : System) (i : Input) :
    (∃ c, s.step i = { s.call c with looks := (s.step i).looks } ∧
      ((i = .call c ∧ (∀ node, c ≠ .flipBlackhole node) ∧ (s.step i).looks = s.looks) ∨
        ∃ look ∈ s.looks, i = .flip look ∧ c = .flipBlackhole look.node ∧
          (s.step i).looks = s.looks.erase look)) ∨
    (∃ node since, i = .look node ∧ s.m.silentTooLong node s.now = some since ∧
      s.step i = { s with
        looks := ⟨node, since, heard s.log node⟩ :: s.looks
        log := .silent node :: s.log }) ∨
    ∃ now addr, s.now ≤ now ∧ s.step i = { s with m := { s.m with beaconAddr := addr }, now := now } := by
  cases i with
  | advance d => exact .inr (.inr ⟨s.now + d, s.m.beaconAddr, Nat.le_add_right _ _, rfl⟩)
  | setBeaconAddr addr => exact .inr (.inr ⟨s.now, addr, le_rfl, rfl⟩)
  | call c =>
    cases c with
    | flipBlackhole node => exact .inr (.inr ⟨s.now, s.m.beaconAddr, le_rfl, rfl⟩)
    | _ => exact .inl ⟨_, rfl, .inl ⟨rfl, fun _ => nofun, rfl⟩⟩
  | look node =>
    cases hlook : s.m.silentTooLong node s.now with
    | none =>
      refine .inr (.inr ⟨s.now, s.m.beaconAddr, le_rfl, ?_⟩)
      simp [step, hlook]
    | some since =>
      refine .inr (.inl ⟨node, since, rfl, hlook, ?_⟩)
      simp [step, hlook]
  | flip look =>
    by_cases hmem : look ∈ s.looks
    · refine .inl ⟨.flipBlackhole look.node, ?_, .inr ⟨look, hmem, rfl, rfl, ?_⟩⟩
      · simp [step, hmem]
      · simp [step, hmem]
    · refine .inr (.inr ⟨s.now, s.m.beaconAddr, le_rfl, ?_⟩)
      simp [step, hmem]

end System

/-! ## What a call does to a peer -/

namespace Manager

variable {m : Manager} {c : Call} {q : NodeID}

/-- The call leaves the flags of its peer alone, sets them, or takes them back. -/
inductive Relays (m : Manager) (c : Call) (m' : Manager) : Prop
  | same (hpeers : m'.relayPeers = m.relayPeers) (hpins : m'.relayPinned = m.relayPinned)
  | on (hpeers : m'.relayPeers = m.relayPeers.insert c.node true)
      (hpins : m'.relayPinned = m.relayPinned ∨ m'.relayPinned = m.relayPinned.insert c.node true)
      (hroom : m.accountable c = true → m.hasRoom c.node = true)
  | off (hpeers : m'.relayPeers = m.relayPeers.insert c.node false)
      (hpins : m'.relayPinned = m.relayPinned ∨ m'.relayPinned = m.relayPinned.erase c.node)
      (hfree : c.forgets = true ∨ m.isRelayPinned c.node = false)
      (haccount : m.accountable c = false)
  | gone (hpeers : m'.relayPeers = m.relayPeers ∨ m'.relayPeers = m.relayPeers.erase c.node)
      (hpins : m'.relayPinned = m.relayPinned.erase c.node) (hforgets : c.forgets = true)

structure Called (m : Manager) (c : Call) (m' : Manager) : Prop where
  relays : m.Relays c m'
  beacon : m'.beaconAddr = m.beaconAddr
  clears : m'.directClearCount =
    match c with
    | .clearRelayOnDirect node addr => (m.clearRelayOnDirect node (some addr)).directClearCount
    | .removePeer node => m.directClearCount.erase node
    | _ => m.directClearCount
  misses : m'.blackholeMissCount =
    match c with
    | .clearRelayOnDirect node _ => m.blackholeMissCount.insert node 0
    | .removePeer node => m.blackholeMissCount.erase node
    | .flipBlackhole node => (m.flipBlackhole node).2.2.blackholeMissCount
    | _ => m.blackholeMissCount

theorem called (m : Manager) (c : Call) : m.Called c (m.call c) := by
  cases c with
  | setRelayPeer node relay =>
    cases relay with
    | true => exact ⟨.on rfl (.inl rfl) id, rfl, rfl, rfl⟩
    | false => exact ⟨.off rfl (.inl rfl) (.inl rfl) rfl, rfl, rfl, rfl⟩
  | setRelayPeerPinned node relay =>
    cases relay with
    | true => exact ⟨.on rfl (.inr rfl) id, rfl, rfl, rfl⟩
    | false => exact ⟨.off rfl (.inr rfl) (.inl rfl) rfl, rfl, rfl, rfl⟩
  | unpinRelayPeer node => exact ⟨.gone (.inl rfl) rfl rfl, rfl, rfl, rfl⟩
  | removePeer node => exact ⟨.gone (.inr rfl) rfl rfl, rfl, rfl, rfl⟩
  | recordDirectRecv node t | recordOutboundSend node t | clearSendErrCount node =>
    exact ⟨.same rfl rfl, rfl, rfl, rfl⟩
  | admitRelayFromBeacon node =>
    simp only [call, admitRelayFromBeacon]
    split
    next => exact ⟨.same rfl rfl, rfl, rfl, rfl⟩
    next hroom =>
      refine ⟨.on rfl (.inr rfl) fun _ => ?_, rfl, rfl, rfl⟩
      unfold hasRoom Call.node
      cases hlookup : m.relayPeers.lookup node with
      | some flag => rfl
      | none => simpa [hlookup] using hroom
  | markRelayActivatedIfHadCrypto node hadCrypto =>
    simp only [call, markRelayActivatedIfHadCrypto]
    split
    next =>
      split
      next => exact ⟨.same rfl rfl, rfl, rfl, rfl⟩
      next hroom =>
        refine ⟨.on rfl (.inl rfl) fun _ => ?_, rfl, rfl, rfl⟩
        unfold hasRoom Call.node
        cases hlookup : m.relayPeers.lookup node with
        | some flag => rfl
        | none => simpa [isRelayPeer, hlookup] using hroom
    next => exact ⟨.same rfl rfl, rfl, rfl, rfl⟩
  | clearRelayOnDirect node addr =>
    simp only [call]
    unfold clearRelayOnDirect
    dsimp only [Option.isNone_some]
    rw [if_neg Bool.false_ne_true]
    split
    next hbeacon => exact ⟨.same rfl rfl, rfl, by simp [clearRelayOnDirect, hbeacon], rfl⟩
    next hbeacon =>
      split
      next hstays => exact ⟨.same rfl rfl, rfl, by simp [clearRelayOnDirect, hbeacon, hstays], rfl⟩
      next hfree =>
        split
        next hclears =>
          refine ⟨.off rfl (.inl rfl) (.inr ?_) ?_, rfl, ?_, rfl⟩
          · simp_all [Call.node]
          · simp_all [accountable, clearsRelayOnDirect]
          · simp [clearRelayOnDirect, hbeacon, hfree, hclears]
        next hclears =>
          exact ⟨.same rfl rfl, rfl, by simp [clearRelayOnDirect, hbeacon, hfree, hclears], rfl⟩
  | handleSendError node result =>
    simp only [call, handleSendError]
    split
    next =>
      split
      next hflip =>
        refine ⟨.on rfl (.inr rfl) fun _ => ?_, rfl, rfl, rfl⟩
        simp [hasRoom, Call.node, hflip.2.2]
      next => exact ⟨.same rfl rfl, rfl, rfl, rfl⟩
    next => exact ⟨.same rfl rfl, rfl, rfl, rfl⟩
  | flipBlackhole node =>
    simp only [call]
    unfold flipBlackhole
    split
    next hrelay => exact ⟨.same rfl rfl, rfl, rfl, by simp [flipBlackhole, hrelay]⟩
    next hrelay =>
      dsimp only
      split
      next hmisses => exact ⟨.on rfl (.inr rfl) id, rfl, rfl, by simp [flipBlackhole, hrelay, hmisses]⟩
      next hmisses => exact ⟨.same rfl rfl, rfl, rfl, by simp [flipBlackhole, hrelay, hmisses]⟩

theorem call_relay_ne (h : q ≠ c.node) : (m.call c).relayPeers.lookup q = m.relayPeers.lookup q ∧
      (m.call c).relayPinned.lookup q = m.relayPinned.lookup q := by
  cases (m.called c).relays with
  | same hpeers hpins => rw [hpeers, hpins]; exact ⟨rfl, rfl⟩
  | on hpeers hpins | off hpeers hpins => rcases hpins with hpins | hpins <;> simp [hpeers, hpins, h]
  | gone hpeers hpins => rcases hpeers with hpeers | hpeers <;> simp [hpeers, hpins, h]

theorem call_isRelayPeer_ne (h : q ≠ c.node) : (m.call c).isRelayPeer q = m.isRelayPeer q := by
  unfold isRelayPeer
  rw [(call_relay_ne h).1]

/-- A decrypted frame counts towards leaving the relay only if it is direct and the peer is
on the relay and not pinned. -/
theorem clearRelayOnDirect_cases (m : Manager) (node : NodeID) (addr : UDPAddr) :
    (m.clearsRelayOnDirect node addr = true ∧ m.isFromBeacon (some addr) = false ∧
      m.isRelayPeer node = true ∧ m.isRelayPinned node = false ∧
      directClearsRequired ≤ (m.directClearCount.lookup node).getD 0 + 1 ∧
      (m.clearRelayOnDirect node (some addr)).relayPeers = m.relayPeers.insert node false ∧
      (m.clearRelayOnDirect node (some addr)).directClearCount = m.directClearCount.insert node 0) ∨
    (m.clearsRelayOnDirect node addr = false ∧
      (m.clearRelayOnDirect node (some addr)).relayPeers = m.relayPeers ∧
      ((m.clearRelayOnDirect node (some addr)).directClearCount = m.directClearCount ∨
        m.isFromBeacon (some addr) = false ∧
          (m.clearRelayOnDirect node (some addr)).directClearCount =
            m.directClearCount.insert node ((m.directClearCount.lookup node).getD 0 + 1))) := by
  unfold clearsRelayOnDirect clearRelayOnDirect
  by_cases hbeacon : m.isFromBeacon (some addr) = true
  · simp [hbeacon]
  · by_cases hrelay : m.isRelayPeer node = true
    · by_cases hpinned : m.isRelayPinned node = true
      · simp [hbeacon, hrelay, hpinned]
      · by_cases hclears : directClearsRequired ≤ (m.directClearCount.lookup node).getD 0 + 1
        · simp [hbeacon, hrelay, hpinned, hclears]
        · simp [hbeacon, hrelay, hpinned, hclears]
    · simp [hbeacon, hrelay]

theorem isRelayPeer_of_clearRelayOnDirect (m : Manager) {node : NodeID} {addr : UDPAddr}
    (h : (m.clearRelayOnDirect node (some addr)).isRelayPeer node = true) :
    m.isRelayPeer node = true := by
  unfold isRelayPeer at h ⊢
  rcases m.clearRelayOnDirect_cases node addr with ⟨-, -, -, -, -, hpeers, -⟩ | ⟨-, hpeers, -⟩
  · simp [hpeers, AList.lookup_insert] at h
  · rwa [hpeers] at h

end Manager

/-! ## What a call logs -/

theorem Call.events_of_frame (m : Manager) (node : NodeID) (addr : UDPAddr) :
    (Call.clearRelayOnDirect node addr).events m =
      [.decrypted node (!m.isFromBeacon (some addr))] := by
  have hnot : (!m.isRelayPeer node && (m.clearRelayOnDirect node (some addr)).isRelayPeer node) =
      false := by
    cases hafter : (m.clearRelayOnDirect node (some addr)).isRelayPeer node with
    | false => simp
    | true => simp [m.isRelayPeer_of_clearRelayOnDirect hafter]
  unfold Call.events
  rw [show (Call.clearRelayOnDirect node addr).node = node from rfl,
    show m.call (.clearRelayOnDirect node addr) = m.clearRelayOnDirect node (some addr) from rfl, hnot]
  rfl

theorem Call.events_of_no_frame (m : Manager) {c : Call}
    (h : ∀ node addr, c ≠ .clearRelayOnDirect node addr) : c.events m =
      if !m.isRelayPeer c.node && (m.call c).isRelayPeer c.node then [.enteredRelay c.node]
      else [] := by
  cases c with
  | clearRelayOnDirect node addr => exact absurd rfl (h node addr)
  | _ => exact List.append_nil _

end PilotProtocol.Routing
