import PilotProtocol.KeyExchange.Crypto
import PilotProtocol.Library.GoMap

/-! # The routing manager

Which path a frame to a peer takes: direct to its address, or wrapped and sent to
the beacon. The result of each socket write comes from outside.
-/

namespace PilotProtocol.Routing

open Library KeyExchange

structure UDPAddr where
  ip : Nat
  port : Nat
  deriving DecidableEq

def maxRelayPeers : Nat := 4096
def directBlackholeThreshold : Nat := 8 * second
def blackholeMissesRequired : Nat := 3
def directClearsRequired : Nat := 3
def sendErrThreshold : Nat := 3

/-- The result of a socket write; `unreachable` is an ICMP-unreachable error. -/
inductive SendResult
  | ok
  | unreachable
  | failed
  deriving DecidableEq

inductive WriteErr
  | noAddress
  | noSocket
  | send (result : SendResult)
  deriving DecidableEq

/-- Where a written frame went: to the beacon, wrapped, or to the peer itself. -/
structure Route where
  dst : UDPAddr
  relayed : Bool
  deriving DecidableEq

structure Manager where
  sock : Bool
  beaconAddr : Option UDPAddr
  relayPeers : GoMap NodeID Bool
  relayPinned : GoMap NodeID Bool
  lastDirectRecv : GoMap NodeID Nat
  blackholeMissCount : GoMap NodeID Nat
  directClearCount : GoMap NodeID Nat
  sendErrCount : GoMap NodeID Nat
  lastOutboundSend : GoMap NodeID Nat
  firstOutboundSend : GoMap NodeID Nat
  forceRelay : Bool

namespace Manager

/-! ## Relay flags -/

variable (m : Manager) (node : NodeID) (now : Nat)

def isRelayPeer : Bool := (m.relayPeers.lookup node).getD false

def isRelayPinned : Bool := (m.relayPinned.lookup node).getD false

def setRelayPeer (relay : Bool) : Manager := { m with relayPeers := m.relayPeers.insert node relay }

def setRelayPeerPinned (relay : Bool) : Manager :=
  { m with
    relayPeers := m.relayPeers.insert node relay
    relayPinned := if relay then m.relayPinned.insert node true else m.relayPinned.erase node }

def unpinRelayPeer : Manager := { m with relayPinned := m.relayPinned.erase node }

def isFromBeacon (addr : Option UDPAddr) : Bool :=
  match addr, m.beaconAddr with
  | some a, some b => decide (a = b)
  | _, _ => false

def admitRelayFromBeacon : Manager :=
  if (m.relayPeers.lookup node).isNone ∧ maxRelayPeers ≤ m.relayPeers.len then m
  else
    { m with
      relayPeers := m.relayPeers.insert node true
      relayPinned := m.relayPinned.insert node true }

/-- `admitted` and `shouldAliasPeer`; the first activation is only published. -/
def markRelayActivatedIfHadCrypto (hadCrypto : Bool) : Bool × Bool × Manager :=
  if hadCrypto then
    if !m.isRelayPeer node && decide (maxRelayPeers ≤ m.relayPeers.len) then (false, false, m)
    else (true, true, m.setRelayPeer node true)
  else (true, false, m)

def clearRelayOnDirect (addr : Option UDPAddr) : Manager :=
  if addr.isNone then m
  else
    let m₁ := { m with blackholeMissCount := m.blackholeMissCount.insert node 0 }
    if m.isFromBeacon addr then m₁
    else if !m.isRelayPeer node || m.isRelayPinned node then m₁
    else
      let clears := (m.directClearCount.lookup node).getD 0 + 1
      if directClearsRequired ≤ clears then
        { m₁ with
          relayPeers := m.relayPeers.insert node false
          directClearCount := m.directClearCount.insert node 0 }
      else { m₁ with directClearCount := m.directClearCount.insert node clears }

def removePeer : Manager :=
  { m with
    relayPeers := m.relayPeers.erase node
    relayPinned := m.relayPinned.erase node
    lastOutboundSend := m.lastOutboundSend.erase node
    firstOutboundSend := m.firstOutboundSend.erase node
    sendErrCount := m.sendErrCount.erase node
    lastDirectRecv := m.lastDirectRecv.erase node
    blackholeMissCount := m.blackholeMissCount.erase node
    directClearCount := m.directClearCount.erase node }

/-! ## Observations of the path -/

def recordDirectRecv : Manager :=
  { m with
    lastDirectRecv := m.lastDirectRecv.insert node now
    firstOutboundSend := m.firstOutboundSend.erase node }

def recordOutboundSend : Manager :=
  { m with
    lastOutboundSend := m.lastOutboundSend.insert node now
    firstOutboundSend := if (m.firstOutboundSend.lookup node).isSome then m.firstOutboundSend
      else m.firstOutboundSend.insert node now }

def clearSendErrCount : Manager := { m with sendErrCount := m.sendErrCount.erase node }

def handleSendError (result : SendResult) : Manager :=
  if result = .unreachable then
    let count := (m.sendErrCount.lookup node).getD 0 + 1
    if sendErrThreshold ≤ count ∧ m.isRelayPeer node = false ∧ m.relayPeers.len < maxRelayPeers then
      { m with
        relayPeers := m.relayPeers.insert node true
        relayPinned := m.relayPinned.insert node true
        sendErrCount := m.sendErrCount.insert node 0 }
    else { m with sendErrCount := m.sendErrCount.insert node count }
  else m

/-- Silence is counted from the last direct receipt, or from the first send. -/
def silentSince : Option Nat := (m.lastDirectRecv.lookup node).or (m.firstOutboundSend.lookup node)

def maybeFlipBlackhole : Bool × Manager :=
  if m.isRelayPeer node then (true, m)
  else if m.beaconAddr.isNone then (false, m)
  else
    match m.silentSince node with
    | none => (false, m)
    | some since =>
      if now - since ≤ directBlackholeThreshold then (false, m)
      else
        let misses := (m.blackholeMissCount.lookup node).getD 0 + 1
        if blackholeMissesRequired ≤ misses then
          (true, { m with
            relayPeers := m.relayPeers.insert node true
            relayPinned := m.relayPinned.insert node true
            blackholeMissCount := m.blackholeMissCount.insert node 0 })
        else (false, { m with blackholeMissCount := m.blackholeMissCount.insert node misses })

/-! ## Writing -/

def writeTo (route : Route) (now : Nat) (result : SendResult) : Except WriteErr Route × Manager :=
  if !m.sock then (.error .noSocket, m)
  else if result = .ok then (.ok route, m.recordOutboundSend node now)
  else (.error (.send result), m.handleSendError node result)

def writeFrame (addr : Option UDPAddr) (now : Nat)
    (result : SendResult) : Except WriteErr Route × Manager :=
  let (flip, m₁) := m.maybeFlipBlackhole node now
  match m₁.beaconAddr, flip || m₁.forceRelay, addr with
  | some beacon, true, _ => m₁.writeTo node ⟨beacon, true⟩ now result
  | _, _, some direct => m₁.writeTo node ⟨direct, false⟩ now result
  | _, _, none => (.error .noAddress, m₁)

/-- The out-of-band copy through the beacon; leaves the manager as it is. -/
def sendRelayFrame (result : SendResult) : Except WriteErr Route :=
  match m.beaconAddr with
  | none => .error .noAddress
  | some beacon =>
    if !m.sock then .error .noSocket
    else if result = .ok then .ok ⟨beacon, true⟩
    else .error (.send result)

end Manager

end PilotProtocol.Routing
