import PilotProtocol.Envelope.Frame
import PilotProtocol.KeyExchange.Handle
import PilotProtocol.Routing.Manager

/-! # The tunnel manager

The tunnel owns the key-exchange manager, the routing manager, the peers' addresses
and the queues of frames that wait for a key. What it reads from outside is a
`World`: registry answers, randomness and write results are indexed by how many
were consumed before, trust and open connections by the time. `core` is the part
of the state that decides which session a peer has; sending leaves it alone.
-/

namespace PilotProtocol.Tunnel

open Library KeyExchange Envelope
open Routing (UDPAddr SendResult WriteErr Route)

structure Packet where
  protocol : Nat
  dstPort : Nat
  srcNode : NodeID
  payload : Bytes
  deriving DecidableEq

structure IncomingPacket where
  packet : Packet
  source : Option UDPAddr
  deriving DecidableEq

structure World where
  P : Primitives
  registry : Registry
  entropy : Entropy
  net : Nat → SendResult
  trustGate : Nat → NodeID → Bool
  openConnPeers : Nat → NodeID → Bool
  unmarshal : Bytes → Option Packet
  protoControl : Nat
  portPing : Nat
  packetHeaderSize : Nat

structure SrcKxBucket where
  tokens : Nat
  lastFill : Nat
  deriving DecidableEq

structure Sent where
  peer : NodeID
  frame : Bytes
  route : Route
  deriving DecidableEq

structure TunnelManager where
  kx : KeyExchange.Manager
  routing : Routing.Manager
  peers : GoMap NodeID UDPAddr
  encrypt : Bool
  pending : GoMap NodeID (List Bytes)
  pendingSince : GoMap NodeID Nat
  lastRekeyReq : GoMap NodeID Nat
  rekeyWhitelist : List NodeID
  rekeyWhitelistAll : Bool
  kxRateLim : GoMap Nat SrcKxBucket
  relayKxLim : GoMap NodeID SrcKxBucket
  activity : GoMap NodeID Nat
  /-- Everything put on the channel so far. -/
  recvCh : List IncomingPacket
  /-- The frames opened without error, each with the object that opened it. -/
  opened : List (Nat × SecureFrame)
  /-- The number of socket writes tried, and the frames written. -/
  writes : Nat
  sent : List Sent

namespace TunnelManager

variable (W : World) (t : TunnelManager) (peer : NodeID)

def withRekey (rk : RekeyTable) : TunnelManager := { t with kx := { t.kx with rk } }

def withEnv (env : Store) : TunnelManager := { t with kx := { t.kx with env } }

def pushRecv (ip : IncomingPacket) : TunnelManager := { t with recvCh := t.recvCh ++ [ip] }

def peerAddr : Option UDPAddr := t.peers.lookup peer

/-! ## Writing frames -/

def logSent (frame : Bytes) (result : Except WriteErr Route) : TunnelManager :=
  { t with
    writes := t.writes + 1
    sent := match result with
      | .ok route => t.sent ++ [⟨peer, frame, route⟩]
      | .error _ => t.sent }

/-- A write that flips the peer to the relay gives its key exchange fresh attempts. -/
def writeFrame (now : Nat) (t : TunnelManager) (peer : NodeID) (addr : Option UDPAddr)
    (frame : Bytes) : Except WriteErr Route × TunnelManager :=
  let (result, routing) := t.routing.writeFrame peer addr now (W.net t.writes)
  let t₁ := { t.logSent peer frame result with routing }
  (result, if !t.routing.isRelayPeer peer && routing.isRelayPeer peer then
      t₁.withRekey (t₁.kx.rk.resetPendingRekeyAttempts peer)
    else t₁)

def sendRelayFrame (frame : Bytes) : TunnelManager :=
  t.logSent peer frame (t.routing.sendRelayFrame (W.net t.writes))

/-- Whether a send to `peer` carries a key request, which consumes a due mark. -/
def takeKeyRequest (authed : Bool) : Bool × TunnelManager :=
  if authed && !t.kx.env.has peer then
    let (due, rk) := t.kx.rk.takeKeyRequest peer
    (due, t.withRekey rk)
  else (false, t)

/-- `Manager.SendKeyExchangeToNode`; the result says whether a key request went out. -/
def kxSendKeyExchange (now : Nat) (t : TunnelManager) (peer : NodeID) : Bool × TunnelManager :=
  match t.kx.buildUnauthFrame with
  | none => (false, t)
  | some unauthFrame =>
    let authFrame := t.kx.buildAuthFrame W.P
    let addr := t.peerAddr peer
    let (keyRequest, t₁) := t.takeKeyRequest peer authFrame.isSome
    match t₁.writeFrame W now peer addr (authFrame.getD unauthFrame) with
    | (.error _, t₂) => (false, t₂)
    | (.ok _, t₂) =>
      let (requested, t₃) := if keyRequest then
          let (result, t₃) := t₂.writeFrame W now peer addr unauthFrame
          (result.isOk, t₃)
        else (false, t₂)
      (requested, t₃.withRekey (t₃.kx.rk.markPendingRekey peer now))

/-- `TunnelManager.sendKeyExchangeToNode`: the same, with copies through the beacon for
a peer that is not on the relay. -/
def sendKeyExchangeToNode (now : Nat) (t : TunnelManager) (peer : NodeID) : TunnelManager :=
  let (keyRequest, t₁) := t.kxSendKeyExchange W now peer
  if t₁.routing.isRelayPeer peer || t₁.routing.beaconAddr.isNone then t₁
  else
    match (t₁.kx.buildAuthFrame W.P).or t₁.kx.buildUnauthFrame with
    | none => t₁
    | some frame =>
      let t₂ := t₁.sendRelayFrame W peer frame
      match keyRequest, t₂.kx.buildUnauthFrame with
      | true, some request => t₂.sendRelayFrame W peer request
      | _, _ => t₂

/-! ## The session state -/

def forgetSends (c : Crypto) : Crypto := { c with nonce := 0, salvage := [] }

end TunnelManager

@[ext]
structure Core where
  session : NodeID → Option Crypto
  localNodeID : NodeID
  setup : Setup
  pubKeys : PubKeyCache
  allocated : Nat
  encrypt : Bool
  recvCh : List IncomingPacket
  opened : List (Nat × SecureFrame)

def Core.push (c : Core) (packets : List IncomingPacket) : Core :=
  { c with recvCh := c.recvCh ++ packets }

theorem Core.push_nil (c : Core) : c.push [] = c := by
  rw [Core.push, List.append_nil]

namespace TunnelManager

def core (t : TunnelManager) : Core where
  session p := (t.kx.env.get p).map forgetSends
  localNodeID := t.kx.env.localNodeID
  setup := t.kx.setup
  pubKeys := t.kx.pubKeys
  allocated := t.kx.allocated
  encrypt := t.encrypt
  recvCh := t.recvCh
  opened := t.opened

@[simp] theorem pushRecv_core (t : TunnelManager) (ip : IncomingPacket) :
    (t.pushRecv ip).core = t.core.push [ip] := rfl

@[simp] theorem writeFrame_core (W : World) (now : Nat) (t : TunnelManager) (peer : NodeID)
    (addr : Option UDPAddr) (frame : Bytes) :
    (t.writeFrame W now peer addr frame).2.core = t.core := by
  unfold writeFrame
  simp only
  split <;> rfl

end TunnelManager

end PilotProtocol.Tunnel
