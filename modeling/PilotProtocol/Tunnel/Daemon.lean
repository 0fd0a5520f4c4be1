import PilotProtocol.Tunnel.Inbound

/-! # The daemon around the tunnel

The rest of what happens to a tunnel: sends, retransmit ticks, removed peers and
path resets. A path reset started by the give-up hook runs in a goroutine of its
own; it is a separate step, taken at any later time.
-/

namespace PilotProtocol.Tunnel

open Library KeyExchange Envelope
open Routing (UDPAddr WriteErr)

def maxPendingPerPeer : Nat := 64
def maxPendingPeers : Nat := 256
def peerIdleAfter : Nat := 120 * second
def gaveUpResetCooldown : Nat := 30 * second
def resolveCacheTTL : Nat := 60 * second

inductive SendToErr
  | pendingDropped
  | tooManyPending
  | write (e : WriteErr)
  deriving DecidableEq

namespace TunnelManager

/-! ## Sending packets -/

variable (W : World) (now : Nat) (t : TunnelManager) (peer : NodeID)

def enqueue (data : Bytes) (now : Nat) : Except SendToErr Unit × TunnelManager :=
  let queue := t.pending.lookup peer
  if queue.isNone ∧ maxPendingPeers ≤ t.pending.len then (.error .tooManyPending, t)
  else
    let frames := queue.getD []
    if maxPendingPerPeer ≤ frames.length then (.error .pendingDropped, t)
    else
      (.ok (), { t with
        pending := t.pending.insert peer (frames ++ [data])
        pendingSince := if frames.isEmpty then t.pendingSince.insert peer now else t.pendingSince })

def written (r : Except WriteErr Routing.Route × TunnelManager) : Except SendToErr Unit × TunnelManager :=
  match r with
  | (.ok _, t) => (.ok (), t)
  | (.error e, t) => (.error (.write e), t)

def startKeyExchange : TunnelManager :=
  if t.kx.rk.pendingRekeyHas peer then t else t.sendKeyExchangeToNode W now peer

def sendEncrypted (addr : Option UDPAddr) (peer : NodeID)
    (data : Bytes) : Except SendToErr Unit × TunnelManager :=
  match t.kx.env.getReady peer with
  | some pc =>
    let (frame, t₁) := t.encryptFrame W peer (Store.recordSalvage pc data now) data
    written (t₁.writeFrame W now peer addr frame)
  | none =>
    let t₁ := t.startKeyExchange W now peer
    if t₁.kx.rk.peerInRekeyGaveUp peer now then (.error .pendingDropped, t₁)
    else t₁.enqueue peer data now

/-- `data` is the marshalled packet, `ping` whether it is a control packet on the ping port. -/
def sendTo (addr : Option UDPAddr) (peer : NodeID)
    (data : Bytes) (ping : Bool) : Except SendToErr Unit × TunnelManager :=
  let t₁ := if ping then t else t.noteAppActivity peer now
  if t₁.encrypt then t₁.sendEncrypted W now addr peer data
  else written (t₁.writeFrame W now peer addr (tunnelMagic ++ data))

/-! ## Peers -/

def addPeer (addr : UDPAddr) : TunnelManager :=
  let t₁ := { t with peers := t.peers.insert peer addr }
  if t₁.encrypt then t₁.startKeyExchange W now peer else t₁

def dropCrypto : TunnelManager :=
  { t with kx := { t.kx with env := t.kx.env.drop peer }.removePeer peer }

def removePeer : TunnelManager :=
  { t.dropCrypto peer with
    peers := t.peers.erase peer
    routing := t.routing.removePeer peer
    activity := t.activity.erase peer }

def peerInUse (now : Nat) : Bool :=
  W.openConnPeers now peer || (t.activity.lookup peer).any fun last => now - last ≤ peerIdleAfter

/-! ## The retransmit tick -/

def maybeForceRelayOnRekey (attempt : Nat) : TunnelManager :=
  if attempt < rekeyRelayFallbackAfter then t
  else if t.routing.isRelayPeer peer then t
  else { t with routing := t.routing.setRelayPeer peer true }

def retransmit (due : NodeID × Nat) : TunnelManager :=
  ((t.maybeForceRelayOnRekey due.1 (due.2 + 1)).kxSendKeyExchange W now due.1).2

end TunnelManager

/-! ## The daemon -/

/-- A registry answer to a resolve: the peer's registered address, a LAN address of its
own on one of our subnets, and whether it is to be reached through the relay only. -/
structure Resolved where
  realAddr : Option UDPAddr
  lanAddr : Option UDPAddr
  relayOnly : Bool
  deriving DecidableEq

/-- The endpoint chosen from an answer: the LAN address goes first. -/
def Resolved.addr (r : Resolved) : Option UDPAddr := r.realAddr.map fun real => r.lanAddr.getD real

structure Daemon where
  tunnels : TunnelManager
  regConn : Bool
  lastGaveUpReset : GoMap NodeID Nat
  /-- The path resets started and not yet run. -/
  resetting : List NodeID
  resolveCache : GoMap NodeID (Resolved × Nat)
  epCache : GoMap NodeID UDPAddr

namespace Daemon

variable (W : World) (now : Nat) (d : Daemon) (peer : NodeID)

def onTunnels (f : TunnelManager → TunnelManager) : Daemon := { d with tunnels := f d.tunnels }

def connect (r : Resolved) : Bool × Daemon :=
  match r.addr with
  | none => (false, d)
  | some addr =>
    let d₁ := { d with epCache := d.epCache.insert peer addr }
    let d₂ := if r.relayOnly then d₁.onTunnels fun t =>
        { t with routing := t.routing.setRelayPeerPinned peer true }
      else d₁
    (true, d₂.onTunnels fun t => t.addPeer W now peer addr)

/-- `answer` is the registry's, `none` when it cannot be reached. -/
def ensureTunnel (answer : Option Resolved) : Bool × Daemon :=
  if (d.tunnels.peerAddr peer).isSome then (true, d)
  else
    match (d.resolveCache.lookup peer).filter (fun e => now - e.2 ≤ resolveCacheTTL) with
    | some (r, _) => d.connect W now peer r
    | none =>
      match answer, d.epCache.lookup peer with
      | some r, _ =>
        { d with resolveCache := d.resolveCache.insert peer (r, now) }.connect W now peer r
      | none, some addr => (true, d.onTunnels fun t => t.addPeer W now peer addr)
      | none, none => (false, d)

/-- The first part of a path reset: forget the peer's path and session, keep who uses it
and whether it was on the relay. -/
def forgetPath (t : TunnelManager) (peer : NodeID) : TunnelManager :=
  let wasRelay := t.routing.isRelayPeer peer
  let lastUse := t.activity.lookup peer
  let t₁ := if t.routing.isRelayPinned peer then
      { t with routing := t.routing.setRelayPeerPinned peer false }
    else t
  let t₂ := if (t.peerAddr peer).isSome then t₁.removePeer peer else t₁
  let t₃ := match lastUse with
    | none => t₂
    | some last => t₂.noteAppActivity peer last
  let t₄ := if wasRelay then { t₃ with routing := t₃.routing.setRelayPeer peer true } else t₃
  { t₄.withRekey (t₄.kx.rk.clearRekeyGaveUp peer) with
    lastRekeyReq := t₄.lastRekeyReq.erase peer }

def resetPeerPath (answer : Option Resolved) : Daemon :=
  let d₁ := { d with
    tunnels := forgetPath d.tunnels peer
    resolveCache := d.resolveCache.erase peer
    epCache := d.epCache.erase peer }
  if d₁.regConn then
    match d₁.ensureTunnel W now peer answer with
    | (false, d₂) => d₂
    | (true, d₂) => d₂.onTunnels fun t => t.sendKeyExchangeToNode W now peer
  else d₁

def onRekeyGaveUp : Daemon :=
  if !d.tunnels.peerInUse W peer now then d
  else if (d.lastGaveUpReset.lookup peer).any fun last => now - last < gaveUpResetCooldown then d
  else
    let resets : GoMap NodeID Nat := d.lastGaveUpReset.insert peer now
    { d with
      lastGaveUpReset := if 1024 < resets.len then
          resets.keep (fun _ at_ => decide (now - at_ ≤ 5 * gaveUpResetCooldown))
        else resets
      resetting := d.resetting ++ [peer] }

def rekeyRetransmitTick : Daemon :=
  let (toGiveUp, toRetry, rk) := d.tunnels.kx.rk.scanPending now
  let d₁ := toGiveUp.foldl (fun d peer => d.onRekeyGaveUp W now peer)
    (d.onTunnels fun t => t.withRekey rk)
  d₁.onTunnels fun t => (toRetry.take maxRetransmitsPerTick).foldl (fun t due => t.retransmit W now due) t

/-! ## Steps -/

inductive Op
  | recv (frame : Bytes) (remote : Option UDPAddr)
  | tick
  | reset (peer : NodeID) (answer : Option Resolved)
  | sendTo (addr : Option UDPAddr) (peer : NodeID) (data : Bytes) (ping : Bool)
  | addPeer (peer : NodeID) (addr : UDPAddr)
  | removePeer (peer : NodeID)
  | dropCrypto (peer : NodeID)

structure Input where
  now : Nat
  op : Op

def step (i : Input) : Daemon :=
  match i.op with
  | .recv frame remote => d.onTunnels fun t => t.readLoopOneIter W i.now frame remote
  | .tick => d.rekeyRetransmitTick W i.now
  | .reset peer answer =>
    if peer ∈ d.resetting then
      { d with resetting := d.resetting.erase peer }.resetPeerPath W i.now peer answer
    else d
  | .sendTo addr peer data ping => d.onTunnels fun t => (t.sendTo W i.now addr peer data ping).2
  | .addPeer peer addr => d.onTunnels fun t => t.addPeer W i.now peer addr
  | .removePeer peer => d.onTunnels fun t => t.removePeer peer
  | .dropCrypto peer => d.onTunnels fun t => t.dropCrypto peer

def run (inputs : List Input) : Daemon := inputs.foldl (step W) d

/-- A daemon that has started with encryption on: no peers, no sessions. -/
def start (setup : Setup) (node : NodeID) (beaconAddr : Option UDPAddr) : Daemon where
  tunnels :=
    { kx :=
        { env := ⟨∅, node, 0, 0⟩
          setup := setup
          pubKeys := ⟨∅, ∅, 0⟩
          rk := ⟨∅, ∅, ∅, ∅, ∅⟩
          allocated := 0 }
      routing := ⟨true, beaconAddr, ∅, ∅, ∅, ∅, ∅, ∅, ∅, ∅, false⟩
      peers := ∅
      encrypt := true
      pending := ∅
      pendingSince := ∅
      lastRekeyReq := ∅
      rekeyWhitelist := []
      rekeyWhitelistAll := false
      kxRateLim := ∅
      relayKxLim := ∅
      activity := ∅
      recvCh := []
      opened := []
      writes := 0
      sent := [] }
  regConn := true
  lastGaveUpReset := ∅
  resetting := []
  resolveCache := ∅
  epCache := ∅

end Daemon

end PilotProtocol.Tunnel
