import PilotProtocol.Tunnel.State

/-! # Key installs

What follows an admitted key-exchange frame: the post-install hook learns the
peer's endpoint, sends the salvaged and the queued plaintext under the new key,
and a reply goes out.
-/

namespace PilotProtocol.Tunnel

open Library KeyExchange Envelope
open Routing (UDPAddr)

namespace TunnelManager

/-! ## Sending under a session -/

variable (W : World) (now : Nat) (t : TunnelManager) (peer : NodeID)

def encryptFrame (c : Crypto) (plaintext : Bytes) : Bytes × TunnelManager :=
  let (frame, c') := encryptWith W.P t.kx.env.localNodeID c plaintext
  (frame, t.withEnv { t.kx.env.install peer c' with encryptOK := t.kx.env.encryptOK + 1 })

/-- Seals and writes each plaintext while the peer's session is the object `ref`. -/
def sendUnder (W : World) (now : Nat) (peer : NodeID) (addr : Option UDPAddr) (ref : Nat) :
    List Bytes → TunnelManager → TunnelManager
  | [], t => t
  | plaintext :: rest, t =>
    match t.kx.env.get peer with
    | none => t
    | some c =>
      if c.ref = ref then
        let (frame, t₁) := t.encryptFrame W peer c plaintext
        sendUnder W now peer addr ref rest (t₁.writeFrame W now peer addr frame).2
      else t

def replaySalvage (old new : Crypto) (peer : NodeID) (addr : Option UDPAddr) : TunnelManager :=
  if addr.isNone then t
  else sendUnder W now peer addr new.ref ((Store.liveSalvage old now).map (·.plaintext)) t

def takePending : List Bytes × TunnelManager :=
  ((t.pending.lookup peer).getD [],
    { t with pending := t.pending.erase peer, pendingSince := t.pendingSince.erase peer })

def flushPending : TunnelManager :=
  let (frames, t₁) := t.takePending peer
  match t₁.kx.env.getReady peer with
  | none => t₁
  | some pc => sendUnder W now peer (t₁.peerAddr peer) pc.ref frames t₁

/-! ## The post-install hook -/

def clearPendingRekey : TunnelManager := t.withRekey (t.kx.rk.clearPendingRekey peer)

def recordInboundDecrypt (now : Nat) : TunnelManager :=
  { t.withRekey ((t.kx.rk.recordInboundDecrypt peer now).clearRekeyGaveUp peer) with
    routing := t.routing.clearSendErrCount peer }

def noteAppActivity (now : Nat) : TunnelManager := { t with activity := t.activity.insert peer now }

def hasDirect : Bool := (t.peerAddr peer).any fun addr => decide (some addr ≠ t.routing.beaconAddr)

def learnEndpoint (source : Option UDPAddr) (fromRelay : Bool) : TunnelManager :=
  if !fromRelay then
    match source with
    | none => t
    | some addr => { t with peers := t.peers.insert peer addr }
  else
    match t.routing.beaconAddr with
    | none => t
    | some beacon =>
      if t.hasDirect peer then t
      else
        { t with
          peers := t.peers.insert peer beacon
          routing := t.routing.admitRelayFromBeacon peer }

def onKeyInstalled (ev : Install) (source : Option UDPAddr) (fromRelay : Bool) : TunnelManager :=
  let t₁ := t.recordInboundDecrypt ev.peer now
  let t₂ := if ev.hadCrypto then t₁ else t₁.noteAppActivity ev.peer now
  let t₃ := t₂.learnEndpoint ev.peer source fromRelay
  let t₄ := match ev.keyChanged, ev.old with
    | true, some old => t₃.replaySalvage W now old ev.new ev.peer (t₃.peerAddr ev.peer)
    | _, _ => t₃
  t₄.flushPending W now ev.peer

/-- The hook runs unless the frame repeats a handshake just handled. -/
def afterInstall (ev : Install) (source : Option UDPAddr) (fromRelay : Bool) : TunnelManager :=
  if ev.duplicate now then t else t.onKeyInstalled W now ev source fromRelay

/-! ## The handlers -/

/-- The reply to a peer whose key we have, when nothing of theirs was decrypted lately. -/
def replyIfStale : TunnelManager :=
  if t.kx.rk.inboundDecryptStale peer now then
    let (send, rk) := t.kx.rk.markReplyKeyExchangeSent peer (t.kx.whitelisted peer) now
    let t₁ := t.withRekey rk
    if send then (t₁.kxSendKeyExchange W now peer).2 else t₁
  else t

def handleAuthFrame (data : Bytes) (source : Option UDPAddr) (fromRelay : Bool) : TunnelManager :=
  match t.kx.admitAuth W.P W.registry W.entropy now data with
  | (.admitted ev, kx) =>
    let t₁ := { t with kx }.afterInstall W now ev source fromRelay
    let t₂ := if ev.replaces then (t₁.kxSendKeyExchange W now ev.peer).2
      else t₁.replyIfStale W now ev.peer
    t₂.clearPendingRekey ev.peer
  | (_, kx) => { t with kx }

def handleUnauthFrame (data : Bytes) (source : Option UDPAddr) (fromRelay : Bool) : TunnelManager :=
  match t.kx.admitUnauth W.P W.registry W.entropy now data with
  | (.admitted ev, kx) =>
    let t₁ := { t with kx }.afterInstall W now ev source fromRelay
    let t₂ := if ev.replaces then (t₁.kxSendKeyExchange W now ev.peer).2 else t₁
    t₂.clearPendingRekey ev.peer
  | (.refused peer, kx) => ({ t with kx }.kxSendKeyExchange W now peer).2
  | (.ignored, kx) => { t with kx }

/-! ## The session state -/

theorem encryptFrame_core {W : World} {t : TunnelManager} {peer : NodeID} {c : Crypto}
    (plaintext : Bytes) (hc : t.core.session peer = some (forgetSends c)) :
    (t.encryptFrame W peer c plaintext).2.core = t.core := by
  refine Core.ext (funext fun q => ?_) rfl rfl rfl rfl rfl rfl rfl
  have hget := Store.get_install t.kx.env peer q
    (encryptWith W.P t.kx.env.localNodeID c plaintext).2
  have hsame : forgetSends (encryptWith W.P t.kx.env.localNodeID c plaintext).2 = forgetSends c := rfl
  have hstep : (t.encryptFrame W peer c plaintext).2.core.session q =
      ((t.kx.env.install peer (encryptWith W.P t.kx.env.localNodeID c plaintext).2).get q).map
        forgetSends := rfl
  rw [hstep, hget]
  by_cases hq : q = peer
  · subst hq
    rw [if_pos rfl, Option.map_some, hsame, hc]
  · rw [if_neg hq]
    rfl

theorem session_of_get {t : TunnelManager} {peer : NodeID} {c : Crypto}
    (hc : t.kx.env.get peer = some c) : t.core.session peer = some (forgetSends c) := by
  simp [core, hc]

end TunnelManager

end PilotProtocol.Tunnel
