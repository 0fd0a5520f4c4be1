import PilotProtocol.Tunnel.Handshake

/-! # Inbound datagrams

The read loop and its two dispatch tables, direct and relayed, with the limits on
key-exchange frames and the requests for a new key that a frame without one sets off.
-/

namespace PilotProtocol.Tunnel

open Library KeyExchange Envelope
open Routing (UDPAddr)

def perSourceKxLimit : Nat := 5
def maxPerSrcKxEntries : Nat := 4096
def perRelaySrcKxLimit : Nat := 5
def maxRelayKxEntries : Nat := 4096
def relayKxPruneAge : Nat := 10 * second
def rekeyRequestInterval : Nat := 3 * second
def maxRekeyRequesters : Nat := 4096

/-! ## Rate limits -/

/-- Takes a token from the bucket of `key`, making a full one if there is room. -/
def takeToken {K : Type} [DecidableEq K] (limit maxEntries : Nat) (buckets : GoMap K SrcKxBucket)
    (key : K) (now : Nat) : Bool × GoMap K SrcKxBucket :=
  match buckets.lookup key with
  | none =>
    let live := if maxEntries ≤ buckets.len then
        buckets.keep (fun _ b => decide (now - b.lastFill < relayKxPruneAge))
      else buckets
    if maxEntries ≤ live.len then (false, live) else (true, live.insert key ⟨limit - 1, now⟩)
  | some b =>
    let refill := (now - b.lastFill) * limit / second
    let filled := if 0 < refill then ⟨min (b.tokens + refill) limit, now⟩ else b
    if 0 < filled.tokens then
      (true, buckets.insert key { filled with tokens := filled.tokens - 1 })
    else (false, buckets.insert key filled)

namespace TunnelManager

variable (W : World) (now : Nat) (t : TunnelManager) (peer : NodeID) (data : Bytes) (source : Option UDPAddr)

def allowKxFromSource (now : Nat) : Bool × TunnelManager :=
  match source with
  | none => (true, t)
  | some addr =>
    let (allowed, kxRateLim) := takeToken perSourceKxLimit maxPerSrcKxEntries t.kxRateLim addr.ip now
    (allowed, { t with kxRateLim })

def allowKxFromRelaySrc (src : NodeID) (now : Nat) : Bool × TunnelManager :=
  let (allowed, relayKxLim) := takeToken perRelaySrcKxLimit maxRelayKxEntries t.relayKxLim src now
  (allowed, { t with relayKxLim })

/-! ## Key-exchange frames -/

/-- The checks before a key-exchange frame is handled: encryption, the source's rate
limit unless the frame was relayed, and the trust gate. -/
def passKx (fromRelay : Bool) : Bool × TunnelManager :=
  if !t.encrypt || t.kx.setup.privKey.isNone then (false, t)
  else
    let (allowed, t₁) := if fromRelay then (true, t) else t.allowKxFromSource source now
    (allowed && (decide (data.length < 4) || W.trustGate now (readNode data)), t₁)

def handleAuthKeyExchange (fromRelay : Bool) : TunnelManager :=
  let (pass, t₁) := t.passKx W now data source fromRelay
  if pass then t₁.handleAuthFrame W now data source fromRelay else t₁

def handleKeyExchange (fromRelay : Bool) : TunnelManager :=
  let (pass, t₁) := t.passKx W now data source fromRelay
  if pass then t₁.handleUnauthFrame W now data source fromRelay else t₁

/-! ## Encrypted frames -/

def rekeyWhitelisted : Bool :=
  t.rekeyWhitelistAll || (decide (peer ≠ 0) && t.rekeyWhitelist.contains peer)

/-- Whether the table of requesters has room, after expired entries are removed. -/
def pruneRekeyBudget (table : GoMap NodeID Nat) (now : Nat) : Bool × GoMap NodeID Nat :=
  if table.len < maxRekeyRequesters then (true, table)
  else
    let live := table.keep (fun _ at_ => decide (now - at_ < rekeyRequestInterval))
    (decide (live.len < maxRekeyRequesters), live)

/-- The per-peer gate of a rekey request, whitelisted peers pass it. -/
def allowRekey (now : Nat) : Bool × TunnelManager :=
  let last := t.lastRekeyReq.lookup peer
  if t.rekeyWhitelisted peer then
    (true, { t with lastRekeyReq := t.lastRekeyReq.insert peer now })
  else if last.any fun at_ => now - at_ < rekeyRequestInterval then (false, t)
  else
    let (room, table) := if last.isNone then pruneRekeyBudget t.lastRekeyReq now
      else (true, t.lastRekeyReq)
    (room, { t with lastRekeyReq := if room then table.insert peer now else table })

/-- Remembers where the frame came from; a peer heard through the beacon with no direct
address is put on the relay. -/
def noteRekeyPath : TunnelManager :=
  let peers := match t.peers.lookup peer, source with
    | none, some addr => t.peers.insert peer addr
    | _, _ => t.peers
  let routing := if t.routing.isFromBeacon source && !t.hasDirect peer then
      t.routing.admitRelayFromBeacon peer
    else t.routing
  { t with peers, routing }

def maybeRequestRekey : TunnelManager :=
  if !t.routing.sock then t
  else
    let (allowed, t₁) := t.allowRekey peer now
    if allowed then
      let t₂ := t₁.noteRekeyPath peer source
      let t₃ := if t₂.kx.env.has peer then t₂ else t₂.withRekey (t₂.kx.rk.markKeyRequestDue peer)
      t₃.sendKeyExchangeToNode W now peer
    else t₁

def shouldDrop (e : DecryptErr) (s : Store) (peer : NodeID) (c : Crypto) (now : Nat) : Bool :=
  match e with
  | .outsideWindow => s.shouldDropOnOutsideWindow peer c now
  | .replay => s.shouldDropOnReplay peer c now
  | .aead => s.shouldDropOnDecryptFail peer c now
  | .noKey => false
  | .tooShort => false

def dropDiverged (e : DecryptErr) (peer : NodeID) (source : Option UDPAddr) : TunnelManager :=
  match t.kx.env.get peer with
  | none => t
  | some pc =>
    if shouldDrop e t.kx.env peer pc now then
      match t.kx.env.compareAndDrop peer pc.ref with
      | (true, env) => (t.withEnv env).maybeRequestRekey W now peer source
      | (false, _) => t
    else t

def isPing (pkt : Packet) : Bool :=
  decide (pkt.protocol = W.protoControl) && decide (pkt.dstPort = W.portPing)

def isTunnelKeepalive (pkt : Packet) : Bool := isPing W pkt && pkt.payload.isEmpty

def isLegacyUnstampedKeepalive (pkt : Packet) : Bool :=
  decide (pkt.srcNode = 0) && isTunnelKeepalive W pkt

/-- A decrypted frame from a direct source proves the direct path and its address. -/
def noteDirect (now : Nat) : TunnelManager :=
  let routing := t.routing.clearRelayOnDirect peer source
  match source with
  | none => { t with routing }
  | some addr =>
    if routing.isFromBeacon source then { t with routing }
    else { t with routing := routing.recordDirectRecv peer now, peers := t.peers.insert peer addr }

/-- The part of `handleEncrypted` after a successful decrypt. -/
def deliver (plaintext : Option Bytes) (source : Option UDPAddr) : TunnelManager :=
  match plaintext.bind W.unmarshal with
  | none => t
  | some pkt =>
    if decide (pkt.srcNode ≠ peer) && !isLegacyUnstampedKeepalive W pkt then t
    else
      let t₁ := ((t.recordInboundDecrypt peer now).clearPendingRekey peer).noteDirect peer source now
      if isTunnelKeepalive W pkt then t₁
      else
        let t₂ := if isPing W pkt then t₁ else t₁.noteAppActivity peer now
        t₂.pushRecv ⟨pkt, source⟩

def openedBy (s : Store) (data : Bytes) : Option (Nat × SecureFrame) :=
  (parseSecure data).bind fun f => (s.getReady f.peer).map fun c => (c.ref, f)

def handleEncrypted : TunnelManager :=
  let (res, env) := Envelope.decryptFrame W.P t.kx.env data
  let t₁ := t.withEnv env
  match res.err with
  | some .tooShort => t₁
  | some .noKey => t₁.maybeRequestRekey W now res.peerNodeID source
  | some e => t₁.dropDiverged W now e res.peerNodeID source
  | none =>
    { t₁ with opened := t.opened ++ (openedBy t.kx.env data).toList }.deliver W now
      res.peerNodeID res.plaintext source

/-! ## Dispatch -/

def deliverPlaintext (frame : Bytes) (source : Option UDPAddr) : TunnelManager :=
  if t.encrypt then t
  else if frame.length < 4 + W.packetHeaderSize then t
  else
    match W.unmarshal (frame.drop 4) with
    | none => t
    | some pkt => t.pushRecv ⟨pkt, source⟩

end TunnelManager

inductive Magic
  | authEx
  | keyEx
  | secure
  | punch
  | plain
  deriving DecidableEq

def tunnelMagicPunch : Bytes := [0x50, 0x49, 0x4C, 0x50]
def tunnelMagic : Bytes := [0x50, 0x49, 0x4C, 0x54]

def magicOf (frame : Bytes) : Option Magic :=
  let magic := frame.take 4
  if magic = tunnelMagicAuthEx then some .authEx
  else if magic = tunnelMagicKeyEx then some .keyEx
  else if magic = tunnelMagicSecure then some .secure
  else if magic = tunnelMagicPunch then some .punch
  else if magic = tunnelMagic then some .plain
  else none

def beaconMsgRelayDeliver : UInt8 := 0x06

namespace TunnelManager

/-- Admission of a relayed datagram: peers with a session and no direct address are put
on the relay, up to its cap, and addressed through the beacon. -/
def admitRelayed (t : TunnelManager) (src : NodeID) : Bool × TunnelManager :=
  let hadCrypto := t.kx.env.has src
  if t.hasDirect src && hadCrypto then (true, t)
  else
    let (admitted, shouldAlias, routing) := t.routing.markRelayActivatedIfHadCrypto src hadCrypto
    let peers := match shouldAlias, routing.beaconAddr, t.peers.lookup src with
      | true, some beacon, none => t.peers.insert src beacon
      | _, _, _ => t.peers
    (admitted, { t with routing, peers })

def relaySource (t : TunnelManager) : Option UDPAddr := some (t.routing.beaconAddr.getD ⟨0, 0⟩)

def handleRelayDeliver (W : World) (now : Nat) (t : TunnelManager) (data : Bytes) : TunnelManager :=
  if data.length < 5 then t
  else
    let src := readNode data
    let payload := data.drop 4
    let (admitted, t₁) := t.admitRelayed src
    if !admitted then t₁
    else
      match magicOf payload with
      | some .authEx =>
        let (allowed, t₂) := t₁.allowKxFromRelaySrc src now
        if allowed then t₂.handleAuthKeyExchange W now (payload.drop 4) t₂.relaySource true else t₂
      | some .keyEx =>
        let (allowed, t₂) := t₁.allowKxFromRelaySrc src now
        if allowed then t₂.handleKeyExchange W now (payload.drop 4) t₂.relaySource true else t₂
      | some .secure => t₁.handleEncrypted W now (payload.drop 4) t₁.relaySource
      | some .plain => t₁.deliverPlaintext W payload t₁.relaySource
      | _ => t₁

/-- Beacon messages other than a relayed frame do not reach the modelled state. -/
def handleBeaconMessage (W : World) (now : Nat) (t : TunnelManager) (data : Bytes)
    (source : Option UDPAddr) : TunnelManager :=
  if data.head? = some beaconMsgRelayDeliver ∧
      (t.routing.forceRelay || t.routing.isFromBeacon source) = true then
    t.handleRelayDeliver W now (data.drop 1)
  else t

/-- One iteration of the read loop on the datagram `frame` from `remote`. -/
def readLoopOneIter (W : World) (now : Nat) (t : TunnelManager) (frame : Bytes)
    (remote : Option UDPAddr) : TunnelManager :=
  if frame.head?.any fun b => b < 0x10 then t.handleBeaconMessage W now frame remote
  else
    match magicOf frame with
    | some .authEx => t.handleAuthKeyExchange W now (frame.drop 4) remote false
    | some .keyEx => t.handleKeyExchange W now (frame.drop 4) remote false
    | some .secure => t.handleEncrypted W now (frame.drop 4) remote
    | some .plain => t.deliverPlaintext W frame remote
    | _ => t

/-- A packet that the decrypted plaintext of a frame from `peer` puts on the channel. -/
structure Deliverable (W : World) (peer : NodeID) (plaintext : Option Bytes) (pkt : Packet) : Prop where
  unmarshalled : plaintext.bind W.unmarshal = some pkt
  source : pkt.srcNode = peer
  application : isTunnelKeepalive W pkt = false

end TunnelManager

end PilotProtocol.Tunnel
