import PilotProtocol.Tunnel.Effect

/-! # Authenticity of delivered packets

With encryption on, whatever reaches the packet channel was opened under the
session that the store held for the sender the packet names.
-/

namespace PilotProtocol.Tunnel

open Library KeyExchange Envelope

/-- `ip` is the plaintext of an encrypted frame in the datagram, opened under the ready
session of the node that it names as its source, and is no keepalive. -/
structure Authentic (W : World) (t : TunnelManager) (op : Daemon.Op) (f : SecureFrame) (c : Crypto)
    (plaintext : Bytes) (ip : IncomingPacket) : Prop where
  carried : ∃ data, op.frame = some (.secure, data) ∧ parseSecure data = some f
  installed : t.kx.env.get f.peer = some c
  ready : c.ready = true
  opened : openWith W.P c f = some plaintext
  unmarshalled : W.unmarshal plaintext = some ip.packet
  source : ip.packet.srcNode = f.peer
  application : TunnelManager.isTunnelKeepalive W ip.packet = false

/-- The channel only grows, and what is added is authentic. -/
structure Delivers (W : World) (t : TunnelManager) (op : Daemon.Op) (recvCh : List IncomingPacket) :
    Prop where
  grows : t.recvCh <+: recvCh
  authentic : ∀ ip ∈ newEntries t.recvCh recvCh, ∃ f c plaintext, Authentic W t op f c plaintext ip

theorem Delivers.refl (W : World) (t : TunnelManager) (op : Daemon.Op) : Delivers W t op t.recvCh := by
  refine ⟨List.prefix_rfl, fun ip hip => ?_⟩
  simp [newEntries, List.drop_length] at hip

theorem Effect.delivers {W : World} {now : Nat} {t : TunnelManager} {op : Daemon.Op} {c : Core}
    (h : Effect W now t op c) (hencrypt : t.encrypt = true) :
    c.encrypt = true ∧ Delivers W t op c.recvCh := by
  cases h with
  | quiet | auth data hframe | unauth data hframe | forgotten peer hforgets =>
    exact ⟨hencrypt, Delivers.refl W t op⟩
  | plaintext ip hplain => rw [hencrypt] at hplain; cases hplain
  | secure data hframe houtcome =>
    cases houtcome with
    | rejected e herr | dropped e herr c hc hdrop => exact ⟨hencrypt, Delivers.refl W t op⟩
    | accepted herr packets hpackets =>
      obtain ⟨f, c, plaintext, hparse, hget, hready, hopen, _, hresult⟩ :=
        decryptFrame_accepted herr
      refine ⟨hencrypt, List.prefix_append _ _, fun ip hip => ?_⟩
      have hmem : ip ∈ packets := by
        have hnew := newEntries_append t.recvCh packets
        exact hnew ▸ hip
      have hdeliver := hpackets ip hmem
      rw [hresult] at hdeliver
      exact ⟨f, c, plaintext, ⟨data, hframe, hparse⟩, hget, hready, hopen,
        hdeliver.unmarshalled, hdeliver.source, hdeliver.application⟩

namespace Daemon

/-- In every run with encryption on, every packet put on the channel is authentic in the
state in which it was received. -/
theorem delivered_authentic (W : World) (d : Daemon) (inputs : List Input)
    (hencrypt : d.tunnels.encrypt = true) : AllSteps (step W)
      (fun d i => Delivers W d.tunnels i.op (step W d i).tunnels.recvCh) d inputs := by
  have hstep : ∀ (d : Daemon) (i : Input), d.tunnels.encrypt = true →
      (step W d i).tunnels.encrypt = true ∧
        Delivers W d.tunnels i.op (step W d i).tunnels.recvCh :=
    fun d i h => (step_effect W d i).delivers h
  exact run_every_step (fun d i h _ => (hstep d i h).1) (fun d i h _ => (hstep d i h).2) hencrypt
    (allSteps_of_inputs (step W) d fun _ _ => trivial)

end Daemon

/-! ## A run -/

/-- Toy cryptography: a shared key is the sum of the two X25519 keys, a ciphertext its
key's first half before the plaintext, a signature the message padded with a byte of
the key. -/
def toyPrimitives : Primitives where
  aeadSeal key _ plaintext _ := key.take 16 ++ plaintext
  aeadOpen key _ ciphertext _ :=
    if ciphertext.take 16 = key.take 16 then some (ciphertext.drop 16) else none
  x25519Public := id
  ecdh priv peer := some (List.zipWith (· + ·) priv peer)
  hmacSHA256 key message := if key.isEmpty then message else key
  ed25519Public := id
  sign identity message := message ++ List.replicate 24 (identity.headD 0)
  verify pub message signature := signature == message ++ List.replicate 24 (pub.headD 0)

/-- A world in which everything succeeds and node `n` has the keys made of byte `n`. -/
def toyWorld : World where
  P := toyPrimitives
  registry _ node := some (List.replicate 32 (UInt8.ofNat node.toNat))
  entropy _ := some [0, 0, 0, 0]
  net _ := .ok
  trustGate _ _ := true
  openConnPeers _ _ := false
  unmarshal
    | proto :: port :: src :: payload => some ⟨proto.toNat, port.toNat, UInt32.ofNat src.toNat, payload⟩
    | _ => none
  protoControl := 2
  portPing := 3
  packetHeaderSize := 34

def toySetup : Setup where
  identity := some (List.replicate 32 1)
  verifyFunc := true
  privKey := some (List.replicate 32 1)
  pubKey := some (List.replicate 32 1)
  replyWhitelist := []
  replyWhitelistAll := false

def peerAuthFrame : Bytes :=
  tunnelMagicAuthEx ++ nodeBytes 7 ++ List.replicate 32 7 ++ List.replicate 32 7 ++
    authChallenge 7 (List.replicate 32 7) ++ List.replicate 24 7

def peerSecureFrame (counter : Nat) (plaintext : Bytes) : Bytes :=
  tunnelMagicSecure ++ nodeBytes 7 ++ [0, 0, 0, 0] ++ putBE 8 counter ++ List.replicate 16 8 ++ plaintext

namespace Daemon

/-- A handshake, a packet, and a packet that claims to come from another node. -/
def chat : List Input :=
  [⟨second, .recv peerAuthFrame (some ⟨9, 9⟩)⟩,
   ⟨second, .recv (peerSecureFrame 1 [1, 80, 7, 42]) (some ⟨9, 9⟩)⟩,
   ⟨second, .recv (peerSecureFrame 2 [1, 80, 6, 42]) (some ⟨9, 9⟩)⟩]

theorem chat_authentic :
    (run toyWorld (start toySetup 1 none) chat).tunnels.recvCh.map (·.packet) = [⟨1, 80, 7, [42]⟩] ∧
    AllSteps (step toyWorld)
      (fun d i => Delivers toyWorld d.tunnels i.op (step toyWorld d i).tunnels.recvCh)
      (start toySetup 1 none) chat :=
  ⟨by decide +kernel, delivered_authentic toyWorld (start toySetup 1 none) chat rfl⟩

end Daemon

end PilotProtocol.Tunnel
