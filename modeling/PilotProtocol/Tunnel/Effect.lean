import PilotProtocol.Tunnel.Moves

/-! # What a step does to the sessions

`Effect` lists what one step of the daemon can do to the session state: nothing,
the outcome of a key-exchange frame, the outcome of an encrypted frame, or
forgetting a peer. Every property of sessions over runs is proved from this list.
-/

namespace PilotProtocol.Tunnel

open Library KeyExchange Envelope
open Routing (UDPAddr)
open TunnelManager

namespace Daemon

def Op.frame : Op → Option (Magic × Bytes)
  | .recv frame _ => carried frame
  | _ => none

def Op.forgets : Op → Option NodeID
  | .reset peer _ => some peer
  | .removePeer peer => some peer
  | .dropCrypto peer => some peer
  | _ => none

end Daemon

/-- What handling an encrypted frame does: it fails, it fails and drops the session, or
it is opened and may put a packet on the channel. -/
inductive Outcome (W : World) (now : Nat) (t : TunnelManager) (data : Bytes) : Core → Prop
  | rejected (e : DecryptErr) (herr : (decryptFrame W.P t.kx.env data).1.err = some e) :
      Outcome W now t data (t.withEnv (decryptFrame W.P t.kx.env data).2).core
  | dropped (e : DecryptErr) (herr : (decryptFrame W.P t.kx.env data).1.err = some e) (c : Crypto)
      (hc : (decryptFrame W.P t.kx.env data).2.get
        (decryptFrame W.P t.kx.env data).1.peerNodeID = some c)
      (hdrop : shouldDrop e (decryptFrame W.P t.kx.env data).2
        (decryptFrame W.P t.kx.env data).1.peerNodeID c now = true) :
      Outcome W now t data (t.withEnv ((decryptFrame W.P t.kx.env data).2.drop
        (decryptFrame W.P t.kx.env data).1.peerNodeID)).core
  | accepted (herr : (decryptFrame W.P t.kx.env data).1.err = none) (packets : List IncomingPacket)
      (hpackets : ∀ ip ∈ packets, Deliverable W
        (decryptFrame W.P t.kx.env data).1.peerNodeID
        (decryptFrame W.P t.kx.env data).1.plaintext ip.packet) :
      Outcome W now t data ({ t.withEnv (decryptFrame W.P t.kx.env data).2 with
        opened := t.opened ++ (openedBy t.kx.env data).toList }.core.push packets)

inductive Effect (W : World) (now : Nat) (t : TunnelManager) (op : Daemon.Op) : Core → Prop
  | quiet : Effect W now t op t.core
  | auth (data : Bytes) (hframe : op.frame = some (.authEx, data)) :
      Effect W now t op
        { t with kx := (t.kx.admitAuth W.P W.registry W.entropy now data).2 }.core
  | unauth (data : Bytes) (hframe : op.frame = some (.keyEx, data)) :
      Effect W now t op
        { t with kx := (t.kx.admitUnauth W.P W.registry W.entropy now data).2 }.core
  | secure (data : Bytes) (hframe : op.frame = some (.secure, data)) {c : Core}
      (houtcome : Outcome W now t data c) : Effect W now t op c
  | plaintext (ip : IncomingPacket) (hplain : t.encrypt = false) : Effect W now t op (t.core.push [ip])
  | forgotten (peer : NodeID) (hforgets : op.forgets = some peer) :
      Effect W now t op (t.dropCrypto peer).core

/-! ## Functions that leave the sessions alone -/

namespace TunnelManager

variable (W : World) (now : Nat) (t : TunnelManager) (peer : NodeID)

theorem kxSendKeyExchange_core :
    (t.kxSendKeyExchange W now peer).2.core = t.core := (kxSendKeyExchange_moves t trivial).core

theorem startKeyExchange_core :
    (t.startKeyExchange W now peer).core = t.core := (startKeyExchange_moves t trivial).core

theorem enqueue_core (W : World) (t : TunnelManager) (peer : NodeID) (data : Bytes) (now : Nat) :
    (t.enqueue peer data now).2.core = t.core :=
  (enqueue_moves (W := W) (S := .quiet) t trivial data).core

theorem handleAuthFrame_core (data : Bytes) (source : Option UDPAddr) (fromRelay : Bool) :
    (t.handleAuthFrame W now data source fromRelay).core =
      { t with kx := (t.kx.admitAuth W.P W.registry W.entropy now data).2 }.core := by
  unfold handleAuthFrame
  split
  next ev kx h =>
    rw [h]
    exact (installed_moves { t with kx } ev source fromRelay trivial
      (replyIfStale_moves _ trivial)).core
  next h => rw [h]

theorem handleUnauthFrame_core (data : Bytes) (source : Option UDPAddr) (fromRelay : Bool) :
    (t.handleUnauthFrame W now data source fromRelay).core =
      { t with kx := (t.kx.admitUnauth W.P W.registry W.entropy now data).2 }.core := by
  unfold handleUnauthFrame
  split
  next ev kx h =>
    rw [h]
    exact (installed_moves { t with kx } ev source fromRelay trivial .refl).core
  next h => rw [h, kxSendKeyExchange_core]
  next h => rw [h]

theorem dropDiverged_core (e : DecryptErr) (peer : NodeID) (source : Option UDPAddr) :
    (t.dropDiverged W now e peer source).core = t.core ∨
      (∃ c, t.kx.env.get peer = some c ∧ shouldDrop e t.kx.env peer c now = true) ∧
        (t.dropDiverged W now e peer source).core = (t.withEnv (t.kx.env.drop peer)).core := by
  unfold dropDiverged
  cases hc : t.kx.env.get peer with
  | none => exact .inl rfl
  | some c =>
    simp only
    split
    next hdrop =>
      have hcurrent : t.kx.env.compareAndDrop peer c.ref = (true, t.kx.env.drop peer) := by
        simp [Store.compareAndDrop, Store.isCurrent, hc]
      rw [hcurrent]
      exact .inr ⟨⟨c, rfl, hdrop⟩, (maybeRequestRekey_moves _ source trivial).core⟩
    · exact .inl rfl

theorem deliver_core (plaintext : Option Bytes) (source : Option UDPAddr) :
    ∃ packets : List IncomingPacket,
      (t.deliver W now peer plaintext source).core = t.core.push packets ∧
      ∀ ip ∈ packets, Deliverable W peer plaintext ip.packet := by
  have hnone : t.core = t.core.push [] := t.core.push_nil.symm
  unfold deliver
  cases hpkt : plaintext.bind W.unmarshal with
  | none => exact ⟨[], hnone, nofun⟩
  | some pkt =>
    simp only
    split
    · exact ⟨[], hnone, nofun⟩
    next hbound =>
      have hcore : (((t.recordInboundDecrypt peer now).clearPendingRekey peer).noteDirect
          peer source now).core = t.core :=
        (noteDirect_moves (S := .quiet) (W := W) _ source trivial).core
      split
      · exact ⟨[], hcore.trans hnone, nofun⟩
      next hkeep =>
        have happ : isTunnelKeepalive W pkt = false := Bool.eq_false_iff.mpr hkeep
        -- the exemption for unstamped keepalives cannot apply to a packet that is none
        have hsrc : pkt.srcNode = peer := by
          simpa [isLegacyUnstampedKeepalive, happ] using hbound
        refine ⟨[⟨pkt, source⟩], ?_, ?_⟩
        · rw [pushRecv_core]
          split
          · rw [hcore]
          · exact congrArg (Core.push · _) hcore
        · intro ip hip
          rw [List.mem_singleton.mp hip]
          exact ⟨hpkt, hsrc, happ⟩

end TunnelManager

/-! ## Datagrams -/

namespace TunnelManager

section

variable {W : World} {now : Nat} {op : Daemon.Op}

variable {data : Bytes} (t : TunnelManager)

theorem Noted.effect {src : Option NodeID} {t t' : TunnelManager} (h : Noted W now src t t')
    {c : Core} (he : Effect W now t' op c) : Effect W now t op c := by
  obtain ⟨x, hx⟩ : ∃ x : TunnelManager, t' = { x with
      kx := t.kx, encrypt := t.encrypt, recvCh := t.recvCh, opened := t.opened } := ⟨t', h.same⟩
  subst hx
  cases he with
  | quiet => exact .quiet
  | auth data hframe => exact .auth data hframe
  | unauth data hframe => exact .unauth data hframe
  | secure data hframe houtcome =>
    apply Effect.secure data hframe
    cases houtcome with
    | rejected e herr => exact .rejected e herr
    | dropped e herr c hc hdrop => exact .dropped e herr c hc hdrop
    | accepted herr packets hpackets => exact @Outcome.accepted W now t data herr packets hpackets
  | plaintext ip hplain => exact .plaintext ip hplain
  | forgotten peer hforgets => exact .forgotten peer hforgets

theorem handleEncrypted_outcome (data : Bytes) (source : Option UDPAddr) :
    Outcome W now t data (t.handleEncrypted W now data source).core := by
  unfold handleEncrypted
  simp only
  split
  next herr => exact .rejected _ herr
  next herr =>
    rw [(maybeRequestRekey_moves _ source trivial).core]
    exact .rejected _ herr
  next e _ _ herr =>
    obtain hkept | ⟨⟨c, hc, hdrop⟩, hgone⟩ := dropDiverged_core W now
      (t.withEnv (decryptFrame W.P t.kx.env data).2) e
      (decryptFrame W.P t.kx.env data).1.peerNodeID source
    · rw [hkept]
      exact .rejected e herr
    · rw [hgone]
      exact .dropped e herr c hc hdrop
  next herr =>
    obtain ⟨packets, hcore, hpackets⟩ := deliver_core W now
      { t.withEnv (decryptFrame W.P t.kx.env data).2 with
        opened := t.opened ++ (openedBy t.kx.env data).toList }
      (decryptFrame W.P t.kx.env data).1.peerNodeID
      (decryptFrame W.P t.kx.env data).1.plaintext source
    rw [hcore]
    exact .accepted herr packets hpackets

theorem deliverPlaintext_effect (frame : Bytes) (source : Option UDPAddr) :
    Effect W now t op (t.deliverPlaintext W frame source).core := by
  unfold deliverPlaintext
  split
  · exact .quiet
  next hplain =>
    split
    · exact .quiet
    · split
      · exact .quiet
      · exact .plaintext _ (Bool.eq_false_iff.mpr hplain)

theorem readLoopOneIter_effect {frame : Bytes} (remote : Option UDPAddr)
    (hframe : op.frame = carried frame) :
    Effect W now t op (t.readLoopOneIter W now frame remote).core := by
  obtain ⟨t₁, hnoted, hdispatched⟩ := readLoopOneIter_handled W now t frame remote
  apply hnoted.effect
  generalize t.readLoopOneIter W now frame remote = t' at hdispatched ⊢
  cases hdispatched with
  | ignored => exact .quiet
  | auth data source fromRelay h =>
    rw [handleAuthFrame_core]
    exact .auth data (hframe.trans h)
  | unauth data source fromRelay h =>
    rw [handleUnauthFrame_core]
    exact .unauth data (hframe.trans h)
  | secure data source h => exact .secure data (hframe.trans h) (handleEncrypted_outcome t₁ data source)
  | plain data source => exact deliverPlaintext_effect t₁ data source

end

end TunnelManager

/-! ## The other steps -/

namespace Daemon

theorem rekeyRetransmitTick_core (W : World) (now : Nat) (d : Daemon) :
    (d.rekeyRetransmitTick W now).tunnels.core = d.tunnels.core :=
  (rekeyRetransmitTick_moves d fun _ _ => trivial).core

theorem forgetPath_core (t : TunnelManager) (peer : NodeID) :
    (forgetPath t peer).core = t.core ∨ (forgetPath t peer).core = (t.dropCrypto peer).core := by
  unfold forgetPath
  cases t.activity.lookup peer <;> cases t.routing.isRelayPeer peer <;>
    cases t.routing.isRelayPinned peer <;> cases (t.peerAddr peer).isSome <;>
    first | exact .inl rfl | exact .inr rfl

theorem step_effect (W : World) (d : Daemon) (i : Input) :
    Effect W i.now d.tunnels i.op (step W d i).tunnels.core := by
  obtain ⟨now, op⟩ := i
  cases op with
  | recv frame remote => exact readLoopOneIter_effect d.tunnels remote rfl
  | tick =>
    rw [step, rekeyRetransmitTick_core]
    exact .quiet
  | reset peer answer =>
    unfold step
    simp only
    split
    · rw [(resolve_moves (S := .quiet) { d with resetting := d.resetting.erase peer } trivial answer).core]
      obtain hkept | hgone := forgetPath_core d.tunnels peer
      · rw [hkept]
        exact .quiet
      · rw [hgone]
        exact .forgotten peer rfl
    · exact .quiet
  | sendTo addr peer data ping =>
    have hmoves : Moves W now .quiet d.tunnels (step W d ⟨now, .sendTo addr peer data ping⟩).tunnels :=
      sendTo_moves d.tunnels trivial addr data ping trivial
    rw [hmoves.core]
    exact .quiet
  | addPeer peer addr =>
    have hmoves : Moves W now .quiet d.tunnels (step W d ⟨now, .addPeer peer addr⟩).tunnels :=
      addPeer_moves d.tunnels trivial addr
    rw [hmoves.core]
    exact .quiet
  | removePeer peer | dropCrypto peer => exact .forgotten peer rfl

end Daemon

/-! ## One peer's session -/

/-- What a step can do to the session of `peer`. -/
inductive SessionChange (W : World) (now : Nat) (t : TunnelManager) (op : Daemon.Op) (peer : NodeID) :
    Option Crypto → Prop
  | kept : SessionChange W now t op peer (t.core.session peer)
  | forgotten (hforgets : op.forgets = some peer) : SessionChange W now t op peer none
  | opened (data : Bytes) (f : SecureFrame) (c : Crypto) (hframe : op.frame = some (.secure, data))
      (hparse : parseSecure data = some f) (hpeer : f.peer = peer) (hc : t.kx.env.get peer = some c)
      (hready : c.ready = true) :
      SessionChange W now t op peer (some (forgetSends (decryptWith W.P c f).2))
  | dropped (data : Bytes) (f : SecureFrame) (c : Crypto) (e : DecryptErr) (s : Store)
      (hframe : op.frame = some (.secure, data)) (hparse : parseSecure data = some f)
      (hpeer : f.peer = peer) (hc : t.kx.env.get peer = some c) (hready : c.ready = true)
      (herr : (decryptWith W.P c f).1.err = some e)
      (hdrop : shouldDrop e s peer (decryptWith W.P c f).2 now = true) :
      SessionChange W now t op peer none
  | auth (data : Bytes) (key x25519 noncePrefix : Bytes) (pc : Crypto)
      (hframe : op.frame = some (.authEx, data))
      (hverified : Manager.AuthVerified W.P W.registry now t.kx data peer x25519)
      (hpc : pc =
        { freshCrypto t.kx.allocated key x25519 noncePrefix now with authenticated := true }) :
      SessionChange W now t op peer (some pc)
  | unauth (data : Bytes) (key x25519 noncePrefix : Bytes) (pc : Crypto)
      (hframe : op.frame = some (.keyEx, data))
      (hunknown : Manager.UnauthUnknown W.registry now t.kx data peer x25519)
      (hpc : pc =
        { freshCrypto t.kx.allocated key x25519 noncePrefix now with authenticated := false }) :
      SessionChange W now t op peer (some pc)

theorem decryptFrame_session {P : Primitives} (s : Store) (data : Bytes) (peer : NodeID) :
    (decryptFrame P s data).2.get peer = s.get peer ∨
      ∃ f c, parseSecure data = some f ∧ f.peer = peer ∧ s.get peer = some c ∧ c.ready = true ∧
        (decryptFrame P s data).1 = (decryptWith P c f).1 ∧
        (decryptFrame P s data).2.get peer = some (decryptWith P c f).2 := by
  cases hparse : parseSecure data with
  | none => rw [decryptFrame_tooShort hparse]; exact .inl rfl
  | some f =>
    cases hready : s.getReady f.peer with
    | none => rw [decryptFrame_noKey hparse hready]; exact .inl rfl
    | some c =>
      obtain ⟨hget, hr⟩ := Store.getReady_eq_some.mp hready
      rw [decryptFrame_keyed hparse hready, Store.get_install, noteOpen_get]
      by_cases hpeer : peer = f.peer
      · subst hpeer
        rw [if_pos rfl]
        exact .inr ⟨f, c, rfl, rfl, hget, hr, rfl, rfl⟩
      · rw [if_neg hpeer]
        exact .inl rfl

theorem decryptFrame_dropped {P : Primitives} {s s' : Store} {data : Bytes} {e : DecryptErr}
    {peer : NodeID} {c : Crypto} {now : Nat} (herr : (decryptFrame P s data).1.err = some e)
    (hdrop : shouldDrop e s' peer c now = true) :
    ∃ f c, parseSecure data = some f ∧ s.get f.peer = some c ∧ c.ready = true ∧
      decryptFrame P s data =
        ((decryptWith P c f).1, (noteOpen P s c f).install f.peer (decryptWith P c f).2) := by
  cases hparse : parseSecure data with
  | none =>
    rw [decryptFrame_tooShort hparse] at herr
    cases herr
    cases hdrop
  | some f =>
    cases hready : s.getReady f.peer with
    | none =>
      rw [decryptFrame_noKey hparse hready] at herr
      cases herr
      cases hdrop
    | some c =>
      obtain ⟨hget, hr⟩ := Store.getReady_eq_some.mp hready
      exact ⟨f, c, rfl, hget, hr, decryptFrame_keyed hparse hready⟩

section

variable {W : World} {now : Nat} {t : TunnelManager} {op : Daemon.Op}

theorem SessionChange.of_decrypt {data : Bytes} (hframe : op.frame = some (.secure, data))
    (peer : NodeID) : SessionChange W now t op peer
      (((decryptFrame W.P t.kx.env data).2.get peer).map forgetSends) := by
  obtain hkept | ⟨f, c, hparse, hpeer, hc, hready, _, hget⟩ :=
    decryptFrame_session (P := W.P) t.kx.env data peer
  · rw [hkept]
    exact .kept
  · rw [hget]
    exact .opened data f c hframe hparse hpeer hc hready

theorem SessionChange.of_admits {reg : Registry} {auth : Bool} {allowed : NodeID → Bytes → Prop}
    {node : NodeID} {verdict : Verdict} {m : KeyExchange.Manager}
    (h : Manager.Admits reg now auth allowed node t.kx verdict m)
    (hinstall : ∀ peer pc key x25519 noncePrefix, allowed peer x25519 →
      pc = { freshCrypto t.kx.allocated key x25519 noncePrefix now with authenticated := auth } →
      SessionChange W now t op peer (some pc))
    (peer : NodeID) :
    SessionChange W now t op peer ((m.env.get peer).map forgetSends) := by
  obtain hkept | ⟨pc, key, x25519, noncePrefix, hallowed, hget, _, hpc⟩ := h.session peer
  · rw [hkept]
    exact .kept
  · have hfresh : forgetSends pc = pc := by rw [hpc]; rfl
    rw [hget, Option.map_some, hfresh]
    exact hinstall peer pc key x25519 noncePrefix hallowed hpc

theorem SessionChange.of_drop {s : Store} {dropped peer : NodeID}
    (hgone : peer = dropped → SessionChange W now t op peer none)
    (hother : SessionChange W now t op peer ((s.get peer).map forgetSends)) :
    SessionChange W now t op peer (((s.drop dropped).get peer).map forgetSends) := by
  rw [Store.get_drop]
  split
  next hpeer => exact hgone hpeer
  · exact hother

theorem Effect.session {c : Core} (h : Effect W now t op c) (peer : NodeID) :
    SessionChange W now t op peer (c.session peer) := by
  cases h with
  | quiet | plaintext ip hplain => exact .kept
  | auth data hframe =>
    exact SessionChange.of_admits (Manager.admitAuth_admits ..)
      (fun peer pc key x25519 noncePrefix hverified hpc =>
        .auth data key x25519 noncePrefix pc hframe hverified hpc) peer
  | unauth data hframe =>
    exact SessionChange.of_admits (Manager.admitUnauth_admits ..)
      (fun peer pc key x25519 noncePrefix hunknown hpc =>
        .unauth data key x25519 noncePrefix pc hframe hunknown hpc) peer
  | secure data hframe houtcome =>
    cases houtcome with
    | rejected e herr | accepted herr packets hpackets => exact .of_decrypt hframe peer
    | dropped e herr c hc hdrop =>
      refine SessionChange.of_drop (fun hpeer => ?_) (.of_decrypt hframe peer)
      obtain ⟨f, c', hparse, hc', hready, hresult⟩ := decryptFrame_dropped herr hdrop
      rw [hresult, decryptWith_peer] at hc hdrop hpeer
      rw [hresult] at herr
      subst hpeer
      rw [Store.get_install, if_pos rfl] at hc
      cases hc
      exact .dropped data f c' e _ hframe hparse rfl hc' hready herr hdrop
  | forgotten forgot hforgets =>
    exact SessionChange.of_drop (fun hpeer => .forgotten (hpeer ▸ hforgets)) .kept

end

end PilotProtocol.Tunnel
