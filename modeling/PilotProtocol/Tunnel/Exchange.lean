import PilotProtocol.Tunnel.Joint

/-! # A retransmit that gets through

One tick of a daemon that has no session with its peer sends a PILA and a PILK
frame. Whatever the peer holds, the first leaves it with the sender's current key,
and the second is refused with a PILA frame of its own; that frame completes the
exchange at the sender.
-/

namespace PilotProtocol.Tunnel

open Library KeyExchange Envelope
open Routing (UDPAddr)
open TunnelManager

namespace TunnelManager

/-! ## Writes that go out -/

def Lossless (t t' : TunnelManager) : Prop := t'.sent.length + t.writes = t.sent.length + t'.writes

theorem writeFrame_cases (W : World) (now : Nat) (t : TunnelManager) (peer : NodeID)
    (addr : Option UDPAddr) (frame : Bytes) :
    ∃ result t', t.writeFrame W now peer addr frame = (result, t') ∧ t'.writes = t.writes + 1 ∧
      ((∃ route, result = .ok route ∧ t'.sent = t.sent ++ [⟨peer, frame, route⟩]) ∨
        ∃ e, result = .error e ∧ t'.sent = t.sent) := by
  refine ⟨(t.writeFrame W now peer addr frame).1, (t.writeFrame W now peer addr frame).2, rfl, ?_, ?_⟩
  · unfold writeFrame
    simp only
    split <;> rfl
  · have hsent : (t.writeFrame W now peer addr frame).2.sent =
        (t.logSent peer frame (t.writeFrame W now peer addr frame).1).sent := by
      unfold writeFrame
      simp only
      split <;> rfl
    rw [hsent]
    cases (t.writeFrame W now peer addr frame).1 with
    | ok route => exact .inl ⟨route, rfl, rfl⟩
    | error e => exact .inr ⟨e, rfl, rfl⟩

section

variable {W : World} {now : Nat} {t : TunnelManager} {peer : NodeID} {authFrame unauthFrame : Bytes}

theorem kxSendKeyExchange_answers (hauth : t.kx.buildAuthFrame W.P = some authFrame)
    (hunauth : t.kx.buildUnauthFrame = some unauthFrame) (hhas : t.kx.env.has peer = true)
    (hout : Lossless t (t.kxSendKeyExchange W now peer).2) :
    ∃ route, (t.kxSendKeyExchange W now peer).2.sent = t.sent ++ [⟨peer, authFrame, route⟩] := by
  have htake : t.takeKeyRequest peer true = (false, t) := by simp [takeKeyRequest, hhas]
  obtain ⟨result, t₂, hwrite, hwrites, hcase⟩ :=
    writeFrame_cases W now t peer (t.peerAddr peer) authFrame
  simp only [kxSendKeyExchange, hunauth, hauth, Option.isSome_some, htake, Option.getD_some,
    hwrite] at hout ⊢
  obtain ⟨route, rfl, hsent⟩ | ⟨e, rfl, hsent⟩ := hcase
  · exact ⟨route, hsent⟩
  · unfold Lossless at hout
    simp only [hsent, hwrites] at hout
    omega

theorem kxSendKeyExchange_requests (hauth : t.kx.buildAuthFrame W.P = some authFrame)
    (hunauth : t.kx.buildUnauthFrame = some unauthFrame) (hhas : t.kx.env.has peer = false)
    (hrequest : (t.kx.rk.takeKeyRequest peer).1 = true)
    (hout : Lossless t (t.kxSendKeyExchange W now peer).2) :
    ∃ route route', (t.kxSendKeyExchange W now peer).2.sent =
      t.sent ++ [⟨peer, authFrame, route⟩, ⟨peer, unauthFrame, route'⟩] := by
  have htake : t.takeKeyRequest peer true =
      (true, t.withRekey (t.kx.rk.takeKeyRequest peer).2) := by
    simp [takeKeyRequest, hhas, hrequest]
  obtain ⟨result, t₂, hwrite, hwrites, hcase⟩ := writeFrame_cases W now
    (t.withRekey (t.kx.rk.takeKeyRequest peer).2) peer (t.peerAddr peer) authFrame
  obtain ⟨result', t₃, hwrite', hwrites', hcase'⟩ :=
    writeFrame_cases W now t₂ peer (t.peerAddr peer) unauthFrame
  simp only [kxSendKeyExchange, hunauth, hauth, Option.isSome_some, htake, Option.getD_some,
    hwrite] at hout ⊢
  have hstart : (t.withRekey (t.kx.rk.takeKeyRequest peer).2).sent = t.sent := rfl
  have hcount : (t.withRekey (t.kx.rk.takeKeyRequest peer).2).writes = t.writes := rfl
  rw [hstart] at hcase
  obtain ⟨route, rfl, hsent⟩ | ⟨e, rfl, hsent⟩ := hcase
  · simp only [if_true, hwrite'] at hout ⊢
    obtain ⟨route', rfl, hsent'⟩ | ⟨e, rfl, hsent'⟩ := hcase'
    · refine ⟨route, route', ?_⟩
      show t₃.sent = _
      rw [hsent', hsent, List.append_assoc]
      rfl
    · unfold Lossless at hout
      have hlost : t₃.sent.length + t.writes = t.sent.length + t₃.writes := hout
      rw [hsent', hsent, hwrites', hwrites, List.length_append, List.length_singleton] at hlost
      omega
  · unfold Lossless at hout
    simp only [hsent, hwrites] at hout
    omega

end

end TunnelManager

/-! ## Frames that are admitted -/

structure Delivery where
  now : Nat
  source : Option UDPAddr
  fromRelay : Bool

namespace TunnelManager

/-- Handles a key-exchange frame that the trust gate and the rate limits admit; no other
frame takes part in an exchange. -/
def receiveKx (W : World) (t : TunnelManager) (m : Bytes × Delivery) : TunnelManager :=
  match magicOf m.1 with
  | some .authEx => t.handleAuthFrame W m.2.now (m.1.drop 4) m.2.source m.2.fromRelay
  | some .keyEx => t.handleUnauthFrame W m.2.now (m.1.drop 4) m.2.source m.2.fromRelay
  | _ => t

theorem head_of_magicOf {frame : Bytes} {magic : Magic} (h : magicOf frame = some magic) :
    frame.head? = some 0x50 := by
  unfold magicOf at h
  cases frame with
  | nil => cases h
  | cons byte rest =>
    by_contra hbyte
    have hne : byte ≠ 0x50 := fun hb => hbyte (by rw [hb]; rfl)
    simp [tunnelMagicAuthEx, tunnelMagicKeyEx, tunnelMagicSecure, tunnelMagicPunch, tunnelMagic,
      hne] at h

/-- The read loop does the same with a direct frame once `passKx` has let it pass. -/
theorem readLoopOneIter_eq_receiveKx (W : World) (now : Nat) (t : TunnelManager) {frame : Bytes}
    (remote : Option UDPAddr) (hmagic : magicOf frame = some .authEx ∨ magicOf frame = some .keyEx)
    (hpass : (t.passKx W now (frame.drop 4) remote false).1 = true) :
    t.readLoopOneIter W now frame remote =
      (t.passKx W now (frame.drop 4) remote false).2.receiveKx W (frame, ⟨now, remote, false⟩) := by
  have hdirect : ∀ magic, magicOf frame = some magic →
      (frame.head?.any fun b => decide (b < 0x10)) = false := by
    intro magic h
    rw [head_of_magicOf h]
    decide
  obtain h | h := hmagic
  · simp [readLoopOneIter, receiveKx, hdirect _ h, h, handleAuthKeyExchange, hpass]
  · simp [readLoopOneIter, receiveKx, hdirect _ h, h, handleKeyExchange, hpass]

end TunnelManager

/-- The peer's session is ready and was derived from this X25519 key. -/
def Holds (c : Core) (peer : NodeID) (pub : Bytes) : Prop :=
  ∃ s, c.session peer = some s ∧ s.ready = true ∧ s.peerX25519Key = pub

theorem Holds.get {t : TunnelManager} {peer : NodeID} {pub : Bytes} (h : Holds t.core peer pub) :
    ∃ c, t.kx.env.get peer = some c ∧ c.ready = true ∧ c.peerX25519Key = pub := by
  obtain ⟨s, hs, hready, hx⟩ := h
  obtain ⟨c, hc, rfl⟩ := Option.map_eq_some_iff.mp hs
  exact ⟨c, hc, hready, hx⟩

namespace Party

/-- What a party writes: its own key-exchange frames, and encrypted frames. -/
def Own (p : Party) (pub frame : Bytes) : Prop :=
  frame = p.authFrame pub ∨ frame = p.unauthFrame pub ∨ magicOf frame = some .secure

end Party

section

variable {p q : Party} {t : TunnelManager}

theorem Sound.speaks (h : Sound p q t.core) {pub : Bytes} (hpub : t.kx.setup.pubKey = some pub) :
    Speaks p.W.P (p.Own pub) t.kx where
  auth _ hframe := Or.inl (Option.some.inj (hframe.symm.trans (h.buildAuthFrame hpub)))
  unauth _ hframe := Or.inr (Or.inl (Option.some.inj (hframe.symm.trans (h.buildUnauthFrame hpub))))
  sealed _ hframe := Or.inr (Or.inr hframe)

theorem Sound.receiveKx (h : Sound p q t.core) (hpq : Resolves p q) (m : Bytes × Delivery) :
    Sound p q (t.receiveKx p.W m).core ∧ (t.receiveKx p.W m).kx.setup = t.kx.setup := by
  unfold TunnelManager.receiveKx
  split
  · have hcore := handleAuthFrame_core p.W m.2.now t (m.1.drop 4) m.2.source m.2.fromRelay
    have hadmits := Manager.admitAuth_admits p.W.P p.W.registry p.W.entropy m.2.now t.kx (m.1.drop 4)
    exact ⟨hcore ▸ h.admits hpq hadmits, (congrArg Core.setup hcore).trans hadmits.same.2.1⟩
  · have hcore := handleUnauthFrame_core p.W m.2.now t (m.1.drop 4) m.2.source
      m.2.fromRelay
    have hadmits :=
      Manager.admitUnauth_admits p.W.P p.W.registry p.W.entropy m.2.now t.kx (m.1.drop 4)
    exact ⟨hcore ▸ h.admits hpq hadmits, (congrArg Core.setup hcore).trans hadmits.same.2.1⟩
  · exact ⟨h, rfl⟩

variable (h : Sound p q t.core) (hpq : Resolves p q) (hP : Correct p.W.P) {x priv : Bytes}
  (hx : p.W.P.x25519Public priv = x)

include h hpq hP hx

theorem Sound.receive_authFrame (via : Delivery) :
    Holds (t.receiveKx p.W (q.authFrame x, via)).core q.node x := by
  subst hx
  have hprimitives := hpq.primitives
  have hQ : Correct q.W.P := hprimitives ▸ hP
  have hparse := q.parseAuth_authFrame hQ (hP.x25519_length priv)
  obtain ⟨own, hpriv, _⟩ := h.configured.keys
  have hverifyFunc : t.kx.setup.verifyFunc = true := h.configured.verifyFunc
  have hkey := PubKeyCache.verifiedKey_ok via.now hpq.registry h.known h.noRefusal
  rw [← hverifyFunc] at hkey
  have hready : ∀ c, t.kx.env.get q.node = some c → c.ready = true := fun c hc =>
    h.ready (TunnelManager.forgetSends c) (session_of_get hc)
  have hverify : p.W.P.verify q.ed25519 (authChallenge q.node (p.W.P.x25519Public priv))
      (q.W.P.sign q.identity (authChallenge q.node (p.W.P.x25519Public priv))) = true := by
    rw [Party.ed25519, hprimitives]
    exact hP.verify_sign q.identity _
  obtain ⟨c, hget, hc, hx⟩ := Manager.admitAuth_installs p.W.entropy hparse hpriv hkey hverify
    (hP.ecdh_public own priv) hpq.entropy hready
  simp only [TunnelManager.receiveKx, q.magicOf_authFrame]
  rw [handleAuthFrame_core]
  exact ⟨_, session_of_get hget, hc, hx⟩

theorem Sound.receive_unauthFrame (via : Delivery) :
    ∃ kx, kx.env = t.kx.env ∧ kx.setup = t.kx.setup ∧ t.receiveKx p.W (q.unauthFrame x, via) =
        ({ t with kx }.kxSendKeyExchange p.W via.now q.node).2 := by
  subst hx
  have hparse := q.parseUnauth_unauthFrame (hP.x25519_length priv)
  obtain ⟨own, hpriv, _⟩ := h.configured.keys
  have hprivKey : t.kx.setup.privKey.isSome = true := by
    rw [show t.kx.setup.privKey = some own from hpriv]
    rfl
  have hid : t.kx.setup.identity.isSome = true := by
    rw [show t.kx.setup.identity = some p.identity from h.configured.identity]
    rfl
  have hverifyFunc : t.kx.setup.verifyFunc = true := h.configured.verifyFunc
  have hkey := PubKeyCache.getPeerPubKey_ok via.now hpq.registry h.known h.noRefusal
  rw [← hverifyFunc] at hkey
  have hrefuses := Manager.admitUnauth_refuses p.W.P p.W.entropy hparse hprivKey hid hkey
  refine ⟨{ t.kx with pubKeys :=
    (t.kx.pubKeys.getPeerPubKey p.W.registry t.kx.setup.verifyFunc via.now q.node).2 }, rfl, rfl, ?_⟩
  simp only [TunnelManager.receiveKx, q.magicOf_unauthFrame, TunnelManager.handleUnauthFrame, hrefuses]

theorem Sound.receiveKx_footprint {pub : Bytes} (hpub : t.kx.setup.pubKey = some pub)
    {m : Bytes × Delivery} (hm : m.1 = q.authFrame x ∨ m.1 = q.unauthFrame x) :
    Footprint (p.Own pub) q.node t (t.receiveKx p.W m) := by
  subst hx
  have hQ : Correct q.W.P := hpq.primitives ▸ hP
  have hlength := hP.x25519_length priv
  obtain hm | hm := hm
  · simp only [TunnelManager.receiveKx, hm, q.magicOf_authFrame]
    refine handleAuthFrame_footprint t _ _ (h.speaks hpub) fun f hf => ?_
    rw [q.parseAuth_authFrame hQ hlength, Option.some.injEq] at hf
    rw [← hf]
  · simp only [TunnelManager.receiveKx, hm, q.magicOf_unauthFrame]
    refine handleUnauthFrame_footprint t _ _ (h.speaks hpub) fun f hf => ?_
    rw [q.parseUnauth_unauthFrame hlength, Option.some.injEq] at hf
    rw [← hf]

/-- `p` handles the PILA and the PILK frame of `q`: it ends with a session for the key they
carry, and the last frame that it writes is its own PILA. -/
theorem Sound.answers {pub : Bytes} (hpub : t.kx.setup.pubKey = some pub) {via via' : Delivery}
    {t₁ t₂ : TunnelManager} (ht₁ : t.receiveKx p.W (q.authFrame x, via) = t₁)
    (ht₂ : t₁.receiveKx p.W (q.unauthFrame x, via') = t₂) (hout : TunnelManager.Lossless t₁ t₂) :
    Holds t₂.core q.node x ∧ ∃ route, t₂.sent = t₁.sent ++ [⟨q.node, p.authFrame pub, route⟩] := by
  obtain ⟨hsound, hsetup⟩ := h.receiveKx hpq (q.authFrame x, via)
  have hholds := h.receive_authFrame hpq hP hx via
  rw [ht₁] at hsound hsetup hholds
  obtain ⟨kx, henv, hkx, hrefused⟩ := hsound.receive_unauthFrame hpq hP hx via'
  rw [← ht₂, hrefused] at hout ⊢
  have hsession : { t₁ with kx }.core.session = t₁.core.session := by
    funext peer
    exact congrArg (fun s : Store => (s.get peer).map TunnelManager.forgetSends) henv
  have hnode : kx.env.localNodeID = t₁.kx.env.localNodeID := congrArg Store.localNodeID henv
  have hpub₁ : t₁.kx.setup.pubKey = some pub := (congrArg Setup.pubKey hsetup).trans hpub
  obtain ⟨s, hs, hready, hx⟩ := hholds
  have hhas : kx.env.has q.node = true := by
    obtain ⟨c, hc, _⟩ := Option.map_eq_some_iff.mp hs
    rw [Store.has, henv, show t₁.kx.env.get q.node = some c from hc]
    rfl
  refine ⟨⟨s, ?_, hready, hx⟩, ?_⟩
  · rwa [kxSendKeyExchange_core, hsession]
  · exact kxSendKeyExchange_answers (t := { t₁ with kx })
      ((buildAuthFrame_congr p.W.P hkx hnode).trans (hsound.buildAuthFrame hpub₁))
      ((buildUnauthFrame_congr hkx hnode).trans (hsound.buildUnauthFrame hpub₁)) hhas hout

theorem Sound.completes {replies : List (Bytes × Delivery)} (hown : ∀ m ∈ replies, q.Own x m.1)
    (hmem : q.authFrame x ∈ replies.map Prod.fst ∨ Holds t.core q.node x) :
    Holds (replies.foldl (TunnelManager.receiveKx p.W) t).core q.node x := by
  induction replies generalizing t with
  | nil =>
    obtain hmem | hholds := hmem
    · cases hmem
    · exact hholds
  | cons m rest ih =>
    refine ih (h.receiveKx hpq m).1 (fun m' hm' => hown m' (List.mem_cons_of_mem m hm')) ?_
    obtain ⟨frame, via⟩ := m
    obtain hframe | hframe | hframe := hown (frame, via) (.head _)
    · obtain rfl : frame = _ := hframe
      exact .inr (h.receive_authFrame hpq hP hx via)
    · obtain rfl : frame = _ := hframe
      refine hmem.imp (fun hmem => ?_) fun hholds => ?_
      · obtain hsame | hmem := List.mem_cons.mp hmem
        · have hmagic := congrArg magicOf hsame
          simp [q.magicOf_authFrame, q.magicOf_unauthFrame] at hmagic
        · exact hmem
      · obtain ⟨kx, henv, _, hrefused⟩ := h.receive_unauthFrame hpq hP hx via
        obtain ⟨s, hs, hready, hx⟩ := hholds
        refine ⟨s, ?_, hready, hx⟩
        rw [hrefused, kxSendKeyExchange_core]
        exact (congrArg (fun s : Store => (s.get q.node).map TunnelManager.forgetSends) henv).trans hs
    · have hskip : t.receiveKx p.W (frame, via) = t := by
        simp only [TunnelManager.receiveKx, hframe]
      rw [hskip]
      refine hmem.imp (fun hmem => ?_) id
      obtain hsame | hmem := List.mem_cons.mp hmem
      · simp [← show q.authFrame x = frame from hsame, q.magicOf_authFrame] at hframe
      · exact hmem

end

/-! ## The exchange -/

/-- The frames written to `peer` between the two states. -/
def writtenTo (peer : NodeID) (t t' : TunnelManager) : List Bytes :=
  ((newEntries t.sent t'.sent).filter fun s => decide (s.peer = peer)).map (·.frame)

theorem Daemon.rekeyRetransmitTick_single (W : World) {d : Daemon} {peer : NodeID} {now : Nat}
    {st : PendingRekeyState} (h : WaitsOnly peer d)
    (hst : d.tunnels.kx.rk.pendingRekey.lookup peer = some st)
    (hleft : st.attempts ≤ maxRekeyAttempts) (hdue : rekeyRetransmitInterval ≤ now - st.lastSentAt) :
    ∃ t : TunnelManager,
      (d.rekeyRetransmitTick W now).tunnels = (t.kxSendKeyExchange W now peer).2 ∧
      t.kx.env = d.tunnels.kx.env ∧ t.kx.setup = d.tunnels.kx.setup ∧
      t.kx.rk.pendingRekey = d.tunnels.kx.rk.pendingRekey ∧ t.sent = d.tunnels.sent ∧
      t.writes = d.tunnels.writes := by
  have hforced : ∀ (t : TunnelManager) attempt, (t.maybeForceRelayOnRekey peer attempt).kx = t.kx ∧
      (t.maybeForceRelayOnRekey peer attempt).sent = t.sent ∧
      (t.maybeForceRelayOnRekey peer attempt).writes = t.writes := by
    intro t attempt
    unfold TunnelManager.maybeForceRelayOnRekey
    split
    · exact ⟨rfl, rfl, rfl⟩
    · split <;> exact ⟨rfl, rfl, rfl⟩
  have htick := rekeyRetransmitTick_tunnels W now d
  rw [RekeyTable.scanPending_single hst h hleft hdue] at htick
  obtain ⟨hkx, hsent, hwrites⟩ := hforced (d.tunnels.withRekey { d.tunnels.kx.rk with
    rekeyGaveUp := d.tunnels.kx.rk.rekeyGaveUp.keep
      (fun _ at_ => decide (now - at_ < rekeyGaveUpCooldown)) }) (st.attempts + 1)
  exact ⟨_, htick, by rw [hkx]; rfl, by rw [hkx]; rfl, by rw [hkx]; rfl, hsent, hwrites⟩

theorem Fit.tick_writes {p q : Party} {d : Daemon} (h : Fit p q d) {now : Nat}
    {st : PendingRekeyState} {pub : Bytes} (hpub : d.tunnels.kx.setup.pubKey = some pub)
    (hnone : d.tunnels.kx.env.get q.node = none)
    (hst : d.tunnels.kx.rk.pendingRekey.lookup q.node = some st) (hfirst : 1 ≤ st.attempts)
    (hleft : st.attempts ≤ maxRekeyAttempts) (hdue : rekeyRetransmitInterval ≤ now - st.lastSentAt)
    (hout : TunnelManager.Lossless d.tunnels (d.rekeyRetransmitTick p.W now).tunnels) :
    writtenTo q.node d.tunnels (d.rekeyRetransmitTick p.W now).tunnels =
      [p.authFrame pub, p.unauthFrame pub] := by
  obtain ⟨t, htick, henv, hsetup, hpending, hsent, hwrites⟩ :=
    Daemon.rekeyRetransmitTick_single p.W h.waits hst hleft hdue
  have hnode : t.kx.env.localNodeID = d.tunnels.kx.env.localNodeID := congrArg Store.localNodeID henv
  have hauth := (buildAuthFrame_congr p.W.P hsetup hnode).trans (h.sound.buildAuthFrame hpub)
  have hunauth := (buildUnauthFrame_congr hsetup hnode).trans (h.sound.buildUnauthFrame hpub)
  have hhas : t.kx.env.has q.node = false := by
    rw [henv]
    exact congrArg Option.isSome hnone
  have hrequest : (t.kx.rk.takeKeyRequest q.node).1 = true := by
    unfold RekeyTable.takeKeyRequest
    split
    · rfl
    · simp only [hpending, hst, Option.any_some, decide_eq_true_eq]
      exact hfirst
  rw [htick] at hout ⊢
  have hout' : TunnelManager.Lossless t (t.kxSendKeyExchange p.W now q.node).2 := by
    unfold TunnelManager.Lossless at hout ⊢
    rwa [hsent, hwrites]
  obtain ⟨route, route', hwritten⟩ := kxSendKeyExchange_requests hauth hunauth hhas hrequest hout'
  rw [writtenTo, hwritten, hsent, newEntries_append]
  simp

/-- From every state that two daemons reach together: if a due retransmit tick of `A`, which
has no session with `B`, writes its frames, `B` handles them in order and its answer to the
PILK frame goes out, then once `A` has handled what `B` wrote, in any order and any number
of times, both hold a ready session for the other's current X25519 key. -/
theorem exchange_completes (A B : Party) (hP : Correct A.W.P) (hAB : Resolves A B)
    (hBA : Resolves B A) (setupA setupB : Setup) (beaconA beaconB : Option UDPAddr)
    (hsetupA : Configured A setupA) (hsetupB : Configured B setupB) (acts : List Act)
    (hacts : ∀ act ∈ acts, act.Allowed A B) (j : Joint)
    (hj : j = (Joint.start A B setupA setupB beaconA beaconB).run A B acts)
    (now : Nat) (st : PendingRekeyState) (hnone : j.a.tunnels.kx.env.get B.node = none)
    (hst : j.a.tunnels.kx.rk.pendingRekey.lookup B.node = some st)
    (hattempts : 1 ≤ st.attempts ∧ st.attempts ≤ maxRekeyAttempts)
    (hdue : rekeyRetransmitInterval ≤ now - st.lastSentAt) (a : TunnelManager)
    (ha : a = (j.a.rekeyRetransmitTick A.W now).tunnels)
    (houtA : TunnelManager.Lossless j.a.tunnels a) (arrivals : List (Bytes × Delivery))
    (harrivals : arrivals.map Prod.fst = writtenTo B.node j.a.tunnels a) (b : TunnelManager)
    (hb : b = arrivals.foldl (TunnelManager.receiveKx B.W) j.b.tunnels)
    (houtB : AllSteps (TunnelManager.receiveKx B.W) (fun t m => magicOf m.1 = some .keyEx →
      TunnelManager.Lossless t (t.receiveKx B.W m)) j.b.tunnels arrivals)
    (replies : List (Bytes × Delivery))
    (hreplies : ∀ frame, frame ∈ replies.map Prod.fst ↔ frame ∈ writtenTo A.node j.b.tunnels b) :
    (∃ c, (replies.foldl (TunnelManager.receiveKx A.W) a).kx.env.get B.node = some c ∧
      c.ready = true ∧ j.b.tunnels.kx.setup.pubKey = some c.peerX25519Key) ∧
    ∃ c, b.kx.env.get A.node = some c ∧ c.ready = true ∧
      j.a.tunnels.kx.setup.pubKey = some c.peerX25519Key := by
  obtain ⟨hfitA, hfitB⟩ : Fit A B j.a ∧ Fit B A j.b := by
    rw [hj]
    exact Joint.fit_run hAB hBA ⟨fit_start B hsetupA beaconA, fit_start A hsetupB beaconB⟩ hacts
  obtain ⟨privA, _, hpubA⟩ := hfitA.sound.configured.keys
  obtain ⟨privB, _, hpubB⟩ := hfitB.sound.configured.keys
  have hPB : Correct B.W.P := hAB.primitives ▸ hP
  have hkeyA : B.W.P.x25519Public privA = A.W.P.x25519Public privA := by rw [hAB.primitives]
  have hkeyB : A.W.P.x25519Public privB = B.W.P.x25519Public privB := by rw [hAB.primitives]
  -- what the tick writes is what `B` receives
  rw [ha] at houtA harrivals
  rw [hfitA.tick_writes hpubA hnone hst hattempts.1 hattempts.2 hdue houtA] at harrivals
  obtain ⟨⟨frame, via⟩, rest, rfl, rfl, hrest⟩ := List.map_eq_cons_iff.mp harrivals
  obtain ⟨⟨frame', via'⟩, rest', rfl, rfl, hrest'⟩ := List.map_eq_cons_iff.mp hrest
  obtain rfl := List.map_eq_nil_iff.mp hrest'
  rw [List.foldl_cons, List.foldl_cons, List.foldl_nil] at hb
  obtain ⟨hholdsB, route, hlast⟩ := hfitB.sound.answers hBA hPB hkeyA hpubB rfl hb.symm
    (hb ▸ houtB.2.1 (A.magicOf_unauthFrame _))
  -- what `B` writes is its own, and its PILA is among it
  obtain ⟨added, hadded, hown⟩ := (hfitB.sound.receiveKx_footprint hBA hPB hkeyA hpubB
    (m := (A.authFrame _, via)) (Or.inl rfl)).sends
  rw [hadded, List.append_assoc] at hlast
  have hall : ∀ s ∈ added ++ [⟨A.node, B.authFrame (B.W.P.x25519Public privB), route⟩],
      s.peer = A.node ∧ B.Own (B.W.P.x25519Public privB) s.frame := by
    intro s hs
    obtain hs | hs := List.mem_append.mp hs
    · exact hown s hs
    · rw [List.mem_singleton.mp hs]
      exact ⟨rfl, Or.inl rfl⟩
  have hwritten : writtenTo A.node j.b.tunnels b =
      (added ++ [(⟨A.node, B.authFrame (B.W.P.x25519Public privB), route⟩ : Sent)]).map Sent.frame := by
    rw [writtenTo, hlast, newEntries_append, List.filter_eq_self.mpr]
    exact fun s hs => decide_eq_true (hall s hs).1
  have hsoundA : Sound A B a.core := by
    rw [ha, Daemon.rekeyRetransmitTick_core]
    exact hfitA.sound
  have hreplied : ∀ m ∈ replies, B.Own (B.W.P.x25519Public privB) m.1 := by
    intro m hm
    have hframe := (hreplies m.1).mp (List.mem_map_of_mem hm)
    rw [hwritten] at hframe
    obtain ⟨s, hs, hsame⟩ := List.mem_map.mp hframe
    rw [← hsame]
    exact (hall s hs).2
  have hpila : B.authFrame (B.W.P.x25519Public privB) ∈ replies.map Prod.fst := by
    rw [hreplies, hwritten]
    simp
  have hholdsA := hsoundA.completes hAB hP hkeyB hreplied (Or.inl hpila)
  obtain ⟨c, hget, hready, hx⟩ := hholdsA.get
  obtain ⟨c', hget', hready', hx'⟩ := hholdsB.get
  refine ⟨⟨c, hget, hready, ?_⟩, c', hget', hready', ?_⟩
  · rwa [hx]
  · rwa [hx']

/-! ## A lost first frame -/

/-- Toy cryptography in which keys and signatures have their fixed lengths. -/
def paddedPrimitives : Primitives :=
  { toyPrimitives with
    x25519Public := fun priv => (priv ++ List.replicate 32 0).take 32
    ed25519Public := fun identity => (identity ++ List.replicate 32 0).take 32
    sign := fun identity message => (message ++ List.replicate 64 (identity.headD 0)).take 64
    verify := fun pub message signature =>
      signature == (message ++ List.replicate 64 (pub.headD 0)).take 64 }

theorem paddedPrimitives_correct : Correct paddedPrimitives where
  x25519_length priv := by simp [paddedPrimitives]
  ed25519_length identity := by simp [paddedPrimitives]
  sign_length identity message := by simp [paddedPrimitives]
  verify_sign identity message := by
    cases identity <;> simp [paddedPrimitives]
  ecdh_public priv priv' := rfl

def paddedParty (n : UInt8) : Party where
  W := { toyWorld with P := paddedPrimitives }
  node := UInt32.ofNat n.toNat
  identity := List.replicate 32 n

def paddedSetup (n : UInt8) : Setup :=
  { toySetup with
    identity := some (List.replicate 32 n)
    privKey := some (List.replicate 32 n)
    pubKey := some (List.replicate 32 n) }

/-- Node 1 has started a key exchange with node 7, which heard nothing of it. -/
def unheard : Joint :=
  (Joint.start (paddedParty 1) (paddedParty 7) (paddedSetup 1) (paddedSetup 7) none none).run
    (paddedParty 1) (paddedParty 7) [.input .a ⟨second, .addPeer 7 ⟨9, 9⟩⟩]

def unheardArrivals : List (Bytes × Delivery) :=
  [((paddedParty 1).authFrame (List.replicate 32 1), ⟨6 * second, some ⟨1, 1⟩, false⟩),
   ((paddedParty 1).unauthFrame (List.replicate 32 1), ⟨6 * second, some ⟨1, 1⟩, false⟩)]

def unheardReplies : List (Bytes × Delivery) :=
  [((paddedParty 7).authFrame (List.replicate 32 7), ⟨7 * second, some ⟨9, 9⟩, false⟩)]

theorem unheard_completes : (∃ c, (unheardReplies.foldl (TunnelManager.receiveKx (paddedParty 1).W)
        (unheard.a.rekeyRetransmitTick (paddedParty 1).W (6 * second)).tunnels).kx.env.get 7 = some c ∧
      c.ready = true ∧ some (List.replicate 32 7) = some c.peerX25519Key) ∧
    ∃ c, (unheardArrivals.foldl (TunnelManager.receiveKx (paddedParty 7).W)
        unheard.b.tunnels).kx.env.get 1 = some c ∧ c.ready = true ∧
      some (List.replicate 32 1) = some c.peerX25519Key := by
  have hresolves : Resolves (paddedParty 1) (paddedParty 7) ∧
      Resolves (paddedParty 7) (paddedParty 1) :=
    ⟨⟨rfl, fun _ => rfl, fun _ => rfl⟩, ⟨rfl, fun _ => rfl, fun _ => rfl⟩⟩
  have hconfigured : Configured (paddedParty 1) (paddedSetup 1) ∧
      Configured (paddedParty 7) (paddedSetup 7) :=
    ⟨⟨rfl, rfl, List.replicate 32 1, rfl, by decide⟩, ⟨rfl, rfl, List.replicate 32 7, rfl, by decide⟩⟩
  have hwritten : writtenTo 1 unheard.b.tunnels (unheardArrivals.foldl
      (TunnelManager.receiveKx (paddedParty 7).W) unheard.b.tunnels) =
      [(paddedParty 7).authFrame (List.replicate 32 7),
        (paddedParty 7).authFrame (List.replicate 32 7)] := by
    decide +kernel
  exact exchange_completes (paddedParty 1) (paddedParty 7) paddedPrimitives_correct hresolves.1
    hresolves.2 (paddedSetup 1) (paddedSetup 7) none none hconfigured.1 hconfigured.2 _
    (by simp [Act.Allowed, Daemon.Op.concerns]; rfl) unheard rfl (6 * second) ⟨second, second, 1⟩
    (Option.isNone_iff_eq_none.mp (by decide +kernel)) (by decide +kernel) (by decide) (by decide) _
    rfl (by unfold TunnelManager.Lossless; decide +kernel) unheardArrivals (by decide +kernel) _ rfl
    ⟨fun h => absurd h (by decide), fun _ => by unfold TunnelManager.Lossless; decide +kernel, trivial⟩
    unheardReplies (fun frame => by
      rw [show writtenTo (paddedParty 1).node unheard.b.tunnels _ = _ from hwritten]
      simp [unheardReplies])

end PilotProtocol.Tunnel
