import PilotProtocol.Tunnel.Effect

/-! # A pinned peer stays on the relay

While a peer is on the relay with its flag pinned, and a beacon is known, nothing
that the node receives, sends or retransmits takes it off the relay, and every
frame written to it goes to the beacon. `Shields` states this of one call; only
path resets, removals and explicit unpins are outside it.
-/

namespace PilotProtocol.Routing

open Library KeyExchange

namespace Manager

/-- `p` is on the relay and pinned there, with a beacon to relay through. -/
structure Pinned (p : NodeID) (m : Manager) : Prop where
  relay : m.isRelayPeer p = true
  pin : m.isRelayPinned p = true
  beacon : m.beaconAddr.isSome = true

section

variable {p : NodeID} {m : Manager}

theorem setRelayPeerPinned_pinned (hbeacon : m.beaconAddr.isSome = true) :
    (m.setRelayPeerPinned p true).Pinned p := by
  refine ⟨?_, ?_, hbeacon⟩
  · show ((m.relayPeers.insert p true).lookup p).getD false = true
    rw [AList.lookup_insert]
    rfl
  · show ((m.relayPinned.insert p true).lookup p).getD false = true
    rw [AList.lookup_insert]
    rfl

variable {q : NodeID} {route : Route} {result : SendResult}

theorem Pinned.call (h : m.Pinned p) {c : Call} (hc : c.forgets = true → p ≠ c.node) :
    (m.call c).Pinned p := by
  obtain ⟨hrelay, hpin, hbeacon⟩ := h
  have hbeacon := (m.called c).beacon ▸ hbeacon
  by_cases hne : p = c.node
  · unfold isRelayPeer isRelayPinned at *
    cases (m.called c).relays with
    | same hpeers hpins =>
      exact ⟨by rwa [isRelayPeer, hpeers], by rwa [isRelayPinned, hpins], hbeacon⟩
    | on hpeers hpins =>
      refine ⟨by rw [isRelayPeer, hpeers, hne, AList.lookup_insert]; rfl, ?_, hbeacon⟩
      rcases hpins with hpins | hpins
      · rwa [isRelayPinned, hpins]
      · rw [isRelayPinned, hpins, hne, AList.lookup_insert]
        rfl
    | off hpeers hpins hfree =>
      rcases hfree with hforgets | hnot
      · exact absurd hne (hc hforgets)
      · rw [isRelayPinned, ← hne, hpin] at hnot
        cases hnot
    | gone hpeers hpins hforgets => exact absurd hne (hc hforgets)
  · obtain ⟨hpeers, hpins⟩ := call_relay_ne (m := m) hne
    exact ⟨by rwa [isRelayPeer, hpeers], by rwa [isRelayPinned, hpins], hbeacon⟩

theorem Pinned.maybeFlipBlackhole (h : m.Pinned p) (q : NodeID) (now : Nat) :
    (m.maybeFlipBlackhole q now).2.Pinned p := by
  rw [maybeFlipBlackhole_eq]
  split
  · exact h
  · exact h.call (c := .flipBlackhole q) nofun

theorem Pinned.writeTo (h : m.Pinned p) (q : NodeID) (route : Route) (now : Nat)
    (result : SendResult) : (m.writeTo q route now result).2.Pinned p := by
  unfold Manager.writeTo
  split
  · exact h
  · split
    · exact h.call (c := .recordOutboundSend q now) nofun
    · exact h.call (c := .handleSendError q result) nofun

theorem Pinned.writeFrame (h : m.Pinned p) (q : NodeID) (addr : Option UDPAddr) (now : Nat)
    (result : SendResult) : (m.writeFrame q addr now result).2.Pinned p := by
  have hflip := h.maybeFlipBlackhole q now
  unfold Manager.writeFrame
  simp only
  split
  · exact hflip.writeTo q _ now result
  · exact hflip.writeTo q _ now result
  · exact hflip

theorem writeTo_route {m' : Manager} {route' : Route} {now : Nat}
    (h : m.writeTo q route now result = (.ok route', m')) : route' = route := by
  unfold writeTo at h
  repeat' split at h
  all_goals cases h
  rfl

theorem Pinned.writeFrame_relayed (h : m.Pinned p) {addr : Option UDPAddr} {now : Nat}
    {m' : Manager} (hwrite : m.writeFrame p addr now result = (.ok route, m')) :
    route.relayed = true := by
  have hflip : m.maybeFlipBlackhole p now = (true, m) := by
    rw [Manager.maybeFlipBlackhole, if_pos h.relay]
  obtain ⟨beacon, hbeacon⟩ := Option.isSome_iff_exists.mp h.beacon
  unfold Manager.writeFrame at hwrite
  rw [hflip] at hwrite
  simp only [hbeacon, Bool.true_or] at hwrite
  rw [writeTo_route hwrite]

theorem sendRelayFrame_relayed (h : m.sendRelayFrame result = .ok route) :
    route.relayed = true := by
  unfold sendRelayFrame at h
  repeat' split at h
  all_goals cases h
  rfl

end

end Manager

end PilotProtocol.Routing

namespace PilotProtocol.Tunnel

open Library KeyExchange Envelope
open Routing (UDPAddr WriteErr Route)

/-- From `t` to `t'` a pinned `p` stays pinned and in the peer table, and is written to
through the beacon only. -/
structure Shields (p : NodeID) (t t' : TunnelManager) : Prop where
  pinned : t.routing.Pinned p → t'.routing.Pinned p
  known : (t.peerAddr p).isSome = true → (t'.peerAddr p).isSome = true
  sends : t.routing.Pinned p → Appends (fun s => s.peer = p → s.route.relayed = true) t.sent t'.sent

namespace Shields

variable {p : NodeID} {t t' t'' : TunnelManager}

theorem of_silent (hpinned : t.routing.Pinned p → t'.routing.Pinned p)
    (hknown : (t.peerAddr p).isSome = true → (t'.peerAddr p).isSome = true)
    (hsent : t'.sent = t.sent) : Shields p t t' :=
  ⟨hpinned, hknown, fun _ => .of_eq hsent⟩

theorem of_eq (hrouting : t'.routing = t.routing) (hpeers : t'.peers = t.peers)
    (hsent : t'.sent = t.sent) : Shields p t t' := by
  refine of_silent ?_ ?_ hsent
  · rw [hrouting]
    exact id
  · rw [TunnelManager.peerAddr, TunnelManager.peerAddr, hpeers]
    exact id

theorem refl (p : NodeID) (t : TunnelManager) : Shields p t t := of_eq rfl rfl rfl

theorem trans (h : Shields p t t') (h' : Shields p t' t'') : Shields p t t'' :=
  ⟨fun hp => h'.pinned (h.pinned hp), fun hk => h'.known (h.known hk),
    fun hp => (h.sends hp).trans (h'.sends (h.pinned hp))⟩

end Shields

variable {p : NodeID} {t t' : TunnelManager}

theorem known_insert {peers : GoMap NodeID UDPAddr} (q : NodeID) (addr : UDPAddr)
    (h : (peers.lookup p).isSome = true) : ((peers.insert q addr).lookup p).isSome = true := by
  rw [GoMap.lookup_insert_ite]
  split
  · rfl
  · exact h

namespace TunnelManager

section

variable (W : World) (now : Nat) {p : NodeID}

/-! ## Writing -/

variable (t : TunnelManager) (q : NodeID)

theorem logSent_shields (frame : Bytes) (result : Except WriteErr Route)
    (hrelayed : t.routing.Pinned p → q = p → ∀ route, result = .ok route → route.relayed = true) :
    Shields p t (t.logSent q frame result) :=
  ⟨id, id, fun hp => logSent_appends t fun route hroute hq => hrelayed hp hq route hroute⟩

theorem writeFrame_shields (addr : Option UDPAddr) (frame : Bytes) :
    Shields p t (t.writeFrame W now q addr frame).2 := by
  have hlogged : Shields p t
      (t.logSent q frame (t.routing.writeFrame q addr now (W.net t.writes)).1) := by
    refine logSent_shields t q frame _ ?_
    rintro hp rfl route hroute
    exact hp.writeFrame_relayed (Prod.ext hroute rfl)
  have hrouted : Shields p t { t.logSent q frame
      (t.routing.writeFrame q addr now (W.net t.writes)).1 with
        routing := (t.routing.writeFrame q addr now (W.net t.writes)).2 } :=
    { hlogged with pinned := fun hp => hp.writeFrame q addr now _ }
  unfold writeFrame
  simp only
  split
  · exact hrouted.trans (.of_eq rfl rfl rfl)
  · exact hrouted

end

end TunnelManager

/-! ## Moves -/

def Scope.keeping (p : NodeID) : Scope :=
  ⟨fun _ => True, fun _ => True, (p ≠ ·), True, True, fun _ _ => trivial⟩

theorem Move.shields {W : World} {now : Nat} (h : Move W now (.keeping p) t t') :
    Shields p t t' := by
  cases h with
  | write q addr frame hq hframe => exact TunnelManager.writeFrame_shields W now t q addr frame
  | relay q frame hq hframe =>
    exact TunnelManager.logSent_shields t q frame _ fun _ _ _ hroute =>
      Routing.Manager.sendRelayFrame_relayed hroute
  | route c hat hscope =>
    refine .of_silent (fun hp => hp.call fun hforgets => ?_) id rfl
    rwa [if_pos hforgets] at hscope
  | learn q addr hq => exact .of_silent id (known_insert q addr) rfl
  | removePeer q hsessions hq =>
    refine .of_silent (fun hp => hp.call (c := .removePeer q) fun _ => hq) (fun hk => ?_) rfl
    show ((t.peers.erase q).lookup p).isSome = true
    rwa [AList.lookup_erase_ne hq]
  | _ => exact .of_eq rfl rfl rfl

theorem Moves.shields {W : World} {now : Nat} (h : Moves W now (.keeping p) t t') :
    Shields p t t' := by
  induction h with
  | refl => exact .refl p t
  | tail _ hmove ih => exact ih.trans hmove.shields

theorem TunnelManager.addPeer_known (W : World) (now : Nat) (t : TunnelManager) (q : NodeID)
    (addr : UDPAddr) :
    ((t.addPeer W now q addr).peerAddr q).isSome = true := by
  have hadded : ((t.peers.insert q addr).lookup q).isSome = true := by
    rw [AList.lookup_insert]
    rfl
  unfold addPeer
  simp only
  split
  · exact (startKeyExchange_moves _ trivial).shields.known hadded
  · exact hadded

/-- From `t` to `t'` peer `p` was put on the relay before anything was written to it. -/
structure Secures (p : NodeID) (t t' : TunnelManager) : Prop where
  pinned : t'.routing.Pinned p
  known : (t'.peerAddr p).isSome = true
  sends : Appends (fun s => s.peer = p → s.route.relayed = true) t.sent t'.sent

theorem Shields.secures (h : Shields p t t') (hpinned : t.routing.Pinned p)
    (hknown : (t.peerAddr p).isSome = true) : Secures p t t' :=
  ⟨h.pinned hpinned, h.known hknown, h.sends hpinned⟩

theorem Secures.trans {t'' : TunnelManager} (h : Secures p t t') (h' : Shields p t' t'') :
    Secures p t t'' :=
  ⟨h'.pinned h.pinned, h'.known h.known, h.sends.trans (h'.sends h.pinned)⟩

namespace Daemon

section

variable (W : World) (now : Nat) {p : NodeID}

variable {r : Resolved} (d : Daemon) (q : NodeID)

theorem connect_secures {d : Daemon} (hbeacon : d.tunnels.routing.beaconAddr.isSome = true)
    (hrelay : r.relayOnly = true) (haddr : r.addr.isSome = true) :
    Secures p d.tunnels (d.connect W now p r).2.tunnels := by
  obtain ⟨addr, haddr⟩ := Option.isSome_iff_exists.mp haddr
  have hpinned := Routing.Manager.setRelayPeerPinned_pinned (p := p) hbeacon
  have hadded (t : TunnelManager) : Shields p t (t.addPeer W now p addr) :=
    (TunnelManager.addPeer_moves t trivial addr).shields
  unfold connect
  rw [haddr, hrelay]
  exact ⟨(hadded _).pinned hpinned, TunnelManager.addPeer_known W now _ p addr,
    (hadded _).sends hpinned⟩

theorem forgetPath_facts (t : TunnelManager) (q : NodeID) :
    (forgetPath t q).sent = t.sent ∧ (forgetPath t q).routing.beaconAddr = t.routing.beaconAddr ∧
      (forgetPath t q).peerAddr q = none := by
  unfold forgetPath
  cases hknown : t.peerAddr q with
  | none =>
    cases t.activity.lookup q <;> cases t.routing.isRelayPeer q <;>
      cases t.routing.isRelayPinned q <;> exact ⟨rfl, rfl, hknown⟩
  | some addr =>
    have herased : (t.peers.erase q).lookup q = none := AList.lookup_erase q t.peers
    cases t.activity.lookup q <;> cases t.routing.isRelayPeer q <;>
      cases t.routing.isRelayPinned q <;> exact ⟨rfl, rfl, herased⟩

theorem ensureTunnel_secures {d : Daemon} (habsent : d.tunnels.peerAddr p = none)
    (hcache : (d.resolveCache.lookup p).filter (fun e => now - e.2 ≤ resolveCacheTTL) = none)
    (hbeacon : d.tunnels.routing.beaconAddr.isSome = true) (hrelay : r.relayOnly = true)
    (haddr : r.addr.isSome = true) :
    Secures p d.tunnels (d.ensureTunnel W now p (some r)).2.tunnels := by
  have hconnect : d.ensureTunnel W now p (some r) =
      { d with resolveCache := d.resolveCache.insert p (r, now) }.connect W now p r := by
    unfold ensureTunnel
    rw [habsent, hcache]
    rfl
  have hsecured := connect_secures (p := p) W now
    (d := { d with resolveCache := d.resolveCache.insert p (r, now) }) hbeacon hrelay haddr
  rwa [hconnect]

theorem resetPeerPath_secures {d : Daemon} (hreg : d.regConn = true)
    (hbeacon : d.tunnels.routing.beaconAddr.isSome = true) (hrelay : r.relayOnly = true)
    (haddr : r.addr.isSome = true) :
    Secures p d.tunnels (d.resetPeerPath W now p (some r)).tunnels := by
  obtain ⟨hsent, hroute, habsent⟩ := forgetPath_facts d.tunnels p
  have hcache : ((d.forgotten p).resolveCache.lookup p).filter
      (fun e => now - e.2 ≤ resolveCacheTTL) = none := by
    show ((d.resolveCache.erase p).lookup p).filter _ = none
    rw [AList.lookup_erase]
    rfl
  have hbeacon' : (d.forgotten p).tunnels.routing.beaconAddr.isSome = true := by
    show (forgetPath d.tunnels p).routing.beaconAddr.isSome = true
    rwa [hroute]
  have hfresh := ensureTunnel_secures W now (d := d.forgotten p) habsent hcache hbeacon' hrelay haddr
  have hsecured : Secures p d.tunnels ((d.forgotten p).ensureTunnel W now p (some r)).2.tunnels :=
    ⟨hfresh.pinned, hfresh.known, hsent ▸ hfresh.sends⟩
  rw [resetPeerPath_eq, if_pos hreg]
  split
  next h => rwa [h] at hsecured
  next h =>
    rw [h] at hsecured
    exact hsecured.trans (TunnelManager.sendKeyExchangeToNode_moves _ trivial).shields

/-! ## The resolve cache -/

theorem connect_resolveCache (r : Resolved) :
    (d.connect W now q r).2.resolveCache = d.resolveCache := by
  unfold connect
  cases r.addr with
  | none => rfl
  | some addr =>
    simp only
    split <;> rfl

theorem onRekeyGaveUp_resolveCache : (d.onRekeyGaveUp W now q).resolveCache = d.resolveCache := by
  unfold onRekeyGaveUp
  split
  · rfl
  · split <;> rfl

theorem rekeyRetransmitTick_resolveCache :
    (d.rekeyRetransmitTick W now).resolveCache = d.resolveCache := by
  refine run_invariant_all (fun d' : Daemon => d'.resolveCache = d.resolveCache) ?_
    (d.tunnels.kx.rk.scanPending now).1 rfl
  intro d' q h
  rwa [onRekeyGaveUp_resolveCache]

end

end Daemon

end PilotProtocol.Tunnel
