import PilotProtocol.Tunnel.Authenticity
import PilotProtocol.Tunnel.Pinned

/-! # Relay-only peers

The registry can say of a peer that it is to be reached through the relay only.
What acts on that answer is `ensureTunnel`, which pins the peer; what can undo it
is a path reset, an attempt to upgrade the peer to a direct path, and the clean-up
of a dial that had put the peer on the relay. An upgrade attempt and a clean-up
last, so they are taken in steps; every other operation is one step.

The code keeps the rule when every relay-only answer finds the peer's other
operations settled. An upgrade attempt that is itself the first to hear the
answer only returns, so that the peer stays unpinned.
-/

namespace PilotProtocol.RelayOnly

open Library KeyExchange Envelope Tunnel
open Routing (UDPAddr)

/-- Where an upgrade attempt is: about to resolve, about to punch, or probing the
registered address with so many probes left. -/
inductive UpgradeAt
  | resolve
  | punch (real : UDPAddr)
  | probe (real : UDPAddr) (left : Nat)
  deriving DecidableEq

structure Node where
  daemon : Daemon
  /-- The configuration names a beacon. -/
  beaconConfigured : Bool
  /-- The peers for which a hole punch was requested, in order. -/
  punched : List NodeID
  upgradeInFlight : GoMap NodeID UpgradeAt
  /-- One entry for each dial that put its peer on the relay and still runs. -/
  flipped : List NodeID
  /-- One entry for each dial that found its peer unpinned and is about to take it off. -/
  clearing : List NodeID
  /-- What the last successful resolve of each peer said. -/
  relayOnly : GoMap NodeID Bool

namespace Node

variable (n : Node) (now : Nat) (peer : NodeID)

def tunnels : TunnelManager := n.daemon.tunnels

def onTunnels (f : TunnelManager → TunnelManager) : Node :=
  { n with daemon := n.daemon.onTunnels f }

def hasPeer : Bool := (n.tunnels.peerAddr peer).isSome

def cachedResolve : Option Resolved :=
  ((n.daemon.resolveCache.lookup peer).filter fun e => now - e.2 ≤ resolveCacheTTL).map (·.1)

def cacheResolve (r : Resolved) : Node :=
  { n with daemon := { n.daemon with resolveCache := n.daemon.resolveCache.insert peer (r, now) } }

def forgetPeerResolution : Node :=
  { n with daemon :=
      { n.daemon with
        resolveCache := n.daemon.resolveCache.erase peer
        epCache := n.daemon.epCache.erase peer } }

def requestHolePunch : Node :=
  if n.tunnels.routing.beaconAddr.isSome && n.tunnels.routing.sock then
    { n with punched := n.punched ++ [peer] }
  else n

/-! ## Tunnels and path resets -/

/-- Whether a tunnel made from the answer is preceded by a hole punch: not for a
relay-only peer, and not for an address of our own LAN. -/
def punchesFor (r : Resolved) : Bool :=
  r.addr.isSome && !r.relayOnly && decide (r.addr = r.realAddr) && n.beaconConfigured

/-- The answer that `ensureTunnel` acts on, if it gets to one. -/
def answerFor (answer : Option Resolved) : Option Resolved :=
  if n.hasPeer peer then none else (n.cachedResolve now peer).or answer

def ensureTunnel (W : World) (now : Nat) (n : Node) (peer : NodeID) (answer : Option Resolved) :
    Node :=
  let n₁ := if (n.answerFor now peer answer).any n.punchesFor then n.requestHolePunch peer else n
  { n₁ with daemon := (n.daemon.ensureTunnel W now peer answer).2 }

/-- The caches are empty when the reset resolves the peer, so it acts on the registry's
answer. -/
def resetPeerPath (W : World) (now : Nat) (n : Node) (peer : NodeID) (answer : Option Resolved) :
    Node :=
  let n₁ := if n.daemon.regConn && answer.any n.punchesFor then n.requestHolePunch peer else n
  { n₁ with daemon := n.daemon.resetPeerPath W now peer answer }

/-! ## Direct upgrades -/

def upgradeGoesTo (at_ : UpgradeAt) : Node :=
  { n with upgradeInFlight := n.upgradeInFlight.insert peer at_ }

/-- The body of `relayProbeTick` for one peer. -/
def relayProbe (W : World) (now : Nat) (n : Node) (peer : NodeID) : Node :=
  if n.tunnels.routing.isRelayPeer peer && n.tunnels.peerInUse W peer now && n.hasPeer peer &&
      (n.upgradeInFlight.lookup peer).isNone then
    n.upgradeGoesTo peer .resolve
  else n

def upgradeEnds : Node := { n with upgradeInFlight := n.upgradeInFlight.erase peer }

def upgradeAnswered (r : Resolved) : Node :=
  if r.relayOnly then n.upgradeEnds peer
  else
    match r.realAddr with
    | none => n.upgradeEnds peer
    | some real => n.upgradeGoesTo peer (.punch real)

end Node

def writeDirect (W : World) (now : Nat) (t : TunnelManager) (peer : NodeID) (addr : UDPAddr)
    (frame : Bytes) : Bool × TunnelManager :=
  if !t.routing.sock then (false, t.logSent peer frame (.error .noSocket))
  else if W.net t.writes = .ok then
    (true, { t.logSent peer frame (.ok ⟨addr, false⟩) with
      routing := t.routing.recordOutboundSend peer now })
  else (false, t.logSent peer frame (.error (.send (W.net t.writes))))

/-- Whether the probe was sent, and the tunnel after it; `data` is the marshalled packet. -/
def sendDirectProbeTo (W : World) (now : Nat) (t : TunnelManager) (peer : NodeID) (addr : UDPAddr)
    (data : Bytes) : Bool × TunnelManager :=
  if t.routing.isFromBeacon (some addr) then (false, t)
  else if t.encrypt then
    match t.kx.env.getReady peer with
    | none => (false, t)
    | some pc =>
      let (frame, t₁) := t.encryptFrame W peer pc data
      writeDirect W now t₁ peer addr frame
  else writeDirect W now t peer addr (tunnelMagic ++ data)

namespace Node

def unpinRelayPeer (n : Node) (peer : NodeID) : Node :=
  if n.tunnels.routing.isRelayPinned peer then
    n.onTunnels fun t => { t with routing := t.routing.unpinRelayPeer peer }
  else n

/-- The next step of the upgrade attempt for `peer`; `answer` is the registry's, if it is
asked now, and `probe` the next probe packet. -/
def tryDirectUpgrade (W : World) (now : Nat) (n : Node) (peer : NodeID) (answer : Option Resolved)
    (probe : Bytes) : Node :=
  match n.upgradeInFlight.lookup peer with
  | none => n
  | some .resolve =>
    match n.cachedResolve now peer, answer, n.daemon.regConn with
    | some r, _, _ => n.upgradeAnswered peer r
    | none, some r, true => (n.cacheResolve now peer r).upgradeAnswered peer r
    | none, _, _ => n.upgradeEnds peer
  | some (.punch real) =>
    ((n.unpinRelayPeer peer).requestHolePunch peer).upgradeGoesTo peer (.probe real 5)
  | some (.probe real left) =>
    let (sent, t) := sendDirectProbeTo W now n.tunnels peer real probe
    let n₁ := n.onTunnels fun _ => t
    if sent && decide (1 < left) then n₁.upgradeGoesTo peer (.probe real (left - 1))
    else n₁.upgradeEnds peer

/-! ## Dials -/

/-- A dial puts its peer on the relay; `here` when it is to undo that on failure. -/
def dialFlip (n : Node) (peer : NodeID) (here : Bool) : Node :=
  { n.onTunnels fun t => { t with routing := t.routing.setRelayPeer peer true } with
    flipped := if here then peer :: n.flipped else n.flipped }

/-- The first half of a failed dial's clean-up: the pin is read. -/
def dialCheck (n : Node) (peer : NodeID) : Node :=
  if peer ∈ n.flipped then
    { n with
      flipped := n.flipped.erase peer
      clearing := if n.tunnels.routing.isRelayPinned peer then n.clearing else peer :: n.clearing }
  else n

def dialClear (n : Node) (peer : NodeID) : Node :=
  if peer ∈ n.clearing then
    { n.onTunnels fun t => { t with routing := t.routing.setRelayPeer peer false } with
      clearing := n.clearing.erase peer }
  else n

/-! ## Packets -/

/-- `handlePacket` adds the source of a delivered packet to the peer table. -/
def handlePacket (W : World) (now : Nat) (n : Node) (ip : IncomingPacket) : Node :=
  let src := ip.packet.srcNode
  match n.hasPeer src, !n.tunnels.encrypt || n.tunnels.kx.env.has src, ip.source with
  | false, true, some addr => n.onTunnels fun t => t.addPeer W now src addr
  | _, _, _ => n

def send (W : World) (now : Nat) (n : Node) (peer : NodeID) (data : Bytes) (ping : Bool) : Node :=
  match n.tunnels.peerAddr peer with
  | none => n
  | some addr => n.onTunnels fun t => (t.sendTo W now (some addr) peer data ping).2

end Node

/-! ## Steps -/

inductive Op
  | recv (frame : Bytes) (remote : Option UDPAddr)
  | tick
  | packet (k : Nat)
  | send (peer : NodeID) (data : Bytes) (ping : Bool)
  | ensureTunnel (peer : NodeID) (answer : Option Resolved)
  | reset (peer : NodeID) (answer : Option Resolved)
  | relayProbe (peer : NodeID)
  | upgrade (peer : NodeID) (answer : Option Resolved) (probe : Bytes)
  | dialFlip (peer : NodeID) (here : Bool)
  | dialForget (peer : NodeID)
  | dialCheck (peer : NodeID)
  | dialClear (peer : NodeID)

structure Input where
  now : Nat
  op : Op

namespace Node

def act (W : World) (n : Node) (i : Input) : Node :=
  match i.op with
  | .recv frame remote => n.onTunnels fun t => t.readLoopOneIter W i.now frame remote
  | .tick => { n with daemon := n.daemon.rekeyRetransmitTick W i.now }
  | .packet k =>
    match n.tunnels.recvCh[k]? with
    | none => n
    | some ip => n.handlePacket W i.now ip
  | .send peer data ping => n.send W i.now peer data ping
  | .ensureTunnel peer answer => n.ensureTunnel W i.now peer answer
  | .reset peer answer => n.resetPeerPath W i.now peer answer
  | .relayProbe peer => n.relayProbe W i.now peer
  | .upgrade peer answer probe => n.tryDirectUpgrade W i.now peer answer probe
  | .dialFlip peer here => n.dialFlip peer here
  | .dialForget peer => n.forgetPeerResolution peer
  | .dialCheck peer => n.dialCheck peer
  | .dialClear peer => n.dialClear peer

/-- The registry's answer to a resolve made in this step, with the peer it is about. -/
def report (n : Node) (i : Input) : Option (NodeID × Resolved) :=
  match i.op with
  | .ensureTunnel peer answer =>
    if n.hasPeer peer || (n.cachedResolve i.now peer).isSome then none
    else answer.map fun r => (peer, r)
  | .reset peer answer => if n.daemon.regConn then answer.map fun r => (peer, r) else none
  | .upgrade peer answer _ =>
    if decide (n.upgradeInFlight.lookup peer = some .resolve) &&
        (n.cachedResolve i.now peer).isNone && n.daemon.regConn then
      answer.map fun r => (peer, r)
    else none
  | _ => none

def step (W : World) (n : Node) (i : Input) : Node :=
  { n.act W i with
    relayOnly := match n.report i with
      | none => n.relayOnly
      | some (peer, r) => n.relayOnly.insert peer r.relayOnly }

/-- The last successful resolve of the peer reported `relay_only`. -/
def saysRelayOnly (n : Node) (peer : NodeID) : Bool := (n.relayOnly.lookup peer).getD false

end Node

/-! ## The rule -/

/-- From `n` to `n'` peer `p` was contacted through the relay only. -/
structure Covered (p : NodeID) (n n' : Node) : Prop where
  relayed : ∀ s ∈ newEntries n.tunnels.sent n'.tunnels.sent, s.peer = p → s.route.relayed = true
  unpunched : p ∉ newEntries n.punched n'.punched
  pinned : n'.hasPeer p = true →
    n'.tunnels.routing.isRelayPeer p = true ∧ n'.tunnels.routing.isRelayPinned p = true

def UpgradeAt.resolves : UpgradeAt → Bool
  | .resolve => true
  | _ => false

namespace Node

/-- No upgrade attempt for the peer is past its resolve, and no dial is about to take
the peer off the relay. -/
def Settled (n : Node) (p : NodeID) : Prop :=
  (n.upgradeInFlight.lookup p).all UpgradeAt.resolves = true ∧ p ∉ n.clearing

def heldOnRelay (n : Node) (p : NodeID) : Bool :=
  n.hasPeer p && n.tunnels.routing.isRelayPeer p && n.tunnels.routing.isRelayPinned p

end Node

def Op.upgrades : Op → Bool
  | .upgrade .. => true
  | _ => false

def Op.resets (p : NodeID) : Op → Bool
  | .reset peer _ => decide (peer = p)
  | _ => false

/-- What a relay-only answer for `p` needs to find. -/
def Heard (p : NodeID) (n : Node) (op : Op) : Option (NodeID × Resolved) → Prop
  | none => True
  | some (q, r) => q = p → r.relayOnly = true →
      n.Settled p ∧ n.tunnels.routing.beaconAddr.isSome = true ∧
        (if op.upgrades then n.heldOnRelay p else r.addr.isSome) = true

/-- A relay-only answer for `p` finds its other operations settled and a beacon; it comes
with an address, and an upgrade attempt hears it only of a peer already pinned. While the
last answer is relay-only, a reset of `p` gets an answer. -/
def Careful (p : NodeID) (n : Node) (i : Input) : Prop :=
  Heard p n i.op (n.report i) ∧
    (i.op.resets p = true → n.saysRelayOnly p = true → (n.report i).isSome = true)

instance (n : Node) (p : NodeID) : Decidable (n.Settled p) := inferInstanceAs (Decidable (_ ∧ _))

instance (p : NodeID) (n : Node) (op : Op) (o) : Decidable (Heard p n op o) := by
  cases o <;> dsimp only [Heard] <;> infer_instance

instance (p : NodeID) (n : Node) (i : Input) : Decidable (Careful p n i) :=
  inferInstanceAs (Decidable (_ ∧ _))

/-! ## The invariant -/

structure Inv (p : NodeID) (n : Node) : Prop where
  cached : ∀ e, n.daemon.resolveCache.lookup p = some e →
    n.relayOnly.lookup p = some e.1.relayOnly
  held : n.saysRelayOnly p = true →
    n.tunnels.routing.Pinned p ∧ n.hasPeer p = true ∧ n.Settled p

/-- What is to be shown of a step: the peer is held and was covered, if it is relay-only
after the step. -/
structure Holds (p : NodeID) (n n' : Node) : Prop where
  held : n'.tunnels.routing.Pinned p ∧ n'.hasPeer p = true ∧ n'.Settled p
  covered : Covered p n n'

/-- A step that leaves `p` alone. -/
structure Spares (p : NodeID) (n n' : Node) : Prop where
  shields : Shields p n.tunnels n'.tunnels
  settled : n.tunnels.routing.Pinned p → n.Settled p → n'.Settled p
  punched : Appends (p ≠ ·) n.punched n'.punched

section

variable {p : NodeID} {n n' : Node}

theorem holds_of_secures (h : Secures p n.tunnels n'.tunnels) (hsettled : n'.Settled p)
    (hpunched : Appends (p ≠ ·) n.punched n'.punched) : Holds p n n' :=
  ⟨⟨h.pinned, h.known, hsettled⟩, h.sends.new, fun hmem => hpunched.new p hmem rfl,
    fun _ => ⟨h.pinned.relay, h.pinned.pin⟩⟩

theorem Spares.holds (h : Spares p n n') (hpinned : n.tunnels.routing.Pinned p)
    (hknown : n.hasPeer p = true) (hsettled : n.Settled p) : Holds p n n' :=
  holds_of_secures (h.shields.secures hpinned hknown) (h.settled hpinned hsettled) h.punched

theorem Spares.quiet (hshields : Shields p n.tunnels n'.tunnels)
    (hsettled : n.tunnels.routing.Pinned p → n.Settled p → n'.Settled p)
    (hpunched : n'.punched = n.punched) : Spares p n n' :=
  ⟨hshields, hsettled, .of_eq hpunched⟩

theorem Spares.of_tunnels (f : TunnelManager → TunnelManager) (h : Shields p n.tunnels (f n.tunnels)) :
    Spares p n (n.onTunnels f) := .quiet h (fun _ => id) rfl

theorem Spares.refl (p : NodeID) (n : Node) : Spares p n n := .quiet (.refl p _) (fun _ => id) rfl

theorem Spares.trans {n'' : Node} (h : Spares p n n') (h' : Spares p n' n'') : Spares p n n'' :=
  ⟨h.shields.trans h'.shields, fun hp hs => h'.settled (h.shields.pinned hp) (h.settled hp hs),
    h.punched.trans h'.punched⟩

/-- What a step does that may ask for a hole punch, but not to `p`. -/
theorem Spares.punch {q : NodeID} (c : Prop) [Decidable c] {daemon : Daemon}
    (h : Shields p n.tunnels daemon.tunnels) (hq : c → p ≠ q) :
    Spares p n { (if c then n.requestHolePunch q else n) with daemon := daemon } := by
  unfold Node.requestHolePunch
  by_cases hc : c
  · rw [if_pos hc]
    split
    · exact ⟨h, fun _ => id, .single (hq hc)⟩
    · exact .quiet h (fun _ => id) rfl
  · rw [if_neg hc]
    exact .quiet h (fun _ => id) rfl

end

/-! ## Answers -/

section

variable {n : Node} {now : Nat} {p q : NodeID} {answer : Option Resolved} {r : Resolved}

theorem asked_eq_some {c : Prop} [Decidable c] :
    (if c then answer.map fun r => (q, r) else none) = some (p, r) ↔ p = q ∧ c ∧ answer = some r := by
  by_cases h : c
  · rw [if_pos h, Option.map_eq_some_iff]
    constructor
    · rintro ⟨r', hanswer, hpair⟩
      cases hpair
      exact ⟨rfl, h, hanswer⟩
    · rintro ⟨rfl, -, hanswer⟩
      exact ⟨r, hanswer, rfl⟩
  · simp [h]

theorem report_ensureTunnel : n.report ⟨now, .ensureTunnel q answer⟩ = some (p, r) ↔
    p = q ∧ (n.tunnels.peerAddr q = none ∧ (n.daemon.resolveCache.lookup q).filter
      (fun e => now - e.2 ≤ resolveCacheTTL) = none) ∧ answer = some r := by
  unfold Node.report
  dsimp only
  rw [← ite_not, asked_eq_some]
  simp only [Node.hasPeer, Node.cachedResolve, Bool.or_eq_true, Option.isSome_map, not_or,
    Bool.not_eq_true, Option.isSome_eq_false_iff, Option.isNone_iff_eq_none]

theorem report_reset : n.report ⟨now, .reset q answer⟩ = some (p, r) ↔
    p = q ∧ n.daemon.regConn = true ∧ answer = some r := asked_eq_some

theorem report_upgrade {probe : Bytes} : n.report ⟨now, .upgrade q answer probe⟩ = some (p, r) ↔
    p = q ∧ (n.upgradeInFlight.lookup q = some .resolve ∧ n.cachedResolve now q = none ∧
      n.daemon.regConn = true) ∧ answer = some r := by
  unfold Node.report
  dsimp only
  rw [asked_eq_some]
  simp [and_assoc]

end

/-! ## Operations that leave the peer alone -/

section

variable (W : World) (now : Nat) {p : NodeID} (n : Node)

theorem handlePacket_spares (ip : IncomingPacket) : Spares p n (n.handlePacket W now ip) := by
  unfold Node.handlePacket
  simp only
  split
  next addr _ _ _ => exact .of_tunnels _ (TunnelManager.addPeer_moves _ trivial addr).shields
  · exact .refl p n

theorem send_spares (q : NodeID) (data : Bytes) (ping : Bool) :
    Spares p n (n.send W now q data ping) := by
  unfold Node.send
  split
  · exact .refl p n
  · exact .of_tunnels _ (TunnelManager.sendTo_moves _ trivial _ data ping trivial).shields

theorem tick_spares : Spares p n { n with daemon := n.daemon.rekeyRetransmitTick W now } :=
  .quiet (Daemon.rekeyRetransmitTick_moves n.daemon fun _ _ => trivial).shields (fun _ => id) rfl

variable {q : NodeID} {r : Resolved} {i : Input} {answer : Option Resolved}

theorem upgradeGoesTo_spares {at_ : UpgradeAt} (h : p = q → at_.resolves = true) :
    Spares p n (n.upgradeGoesTo q at_) := by
  refine .quiet (.refl p _) (fun _ hsettled => ⟨?_, hsettled.2⟩) rfl
  show ((n.upgradeInFlight.insert q at_).lookup p).all UpgradeAt.resolves = true
  rw [GoMap.lookup_insert_ite]
  split
  next hq => exact h hq
  · exact hsettled.1

theorem upgradeEnds_spares (q : NodeID) : Spares p n (n.upgradeEnds q) := by
  refine .quiet (.refl p _) (fun _ hsettled => ⟨?_, hsettled.2⟩) rfl
  show ((n.upgradeInFlight.erase q).lookup p).all UpgradeAt.resolves = true
  rw [GoMap.lookup_erase_ite]
  split
  · rfl
  · exact hsettled.1

theorem relayProbe_spares (q : NodeID) : Spares p n (n.relayProbe W now q) := by
  unfold Node.relayProbe
  split
  · exact upgradeGoesTo_spares n fun _ => rfl
  · exact .refl p n

theorem dialFlip_spares (q : NodeID) (here : Bool) : Spares p n (n.dialFlip q here) :=
  .quiet (.of_silent (fun hp => hp.call (c := .setRelayPeer q true) nofun) id rfl) (fun _ => id) rfl

theorem dialForget_spares (q : NodeID) : Spares p n (n.forgetPeerResolution q) :=
  .quiet (.refl p _) (fun _ => id) rfl

theorem dialCheck_spares (q : NodeID) : Spares p n (n.dialCheck q) := by
  unfold Node.dialCheck
  split
  · refine .quiet (.refl p _) (fun hpinned hsettled => ⟨hsettled.1, ?_⟩) rfl
    by_cases hpin : n.tunnels.routing.isRelayPinned q = true
    · rw [if_pos hpin]
      exact hsettled.2
    · rw [if_neg hpin]
      have hq : p ≠ q := by
        rintro rfl
        exact hpin hpinned.pin
      exact List.not_mem_cons_of_ne_of_not_mem hq hsettled.2
  · exact .refl p n

theorem dialClear_spares (q : NodeID) (hclear : p ∉ n.clearing) : Spares p n (n.dialClear q) := by
  unfold Node.dialClear
  split
  next hmem =>
    have hq : p ≠ q := by
      rintro rfl
      exact hclear hmem
    refine .quiet (.of_silent (fun hp => hp.call (c := .setRelayPeer q false) fun _ => hq) id rfl)
      (fun _ hsettled => ⟨hsettled.1, ?_⟩) rfl
    exact fun hmem => hclear (List.mem_of_mem_erase hmem)
  · exact .refl p n

theorem ensureTunnel_spares (q : NodeID) (answer : Option Resolved)
    (hq : p = q → n.hasPeer q = true) : Spares p n (n.ensureTunnel W now q answer) := by
  refine .punch _ (Daemon.ensureTunnel_moves n.daemon trivial answer).shields fun hpunch hpq => ?_
  simp [Node.answerFor, if_pos (hq hpq)] at hpunch

theorem resetPeerPath_spares (hq : p ≠ q) (answer : Option Resolved) :
    Spares p n (n.resetPeerPath W now q answer) :=
  .punch _ (Daemon.resetPeerPath_moves n.daemon trivial trivial hq answer).shields fun _ => hq

/-! ## Upgrade attempts -/

theorem writeDirect_shields (hq : p ≠ q) (t : TunnelManager) (addr : UDPAddr) (frame : Bytes) :
    Shields p t (writeDirect W now t q addr frame).2 := by
  have hlogged : ∀ result, Shields p t (t.logSent q frame result) := fun result =>
    TunnelManager.logSent_shields t q frame result fun _ hqp => absurd hqp.symm hq
  unfold writeDirect
  split_ifs
  · exact hlogged (.error .noSocket)
  · exact { hlogged (.ok ⟨addr, false⟩) with pinned := fun hp => ⟨hp.relay, hp.pin, hp.beacon⟩ }
  · exact hlogged (.error (.send (W.net t.writes)))

theorem sendDirectProbeTo_shields (hq : p ≠ q) (t : TunnelManager) (addr : UDPAddr) (data : Bytes) :
    Shields p t (sendDirectProbeTo W now t q addr data).2 := by
  unfold sendDirectProbeTo
  split
  · exact .refl p t
  split
  · split
    · exact .refl p t
    next pc _ =>
      have hsealed : Shields p t (t.encryptFrame W q pc data).2 := .of_eq rfl rfl rfl
      exact hsealed.trans (writeDirect_shields W now hq _ addr _)
  · exact writeDirect_shields W now hq t addr _

theorem upgradeAnswered_spares (r : Resolved) (h : p = q → r.relayOnly = true) :
    Spares p n (n.upgradeAnswered q r) := by
  unfold Node.upgradeAnswered
  split
  · exact upgradeEnds_spares n q
  next hdirect =>
    split
    · exact upgradeEnds_spares n q
    · exact upgradeGoesTo_spares n fun hq => absurd (h hq) hdirect

theorem cacheResolve_spares (q : NodeID) (r : Resolved) : Spares p n (n.cacheResolve now q r) :=
  .quiet (.refl p _) (fun _ => id) rfl

theorem unpinRelayPeer_spares (hq : p ≠ q) : Spares p n (n.unpinRelayPeer q) := by
  unfold Node.unpinRelayPeer
  split
  · exact .of_tunnels _ (.of_silent (fun hp => hp.call (c := .unpinRelayPeer q) fun _ => hq) id rfl)
  · exact .refl p n

theorem requestHolePunch_daemon (q : NodeID) : (n.requestHolePunch q).daemon = n.daemon := by
  unfold Node.requestHolePunch
  split <;> rfl

theorem requestHolePunch_spares (hq : p ≠ q) : Spares p n (n.requestHolePunch q) := by
  have hpunch : Spares p n { n.requestHolePunch q with daemon := n.daemon } :=
    .punch True (.refl p _) fun _ => hq
  rwa [← requestHolePunch_daemon n q] at hpunch

theorem tryDirectUpgrade_spares (hq : p ≠ q) (answer : Option Resolved) (probe : Bytes) :
    Spares p n (n.tryDirectUpgrade W now q answer probe) := by
  unfold Node.tryDirectUpgrade
  split
  · exact .refl p n
  · split
    · exact upgradeAnswered_spares n _ fun hpq => absurd hpq hq
    · exact (cacheResolve_spares now n q _).trans
        (upgradeAnswered_spares _ _ fun hpq => absurd hpq hq)
    · exact upgradeEnds_spares n q
  · exact ((unpinRelayPeer_spares n hq).trans (requestHolePunch_spares _ hq)).trans
      (upgradeGoesTo_spares _ fun hpq => absurd hpq hq)
  next real left _ =>
    have hsent : Spares p n (n.onTunnels fun _ =>
        (sendDirectProbeTo W now n.tunnels q real probe).2) :=
      .of_tunnels _ (sendDirectProbeTo_shields W now hq n.tunnels real probe)
    simp only
    split
    · exact hsent.trans (upgradeGoesTo_spares _ fun hpq => absurd hpq hq)
    · exact hsent.trans (upgradeEnds_spares _ q)

/-! ## Steps -/

/-- An attempt for a settled peer that no fresh answer reaches: the cached one is
relay-only, and the attempt ends. -/
theorem tryDirectUpgrade_ends (hinv : Inv p n) (hsaid : n.saysRelayOnly p = true)
    (answer : Option Resolved) (probe : Bytes)
    (hquiet : ∀ r, n.report ⟨now, .upgrade p answer probe⟩ ≠ some (p, r)) :
    Spares p n (n.tryDirectUpgrade W now p answer probe) := by
  have hsettled := (hinv.held hsaid).2.2
  unfold Node.tryDirectUpgrade
  cases hat : n.upgradeInFlight.lookup p with
  | none => exact .refl p n
  | some at_ =>
    have hresolves := hsettled.1
    rw [hat] at hresolves
    cases at_ with
    | punch real | probe real left => cases hresolves
    | resolve =>
      simp only
      split
      next r hcached =>
        refine upgradeAnswered_spares n r fun _ => ?_
        obtain ⟨e, he, rfl⟩ := Option.map_eq_some_iff.mp hcached
        have hlast := hinv.cached e (Option.filter_eq_some_iff.mp he).1
        rwa [Node.saysRelayOnly, hlast] at hsaid
      next r hcached hreg =>
        exact absurd (report_upgrade.mpr ⟨rfl, ⟨hat, hcached, hreg⟩, rfl⟩) (hquiet r)
      · exact upgradeEnds_spares n p

theorem act_spares (hinv : Inv p n) (hsaid : n.saysRelayOnly p = true) (hcareful : Careful p n i)
    (hquiet : ∀ r, n.report i ≠ some (p, r)) : Spares p n (n.act W i) := by
  obtain ⟨hpinned, hknown, hsettled⟩ := hinv.held hsaid
  obtain ⟨now, op⟩ := i
  cases op with
  | recv frame remote =>
    exact .of_tunnels _ (TunnelManager.readLoopOneIter_moves _ frame remote trivial
      (fun _ _ => trivial) fun _ _ => trivial).shields
  | tick => exact tick_spares W now n
  | packet k =>
    unfold Node.act
    simp only
    split
    · exact .refl p n
    · exact handlePacket_spares W now n _
  | send q data ping => exact send_spares W now n q data ping
  | ensureTunnel q answer =>
    refine ensureTunnel_spares W now n q answer ?_
    rintro rfl
    exact hknown
  | reset q answer =>
    have hq : p ≠ q := by
      rintro rfl
      obtain ⟨⟨q, r⟩, hreport⟩ := Option.isSome_iff_exists.mp (hcareful.2 (decide_eq_true rfl) hsaid)
      obtain ⟨rfl, _⟩ := report_reset.mp hreport
      exact hquiet r hreport
    exact resetPeerPath_spares W now n hq answer
  | relayProbe q => exact relayProbe_spares W now n q
  | upgrade q answer probe =>
    by_cases hq : p = q
    · subst hq
      exact tryDirectUpgrade_ends W now n hinv hsaid answer probe hquiet
    · exact tryDirectUpgrade_spares W now n hq answer probe
  | dialFlip q here => exact dialFlip_spares n q here
  | dialForget q => exact dialForget_spares n q
  | dialCheck q => exact dialCheck_spares n q
  | dialClear q => exact dialClear_spares n q hsettled.2

theorem tryDirectUpgrade_reported {probe : Bytes}
    (hreport : n.report ⟨now, .upgrade q answer probe⟩ = some (p, r))
    (hrelay : r.relayOnly = true) : Spares p n (n.tryDirectUpgrade W now q answer probe) := by
  obtain ⟨rfl, ⟨hat, hcached, hreg⟩, rfl⟩ := report_upgrade.mp hreport
  unfold Node.tryDirectUpgrade
  rw [hat, hcached, hreg]
  exact (cacheResolve_spares now n p r).trans (upgradeAnswered_spares _ r fun _ => hrelay)

theorem ensureTunnel_reported (hreport : n.report ⟨now, .ensureTunnel q answer⟩ = some (p, r))
    (hrelay : r.relayOnly = true) (hsettled : n.Settled p)
    (hbeacon : n.tunnels.routing.beaconAddr.isSome = true) (haddr : r.addr.isSome = true) :
    Holds p n (n.ensureTunnel W now q answer) := by
  obtain ⟨rfl, ⟨habsent, hnone⟩, rfl⟩ := report_ensureTunnel.mp hreport
  have hsecured := Daemon.ensureTunnel_secures W now habsent hnone hbeacon hrelay haddr
  have hanswer : n.answerFor now p (some r) = some r := by
    rw [Node.answerFor, Node.hasPeer, habsent, Node.cachedResolve, hnone]
    rfl
  unfold Node.ensureTunnel
  rw [hanswer]
  rw [if_neg (by simp [Node.punchesFor, hrelay])]
  exact holds_of_secures hsecured hsettled (.of_eq rfl)

theorem resetPeerPath_reported (hreport : n.report ⟨now, .reset q answer⟩ = some (p, r))
    (hrelay : r.relayOnly = true) (hsettled : n.Settled p)
    (hbeacon : n.tunnels.routing.beaconAddr.isSome = true) (haddr : r.addr.isSome = true) :
    Holds p n (n.resetPeerPath W now q answer) := by
  obtain ⟨rfl, hreg, rfl⟩ := report_reset.mp hreport
  have hsecured := Daemon.resetPeerPath_secures (p := p) W now hreg hbeacon hrelay haddr
  unfold Node.resetPeerPath
  rw [if_neg (by simp [Node.punchesFor, hrelay])]
  exact holds_of_secures hsecured hsettled (.of_eq rfl)

theorem act_reported (hcareful : Careful p n i) (hreport : n.report i = some (p, r))
    (hrelay : r.relayOnly = true) : Holds p n (n.act W i) := by
  have hheard := hcareful.1
  rw [hreport] at hheard
  obtain ⟨hsettled, hbeacon, hready⟩ := hheard rfl hrelay
  obtain ⟨now, op⟩ := i
  cases op with
  | ensureTunnel q answer => exact ensureTunnel_reported W now n hreport hrelay hsettled hbeacon hready
  | reset q answer => exact resetPeerPath_reported W now n hreport hrelay hsettled hbeacon hready
  | upgrade q answer probe =>
    have hheld : n.heldOnRelay p = true := hready
    simp only [Node.heldOnRelay, Bool.and_eq_true] at hheld
    exact (tryDirectUpgrade_reported W now n hreport hrelay).holds
      ⟨hheld.1.2, hheld.2, hbeacon⟩ hheld.1.1 hsettled
  | _ => cases hreport

def noted {V : Type} (m : GoMap NodeID V) (f : Resolved → V) :
    Option (NodeID × Resolved) → GoMap NodeID V
  | none => m
  | some (q, r) => m.insert q (f r)

theorem upgradeAnswered_daemon (q : NodeID) (r : Resolved) :
    (n.upgradeAnswered q r).daemon = n.daemon := by
  unfold Node.upgradeAnswered
  split
  · rfl
  · split <;> rfl

theorem tryDirectUpgrade_resolveCache (q : NodeID) (answer : Option Resolved) (probe : Bytes) :
    (n.tryDirectUpgrade W now q answer probe).daemon.resolveCache =
      noted n.daemon.resolveCache (·, now) (n.report ⟨now, .upgrade q answer probe⟩) := by
  unfold Node.tryDirectUpgrade Node.report
  dsimp only
  cases hat : n.upgradeInFlight.lookup q with
  | none => rfl
  | some at_ =>
    cases at_ with
    | resolve =>
      cases n.cachedResolve now q with
      | some r => simp [upgradeAnswered_daemon, noted]
      | none =>
        cases answer with
        | none => simp [Node.upgradeEnds, noted]
        | some r =>
          cases n.daemon.regConn with
          | true => simp [upgradeAnswered_daemon, Node.cacheResolve, noted]
          | false => rfl
    | punch real =>
      show ((n.unpinRelayPeer q).requestHolePunch q).daemon.resolveCache = _
      rw [requestHolePunch_daemon]
      unfold Node.unpinRelayPeer
      split <;> rfl
    | probe real left =>
      dsimp only
      split <;> rfl

theorem ensureTunnel_resolveCache (q : NodeID) (answer : Option Resolved) :
    (n.daemon.ensureTunnel W now q answer).2.resolveCache =
      noted n.daemon.resolveCache (·, now) (n.report ⟨now, .ensureTunnel q answer⟩) := by
  unfold Daemon.ensureTunnel Node.report Node.hasPeer Node.cachedResolve Node.tunnels
  dsimp only
  cases n.daemon.tunnels.peerAddr q with
  | some addr => rfl
  | none =>
    cases (n.daemon.resolveCache.lookup q).filter fun e => now - e.2 ≤ resolveCacheTTL with
    | some e => exact Daemon.connect_resolveCache W now _ q _
    | none =>
      cases answer with
      | some r => exact Daemon.connect_resolveCache W now _ q _
      | none => cases n.daemon.epCache.lookup q <;> rfl

theorem resetPeerPath_resolveCache (q : NodeID) (answer : Option Resolved) :
    (n.daemon.resetPeerPath W now q answer).resolveCache =
      noted (n.daemon.resolveCache.erase q) (·, now) (n.report ⟨now, .reset q answer⟩) := by
  have hensure := ensureTunnel_resolveCache W now { n with daemon := n.daemon.forgotten q } q answer
  have hasked : ({ n with daemon := n.daemon.forgotten q } : Node).report
      ⟨now, .ensureTunnel q answer⟩ = answer.map fun r => (q, r) := by
    simp [Node.report, Node.hasPeer, Node.tunnels, Node.cachedResolve, Daemon.forgotten,
      (Daemon.forgetPath_facts n.daemon.tunnels q).2.2, AList.lookup_erase]
  rw [hasked] at hensure
  rw [Daemon.resetPeerPath_eq, Node.report]
  cases n.daemon.regConn with
  | false => rfl
  | true =>
    simp only [if_true]
    split <;> next h => rw [h] at hensure; exact hensure

theorem lookup_noted {V : Type} (m : GoMap NodeID V) (f : Resolved → V)
    {o : Option (NodeID × Resolved)} (h : ∀ r, o ≠ some (p, r)) :
    (noted m f o).lookup p = m.lookup p := by
  cases o with
  | none => rfl
  | some pair => exact AList.lookup_insert_ne fun hp => h pair.2 (by rw [hp])

theorem act_cached {e : Resolved × Nat} (h : (n.act W i).daemon.resolveCache.lookup p = some e) :
    (n.daemon.resolveCache.lookup p = some e ∧ ∀ r, n.report i ≠ some (p, r)) ∨
      n.report i = some (p, e.1) := by
  -- what an answer is noted in is the cache, or the cache without one peer
  have hnoted {cache : GoMap NodeID (Resolved × Nat)}
      (hcache : cache.lookup p = some e → n.daemon.resolveCache.lookup p = some e)
      (h : (noted cache (·, i.now) (n.report i)).lookup p = some e) :
      (n.daemon.resolveCache.lookup p = some e ∧ ∀ r, n.report i ≠ some (p, r)) ∨
        n.report i = some (p, e.1) := by
    by_cases hquiet : ∀ r, n.report i ≠ some (p, r)
    · rw [lookup_noted cache _ hquiet] at h
      exact .inl ⟨hcache h, hquiet⟩
    · obtain ⟨r, hreport⟩ := not_forall_not.mp hquiet
      rw [hreport] at h
      cases (AList.lookup_insert _).symm.trans h
      exact .inr hreport
  have herase (q : NodeID) (h : (n.daemon.resolveCache.erase q).lookup p = some e) :
      n.daemon.resolveCache.lookup p = some e := by
    rw [GoMap.lookup_erase_ite] at h
    split at h
    · cases h
    · exact h
  obtain ⟨now, op⟩ := i
  cases op with
  | ensureTunnel q answer => exact hnoted id (ensureTunnel_resolveCache W now n q answer ▸ h)
  | reset q answer => exact hnoted (herase q) (resetPeerPath_resolveCache W now n q answer ▸ h)
  | upgrade q answer probe =>
    exact hnoted id (tryDirectUpgrade_resolveCache W now n q answer probe ▸ h)
  | recv frame remote | dialFlip q here => exact hnoted id h
  | tick => exact hnoted id (Daemon.rekeyRetransmitTick_resolveCache W now n.daemon ▸ h)
  | dialForget q => exact hnoted (herase q) h
  | packet k | send q data ping | relayProbe q | dialCheck q | dialClear q =>
    refine hnoted id ?_
    simp only [Node.act, Node.handlePacket, Node.send, Node.relayProbe, Node.dialCheck,
      Node.dialClear] at h
    repeat' split at h
    all_goals exact h

/-! ## Runs -/

theorem saysRelayOnly_step (h : (n.step W i).saysRelayOnly p = true) :
    (∃ r, n.report i = some (p, r) ∧ r.relayOnly = true) ∨
      ((∀ r, n.report i ≠ some (p, r)) ∧ n.saysRelayOnly p = true) := by
  by_cases hquiet : ∀ r, n.report i ≠ some (p, r)
  · refine .inr ⟨hquiet, ?_⟩
    rwa [Node.saysRelayOnly, ← lookup_noted n.relayOnly Resolved.relayOnly hquiet]
  · obtain ⟨r, hreport⟩ := not_forall_not.mp hquiet
    rw [Node.saysRelayOnly, Node.step, hreport] at h
    simp only [AList.lookup_insert, Option.getD_some] at h
    exact .inl ⟨r, hreport, h⟩

theorem step_holds (hinv : Inv p n) (hcareful : Careful p n i)
    (hsaid : (n.step W i).saysRelayOnly p = true) : Holds p n (n.step W i) := by
  have hact : Holds p n (n.act W i) := by
    obtain ⟨r, hreport, hrelay⟩ | ⟨hquiet, hbefore⟩ := saysRelayOnly_step W n hsaid
    · exact act_reported W n hcareful hreport hrelay
    · obtain ⟨hpinned, hknown, hsettled⟩ := hinv.held hbefore
      exact (act_spares W n hinv hbefore hcareful hquiet).holds hpinned hknown hsettled
  exact ⟨hact.held, hact.covered.relayed, hact.covered.unpunched, hact.covered.pinned⟩

theorem step_inv (hinv : Inv p n) (hcareful : Careful p n i) : Inv p (n.step W i) := by
  refine ⟨fun e he => ?_, fun hsaid => (step_holds W n hinv hcareful hsaid).held⟩
  obtain ⟨hold, hquiet⟩ | hreport := act_cached W n he
  · exact (lookup_noted n.relayOnly Resolved.relayOnly hquiet).trans (hinv.cached e hold)
  · unfold Node.step
    rw [hreport]
    exact AList.lookup_insert n.relayOnly

end

/-- A node that has resolved nothing yet. -/
structure Begins (n : Node) : Prop where
  unresolved : n.relayOnly = ∅
  uncached : n.daemon.resolveCache = ∅

theorem Begins.inv {n : Node} (h : Begins n) (p : NodeID) : Inv p n := by
  refine ⟨fun e he => ?_, fun hsaid => ?_⟩
  · simp [h.uncached] at he
  · simp [Node.saysRelayOnly, h.unresolved] at hsaid

instance (p : NodeID) (n n' : Node) : Decidable (Covered p n n') :=
  decidable_of_iff
    ((∀ s ∈ newEntries n.tunnels.sent n'.tunnels.sent, s.peer = p → s.route.relayed = true) ∧
      p ∉ newEntries n.punched n'.punched ∧
      (n'.hasPeer p = true →
        n'.tunnels.routing.isRelayPeer p = true ∧ n'.tunnels.routing.isRelayPinned p = true))
    ⟨fun h => ⟨h.1, h.2.1, h.2.2⟩, fun h => ⟨h.relayed, h.unpunched, h.pinned⟩⟩

end PilotProtocol.RelayOnly
