import PilotProtocol.Tunnel.Footprint
import PilotProtocol.Tunnel.GiveUp

/-! # Two daemons

Two daemons that look each other's keys up in the registry. Each takes steps of
its own, on inputs that concern the other: ticks, sends, resets, and datagrams
that name the other, late, repeated, out of order or forged. Either may restart
with a new X25519 key. `Sound` is what such a run keeps of one daemon.
-/

namespace PilotProtocol.Tunnel

open Library KeyExchange Envelope
open Routing (UDPAddr)

structure Party where
  W : World
  node : NodeID
  identity : Bytes

namespace Party

def ed25519 (p : Party) : Bytes := p.W.P.ed25519Public p.identity

end Party

/-- Signing and key agreement work for keys made with them, and lengths are the fixed ones. -/
structure Correct (P : Primitives) : Prop where
  x25519_length : ∀ priv, (P.x25519Public priv).length = 32
  ed25519_length : ∀ identity, (P.ed25519Public identity).length = 32
  sign_length : ∀ identity message, (P.sign identity message).length = 64
  verify_sign : ∀ identity message,
    P.verify (P.ed25519Public identity) message (P.sign identity message) = true
  ecdh_public : ∀ priv priv', (P.ecdh priv (P.x25519Public priv')).isSome = true

/-- What `p` is configured with: its identity, a lookup of keys, and an X25519 key pair. -/
structure Configured (p : Party) (setup : Setup) : Prop where
  identity : setup.identity = some p.identity
  verifyFunc : setup.verifyFunc = true
  keys : ∃ priv, setup.privKey = some priv ∧ setup.pubKey = some (p.W.P.x25519Public priv)

/-- `p` uses the same cryptography as `q`, its lookups of `q`'s key all succeed, and it does
not run out of randomness. -/
structure Resolves (p q : Party) : Prop where
  primitives : q.W.P = p.W.P
  registry : ∀ n, p.W.registry n q.node = some q.ed25519
  entropy : ∀ n, (p.W.entropy n).isSome = true

structure Sound (p q : Party) (c : Core) : Prop where
  configured : Configured p c.setup
  node : c.localNodeID = p.node
  known : c.pubKeys.Known q.node q.ed25519
  noRefusal : c.pubKeys.negPubKeys.lookup q.node = none
  ready : ∀ s, c.session q.node = some s → s.ready = true

section

variable {p q : Party} {now : Nat}

theorem Sound.admits {auth : Bool} {allowed : NodeID → Bytes → Prop} {node : NodeID}
    {verdict : Verdict} {t : TunnelManager} {kx : KeyExchange.Manager} (h : Sound p q t.core)
    (hpq : Resolves p q)
    (hadmits : Manager.Admits p.W.registry now auth allowed node t.kx verdict kx) :
    Sound p q { t with kx }.core := by
  obtain ⟨_, hsetup, hnode⟩ := hadmits.same
  have hreg : ∀ n key, p.W.registry n q.node = some key → key = q.ed25519 := fun n key hkey =>
    Option.some.inj (hkey.symm.trans (hpq.registry n))
  have hconfigured := h.configured
  rw [show t.core.setup = t.kx.setup from rfl, ← hsetup] at hconfigured
  refine ⟨hconfigured, hnode.trans h.node, hadmits.cached.known hreg h.known,
    hadmits.cached.noRefusal hpq.registry h.noRefusal, fun s hs => ?_⟩
  obtain ⟨c, hc, rfl⟩ := Option.map_eq_some_iff.mp hs
  obtain hsame | ⟨pc, _, _, _, _, hget, _, hpc⟩ := hadmits.session q.node
  · exact h.ready _ (TunnelManager.session_of_get (hsame ▸ hc))
  · rw [show kx.env.get q.node = some c from hc, Option.some.injEq] at hget
    rw [hget, hpc]
    rfl

theorem Effect.sound {t : TunnelManager} {op : Daemon.Op} {c : Core} (he : Effect p.W now t op c)
    (h : Sound p q t.core) (hpq : Resolves p q) : Sound p q c := by
  have hready : ∀ s, c.session q.node = some s → s.ready = true := by
    intro s hs
    have hchange := he.session q.node
    rw [hs] at hchange
    generalize hafter : some s = after at hchange
    cases hchange with
    | kept => exact h.ready s hafter.symm
    | forgotten hforgets | dropped => cases hafter
    | opened data f c₀ hframe hparse hpeer hc hready =>
      cases hafter
      exact (congrArg CryptoHead.ready (decryptWith_head p.W.P c₀ f)).trans hready
    | auth data key x25519 noncePrefix pc hframe hverified hpc
    | unauth data key x25519 noncePrefix pc hframe hunknown hpc =>
      cases hafter
      rw [hpc]
      rfl
  cases he with
  | quiet => exact h
  | auth data hframe => exact h.admits hpq (Manager.admitAuth_admits ..)
  | unauth data hframe => exact h.admits hpq (Manager.admitUnauth_admits ..)
  | secure data hframe houtcome =>
    have hnode := (decryptFrame_localNodeID p.W.P t.kx.env data).trans h.node
    cases houtcome <;> exact ⟨h.configured, hnode, h.known, h.noRefusal, hready⟩
  | plaintext ip hplain => exact ⟨h.configured, h.node, h.known, h.noRefusal, hready⟩
  | forgotten forgot hforgets =>
    refine ⟨h.configured, h.node, h.known.invalidatePeerPubKey forgot, ?_, hready⟩
    have hneg := GoMap.lookup_erase_ite t.kx.pubKeys.negPubKeys forgot q.node
    refine hneg.trans ?_
    split
    · rfl
    · exact h.noRefusal

end

/-! ## Joint runs -/

inductive Side
  | a
  | b

structure Joint where
  a : Daemon
  b : Daemon

inductive Act
  | input (side : Side) (i : Daemon.Input)
  | restart (side : Side) (setup : Setup) (beaconAddr : Option UDPAddr)

/-- An input concerns the other party, and a restart keeps the identity. -/
def Act.Allowed (A B : Party) : Act → Prop
  | .input .a i => i.op.concerns B.node = true
  | .input .b i => i.op.concerns A.node = true
  | .restart .a setup _ => Configured A setup
  | .restart .b setup _ => Configured B setup

namespace Joint

def step (A B : Party) (j : Joint) : Act → Joint
  | .input .a i => { j with a := Daemon.step A.W j.a i }
  | .input .b i => { j with b := Daemon.step B.W j.b i }
  | .restart .a setup beaconAddr => { j with a := Daemon.start setup A.node beaconAddr }
  | .restart .b setup beaconAddr => { j with b := Daemon.start setup B.node beaconAddr }

def run (A B : Party) (j : Joint) (acts : List Act) : Joint := acts.foldl (step A B) j

def start (A B : Party) (setupA setupB : Setup) (beaconA beaconB : Option UDPAddr) : Joint :=
  ⟨Daemon.start setupA A.node beaconA, Daemon.start setupB B.node beaconB⟩

end Joint

/-- A daemon of `p` as a run with `q` leaves it. -/
structure Fit (p q : Party) (d : Daemon) : Prop where
  sound : Sound p q d.tunnels.core
  waits : Daemon.WaitsOnly q.node d

theorem fit_start {p : Party} (q : Party) {setup : Setup} (h : Configured p setup)
    (beaconAddr : Option UDPAddr) : Fit p q (Daemon.start setup p.node beaconAddr) where
  sound := ⟨h, rfl, nofun, rfl, nofun⟩
  waits := nofun

theorem Fit.step {p q : Party} {d : Daemon} (h : Fit p q d) (hpq : Resolves p q) {i : Daemon.Input}
    (hi : i.op.concerns q.node = true) : Fit p q (Daemon.step p.W d i) where
  sound := (Daemon.step_effect p.W d i).sound h.sound hpq
  waits := Daemon.waitsOnly_step h.waits hi

theorem Joint.fit_run {A B : Party} (hAB : Resolves A B) (hBA : Resolves B A) {j : Joint}
    (hj : Fit A B j.a ∧ Fit B A j.b) {acts : List Act} (hacts : ∀ act ∈ acts, act.Allowed A B) :
    Fit A B (j.run A B acts).a ∧ Fit B A (j.run A B acts).b := by
  refine run_invariant (fun j : Joint => Fit A B j.a ∧ Fit B A j.b) ?_ hj
    (allSteps_of_inputs (Joint.step A B) j hacts)
  intro j act h hallowed
  cases act with
  | input side i =>
    cases side with
    | a => exact ⟨h.1.step hAB hallowed, h.2⟩
    | b => exact ⟨h.1, h.2.step hBA hallowed⟩
  | restart side setup beaconAddr =>
    cases side with
    | a => exact ⟨fit_start B hallowed beaconAddr, h.2⟩
    | b => exact ⟨h.1, fit_start A hallowed beaconAddr⟩

/-! ## The frames of a party -/

namespace Party

def authFrame (p : Party) (pub : Bytes) : Bytes :=
  tunnelMagicAuthEx ++ nodeBytes p.node ++ pub ++ p.ed25519 ++
    p.W.P.sign p.identity (authChallenge p.node pub)

def unauthFrame (p : Party) (pub : Bytes) : Bytes := tunnelMagicKeyEx ++ nodeBytes p.node ++ pub

theorem magicOf_authFrame (p : Party) (pub : Bytes) : magicOf (p.authFrame pub) = some .authEx := by
  have htake : (p.authFrame pub).take 4 = tunnelMagicAuthEx := rfl
  unfold magicOf
  rw [htake]
  decide

theorem magicOf_unauthFrame (p : Party) (pub : Bytes) :
    magicOf (p.unauthFrame pub) = some .keyEx := by
  have htake : (p.unauthFrame pub).take 4 = tunnelMagicKeyEx := rfl
  unfold magicOf
  rw [htake]
  decide

theorem parseAuth_authFrame (p : Party) (hP : Correct p.W.P) {pub : Bytes} (hpub : pub.length = 32) :
    parseAuth ((p.authFrame pub).drop 4) =
      some ⟨p.node, pub, p.ed25519, p.W.P.sign p.identity (authChallenge p.node pub)⟩ := by
  have hed : p.ed25519.length = 32 := hP.ed25519_length p.identity
  have hsig := hP.sign_length p.identity (authChallenge p.node pub)
  generalize hs : p.W.P.sign p.identity (authChallenge p.node pub) = sig at hsig ⊢
  have hdata : (p.authFrame pub).drop 4 = nodeBytes p.node ++ (pub ++ (p.ed25519 ++ sig)) := by
    simp [authFrame, tunnelMagicAuthEx, hs]
  have hlen : ¬ (nodeBytes p.node ++ (pub ++ (p.ed25519 ++ sig))).length < 4 + 32 + 32 + 64 := by
    simp [hpub, hed, hsig]
  have hkey : (nodeBytes p.node ++ (pub ++ (p.ed25519 ++ sig))).drop 4 = pub ++ (p.ed25519 ++ sig) :=
    List.drop_left' (length_nodeBytes p.node)
  have hid : (nodeBytes p.node ++ (pub ++ (p.ed25519 ++ sig))).drop 36 = p.ed25519 ++ sig := by
    rw [← List.append_assoc]
    exact List.drop_left' (by simp [hpub])
  have hsignature : (nodeBytes p.node ++ (pub ++ (p.ed25519 ++ sig))).drop 68 = sig := by
    rw [← List.append_assoc, ← List.append_assoc]
    exact List.drop_left' (by simp [hpub, hed])
  rw [hdata, parseAuth, if_neg hlen, readNode_nodeBytes, hkey, hid, hsignature,
    List.take_left' hpub, List.take_left' hed, List.take_of_length_le (Nat.le_of_eq hsig)]

theorem parseUnauth_unauthFrame (p : Party) {pub : Bytes} (hpub : pub.length = 32) :
    parseUnauth ((p.unauthFrame pub).drop 4) = some ⟨p.node, pub⟩ := by
  have hdata : (p.unauthFrame pub).drop 4 = nodeBytes p.node ++ pub := by
    simp [unauthFrame, tunnelMagicKeyEx]
  have hlen : ¬ (nodeBytes p.node ++ pub).length < 36 := by simp [hpub]
  rw [hdata, parseUnauth, if_neg hlen, readNode_nodeBytes, List.drop_left' (length_nodeBytes p.node),
    List.take_of_length_le (Nat.le_of_eq hpub)]

end Party

theorem Sound.buildAuthFrame {p q : Party} {t : TunnelManager} (h : Sound p q t.core) {pub : Bytes}
    (hpub : t.kx.setup.pubKey = some pub) : t.kx.buildAuthFrame p.W.P = some (p.authFrame pub) := by
  have hid : t.kx.setup.identity = some p.identity := h.configured.identity
  have hnode : t.kx.env.localNodeID = p.node := h.node
  simp only [Manager.buildAuthFrame, hpub, hid, hnode]
  rfl

theorem Sound.buildUnauthFrame {p q : Party} {t : TunnelManager} (h : Sound p q t.core) {pub : Bytes}
    (hpub : t.kx.setup.pubKey = some pub) : t.kx.buildUnauthFrame = some (p.unauthFrame pub) := by
  have hnode : t.kx.env.localNodeID = p.node := h.node
  simp only [Manager.buildUnauthFrame, hpub, hnode]
  rfl

end PilotProtocol.Tunnel
