import PilotProtocol.Tunnel.Authenticity

/-! # Downgrades of authenticated sessions

An unauthenticated frame replaces a session when the peer's key is not on record.
A PILA frame with a foreign Ed25519 key takes the key off the record before it is
looked up again, so a failed lookup opens the way for a PILK frame.
-/

namespace PilotProtocol.Tunnel

open Library KeyExchange Envelope

theorem Effect.setup {W : World} {now : Nat} {t : TunnelManager} {op : Daemon.Op} {c : Core}
    (h : Effect W now t op c) : c.setup = t.kx.setup := by
  cases h with
  | auth data hframe => exact (Manager.admitAuth_admits ..).same.2.1
  | unauth data hframe => exact (Manager.admitUnauth_admits ..).same.2.1
  | quiet | plaintext | forgotten => rfl
  | secure data hframe houtcome => cases houtcome <;> rfl

/-- A session that is authenticated in `t` is authenticated or gone in `t'`. -/
def KeepsAuthenticated (t t' : TunnelManager) : Prop :=
  ∀ peer c c', t.kx.env.get peer = some c → c.authenticated = true →
    t'.kx.env.get peer = some c' → c'.authenticated = true

namespace Daemon

/-- A PILK frame that names a peer with an authenticated session finds the peer's key:
in the cache, or in the registry with no recent failure against it. -/
def keyOnRecord (W : World) (d : Daemon) (i : Input) : Bool :=
  match i.op.frame with
  | some (.keyEx, data) =>
    match parseUnauth data with
    | none => true
    | some f =>
      !(d.tunnels.kx.env.get f.peer).any (·.authenticated) ||
        (d.tunnels.kx.getPeerPubKey W.registry i.now f.peer).1.isOk
  | _ => true

variable {W : World} {d : Daemon} {i : Input}

section

variable (hid : d.tunnels.kx.setup.identity.isSome = true) (hrecord : keyOnRecord W d i = true)
include hid hrecord

theorem not_unknown_of_keyOnRecord {data : Bytes} {peer : NodeID} {x25519 : Bytes} {c : Crypto}
    (hframe : i.op.frame = some (.keyEx, data)) (hc : d.tunnels.kx.env.get peer = some c)
    (hauth : c.authenticated = true) :
    ¬ Manager.UnauthUnknown W.registry i.now d.tunnels.kx data peer x25519 := by
  rintro ⟨f, hparse, rfl, _, hunknown⟩
  obtain ⟨e, he⟩ := hunknown hid
  simp [keyOnRecord, hframe, hparse, hc, hauth, he, Except.isOk, Except.toBool] at hrecord

theorem authenticated_of_change {peer : NodeID} {c : Crypto} {after : Option Crypto}
    (hc : d.tunnels.kx.env.get peer = some c) (hauth : c.authenticated = true)
    (hchange : SessionChange W i.now d.tunnels i.op peer after) :
    ∀ s, after = some s → s.authenticated = true := by
  intro s hs
  cases hchange with
  | kept =>
    rw [TunnelManager.session_of_get hc, Option.some.injEq] at hs
    rwa [← hs]
  | forgotten | dropped => cases hs
  | opened data f c₀ hframe hparse hpeer hc₀ hready =>
    rw [hc] at hc₀
    cases hc₀
    rw [Option.some.injEq] at hs
    rw [← hs]
    exact (congrArg CryptoHead.authenticated (decryptWith_head W.P c f)).trans hauth
  | auth data key x25519 noncePrefix pc hframe hverified hpc =>
    rw [Option.some.injEq] at hs
    rw [← hs, hpc]
  | unauth data key x25519 noncePrefix pc hframe hunknown hpc =>
    exact absurd hunknown (not_unknown_of_keyOnRecord hid hrecord hframe hc hauth)

theorem keepsAuthenticated_step : KeepsAuthenticated d.tunnels (step W d i).tunnels := by
  intro peer c c' hc hauth hc'
  exact authenticated_of_change hid hrecord hc hauth ((step_effect W d i).session peer)
    (TunnelManager.forgetSends c') (TunnelManager.session_of_get hc')

end

/-- On a node with an identity, in every run in which each PILK frame that names a peer
with an authenticated session finds the peer's key, no session is downgraded. -/
theorem authenticated_kept (W : World) (d : Daemon) (inputs : List Input)
    (hid : d.tunnels.kx.setup.identity.isSome = true)
    (hrecord : AllSteps (step W) (fun d i => keyOnRecord W d i = true) d inputs) :
    AllSteps (step W) (fun d i => KeepsAuthenticated d.tunnels (step W d i).tunnels) d inputs := by
  have hsetup : ∀ d i, d.tunnels.kx.setup.identity.isSome = true → keyOnRecord W d i = true →
      (step W d i).tunnels.kx.setup.identity.isSome = true := by
    intro d i h _
    have hsame : (step W d i).tunnels.kx.setup = d.tunnels.kx.setup := (step_effect W d i).setup
    rwa [hsame]
  exact run_every_step hsetup (fun d i h hr => keepsAuthenticated_step h hr) hid hrecord

/-- A handshake of node 7, a PILA frame in its name with another Ed25519 key, and a PILK
frame in its name with another X25519 key. -/
def forgedRekey : List Input :=
  [⟨second, .recv peerAuthFrame (some ⟨9, 9⟩)⟩,
   ⟨second, .recv (tunnelMagicAuthEx ++ nodeBytes 7 ++ List.replicate 128 6) (some ⟨6, 6⟩)⟩,
   ⟨second, .recv (tunnelMagicKeyEx ++ nodeBytes 7 ++ List.replicate 32 6) (some ⟨6, 6⟩)⟩]

theorem forgedRekey_refused :
    ((run toyWorld (start toySetup 1 none) forgedRekey).tunnels.kx.env.get 7).map (·.authenticated) =
      some true ∧
    AllSteps (step toyWorld) (fun d i => KeepsAuthenticated d.tunnels (step toyWorld d i).tunnels)
      (start toySetup 1 none) forgedRekey :=
  ⟨by decide +kernel,
    authenticated_kept toyWorld (start toySetup 1 none) forgedRekey rfl (by decide +kernel)⟩

/-- A registry that answers the first lookup and fails from then on. -/
def failingRegistry : World :=
  { toyWorld with registry := fun n node => if n = 0 then toyWorld.registry n node else none }

theorem forgedRekey_downgrades :
    ((run failingRegistry (start toySetup 1 none) (forgedRekey.take 2)).tunnels.kx.env.get 7).map
      (·.authenticated) = some true ∧
    ((run failingRegistry (start toySetup 1 none) forgedRekey).tunnels.kx.env.get 7).map
      (fun c => (c.authenticated, c.peerX25519Key)) = some (false, List.replicate 32 6) := by
  decide +kernel

end Daemon

end PilotProtocol.Tunnel
