import PilotProtocol.Tunnel.Attempts
import PilotProtocol.Tunnel.Downgrade
import PilotProtocol.Tunnel.Rejections

/-! # Forged frames against a live session

A refused PILK frame is answered with a key exchange, which counts as an attempt
of ours. Past `maxRekeyAttempts` a tick gives the peer up and its path is reset,
whether or not its session works. Up to that many PILK frames and ticks that find
the exchange pending, forged frames leave the session in place.
-/

namespace PilotProtocol.Tunnel

open Library KeyExchange Envelope

theorem Effect.known {W : World} {now : Nat} {t : TunnelManager} {op : Daemon.Op} {c : Core}
    {peer : NodeID} {pk : Bytes} (h : Effect W now t op c)
    (hreg : ∀ n key, W.registry n peer = some key → key = pk)
    (hknown : t.kx.pubKeys.Known peer pk) : c.pubKeys.Known peer pk := by
  cases h with
  | quiet | plaintext ip hplain => exact hknown
  | auth data hframe => exact (Manager.admitAuth_admits ..).cached.known hreg hknown
  | unauth data hframe => exact (Manager.admitUnauth_admits ..).cached.known hreg hknown
  | secure data hframe houtcome => cases houtcome <;> exact hknown
  | forgotten q hforgets => exact hknown.invalidatePeerPubKey q

namespace Daemon

/-- What an attacker can bring about: datagrams, the passing of ticks, and the path resets
that ticks start. -/
def Op.outside : Op → Bool
  | .recv _ _ => true
  | .tick => true
  | .reset _ _ => true
  | _ => false

/-- The datagram was not made with the keys of `peer`: a PILA frame that names it is not
signed under `pk`, a PILS frame that names it does not open under `key`. -/
def Op.forged (P : Primitives) (peer : NodeID) (pk key : Bytes) (op : Op) : Bool :=
  match op.frame with
  | some (.authEx, data) =>
    !(parseAuth data).any fun f =>
      decide (f.peer = peer) && P.verify pk (authChallenge peer f.x25519) f.signature
  | some (.secure, data) => !genuine P key peer data
  | _ => true

def Op.secureFrom (peer : NodeID) (op : Op) : Bool :=
  match op.frame with
  | some (.secure, data) => (parseSecure data).any fun f => decide (f.peer = peer)
  | _ => false

def keyFound (W : World) (peer : NodeID) (d : Daemon) (i : Input) : Bool :=
  match i.op.frame with
  | some (.keyEx, data) =>
    !(parseUnauth data).any (fun f => decide (f.peer = peer)) ||
      (d.tunnels.kx.getPeerPubKey W.registry i.now peer).1.isOk
  | _ => true

/-- What can count as an attempt at `peer`: a PILK frame that names it, or a tick while a key
exchange with it is pending. -/
def Op.presses (peer : NodeID) (d : Daemon) (op : Op) : Bool :=
  match op with
  | .tick => d.tunnels.kx.rk.pendingRekeyHas peer
  | _ =>
    match op.frame with
    | some (.keyEx, data) => (parseUnauth data).any fun f => decide (f.peer = peer)
    | _ => false

/-- No tick comes after more than `maxRekeyAttempts` such inputs, when `n` are counted at the
start. -/
def attemptsLast (W : World) (peer : NodeID) : Nat → Daemon → List Input → Bool
  | _, _, [] => true
  | n, d, i :: rest =>
    (match i.op with
      | .tick => decide (n ≤ maxRekeyAttempts)
      | _ => true) &&
      attemptsLast W peer (n + (i.op.presses peer d).toNat) (step W d i) rest

/-! ## Path resets -/

variable (W : World) (now : Nat) (d : Daemon)

theorem onRekeyGaveUp_resetting {peer q : NodeID} (hne : q ≠ peer) (hidle : peer ∉ d.resetting) :
    peer ∉ (d.onRekeyGaveUp W now q).resetting := by
  unfold onRekeyGaveUp
  split_ifs
  · exact hidle
  · exact hidle
  · simp [hidle, hne.symm]

theorem rekeyRetransmitTick_resetting {peer : NodeID} (hidle : peer ∉ d.resetting)
    (hleft : peer ∉ (d.tunnels.kx.rk.scanPending now).1) :
    peer ∉ (d.rekeyRetransmitTick W now).resetting := by
  have hothers : ∀ q ∈ (d.tunnels.kx.rk.scanPending now).1, q ≠ peer :=
    fun q hq hpeer => hleft (hpeer ▸ hq)
  exact run_invariant (fun d : Daemon => peer ∉ d.resetting)
    (fun d q h hq => onRekeyGaveUp_resetting W now d hq h)
    (s := d.onTunnels fun t => t.withRekey (d.tunnels.kx.rk.scanPending now).2.2) hidle
    (allSteps_of_inputs _ _ hothers)

theorem ensureTunnel_resetting (peer : NodeID) (answer : Option Resolved) :
    (d.ensureTunnel W now peer answer).2.resetting = d.resetting := by
  have hconnect : ∀ (d : Daemon) r, (d.connect W now peer r).2.resetting = d.resetting := by
    intro d r
    unfold connect
    cases r.addr with
    | none => rfl
    | some addr =>
      simp only
      split <;> rfl
  unfold ensureTunnel
  repeat' split
  any_goals exact hconnect _ _
  all_goals rfl

theorem resetPeerPath_resetting (peer : NodeID) (answer : Option Resolved) :
    (d.resetPeerPath W now peer answer).resetting = d.resetting := by
  unfold resetPeerPath
  simp only
  split
  · have hensure := ensureTunnel_resetting W now
      { d with
        tunnels := forgetPath d.tunnels peer
        resolveCache := d.resolveCache.erase peer
        epCache := d.epCache.erase peer } peer answer
    split <;> next h => rw [h] at hensure; exact hensure
  · rfl

/-! ## One step -/

/-- The session of `peer` is the object `head` with at most `fails` failures counted, at most
`tries` attempts are counted for `peer`, the cache holds no wrong key for it, and no path
reset is under way for it. -/
structure Live (peer : NodeID) (pk : Bytes) (head : CryptoHead) (fails tries : Nat) (d : Daemon) :
    Prop where
  attempts : d.tunnels.attempts peer ≤ tries
  session : ∃ s, d.tunnels.core.session peer = some s ∧ s.head = head ∧ s.decryptFailCount ≤ fails
  known : d.tunnels.kx.pubKeys.Known peer pk
  identity : d.tunnels.kx.setup.identity.isSome = true
  idle : peer ∉ d.resetting

/-- An input from outside, forged, that finds the key of `peer` there. -/
structure Harmless (W : World) (peer : NodeID) (pk key : Bytes) (d : Daemon) (i : Input) : Prop where
  outside : i.op.outside = true
  forged : i.op.forged W.P peer pk key = true
  found : keyFound W peer d i = true

section

variable {W : World} {peer : NodeID} {pk : Bytes} {head : CryptoHead} {fails tries : Nat}
  {d : Daemon} {i : Input}

theorem Live.not_given_up (h : Live peer pk head fails tries d) (htries : tries ≤ maxRekeyAttempts)
    (now : Nat) : peer ∉ (d.tunnels.kx.rk.scanPending now).1 := by
  intro hspent
  obtain ⟨st, hst, hattempts⟩ := RekeyTable.mem_scanPending_toGiveUp.mp hspent
  have hle := h.attempts
  simp only [TunnelManager.attempts, RekeyTable.attempts, hst, Option.elim_some] at hle
  omega

theorem Live.idle_step (h : Live peer pk head fails tries d)
    (htries : i.op = .tick → tries ≤ maxRekeyAttempts)
    (hharmless : Harmless W peer pk head.key d i) : peer ∉ (step W d i).resetting := by
  obtain ⟨now, op⟩ := i
  have houtside := hharmless.outside
  cases op with
  | recv frame remote => exact h.idle
  | tick => exact rekeyRetransmitTick_resetting W now d h.idle (h.not_given_up (htries rfl) now)
  | reset q answer =>
    unfold step
    simp only
    split
    · rw [resetPeerPath_resetting]
      exact fun hmem => h.idle (List.mem_of_mem_erase hmem)
    · exact h.idle
  | sendTo | addPeer | removePeer | dropCrypto => cases houtside

theorem Live.not_forgotten (h : Live peer pk head fails tries d)
    (hharmless : Harmless W peer pk head.key d i) : step W d i = d ∨ i.op.forgets ≠ some peer := by
  obtain ⟨now, op⟩ := i
  have houtside := hharmless.outside
  cases op with
  | recv frame remote | tick => exact .inr nofun
  | reset q answer =>
    by_cases hq : q ∈ d.resetting
    · right
      intro hforgets
      cases hforgets
      exact h.idle hq
    · left
      unfold step
      simp only [if_neg hq]
  | sendTo | addPeer | removePeer | dropCrypto => cases houtside

theorem Harmless.not_verified (hharmless : Harmless W peer pk head.key d i)
    (hreg : ∀ n key, W.registry n peer = some key → key = pk)
    (hknown : d.tunnels.kx.pubKeys.Known peer pk) {data x25519 : Bytes}
    (hframe : i.op.frame = some (.authEx, data)) :
    ¬ Manager.AuthVerified W.P W.registry i.now d.tunnels.kx data peer x25519 := by
  intro hverified
  obtain ⟨f, hparse, hpeer, hverify⟩ := hverified.signed hreg hknown
  have hforged := hharmless.forged
  simp [Op.forged, hframe, hparse, hpeer, hverify] at hforged

theorem Harmless.not_unknown (hharmless : Harmless W peer pk head.key d i)
    (hid : d.tunnels.kx.setup.identity.isSome = true) {data x25519 : Bytes}
    (hframe : i.op.frame = some (.keyEx, data)) :
    ¬ Manager.UnauthUnknown W.registry i.now d.tunnels.kx data peer x25519 := by
  rintro ⟨f, hparse, hpeer, _, hunknown⟩
  obtain ⟨e, he⟩ := hunknown hid
  have hfound := hharmless.found
  simp [keyFound, hframe, hparse, hpeer, he, Except.isOk, Except.toBool] at hfound

theorem Harmless.decryptWith (hharmless : Harmless W peer pk head.key d i) {data : Bytes}
    {f : SecureFrame} {c : Crypto} (hframe : i.op.frame = some (.secure, data))
    (hparse : parseSecure data = some f) (hpeer : f.peer = peer) (hkey : c.key = head.key) :
    i.op.secureFrom peer = true ∧
      decryptWith W.P c f = (aeadResult f c.maxRecvNonce, countFailure c) := by
  have hsecure : i.op.secureFrom peer = true := by simp [Op.secureFrom, hframe, hparse, hpeer]
  have hforged := hharmless.forged
  have hopen : openWith W.P c f = none := by
    simpa [Op.forged, hframe, genuine, hparse, hpeer, openWith, hkey] using hforged
  obtain ⟨_, hwith⟩ | ⟨_, hsome, _⟩ | ⟨_, hsome, _⟩ := decryptWith_cases W.P c f
  · exact ⟨hsecure, hwith⟩
  · simp [hopen] at hsome
  · simp [hopen] at hsome

theorem Live.session_step (h : Live peer pk head fails tries d)
    (hharmless : Harmless W peer pk head.key d i)
    (hreg : ∀ n key, W.registry n peer = some key → key = pk)
    (hfails : fails + (i.op.secureFrom peer).toNat < decryptFailDropThreshold) :
    ∃ s, (step W d i).tunnels.core.session peer = some s ∧ s.head = head ∧
      s.decryptFailCount ≤ fails + (i.op.secureFrom peer).toNat := by
  obtain ⟨s, hs, hhead, hcount⟩ := h.session
  have hmore : s.decryptFailCount ≤ fails + (i.op.secureFrom peer).toNat := by omega
  obtain hsame | hkept := h.not_forgotten hharmless
  · rw [hsame]
    exact ⟨s, hs, hhead, hmore⟩
  have hchange := (step_effect W d i).session peer
  generalize (step W d i).tunnels.core.session peer = after at hchange ⊢
  have hobject : ∀ c, d.tunnels.kx.env.get peer = some c → TunnelManager.forgetSends c = s := by
    intro c hc
    rwa [TunnelManager.session_of_get hc, Option.some.injEq] at hs
  cases hchange with
  | kept => exact ⟨s, hs, hhead, hmore⟩
  | forgotten hforgets => exact absurd hforgets hkept
  | opened data f c hframe hparse hpeer hc hready =>
    obtain rfl := hobject c hc
    have hkey : c.key = head.key := congrArg CryptoHead.key hhead
    obtain ⟨hsecure, hwith⟩ := hharmless.decryptWith hframe hparse hpeer hkey
    refine ⟨_, rfl, ?_, ?_⟩
    · rwa [hwith]
    · rw [hwith, hsecure]
      exact Nat.succ_le_succ hcount
  | dropped data f c e store hframe hparse hpeer hc hready herr hdrop =>
    obtain rfl := hobject c hc
    have hkey : c.key = head.key := congrArg CryptoHead.key hhead
    obtain ⟨hsecure, hwith⟩ := hharmless.decryptWith hframe hparse hpeer hkey
    rw [hwith] at herr hdrop
    cases herr
    have hbelow : (countFailure c).decryptFailCount < decryptFailDropThreshold := by
      rw [hsecure] at hfails
      exact Nat.lt_of_le_of_lt (Nat.succ_le_succ hcount) hfails
    simp [TunnelManager.shouldDrop, Store.shouldDropOnDecryptFail, hbelow] at hdrop
  | auth data key x25519 noncePrefix pc hframe hverified hpc =>
    exact absurd hverified (hharmless.not_verified hreg h.known hframe)
  | unauth data key x25519 noncePrefix pc hframe hunknown hpc =>
    exact absurd hunknown (hharmless.not_unknown h.identity hframe)

theorem Live.recv_attempts {frame : Bytes} {remote : Option Routing.UDPAddr} {now : Nat}
    (h : Live peer pk head fails tries d) (hready : head.ready = true)
    (hharmless : Harmless W peer pk head.key d ⟨now, .recv frame remote⟩)
    (hreg : ∀ n key, W.registry n peer = some key → key = pk)
    (hnamed : named (carried frame) = some peer)
    (hkept : ((step W d ⟨now, .recv frame remote⟩).tunnels.core.session peer).isSome = true) :
    (step W d ⟨now, .recv frame remote⟩).tunnels.attempts peer ≤
      d.tunnels.attempts peer + ((Op.recv frame remote).presses peer d).toNat := by
  obtain ⟨t, hnoted, hdispatched⟩ :=
    TunnelManager.readLoopOneIter_handled W now d.tunnels frame remote
  have hkx : t.kx = d.tunnels.kx := by rw [hnoted.same]
  have hattempts : t.attempts peer = d.tunnels.attempts peer := by
    rw [TunnelManager.attempts, hkx]
    rfl
  have hstep : (step W d ⟨now, .recv frame remote⟩).tunnels =
      d.tunnels.readLoopOneIter W now frame remote := rfl
  rw [hstep] at hkept ⊢
  rw [← hattempts]
  generalize d.tunnels.readLoopOneIter W now frame remote = t' at hdispatched hkept ⊢
  cases hdispatched with
  | ignored => exact Nat.le_add_right _ _
  | auth data source fromRelay hframe =>
    refine (TunnelManager.handleAuthFrame_attempts_le source fromRelay ?_ ?_).trans
      (Nat.le_add_right _ _)
    · exact fun x25519 => hkx ▸ hharmless.not_verified hreg h.known hframe
    · intro f hparse
      simpa [hframe, named, hparse] using hnamed
  | unauth data source fromRelay hframe =>
    have hpresses : (Op.recv frame remote).presses peer d = true := by
      simp only [hframe, named, Option.map_eq_some_iff] at hnamed
      obtain ⟨f, hparse, hf⟩ := hnamed
      simp [Op.presses, Op.frame, hframe, hparse, hf]
    rw [hpresses]
    refine TunnelManager.handleUnauthFrame_attempts_le source fromRelay ?_ ?_
    · exact fun x25519 => hkx ▸ hharmless.not_unknown h.identity hframe
    · intro f hparse
      simpa [hframe, named, hparse] using hnamed
  | secure data source hframe =>
    obtain ⟨s, hs, hhead, _⟩ := h.session
    obtain ⟨c, hc, rfl⟩ := Option.map_eq_some_iff.mp hs
    have hgetReady : t.kx.env.getReady peer = some c := by
      rw [hkx]
      exact Store.getReady_eq_some.mpr ⟨hc, (congrArg CryptoHead.ready hhead).trans hready⟩
    refine (TunnelManager.handleEncrypted_attempts_le source hgetReady ?_ hkept).trans
      (Nat.le_add_right _ _)
    intro f hparse
    simpa [hframe, named, hparse] using hnamed
  | plain data source =>
    unfold TunnelManager.deliverPlaintext
    repeat' split
    all_goals exact Nat.le_add_right _ _

theorem Live.attempts_step (h : Live peer pk head fails tries d) (hready : head.ready = true)
    (hharmless : Harmless W peer pk head.key d i)
    (hreg : ∀ n key, W.registry n peer = some key → key = pk)
    (hkept : ((step W d i).tunnels.core.session peer).isSome = true) :
    (step W d i).tunnels.attempts peer ≤ tries + (i.op.presses peer d).toNat := by
  refine Nat.le_trans ?_ (Nat.add_le_add_right h.attempts _)
  obtain ⟨now, op⟩ := i
  have houtside := hharmless.outside
  have hothers : op.Within (.sparing peer) d now →
      (step W d ⟨now, op⟩).tunnels.attempts peer ≤
        d.tunnels.attempts peer + (op.presses peer d).toNat := fun hwithin =>
    ((step_moves d trivial trivial hwithin).attempts_le fun hne => hne rfl).trans
      (Nat.le_add_right _ _)
  cases op with
  | recv frame remote =>
    by_cases hnamed : named (carried frame) = some peer
    · exact h.recv_attempts hready hharmless hreg hnamed hkept
    · exact hothers ⟨fun _ _ => trivial, fun q hq hpeer => hnamed (hpeer ▸ hq)⟩
  | tick => exact rekeyRetransmitTick_attempts_le d
  | reset q answer =>
    by_cases hq : q = peer
    · subst hq
      unfold step
      simp only [if_neg h.idle]
      exact Nat.le_add_right _ _
    · exact hothers ⟨Ne.symm hq, trivial⟩
  | sendTo | addPeer | removePeer | dropCrypto => cases houtside

theorem Live.step (h : Live peer pk head fails tries d) (hready : head.ready = true)
    (hharmless : Harmless W peer pk head.key d i)
    (hreg : ∀ n key, W.registry n peer = some key → key = pk)
    (hfails : fails + (i.op.secureFrom peer).toNat < decryptFailDropThreshold)
    (htries : i.op = .tick → tries ≤ maxRekeyAttempts) :
    Live peer pk head (fails + (i.op.secureFrom peer).toNat) (tries + (i.op.presses peer d).toNat)
      (step W d i) where
  attempts := by
    obtain ⟨s, hs, _⟩ := h.session_step hharmless hreg hfails
    exact h.attempts_step hready hharmless hreg (Option.isSome_iff_exists.mpr ⟨s, hs⟩)
  session := h.session_step hharmless hreg hfails
  known := (step_effect W d i).known hreg h.known
  identity := by
    have hsetup : (Daemon.step W d i).tunnels.kx.setup = d.tunnels.kx.setup := (step_effect W d i).setup
    rw [hsetup]
    exact h.identity
  idle := h.idle_step htries hharmless

theorem Live.installed (h : Live peer pk head fails tries d) :
    (d.tunnels.kx.env.get peer).map Crypto.head = some head := by
  obtain ⟨s, hs, hhead, _⟩ := h.session
  obtain ⟨c, hc, rfl⟩ := Option.map_eq_some_iff.mp hs
  rw [hc, Option.map_some, ← hhead]
  rfl

end

/-! ## Every run -/

/-- On a node with an identity, in every run of datagrams not made with the keys of `peer`,
ticks and path resets, with fewer failing PILS frames than drop the session: as long as
`GetPeerPubKey` finds the key of `peer` when a PILK frame names it, and before every tick the
attempts at the start, the PILK frames that named `peer` and the ticks that found its key
exchange pending are together at most `maxRekeyAttempts`, the ready session of `peer` stays
the object it was and no tick gives `peer` up. -/
theorem forged_keep_session (W : World) (d : Daemon) (peer : NodeID) (pk : Bytes) (c : Crypto)
    (inputs : List Input) (hget : d.tunnels.kx.env.get peer = some c) (hready : c.ready = true)
    (hid : d.tunnels.kx.setup.identity.isSome = true)
    (hreg : ∀ n key, W.registry n peer = some key → key = pk)
    (hknown : ∀ key, d.tunnels.kx.pubKeys.peerPubKeys.lookup peer = some key → key = pk)
    (hidle : peer ∉ d.resetting)
    (hfails : c.decryptFailCount + (inputs.map fun i => (i.op.secureFrom peer).toNat).sum <
      decryptFailDropThreshold)
    (hforged : ∀ i ∈ inputs, i.op.outside = true ∧ i.op.forged W.P peer pk c.key = true)
    (hfound : AllSteps (step W) (fun d i => keyFound W peer d i = true) d inputs)
    (htries : attemptsLast W peer (d.tunnels.attempts peer) d inputs = true) :
    AllSteps (step W) (fun d i =>
      ((step W d i).tunnels.kx.env.get peer).map Crypto.head = some c.head ∧
        (i.op = .tick → peer ∉ (d.tunnels.kx.rk.scanPending i.now).1)) d inputs := by
  have hlive : Live peer pk c.head c.decryptFailCount (d.tunnels.attempts peer) d :=
    ⟨le_rfl, ⟨_, TunnelManager.session_of_get hget, rfl, le_rfl⟩, hknown, hid, hidle⟩
  have hharmless := (allSteps_of_inputs (step W) d hforged).and hfound
  generalize d.tunnels.attempts peer = tries at hlive htries
  generalize c.decryptFailCount = fails at hlive hfails
  clear hget hid hknown hidle hforged hfound
  -- the two budgets are spent along the run
  induction inputs generalizing d fails tries with
  | nil => trivial
  | cons i rest ih =>
    rw [List.map_cons, List.sum_cons, ← Nat.add_assoc] at hfails
    obtain ⟨⟨houtside, hforged⟩, hfound⟩ := hharmless.1
    rw [attemptsLast, Bool.and_eq_true] at htries
    have hleft : i.op = .tick → tries ≤ maxRekeyAttempts := by
      intro htick
      simpa [htick] using htries.1
    have hnext := hlive.step hready ⟨houtside, hforged, hfound⟩ hreg (by omega) hleft
    exact ⟨⟨hnext.installed, fun htick => hlive.not_given_up (hleft htick) i.now⟩,
      ih (step W d i) hharmless.2 _ htries.2 _ hnext hfails⟩

/-! ## Six forged key exchanges -/

def handshake : List Input := [⟨second, .recv peerAuthFrame (some ⟨9, 9⟩)⟩]

def forgedRequest (now : Nat) : Input :=
  ⟨now, .recv (tunnelMagicKeyEx ++ nodeBytes 7 ++ List.replicate 32 6) (some ⟨6, 6⟩)⟩

/-- Forged frames of each kind in the name of node 7, with ticks between them. -/
def forgeries : List Input :=
  [forgedRequest (2 * second), forgedRequest (3 * second),
   ⟨3 * second, .recv (tunnelMagicAuthEx ++ nodeBytes 7 ++ List.replicate 128 6) (some ⟨6, 6⟩)⟩,
   ⟨4 * second, .recv (tunnelMagicSecure ++ nodeBytes 7 ++ List.replicate 40 6) (some ⟨6, 6⟩)⟩,
   ⟨8 * second, .tick⟩, ⟨9 * second, .reset 7 none⟩]

theorem forgeries_keep_session :
    ((run toyWorld (start toySetup 1 none) (handshake ++ forgeries)).tunnels.kx.rk.pendingRekey.lookup
      7).map (·.attempts) = some 3 ∧
    ∃ c, (run toyWorld (start toySetup 1 none) handshake).tunnels.kx.env.get 7 = some c ∧
      AllSteps (step toyWorld) (fun d i =>
        ((step toyWorld d i).tunnels.kx.env.get 7).map Crypto.head = some c.head ∧
          (i.op = .tick → 7 ∉ (d.tunnels.kx.rk.scanPending i.now).1))
        (run toyWorld (start toySetup 1 none) handshake) forgeries := by
  have hsession : ((run toyWorld (start toySetup 1 none) handshake).tunnels.kx.env.get 7).map
      (fun c => (c.key, c.ready, c.decryptFailCount)) = some (List.replicate 32 8, true, 0) := by
    decide +kernel
  obtain ⟨c, hget, hc⟩ := Option.map_eq_some_iff.mp hsession
  have hkey : c.key = List.replicate 32 8 := congrArg Prod.fst hc
  have hready : c.ready = true := congrArg (·.2.1) hc
  have hcount : c.decryptFailCount = 0 := congrArg (·.2.2) hc
  refine ⟨by decide +kernel, c, hget, forged_keep_session toyWorld _ 7 (List.replicate 32 7) c
    forgeries hget hready (by decide +kernel) ?_ ?_ (by decide +kernel) ?_ ?_ (by decide +kernel)
    (by decide +kernel)⟩
  · intro n key hkey
    exact (Option.some.inj hkey).symm
  · have hcached : (run toyWorld (start toySetup 1 none)
        handshake).tunnels.kx.pubKeys.peerPubKeys.lookup 7 = some (List.replicate 32 7) := by
      decide +kernel
    intro key hkey
    rw [hcached] at hkey
    exact (Option.some.inj hkey).symm
  · rw [hcount]
    decide +kernel
  · rw [hkey]
    decide +kernel

/-- Six forged PILK frames, a tick and the path reset it starts. -/
def exhaustion : List Input :=
  [forgedRequest (2 * second), forgedRequest (3 * second), forgedRequest (4 * second),
   forgedRequest (5 * second), forgedRequest (6 * second), forgedRequest (7 * second),
   ⟨8 * second, .tick⟩, ⟨9 * second, .reset 7 none⟩]

/-- The frames are all forged, the key of node 7 is found every time, its session is ready,
authenticated and in use up to the tick, and then it is gone. -/
theorem exhaustion_drops_session : (∀ i ∈ exhaustion, i.op.outside = true ∧
      i.op.forged toyPrimitives 7 (List.replicate 32 7) (List.replicate 32 8) = true ∧
      i.op.secureFrom 7 = false) ∧
    AllSteps (step toyWorld) (fun d i => keyFound toyWorld 7 d i = true)
      (run toyWorld (start toySetup 1 none) handshake) exhaustion ∧
    (run toyWorld (start toySetup 1 none) (handshake ++ exhaustion.take 6)).tunnels.peerInUse
      toyWorld 7 (8 * second) = true ∧
    ((run toyWorld (start toySetup 1 none) (handshake ++ exhaustion.take 7)).tunnels.kx.env.get 7).map
      (fun c => (c.key, c.ready, c.authenticated)) = some (List.replicate 32 8, true, true) ∧
    (run toyWorld (start toySetup 1 none) (handshake ++ exhaustion)).tunnels.kx.env.has 7 = false := by
  decide +kernel

end Daemon

end PilotProtocol.Tunnel
