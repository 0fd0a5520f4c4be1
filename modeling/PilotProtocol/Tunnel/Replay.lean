import PilotProtocol.Tunnel.Authenticity

/-! # Replays

The replay window lives in the session object. One object opens no frame twice; a
session that is dropped and set up again between the same keys is a new object,
which opens the old frames once more. A frame with counter zero, which no sender uses,
is opened each time until another one is: zero also marks a window that has recorded
nothing.
-/

namespace PilotProtocol.Tunnel

open Library KeyExchange Envelope TunnelManager

/-! ## The invariant -/

/-- `n` is the counter of a frame from `peer` that the object `ref` has opened. -/
def RecordedBy (opened : List (Nat × SecureFrame)) (ref : Nat) (peer : NodeID) (n : Nat) : Prop :=
  ∃ f, (ref, f) ∈ opened ∧ f.peer = peer ∧ f.counter = n

/-- Opened frames belong to objects already made, every window remembers what its object
opened, and no object has opened a frame twice. -/
structure Core.Recorded (c : Core) : Prop where
  refs : ∀ e ∈ c.opened, e.1 < c.allocated
  windows : ∀ peer s, c.session peer = some s →
    s.ref < c.allocated ∧ s.window.Remembers (RecordedBy c.opened s.ref peer)
  once : (c.opened.filter fun e => e.2.counter ≠ 0).Nodup

variable {c : Core} {t : TunnelManager} {now : Nat}

theorem Core.Recorded.update {c' : Core} (h : c.Recorded) (hopened : c'.opened = c.opened)
    (hle : c.allocated ≤ c'.allocated) (hsession : ∀ peer s', c'.session peer = some s' →
      (∃ s, c.session peer = some s ∧ s'.ref = s.ref ∧ s'.window = s.window) ∨
        (c.allocated ≤ s'.ref ∧ s'.ref < c'.allocated)) : c'.Recorded := by
  refine ⟨fun e he => ?_, fun peer s' hs' => ?_, ?_⟩
  · rw [hopened] at he
    exact Nat.lt_of_lt_of_le (h.refs e he) hle
  · rw [hopened]
    obtain ⟨s, hs, href, hwindow⟩ | ⟨hnew, hlt⟩ := hsession peer s' hs'
    · obtain ⟨hlt, hremembers⟩ := h.windows peer s hs
      rw [href, hwindow]
      exact ⟨Nat.lt_of_lt_of_le hlt hle, hremembers⟩
    · refine ⟨hlt, fun n hn _ => ?_⟩
      obtain ⟨f, hf, _, _⟩ := hn
      have := h.refs (s'.ref, f) hf
      omega
  · rw [hopened]
    exact h.once

theorem Core.Recorded.accept {c' : Core} {f : SecureFrame} (h : c.Recorded) (s s' : Crypto)
    (hs : c.session f.peer = some s) (haccept : s.window.wouldAccept f.counter = true)
    (hopened : c'.opened = c.opened ++ [(s.ref, f)]) (hallocated : c'.allocated = c.allocated)
    (href : s'.ref = s.ref) (hwindow : s'.window = s.window.record f.counter)
    (hsession : ∀ peer, c'.session peer = if peer = f.peer then some s' else c.session peer) :
    c'.Recorded := by
  obtain ⟨hlt, hremembers⟩ := h.windows f.peer s hs
  refine ⟨fun e he => ?_, fun peer r hr => ?_, ?_⟩
  · rw [hopened] at he
    rw [hallocated]
    rcases List.mem_append.mp he with he | he
    · exact h.refs e he
    · rwa [List.mem_singleton.mp he]
  · rw [hsession] at hr
    rw [hallocated, hopened]
    by_cases hpeer : peer = f.peer
    · rw [if_pos hpeer, Option.some.injEq] at hr
      subst hr hpeer
      rw [href, hwindow]
      refine ⟨hlt, fun n hn hzero => Window.remembers_record hremembers haccept n ?_ hzero⟩
      obtain ⟨g, hg, hgpeer, hgn⟩ := hn
      rcases List.mem_append.mp hg with hg | hg
      · exact .inl ⟨g, hg, hgpeer, hgn⟩
      · have hgf : g = f := congrArg Prod.snd (List.mem_singleton.mp hg)
        exact .inr (by rw [← hgn, hgf])
    · rw [if_neg hpeer] at hr
      obtain ⟨hrlt, hrremembers⟩ := h.windows peer r hr
      refine ⟨hrlt, fun n hn => hrremembers n ?_⟩
      obtain ⟨g, hg, hgpeer, hgn⟩ := hn
      rcases List.mem_append.mp hg with hg | hg
      · exact ⟨g, hg, hgpeer, hgn⟩
      · have hgf : g = f := congrArg Prod.snd (List.mem_singleton.mp hg)
        exact absurd (hgpeer.symm.trans (by rw [hgf])) hpeer
  · rw [hopened, List.filter_append]
    refine List.Nodup.append h.once (List.Nodup.filter _ (List.nodup_singleton _)) ?_
    -- an entry that is already there is remembered, so its counter would be refused
    intro e hold hnew
    rw [List.mem_filter, List.mem_singleton] at hnew
    obtain ⟨rfl, hzero⟩ := hnew
    have hmem := (List.mem_filter.mp hold).1
    have hrefused := Window.refuses_of_remembers hremembers ⟨f, hmem, rfl, rfl⟩
      (of_decide_eq_true hzero)
    simp [haccept] at hrefused

/-! ## One step -/

theorem decryptWith_window_of_err {P : Primitives} {c : Crypto} {f : SecureFrame} {e : DecryptErr}
    (herr : (decryptWith P c f).1.err = some e) : (decryptWith P c f).2.window = c.window := by
  obtain ⟨_, hwith⟩ | ⟨_, _, _, hwith⟩ | ⟨_, _, _, hwith⟩ := decryptWith_cases P c f
  · rw [hwith]
    rfl
  · rw [hwith] at herr
    cases herr
  · rw [hwith]
    unfold countReject
    split <;> rfl

theorem decryptFrame_window_of_err {P : Primitives} {s : Store} {data : Bytes} {e : DecryptErr}
    (herr : (decryptFrame P s data).1.err = some e) {peer : NodeID} {c' : Crypto}
    (hc' : (decryptFrame P s data).2.get peer = some c') :
    ∃ c, s.get peer = some c ∧ c'.ref = c.ref ∧ c'.window = c.window := by
  obtain hkept | ⟨f, c, _, _, hc, _, hresult, hget⟩ := decryptFrame_session (P := P) s data peer
  · rw [hkept] at hc'
    exact ⟨c', hc', rfl, rfl⟩
  · rw [hget, Option.some.injEq] at hc'
    rw [hresult] at herr
    subst hc'
    exact ⟨c, hc, congrArg CryptoHead.ref (decryptWith_head P c f), decryptWith_window_of_err herr⟩

theorem recorded_of_admits {reg : Registry} {auth : Bool} {allowed : NodeID → Bytes → Prop}
    {node : NodeID} {verdict : Verdict} {m : KeyExchange.Manager}
    (h : Manager.Admits reg now auth allowed node t.kx verdict m)
    (hrec : t.core.Recorded) : { t with kx := m }.core.Recorded := by
  refine hrec.update rfl h.allocated_le fun q s' hs' => ?_
  obtain ⟨c', hc', rfl⟩ := Option.map_eq_some_iff.mp hs'
  obtain hkept | ⟨pc, key, x25519, noncePrefix, _, hget, hnext, hpc⟩ := h.session q
  · rw [hkept] at hc'
    exact .inl ⟨forgetSends c', session_of_get hc', rfl, rfl⟩
  · rw [hget, Option.some.injEq] at hc'
    have href : pc.ref = t.kx.allocated := by rw [hpc]; rfl
    have hlt : pc.ref < m.allocated := by omega
    rw [← hc']
    exact .inr ⟨Nat.le_of_eq href.symm, hlt⟩

theorem recorded_of_store {env : Store} (hrec : t.core.Recorded)
    (hget : ∀ peer c', env.get peer = some c' →
      ∃ c, t.kx.env.get peer = some c ∧ c'.ref = c.ref ∧ c'.window = c.window) :
    (t.withEnv env).core.Recorded := by
  refine hrec.update rfl le_rfl fun peer s' hs' => Or.inl ?_
  obtain ⟨c', hc', rfl⟩ := Option.map_eq_some_iff.mp hs'
  obtain ⟨c, hc, href, hwindow⟩ := hget peer c' hc'
  exact ⟨forgetSends c, session_of_get hc, href, hwindow⟩

theorem get_of_drop {s : Store} {dropped peer : NodeID} {c : Crypto}
    (h : (s.drop dropped).get peer = some c) : s.get peer = some c := by
  rw [Store.get_drop] at h
  split at h
  · cases h
  · exact h

theorem Outcome.recorded {W : World} {data : Bytes} (h : Outcome W now t data c)
    (hrec : t.core.Recorded) : c.Recorded := by
  cases h with
  | rejected e herr =>
    exact recorded_of_store hrec fun peer c' hc' => decryptFrame_window_of_err herr hc'
  | dropped e herr c hc hdrop =>
    exact recorded_of_store hrec fun peer c' hc' =>
      decryptFrame_window_of_err herr (get_of_drop hc')
  | accepted herr packets hpackets =>
    obtain ⟨f, c, plaintext, hparse, hget, hready, _, haccept, hresult⟩ := decryptFrame_accepted herr
    have hopened : openedBy t.kx.env data = some (c.ref, f) := by
      simp [openedBy, hparse, Store.getReady_eq_some.mpr ⟨hget, hready⟩]
    refine hrec.accept (forgetSends c)
      (forgetSends (resetFaults (c.checkAndRecordNonce f.counter).2))
      (session_of_get hget) haccept ?_ rfl ?_ ?_ ?_
    · simp [Core.push, core, hopened, forgetSends]
    · exact congrArg CryptoHead.ref (c.checkAndRecordNonce_head f.counter)
    · exact Crypto.window_checkAndRecordNonce haccept
    · intro peer
      have hsession : ((decryptFrame W.P t.kx.env data).2.get peer).map forgetSends =
          if peer = f.peer then
            some (forgetSends (resetFaults (c.checkAndRecordNonce f.counter).2))
          else (t.kx.env.get peer).map forgetSends := by
        rw [hresult, Store.get_install, noteOpen_get]
        split <;> rfl
      exact hsession

theorem Effect.recorded {W : World} {op : Daemon.Op} (h : Effect W now t op c)
    (hrec : t.core.Recorded) : c.Recorded := by
  cases h with
  | quiet => exact hrec
  | plaintext ip hplain => exact ⟨hrec.refs, hrec.windows, hrec.once⟩
  | auth data hframe => exact recorded_of_admits (Manager.admitAuth_admits ..) hrec
  | unauth data hframe => exact recorded_of_admits (Manager.admitUnauth_admits ..) hrec
  | secure data hframe houtcome => exact houtcome.recorded hrec
  | forgotten peer hforgets =>
    refine hrec.update rfl le_rfl fun q s' hs' => Or.inl ⟨s', ?_, rfl, rfl⟩
    obtain ⟨c', hc', rfl⟩ := Option.map_eq_some_iff.mp hs'
    exact session_of_get (get_of_drop hc')

/-! ## Every run -/

namespace Daemon

/-- In every run from the start of a daemon, no session object opens a frame with a
nonzero counter twice. -/
theorem opened_once (W : World) (setup : Setup) (node : NodeID)
    (beaconAddr : Option Routing.UDPAddr) (inputs : List Input) :
    ((run W (start setup node beaconAddr) inputs).tunnels.opened.filter
      fun e => e.2.counter ≠ 0).Nodup := by
  have hstart : (start setup node beaconAddr).tunnels.core.Recorded :=
    ⟨nofun, nofun, List.nodup_nil⟩
  have hrun := run_invariant_all (fun d : Daemon => d.tunnels.core.Recorded)
    (fun d i h => (step_effect W d i).recorded h) inputs hstart
  exact hrun.once

/-- A frame is opened; a minute later it is replayed, which drops the session; the
handshake is repeated with the same keys and the frame is replayed again. -/
def replayAfterDrop : List Input :=
  [⟨second, .recv peerAuthFrame (some ⟨9, 9⟩)⟩,
   ⟨second, .recv (peerSecureFrame 1 [1, 80, 7, 42]) (some ⟨9, 9⟩)⟩,
   ⟨62 * second, .recv (peerSecureFrame 1 [1, 80, 7, 42]) (some ⟨9, 9⟩)⟩,
   ⟨62 * second, .recv peerAuthFrame (some ⟨9, 9⟩)⟩,
   ⟨62 * second, .recv (peerSecureFrame 1 [1, 80, 7, 42]) (some ⟨9, 9⟩)⟩]

/-- A frame with counter zero, twice. -/
def replayOfZero : List Input :=
  [⟨second, .recv peerAuthFrame (some ⟨9, 9⟩)⟩,
   ⟨second, .recv (peerSecureFrame 0 [1, 80, 7, 42]) (some ⟨9, 9⟩)⟩,
   ⟨second, .recv (peerSecureFrame 0 [1, 80, 7, 42]) (some ⟨9, 9⟩)⟩]

/-- The frame of the first run is opened by two objects, that of the second twice by one. -/
theorem replayAfterDrop_reopens :
    (run toyWorld (start toySetup 1 none) replayAfterDrop).tunnels.opened =
      [(0, ⟨7, [0, 0, 0, 0] ++ putBE 8 1, List.replicate 16 8 ++ [1, 80, 7, 42]⟩),
       (1, ⟨7, [0, 0, 0, 0] ++ putBE 8 1, List.replicate 16 8 ++ [1, 80, 7, 42]⟩)] ∧
    (run toyWorld (start toySetup 1 none) replayOfZero).tunnels.opened =
      [(0, ⟨7, [0, 0, 0, 0] ++ putBE 8 0, List.replicate 16 8 ++ [1, 80, 7, 42]⟩),
       (0, ⟨7, [0, 0, 0, 0] ++ putBE 8 0, List.replicate 16 8 ++ [1, 80, 7, 42]⟩)] := by
  decide +kernel

end Daemon

end PilotProtocol.Tunnel
