import PilotProtocol.Tunnel.Effect

/-! # Key-exchange attempts

The attempts counted for a peer grow by one with every key exchange that is sent to it
and with nothing else. Of what an outsider can bring about these are the answers to PILK
frames that name the peer, and the retransmissions of ticks.
-/

namespace PilotProtocol.KeyExchange.RekeyTable

open Library

variable {r r' : RekeyTable} {p q : NodeID} {now : Nat}

def attempts (r : RekeyTable) (p : NodeID) : Nat :=
  (r.pendingRekey.lookup p).elim 0 PendingRekeyState.attempts

theorem attempts_of_view (h : r'.view p = r.view p) : r'.attempts p = r.attempts p :=
  congrArg (fun v => v.1.elim 0 PendingRekeyState.attempts) h

theorem attempts_markPendingRekey_le (r : RekeyTable) (q p : NodeID) (now : Nat) :
    (r.markPendingRekey q now).attempts p ≤ r.attempts p + (decide (q = p)).toNat := by
  by_cases hq : q = p
  · subst hq
    unfold markPendingRekey attempts
    split
    · exact Nat.le_add_right _ _
    · rw [AList.lookup_insert, decide_eq_true rfl]
      cases r.pendingRekey.lookup q <;> exact le_rfl
  · rw [attempts_of_view ((touches_markPendingRekey now q r).others p (Ne.symm hq))]
    exact Nat.le_add_right _ _

theorem attempts_resetPendingRekeyAttempts_le (r : RekeyTable) (q p : NodeID) :
    (r.resetPendingRekeyAttempts q).attempts p ≤ r.attempts p := by
  by_cases hq : q = p
  · subst hq
    unfold resetPendingRekeyAttempts attempts
    split
    · exact le_rfl
    · rw [AList.lookup_insert]
      exact Nat.zero_le _
  · exact (attempts_of_view ((touches_resetPendingRekeyAttempts 0 q r).others p (Ne.symm hq))).le

theorem attempts_takeKeyRequest (r : RekeyTable) (q p : NodeID) :
    (r.takeKeyRequest q).2.attempts p = r.attempts p := by
  unfold takeKeyRequest
  split <;> rfl

theorem attempts_erase_le (h : r'.pendingRekey = r.pendingRekey.erase q) :
    r'.attempts p ≤ r.attempts p := by
  unfold attempts
  rw [h, GoMap.lookup_erase_ite]
  split
  · exact Nat.zero_le _
  · exact le_rfl

theorem attempts_scanPending_le (r : RekeyTable) (now : Nat) (p : NodeID) :
    (r.scanPending now).2.2.attempts p ≤ r.attempts p :=
  run_invariant_all (fun r' : RekeyTable => r'.attempts p ≤ r.attempts p)
    (fun _ _ h => (attempts_erase_le rfl).trans h) (r.scanPending now).1 le_rfl

/-- A tick retransmits at most once to a peer, and only to one whose exchange is pending. -/
theorem count_toRetry_le (r : RekeyTable) (now n : Nat) (p : NodeID) :
    (((r.scanPending now).2.1.take n).map Prod.fst).count p ≤ (r.pendingRekeyHas p).toNat := by
  have hkeys : (((r.scanPending now).2.1.take n).map Prod.fst).Sublist r.pendingRekey.keys := by
    refine ((List.take_sublist n _).map _).trans ?_
    simp only [scanPending, List.map_map]
    exact List.filter_sublist.map Sigma.fst
  refine (hkeys.count_le p).trans ?_
  by_cases hp : p ∈ r.pendingRekey.keys
  · rw [pendingRekeyHas, GoMap.lookup_isSome_iff.mpr hp]
    exact List.nodup_iff_count_le_one.mp r.pendingRekey.keys_nodup p
  · rw [List.count_eq_zero_of_not_mem hp]
    exact Nat.zero_le _

end PilotProtocol.KeyExchange.RekeyTable

namespace PilotProtocol.Tunnel

open Library KeyExchange Envelope
open Routing (UDPAddr)
open TunnelManager

def TunnelManager.attempts (t : TunnelManager) (p : NodeID) : Nat := t.kx.rk.attempts p

variable {W : World} {now : Nat} {S : Scope} {t t' : TunnelManager} {p q : NodeID}

namespace TunnelManager

variable (W now p q) in
theorem writeFrame_attempts_le (t : TunnelManager) (addr : Option UDPAddr) (frame : Bytes) :
    (t.writeFrame W now q addr frame).2.attempts p ≤ t.attempts p := by
  unfold writeFrame
  simp only
  split
  · exact RekeyTable.attempts_resetPendingRekeyAttempts_le t.kx.rk q p
  · exact le_rfl

theorem kxSendKeyExchange_attempts_le (t : TunnelManager) :
    (t.kxSendKeyExchange W now q).2.attempts p ≤ t.attempts p + (decide (q = p)).toNat := by
  unfold kxSendKeyExchange
  cases t.kx.buildUnauthFrame with
  | none => exact Nat.le_add_right _ _
  | some unauthFrame =>
    simp only
    have htaken : (t.takeKeyRequest q (t.kx.buildAuthFrame W.P).isSome).2.attempts p =
        t.attempts p := by
      unfold takeKeyRequest
      split
      · exact RekeyTable.attempts_takeKeyRequest t.kx.rk q p
      · rfl
    have hfirst := writeFrame_attempts_le W now p q
      (t.takeKeyRequest q (t.kx.buildAuthFrame W.P).isSome).2 (t.peerAddr q)
      ((t.kx.buildAuthFrame W.P).getD unauthFrame)
    rw [htaken] at hfirst
    split
    next h =>
      rw [h] at hfirst
      exact hfirst.trans (Nat.le_add_right _ _)
    next t₂ h =>
      rw [h] at hfirst
      refine (RekeyTable.attempts_markPendingRekey_le _ q p now).trans (Nat.add_le_add_right ?_ _)
      split
      · exact (writeFrame_attempts_le W now p q t₂ _ _).trans hfirst
      · exact hfirst

variable (W now p) in
theorem retransmit_attempts_le (t : TunnelManager) (due : NodeID × Nat) :
    (t.retransmit W now due).attempts p ≤ t.attempts p + (decide (due.1 = p)).toNat := by
  have hforced : (t.maybeForceRelayOnRekey due.1 (due.2 + 1)).attempts p = t.attempts p := by
    unfold maybeForceRelayOnRekey
    split
    · rfl
    · split <;> rfl
  rw [← hforced]
  exact kxSendKeyExchange_attempts_le _

end TunnelManager

/-! ## Steps for other peers -/

theorem Move.attempts_le (h : Move W now S t t') (hact : ¬S.act p) :
    t'.attempts p ≤ t.attempts p := by
  have hother : ∀ {q}, S.act q → p ≠ q := fun hq hpq => hact (hpq ▸ hq)
  cases h with
  | write q addr frame hq hframe => exact writeFrame_attempts_le W now p q t addr frame
  | rekey q rk hq hrk => exact (RekeyTable.attempts_of_view (hrk.others p (hother hq))).le
  | scan => exact RekeyTable.attempts_scanPending_le t.kx.rk now p
  | accept q kx hsessions hq hkx => exact (congrArg (·.attempts p) hkx.rk).le
  | dropCrypto q | removePeer q => exact RekeyTable.attempts_erase_le (r := t.kx.rk) (q := q) rfl
  | _ => exact le_rfl

theorem Moves.attempts_le (h : Moves W now S t t') (hact : ¬S.act p) :
    t'.attempts p ≤ t.attempts p := by
  induction h with
  | refl => exact le_rfl
  | tail _ hmove ih => exact (hmove.attempts_le hact).trans ih

/-- Anything may happen to the paths, nothing to the keys of `p`. -/
def Scope.sparing (p : NodeID) : Scope :=
  ⟨fun _ => True, (p ≠ ·), fun _ => True, True, True, fun _ _ => trivial⟩

/-! ## Ticks and frames that name the peer -/

theorem Daemon.rekeyRetransmitTick_attempts_le (d : Daemon) :
    (d.rekeyRetransmitTick W now).tunnels.attempts p ≤
      d.tunnels.attempts p + (d.tunnels.kx.rk.pendingRekeyHas p).toNat := by
  have hretries (l : List (NodeID × Nat)) : ∀ t : TunnelManager,
      (l.foldl (fun t due => t.retransmit W now due) t).attempts p ≤
        t.attempts p + (l.map Prod.fst).count p := by
    induction l with
    | nil => exact fun t => le_rfl
    | cons due rest ih =>
      intro t
      have hfirst := retransmit_attempts_le W now p t due
      have hrest := ih (t.retransmit W now due)
      rw [List.foldl_cons, List.map_cons, List.count_cons]
      by_cases hdue : due.1 = p <;> simp [hdue] at hfirst ⊢ <;> omega
  have hscan := RekeyTable.attempts_scanPending_le d.tunnels.kx.rk now p
  have hcount := d.tunnels.kx.rk.count_toRetry_le now maxRetransmitsPerTick p
  have hall := hretries ((d.tunnels.kx.rk.scanPending now).2.1.take maxRetransmitsPerTick)
    (d.tunnels.withRekey (d.tunnels.kx.rk.scanPending now).2.2)
  rw [rekeyRetransmitTick_tunnels]
  exact hall.trans (Nat.add_le_add hscan hcount)

namespace TunnelManager

theorem handleAuthFrame_attempts_le {data : Bytes} (source : Option UDPAddr) (fromRelay : Bool)
    (hrefused : ∀ x25519, ¬Manager.AuthVerified W.P W.registry now t.kx data p x25519)
    (hpeer : ∀ f, parseAuth data = some f → f.peer = p) :
    (t.handleAuthFrame W now data source fromRelay).attempts p ≤ t.attempts p := by
  have hadmits := Manager.admitAuth_admits W.P W.registry W.entropy now t.kx data
  unfold handleAuthFrame
  split
  next ev kx h =>
    rw [h] at hadmits
    obtain ⟨x25519, hverified⟩ := admits_peer hadmits
    have hev : ev.peer = p := by
      obtain ⟨f, _, hparse, hf, _⟩ := hverified
      exact hf.symm.trans (hpeer f hparse)
    exact absurd (hev ▸ hverified) (hrefused x25519)
  next h =>
    rw [h] at hadmits
    exact (congrArg (·.attempts p) hadmits.same.1).le

theorem handleUnauthFrame_attempts_le {data : Bytes} (source : Option UDPAddr) (fromRelay : Bool)
    (hknown : ∀ x25519, ¬Manager.UnauthUnknown W.registry now t.kx data p x25519)
    (hpeer : ∀ f, parseUnauth data = some f → f.peer = p) :
    (t.handleUnauthFrame W now data source fromRelay).attempts p ≤ t.attempts p + 1 := by
  have hadmits := Manager.admitUnauth_admits W.P W.registry W.entropy now t.kx data
  unfold handleUnauthFrame
  split
  next ev kx h =>
    rw [h] at hadmits
    obtain ⟨x25519, hunknown⟩ := admits_peer hadmits
    have hev : ev.peer = p := by
      obtain ⟨f, hparse, hf, _⟩ := hunknown
      exact hf.symm.trans (hpeer f hparse)
    exact absurd (hev ▸ hunknown) (hknown x25519)
  next peer kx h =>
    rw [h] at hadmits
    have hsent : (({ t with kx } : TunnelManager).kxSendKeyExchange W now peer).2.attempts p ≤
        _ + (decide (peer = p)).toNat := kxSendKeyExchange_attempts_le { t with kx }
    have hsame : ({ t with kx } : TunnelManager).attempts p = t.attempts p :=
      congrArg (·.attempts p) hadmits.same.1
    have hone := (decide (peer = p)).toNat_le
    omega
  next h =>
    rw [h] at hadmits
    exact (congrArg (·.attempts p) hadmits.same.1).le.trans (Nat.le_succ _)

theorem dropDiverged_attempts_le (t : TunnelManager) (e : DecryptErr) (source : Option UDPAddr)
    (hkept : ((t.dropDiverged W now e p source).core.session p).isSome = true) :
    (t.dropDiverged W now e p source).attempts p ≤ t.attempts p := by
  unfold dropDiverged at hkept ⊢
  cases hc : t.kx.env.get p with
  | none => exact le_rfl
  | some c =>
    rw [hc] at hkept
    simp only at hkept ⊢
    split at hkept
    · have hcurrent : t.kx.env.compareAndDrop p c.ref = (true, t.kx.env.drop p) := by
        simp [Store.compareAndDrop, Store.isCurrent, hc]
      have hgone : (t.withEnv (t.kx.env.drop p)).core.session p = none := by
        simp [core, withEnv, Store.get_drop]
      rw [hcurrent] at hkept
      simp only [(maybeRequestRekey_moves _ source trivial).core, hgone] at hkept
      cases hkept
    next hdrop => rw [if_neg hdrop]

theorem deliver_attempts_le (t : TunnelManager) (plaintext : Option Bytes)
    (source : Option UDPAddr) : (t.deliver W now p plaintext source).attempts p ≤ t.attempts p := by
  have hcleared (t : TunnelManager) : ((t.clearPendingRekey p).noteDirect p source now).attempts p ≤
      t.attempts p := by
    have hkx (t : TunnelManager) : (t.noteDirect p source now).kx = t.kx := by
      unfold noteDirect
      cases source with
      | none => rfl
      | some addr =>
        simp only
        split <;> rfl
    unfold attempts
    rw [hkx]
    exact RekeyTable.attempts_erase_le rfl
  unfold deliver
  split
  · exact le_rfl
  · split
    · exact le_rfl
    · repeat' split
      all_goals exact hcleared (t.recordInboundDecrypt p now)

theorem decryptWith_err_ne_noKey (P : Primitives) (c : Crypto) (f : SecureFrame) :
    (decryptWith P c f).1.err ≠ some .noKey := by
  obtain ⟨_, hwith⟩ | ⟨_, _, _, hwith⟩ | ⟨_, _, _, hwith⟩ := decryptWith_cases P c f
  all_goals rw [hwith]
  · exact nofun
  · exact nofun
  · unfold rejectResult rejectErr
    split <;> exact nofun

/-- A PILS frame adds no attempt unless it costs the session. -/
theorem handleEncrypted_attempts_le {data : Bytes} {c : Crypto} (source : Option UDPAddr)
    (hready : t.kx.env.getReady p = some c) (hpeer : ∀ f, parseSecure data = some f → f.peer = p)
    (hkept : ((t.handleEncrypted W now data source).core.session p).isSome = true) :
    (t.handleEncrypted W now data source).attempts p ≤ t.attempts p := by
  unfold handleEncrypted at hkept ⊢
  cases hparse : parseSecure data with
  | none =>
    rw [decryptFrame_tooShort hparse]
    exact le_rfl
  | some f =>
    obtain rfl := hpeer f hparse
    rw [decryptFrame_keyed hparse hready] at hkept ⊢
    simp only [decryptWith_peer] at hkept ⊢
    split at hkept
    · exact le_rfl
    next herr => exact absurd herr (decryptWith_err_ne_noKey W.P c f)
    next e _ _ herr => exact dropDiverged_attempts_le _ e source hkept
    next herr => exact deliver_attempts_le _ _ source

end TunnelManager

end PilotProtocol.Tunnel
