import PilotProtocol.Tunnel.Pending

/-! # The queues for peers without a key

All the queues at once. A frame that gets past the give-up check of `SendTo` is offered to
its peer's queue; it is refused if the queue is full, or if the peer has none and as many
peers as may have one do. A queue goes when it is flushed, when it is too old and when the
peer is forgotten.
-/

namespace PilotProtocol.Tunnel

open Library KeyExchange Envelope
open Routing (UDPAddr)
open GoMap TunnelManager

def pendingMaxAge : Nat := 120 * second

namespace TunnelManager

/-! ## Removing queues -/

def giveStartTimes (since : GoMap NodeID Nat) (now : Nat) (peers : List NodeID) : GoMap NodeID Nat :=
  peers.foldl (fun m peer => if (m.lookup peer).isSome then m else m.insert peer now) since

def reapStalePending (t : TunnelManager) (now : Nat) : Nat × TunnelManager :=
  let stale (since : Nat) : Bool := decide (pendingMaxAge < now - since)
  let pending : GoMap NodeID (List Bytes) :=
    t.pending.keep fun peer _ => !(t.pendingSince.lookup peer).any stale
  (t.pendingSince.entries.countP fun e => stale e.2,
    { t with
      pending := pending
      pendingSince := giveStartTimes (t.pendingSince.keep fun _ since => !stale since) now pending.keys })

def dropPending (t : TunnelManager) (peer : NodeID) : TunnelManager :=
  { t with pending := t.pending.erase peer, pendingSince := t.pendingSince.erase peer }

/-! ## Offered frames -/

/-- The tunnel when `SendTo` comes to its give-up check. -/
def beforeQueueing (W : World) (now : Nat) (t : TunnelManager) (peer : NodeID) (ping : Bool) :
    TunnelManager :=
  (if ping then t else t.noteAppActivity peer now).startKeyExchange W now peer

/-- `SendTo` finds no key and gets past the give-up check. -/
def offers (W : World) (now : Nat) (t : TunnelManager) (peer : NodeID) (ping : Bool) : Bool :=
  t.encrypt && (t.kx.env.getReady peer).isNone &&
    !(t.beforeQueueing W now peer ping).kx.rk.peerInRekeyGaveUp peer now

theorem sendTo_of_offers {W : World} {now : Nat} {t : TunnelManager} {peer : NodeID} {ping : Bool}
    (h : t.offers W now peer ping = true) (addr : Option UDPAddr) (data : Bytes) :
    t.sendTo W now addr peer data ping =
      (t.beforeQueueing W now peer ping).enqueue peer data now := by
  simp only [offers, beforeQueueing, Bool.and_eq_true, Option.isNone_iff_eq_none,
    Bool.not_eq_true'] at h
  obtain ⟨⟨hencrypt, hkey⟩, hgave⟩ := h
  unfold sendTo sendEncrypted beforeQueueing
  cases ping with
  | true => simp_all
  | false =>
    have hnoted : (t.noteAppActivity peer now).encrypt = true := hencrypt
    have hnokey : (t.noteAppActivity peer now).kx.env.getReady peer = none := hkey
    simp_all

variable (W : World) (now : Nat) (t : TunnelManager)

theorem beforeQueueing_queues (peer : NodeID) (ping : Bool) :
    (t.beforeQueueing W now peer ping).queues = t.queues := by
  unfold beforeQueueing
  rw [startKeyExchange_queues]
  cases ping <;> rfl

@[simp] theorem written_queues (r : Except Routing.WriteErr Routing.Route × TunnelManager) :
    (written r).2.queues = r.2.queues := by
  unfold written
  split <;> rfl

theorem sendTo_queues {W : World} {now : Nat} {t : TunnelManager} {peer : NodeID} {ping : Bool}
    (h : t.offers W now peer ping = false) (addr : Option UDPAddr) (data : Bytes) :
    (t.sendTo W now addr peer data ping).2.queues = t.queues := by
  have hbefore := beforeQueueing_queues W now t peer ping
  unfold offers at h
  unfold beforeQueueing at h hbefore
  unfold sendTo
  generalize hnoted : (if ping then t else t.noteAppActivity peer now) = t₁ at h hbefore
  have hqueues : t₁.queues = t.queues := by rw [← hnoted]; cases ping <;> rfl
  have hencrypt : t₁.encrypt = t.encrypt := by rw [← hnoted]; cases ping <;> rfl
  have hkey : t₁.kx.env.getReady peer = t.kx.env.getReady peer := by
    rw [← hnoted]; cases ping <;> rfl
  dsimp only
  split
  next he =>
    unfold sendEncrypted
    split
    next pc hpc =>
      rw [written_queues, writeFrame_queues, ← hqueues]
      rfl
    next hnone =>
      have hgave : (t₁.startKeyExchange W now peer).kx.rk.peerInRekeyGaveUp peer now = true := by
        simpa [← hencrypt, ← hkey, he, hnone] using h
      rwa [if_pos hgave]
  next => rw [written_queues, writeFrame_queues, hqueues]

/-- A frame is refused for a full table or a full queue; otherwise it goes to the end of the
queue, and a new queue gets its start time. -/
theorem enqueue_cases (peer : NodeID) (data : Bytes) (now : Nat) :
    (t.enqueue peer data now = (.error .tooManyPending, t) ∧ t.pending.lookup peer = none ∧
      maxPendingPeers ≤ t.pending.len) ∨ (t.enqueue peer data now = (.error .pendingDropped, t) ∧
      maxPendingPerPeer ≤ ((t.pending.lookup peer).getD []).length) ∨
    (t.enqueue peer data now = (.ok (), { t with
        pending := t.pending.insert peer ((t.pending.lookup peer).getD [] ++ [data])
        pendingSince := if ((t.pending.lookup peer).getD []).isEmpty then
            t.pendingSince.insert peer now
          else t.pendingSince }) ∧
      ((t.pending.lookup peer).isSome = true ∨ t.pending.len < maxPendingPeers) ∧
      ((t.pending.lookup peer).getD []).length < maxPendingPerPeer) := by
  unfold enqueue
  dsimp only
  split
  next hfull => exact .inl ⟨rfl, Option.isNone_iff_eq_none.mp hfull.1, hfull.2⟩
  next hroom =>
    split
    next hlong => exact .inr (.inl ⟨rfl, hlong⟩)
    next hshort =>
      refine .inr (.inr ⟨rfl, ?_, Nat.lt_of_not_le hshort⟩)
      cases hlookup : t.pending.lookup peer with
      | some frames => exact .inl rfl
      | none => exact .inr (by simpa [hlookup] using hroom)

theorem sendUnder_queues (peer : NodeID) (addr : Option UDPAddr) (ref : Nat)
    (plaintexts : List Bytes) (t : TunnelManager) :
    (sendUnder W now peer addr ref plaintexts t).queues = t.queues := by
  induction plaintexts generalizing t with
  | nil => rfl
  | cons plaintext rest ih =>
    unfold sendUnder
    split
    · rfl
    next c _ =>
      split
      · refine (ih _).trans ?_
        rw [writeFrame_queues]
        rfl
      · rfl

theorem flushPending_queues (peer : NodeID) :
    (t.flushPending W now peer).queues = (t.pending.erase peer, t.pendingSince.erase peer) := by
  unfold flushPending
  dsimp only
  split
  · rfl
  · rw [sendUnder_queues]
    rfl

theorem giveStartTimes_isSome (since : GoMap NodeID Nat) (now : Nat) (peers : List NodeID)
    (q : NodeID) : ((giveStartTimes since now peers).lookup q).isSome = true ↔
      (since.lookup q).isSome = true ∨ q ∈ peers := by
  induction peers generalizing since with
  | nil => simp [giveStartTimes]
  | cons peer rest ih =>
    have hfirst : (giveStartTimes since now (peer :: rest)) = giveStartTimes
        (if (since.lookup peer).isSome then since else since.insert peer now) now rest := rfl
    rw [hfirst, ih, List.mem_cons]
    split
    next hsome =>
      refine ⟨Or.imp_right .inr, ?_⟩
      rintro (h | rfl | h)
      · exact .inl h
      · exact .inl hsome
      · exact .inr h
    next =>
      rw [lookup_insert_ite]
      by_cases hq : q = peer <;> simp [hq]

end TunnelManager

/-! ## Runs

Beside the tunnel stand, for each peer, the frames offered to it since its queue was last
emptied, and those among them that were not refused for a full table. What else happens to
the tunnel is free, as long as the queues are left alone. -/

structure Queues where
  t : TunnelManager
  offered : NodeID → List Bytes
  admitted : NodeID → List Bytes

namespace Queues

inductive Input
  | sendTo (now : Nat) (addr : Option UDPAddr) (peer : NodeID) (data : Bytes) (ping : Bool)
  | flushPending (now : Nat) (peer : NodeID)
  | reapStalePending (now : Nat)
  | dropPending (peer : NodeID)
  | elsewhere (t : TunnelManager)

def start (t : TunnelManager) : Queues :=
  ⟨{ t with pending := ∅, pendingSince := ∅ }, fun _ => [], fun _ => []⟩

def emptied (s : Queues) (t : TunnelManager) : Queues where
  t := t
  offered q := if (s.t.pending.lookup q).isSome && (t.pending.lookup q).isNone then [] else s.offered q
  admitted q := if (s.t.pending.lookup q).isSome && (t.pending.lookup q).isNone then [] else s.admitted q

def offer (s : Queues) (peer : NodeID) (data : Bytes) (r : Except SendToErr Unit × TunnelManager) :
    Queues where
  t := r.2
  offered := Function.update s.offered peer (s.offered peer ++ [data])
  admitted :=
    match r.1 with
    | .error .tooManyPending => s.admitted
    | _ => Function.update s.admitted peer (s.admitted peer ++ [data])

def step (W : World) (s : Queues) : Input → Queues
  | .sendTo now addr peer data ping =>
    if s.t.offers W now peer ping then
      s.offer peer data (s.t.sendTo W now addr peer data ping)
    else { s with t := (s.t.sendTo W now addr peer data ping).2 }
  | .flushPending now peer => s.emptied (s.t.flushPending W now peer)
  | .reapStalePending now => s.emptied (s.t.reapStalePending now).2
  | .dropPending peer => s.emptied (s.t.dropPending peer)
  | .elsewhere t =>
    { s with t := { t with pending := s.t.pending, pendingSince := s.t.pendingSince } }

def run (W : World) (s : Queues) (inputs : List Input) : Queues := inputs.foldl (step W) s

def queue (s : Queues) (q : NodeID) : List Bytes := (s.t.pending.lookup q).getD []

structure Inv (s : Queues) : Prop where
  keys : ∀ q, (s.t.pending.lookup q).isSome = true ↔ (s.t.pendingSince.lookup q).isSome = true
  peers : s.t.pending.len ≤ maxPendingPeers
  sizes : ∀ q frames, s.t.pending.lookup q = some frames →
    0 < frames.length ∧ frames.length ≤ maxPendingPerPeer
  ordered : ∀ q, s.queue q = (s.admitted q).take maxPendingPerPeer

theorem start_inv (t : TunnelManager) : (start t).Inv where
  keys := fun _ => Iff.rfl
  peers := Nat.zero_le _
  sizes := nofun
  ordered := fun _ => rfl

variable {s : Queues}

theorem Inv.of_queues (h : s.Inv) {t : TunnelManager} (ht : t.queues = s.t.queues) :
    Inv { s with t := t } := by
  have hpending : t.pending = s.t.pending := congrArg Prod.fst ht
  have hsince : t.pendingSince = s.t.pendingSince := congrArg Prod.snd ht
  constructor
  · simpa only [hpending, hsince] using h.keys
  · simpa only [hpending] using h.peers
  · simpa only [hpending] using h.sizes
  · simpa only [queue, hpending] using h.ordered

/-- A peer without a queue has had no frame admitted since its queue went. -/
theorem Inv.admitted_nil (h : s.Inv) {q : NodeID} (hq : s.t.pending.lookup q = none) :
    s.admitted q = [] := by
  have hordered := h.ordered q
  unfold queue at hordered
  rw [hq] at hordered
  exact (List.take_eq_nil_iff.mp hordered.symm).resolve_left nofun

theorem Inv.emptied (h : s.Inv) {t : TunnelManager}
    (hpending : ∀ q, t.pending.lookup q = s.t.pending.lookup q ∨ t.pending.lookup q = none)
    (hlen : t.pending.len ≤ s.t.pending.len)
    (hkeys : ∀ q, (t.pending.lookup q).isSome = true ↔ (t.pendingSince.lookup q).isSome = true) :
    (s.emptied t).Inv where
  keys := hkeys
  peers := hlen.trans h.peers
  sizes := fun q frames hq => by
    rcases hpending q with hsame | hgone
    · exact h.sizes q frames (hsame.symm.trans hq)
    · have hq' : t.pending.lookup q = some frames := hq
      simp [hgone] at hq'
  ordered := fun q => by
    unfold Queues.emptied queue
    dsimp only
    rcases hpending q with hsame | hgone
    · rw [hsame]
      have hordered := h.ordered q
      unfold queue at hordered
      cases hlookup : s.t.pending.lookup q with
      | some frames => simpa [hlookup] using hordered
      | none => simp [h.admitted_nil hlookup]
    · rw [hgone]
      cases hlookup : s.t.pending.lookup q with
      | some frames => simp
      | none => simp [h.admitted_nil hlookup]

theorem Inv.erased (h : s.Inv) {t : TunnelManager} {peer : NodeID}
    (ht : t.queues = (s.t.pending.erase peer, s.t.pendingSince.erase peer)) : (s.emptied t).Inv := by
  have hpending : t.pending = s.t.pending.erase peer := congrArg Prod.fst ht
  have hsince : t.pendingSince = s.t.pendingSince.erase peer := congrArg Prod.snd ht
  apply h.emptied
  · intro q
    rw [hpending, lookup_erase_ite]
    split
    · exact .inr rfl
    · exact .inl rfl
  · rw [hpending, len_erase]
    split <;> omega
  · intro q
    rw [hpending, hsince, lookup_erase_ite, lookup_erase_ite]
    split
    · exact Iff.rfl
    · exact h.keys q

theorem Inv.reaped (h : s.Inv) (now : Nat) : (s.emptied (s.t.reapStalePending now).2).Inv := by
  have hlookup (q : NodeID) : (s.t.reapStalePending now).2.pending.lookup q =
      (s.t.pending.lookup q).filter fun _ =>
        !(s.t.pendingSince.lookup q).any fun since => decide (pendingMaxAge < now - since) :=
    lookup_keep _ _ _
  apply h.emptied
  · intro q
    rw [hlookup]
    cases s.t.pending.lookup q with
    | none => exact .inl rfl
    | some frames =>
      rw [Option.filter_some]
      split
      · exact .inl rfl
      · exact .inr rfl
  · exact len_keep_le _ _
  · intro q
    have hkeys := h.keys q
    have hmem := lookup_isSome_iff (m := (s.t.reapStalePending now).2.pending) (k := q)
    -- A start time that is kept is one whose queue is kept, so none is given anew.
    have hkept : ((s.t.pendingSince.keep fun _ since =>
          !decide (pendingMaxAge < now - since)).lookup q).isSome = true ↔
        ((s.t.reapStalePending now).2.pending.lookup q).isSome = true := by
      rw [hlookup, lookup_keep]
      cases hsince : s.t.pendingSince.lookup q with
      | none =>
        have hnone : s.t.pending.lookup q = none := by
          rw [hsince] at hkeys
          simpa using hkeys
        simp [hnone]
      | some since =>
        obtain ⟨frames, hframes⟩ : ∃ frames, s.t.pending.lookup q = some frames := by
          rw [hsince] at hkeys
          simpa [Option.isSome_iff_exists] using hkeys
        rw [hframes]
        by_cases hstale : pendingMaxAge < now - since <;> simp [Option.filter, hstale]
    have hstart := giveStartTimes_isSome (s.t.pendingSince.keep fun _ since =>
      !decide (pendingMaxAge < now - since)) now (s.t.reapStalePending now).2.pending.keys q
    rw [hkept, ← hmem, or_self] at hstart
    exact hstart.symm

theorem Inv.enqueued (h : s.Inv) (peer : NodeID) (data : Bytes) (now : Nat) :
    (s.offer peer data (s.t.enqueue peer data now)).Inv := by
  have hordered : ∀ q, (s.t.pending.lookup q).getD [] = _ := h.ordered
  rcases s.t.enqueue_cases peer data now with
    ⟨heq, -, -⟩ | ⟨heq, hfull⟩ | ⟨heq, hroom, hshort⟩ <;> rw [heq]
  · exact ⟨h.keys, h.peers, h.sizes, h.ordered⟩
  · refine ⟨h.keys, h.peers, h.sizes, fun q => (hordered q).trans ?_⟩
    unfold offer
    dsimp only
    by_cases hq : q = peer
    · subst hq
      rw [hordered, List.length_take] at hfull
      rw [Function.update_self, List.take_append_of_le_length (by omega)]
    · rw [Function.update_of_ne hq]
  · constructor
    · intro q
      show ((s.t.pending.insert peer _).lookup q).isSome = true ↔
        ((if _ then s.t.pendingSince.insert peer now else s.t.pendingSince).lookup q).isSome = true
      have hkeys := h.keys q
      rw [lookup_insert_ite]
      by_cases hempty : ((s.t.pending.lookup peer).getD []).isEmpty = true
      · rw [if_pos hempty, lookup_insert_ite]
        split
        · exact Iff.rfl
        · exact hkeys
      · split
        next hq =>
          -- A queue that is not empty is there, and so is its start time.
          subst hq
          cases hlookup : s.t.pending.lookup q with
          | none => simp [hlookup] at hempty
          | some frames => rwa [hlookup] at hkeys
        next => exact hkeys
    · show len (s.t.pending.insert peer _) ≤ maxPendingPeers
      have hpeers := h.peers
      rw [len_insert]
      split
      · exact hpeers
      next hnone => exact hroom.resolve_left hnone
    · intro q frames hq
      have hq' : (s.t.pending.insert peer _).lookup q = some frames := hq
      rw [lookup_insert_ite] at hq'
      split at hq'
      · cases hq'
        rw [List.length_append, List.length_singleton]
        omega
      · exact h.sizes q frames hq'
    · intro q
      show ((s.t.pending.insert peer _).lookup q).getD [] =
        (Function.update s.admitted peer (s.admitted peer ++ [data]) q).take maxPendingPerPeer
      rw [lookup_insert_ite]
      by_cases hq : q = peer
      · subst hq
        rw [hordered, List.length_take] at hshort
        have hfew : (s.admitted q).length < maxPendingPerPeer := by omega
        rw [if_pos rfl, Function.update_self, hordered, List.take_of_length_le hfew.le,
          List.take_of_length_le]
        · rfl
        · rwa [List.length_append, List.length_singleton]
      · rw [if_neg hq, Function.update_of_ne hq]
        exact hordered q

theorem step_inv (W : World) (h : s.Inv) (i : Input) : (s.step W i).Inv := by
  cases i with
  | sendTo now addr peer data ping =>
    simp only [step]
    split
    next hoffers =>
      rw [sendTo_of_offers hoffers]
      exact (h.of_queues (beforeQueueing_queues W now s.t peer ping)).enqueued peer data now
    next hnot => exact h.of_queues (sendTo_queues (Bool.eq_false_iff.mpr hnot) addr data)
  | flushPending now peer => exact h.erased (flushPending_queues W now s.t peer)
  | reapStalePending now => exact h.reaped now
  | dropPending peer => exact h.erased rfl
  | elsewhere t => exact h.of_queues rfl

/-- In every reachable state the two tables have the same peers, no more than may wait; each
queue holds at least one frame and no more than it may; and it is the first of the frames
admitted since it was last emptied, in order. An offered frame is refused only for a full
table or behind a full queue. -/
theorem pending_queues (W : World) (t : TunnelManager) (inputs : List Input) :
    let s := (start t).run W inputs
    (∀ q, q ∈ s.t.pending.keys ↔ q ∈ s.t.pendingSince.keys) ∧
      s.t.pending.len ≤ maxPendingPeers ∧
      (∀ q frames, s.t.pending.lookup q = some frames →
        1 ≤ frames.length ∧ frames.length ≤ maxPendingPerPeer) ∧
      (∀ q, s.queue q = (s.admitted q).take maxPendingPerPeer) ∧
      ∀ now addr peer data ping e, s.t.offers W now peer ping = true →
        (s.t.sendTo W now addr peer data ping).1 = .error e →
        (e = .tooManyPending ∧ peer ∉ s.t.pending.keys ∧ s.t.pending.len = maxPendingPeers) ∨
        (e = .pendingDropped ∧ (s.queue peer).length = maxPendingPerPeer) := by
  intro s
  have hinv : s.Inv := run_invariant_all Inv (fun _ i h => step_inv W h i) inputs (start_inv t)
  refine ⟨fun q => ?_, hinv.peers, hinv.sizes, hinv.ordered, ?_⟩
  · rw [← lookup_isSome_iff, ← lookup_isSome_iff]
    exact hinv.keys q
  · intro now addr peer data ping e hoffers hrefused
    have hbefore : (s.t.beforeQueueing W now peer ping).pending = s.t.pending :=
      congrArg Prod.fst (beforeQueueing_queues W now s.t peer ping)
    rw [sendTo_of_offers hoffers] at hrefused
    rcases (s.t.beforeQueueing W now peer ping).enqueue_cases peer data now with
      ⟨heq, hnone, hfull⟩ | ⟨heq, hfull⟩ | ⟨heq, -, -⟩
    · rw [heq] at hrefused
      cases hrefused
      rw [hbefore] at hnone hfull
      refine .inl ⟨rfl, ?_, Nat.le_antisymm hinv.peers hfull⟩
      rw [← lookup_isSome_iff, hnone]
      exact Bool.false_ne_true
    · rw [heq] at hrefused
      cases hrefused
      rw [hbefore] at hfull
      have hlen : (s.queue peer).length ≤ maxPendingPerPeer := by
        rw [hinv.ordered, List.length_take]
        exact Nat.min_le_left _ _
      exact .inr ⟨rfl, Nat.le_antisymm hlen hfull⟩
    · rw [heq] at hrefused
      cases hrefused

end Queues

/-! ## A full table -/

namespace TunnelManager

@[simp] theorem writeFrame_gaveUp (W : World) (now : Nat) (t : TunnelManager) (peer : NodeID)
    (addr : Option UDPAddr) (frame : Bytes) :
    (t.writeFrame W now peer addr frame).2.kx.rk.rekeyGaveUp = t.kx.rk.rekeyGaveUp := by
  unfold writeFrame
  simp only
  split
  · simp only [withRekey, RekeyTable.resetPendingRekeyAttempts]
    split <;> rfl
  · rfl

@[simp] theorem takeKeyRequest_gaveUp (t : TunnelManager) (peer : NodeID) (authed : Bool) :
    (t.takeKeyRequest peer authed).2.kx.rk.rekeyGaveUp = t.kx.rk.rekeyGaveUp := by
  unfold takeKeyRequest
  split
  · simp only [withRekey, RekeyTable.takeKeyRequest]
    split <;> rfl
  · rfl

theorem markPendingRekey_gaveUp {r : RekeyTable} (h : r.rekeyGaveUp = ∅) (peer : NodeID) (now : Nat) :
    (r.markPendingRekey peer now).rekeyGaveUp = ∅ := by
  unfold RekeyTable.markPendingRekey
  split
  · exact h
  · rw [h]
    rfl

theorem startKeyExchange_gaveUp (W : World) (now : Nat) {t : TunnelManager} (peer : NodeID)
    (h : t.kx.rk.rekeyGaveUp = ∅) : (t.startKeyExchange W now peer).kx.rk.rekeyGaveUp = ∅ := by
  have hkx : (t.kxSendKeyExchange W now peer).2.kx.rk.rekeyGaveUp = ∅ := by
    unfold kxSendKeyExchange
    cases t.kx.buildUnauthFrame with
    | none => exact h
    | some unauthFrame =>
      simp only
      have hfirst := writeFrame_gaveUp W now
        (t.takeKeyRequest peer (t.kx.buildAuthFrame W.P).isSome).2 peer (t.peerAddr peer)
        ((t.kx.buildAuthFrame W.P).getD unauthFrame)
      rw [takeKeyRequest_gaveUp, h] at hfirst
      split
      next hw => rw [hw] at hfirst; exact hfirst
      next hw =>
        rw [hw] at hfirst
        apply markPendingRekey_gaveUp
        split
        · rw [writeFrame_gaveUp]; exact hfirst
        · exact hfirst
  unfold startKeyExchange sendKeyExchangeToNode
  simp only
  split
  · exact h
  · repeat' split
    all_goals exact hkx

theorem enqueue_kx (t : TunnelManager) (peer : NodeID) (data : Bytes) (now : Nat) :
    (t.enqueue peer data now).2.kx = t.kx := by
  unfold enqueue
  simp only
  split
  · rfl
  · split <;> rfl

end TunnelManager

namespace Queues

variable {s : Queues}

structure Keyless (s : Queues) : Prop where
  encrypt : s.t.encrypt = true
  keys : s.t.core.session = fun _ => none
  gaveUp : s.t.kx.rk.rekeyGaveUp = ∅

theorem Keyless.offers (h : s.Keyless) (W : World) (now : Nat) (peer : NodeID) :
    s.t.offers W now peer true = true := by
  have hkey : s.t.kx.env.getReady peer = none := by
    have hget : (s.t.kx.env.get peer).map TunnelManager.forgetSends = none := congrFun h.keys peer
    rw [Option.map_eq_none_iff] at hget
    unfold Store.getReady
    rw [hget]
    rfl
  have hgave : (s.t.beforeQueueing W now peer true).kx.rk.rekeyGaveUp = ∅ :=
    startKeyExchange_gaveUp W now peer h.gaveUp
  unfold TunnelManager.offers RekeyTable.peerInRekeyGaveUp
  rw [h.encrypt, hkey, hgave]
  rfl

theorem Keyless.sendTo (h : s.Keyless) (W : World) (now : Nat) (addr : Option UDPAddr) (peer : NodeID)
    (data : Bytes) (hnew : s.t.pending.lookup peer = none) :
    let s' := s.step W (.sendTo now addr peer data true)
    s'.Keyless ∧ s'.offered = Function.update s.offered peer (s.offered peer ++ [data]) ∧
      s'.t.pending =
        if maxPendingPeers ≤ s.t.pending.len then s.t.pending else s.t.pending.insert peer [data] := by
  intro s'
  have hoffers := h.offers W now peer
  have hstep : s' = s.offer peer data ((s.t.beforeQueueing W now peer true).enqueue peer data now) := by
    show s.step W _ = _
    simp only [step, hoffers, if_true]
    rw [sendTo_of_offers hoffers]
  have hpending : (s.t.beforeQueueing W now peer true).pending = s.t.pending :=
    congrArg Prod.fst (beforeQueueing_queues W now s.t peer true)
  have hcore : s'.t.core = s.t.core := by
    rw [hstep]
    show ((s.t.beforeQueueing W now peer true).enqueue peer data now).2.core = _
    rw [enqueue_core W]
    exact startKeyExchange_core W now s.t peer
  refine ⟨⟨?_, ?_, ?_⟩, ?_, ?_⟩
  · exact (congrArg Core.encrypt hcore).trans h.encrypt
  · rw [hcore]
    exact h.keys
  · rw [hstep]
    show ((s.t.beforeQueueing W now peer true).enqueue peer data now).2.kx.rk.rekeyGaveUp = ∅
    rw [enqueue_kx]
    exact startKeyExchange_gaveUp W now peer h.gaveUp
  · rw [hstep]
    rfl
  · rw [hstep]
    show ((s.t.beforeQueueing W now peer true).enqueue peer data now).2.pending = _
    rcases (s.t.beforeQueueing W now peer true).enqueue_cases peer data now with
      ⟨heq, -, hfull⟩ | ⟨-, hfull⟩ | ⟨heq, hroom, -⟩
    · rw [hpending] at hfull
      rw [heq, if_pos hfull, hpending]
    · rw [hpending, hnew] at hfull
      cases hfull
    · rw [hpending, hnew] at hroom
      have hlt : s.t.pending.len < maxPendingPeers := by simpa using hroom
      rw [heq, if_neg (Nat.not_le_of_lt hlt)]
      rw [hpending, hnew]
      rfl

def offerFirst (n : Nat) : List Input :=
  (List.range n).map fun i => .sendTo 0 none (UInt32.ofNat i) [0] true

def idle : Queues := start (Daemon.start toySetup 1 none).tunnels

theorem run_offerFirst {n : Nat} (hn : n ≤ maxPendingPeers) :
    let s := idle.run toyWorld (offerFirst n)
    s.Keyless ∧ s.t.pending.len = n ∧
      (∀ q, (s.t.pending.lookup q).isSome = true ↔ q.toNat < n) ∧
      ∀ q, n ≤ q.toNat → s.offered q = [] := by
  induction n with
  | zero =>
    refine ⟨⟨rfl, rfl, rfl⟩, rfl, fun q => ?_, fun _ _ => rfl⟩
    constructor
    · nofun
    · nofun
  | succ n ih =>
    obtain ⟨hkeyless, hlen, hkeys, hoffered⟩ := ih (by omega)
    have hsize : n < UInt32.size := Nat.lt_of_lt_of_le hn (by decide)
    have hrun : idle.run toyWorld (offerFirst (n + 1)) =
        (idle.run toyWorld (offerFirst n)).step toyWorld
          (.sendTo 0 none (UInt32.ofNat n) [0] true) := by
      simp [run, offerFirst, List.range_succ]
    have hnat : (UInt32.ofNat n).toNat = n := UInt32.toNat_ofNat_of_lt' hsize
    have hnew : (idle.run toyWorld (offerFirst n)).t.pending.lookup (UInt32.ofNat n) = none := by
      have hnot := (hkeys (UInt32.ofNat n)).not
      rw [hnat] at hnot
      simpa using hnot
    obtain ⟨hnext, hmore, hpending⟩ := hkeyless.sendTo toyWorld 0 none (UInt32.ofNat n) [0] hnew
    rw [if_neg (by omega)] at hpending
    rw [hrun]
    refine ⟨hnext, ?_, fun q => ?_, fun q hq => ?_⟩
    · rw [hpending, len_insert, hnew, hlen]
      rfl
    · rw [hpending, lookup_insert_ite]
      by_cases hq : q = UInt32.ofNat n
      · rw [if_pos hq, hq, hnat]
        simp
      · have hne : q.toNat ≠ n := fun heq => hq (by rw [← heq]; exact UInt32.ofNat_toNat.symm)
        rw [if_neg hq, hkeys]
        omega
    · have hne : q ≠ UInt32.ofNat n := by
        rintro rfl
        omega
      rw [hmore, Function.update_of_ne hne]
      exact hoffered q (by omega)

/-- With as many peers waiting as may, a frame to another one is refused; after a queue has
gone the next frame to it is queued. -/
theorem Keyless.refused_then_queued {peer gone : NodeID} (h : s.Keyless)
    (hlen : s.t.pending.len = maxPendingPeers) (hnew : s.t.pending.lookup peer = none)
    (hgone : (s.t.pending.lookup gone).isSome = true) (hoffered : s.offered peer = [])
    (W : World) (first second : Bytes) :
    let s' := s.run W [.sendTo 0 none peer first true, .dropPending gone, .sendTo 0 none peer second true]
    s'.offered peer = [first, second] ∧ s'.queue peer = [second] := by
  obtain ⟨hrefused, hone, hsame⟩ := h.sendTo W 0 none peer first hnew
  rw [if_pos hlen.ge] at hsame
  simp only [run, List.foldl_cons, List.foldl_nil]
  generalize s.step W (.sendTo 0 none peer first true) = middle at *
  have hne : peer ≠ gone := by
    rintro rfl
    simp [hnew] at hgone
  have hdropped : (middle.step W (.dropPending gone)).Keyless :=
    ⟨hrefused.encrypt, hrefused.keys, hrefused.gaveUp⟩
  have hleft : (middle.step W (.dropPending gone)).t.pending = s.t.pending.erase gone := by
    rw [← hsame]
    rfl
  have hkept : (middle.step W (.dropPending gone)).offered peer = [first] := by
    have hnone : middle.t.pending.lookup peer = none := by rw [hsame, hnew]
    simp [step, emptied, hnone, hone, hoffered]
  generalize middle.step W (.dropPending gone) = room at *
  have hstill : room.t.pending.lookup peer = none := by
    rw [hleft, lookup_erase_ite, if_neg hne, hnew]
  obtain ⟨-, htwo, hqueued⟩ := hdropped.sendTo W 0 none peer second hstill
  have hfew : room.t.pending.len < maxPendingPeers := by
    rw [hleft, len_erase, hgone, hlen]
    decide
  rw [if_neg (Nat.not_le_of_lt hfew)] at hqueued
  constructor
  · rw [htwo, Function.update_self, hkept]
    rfl
  · unfold queue
    rw [hqueued, AList.lookup_insert]
    rfl

/-- So a peer's queue may start with its second offered frame. -/
theorem refused_for_full_table :
    let s := idle.run toyWorld (offerFirst maxPendingPeers ++
      [.sendTo 0 none 1000 [1] true, .dropPending 0, .sendTo 0 none 1000 [2] true])
    s.offered 1000 = [[1], [2]] ∧ s.queue 1000 = [[2]] ∧
      s.queue 1000 ≠ (s.offered 1000).take maxPendingPerPeer := by
  obtain ⟨hkeyless, hlen, hkeys, hoffered⟩ := run_offerFirst (Nat.le_refl maxPendingPeers)
  have hnew : (idle.run toyWorld (offerFirst maxPendingPeers)).t.pending.lookup 1000 = none := by
    have hnot := (hkeys 1000).not
    simpa [maxPendingPeers] using hnot
  obtain ⟨htwo, hqueue⟩ := hkeyless.refused_then_queued hlen hnew ((hkeys 0).mpr (by decide))
    (hoffered 1000 (by decide)) toyWorld [1] [2]
  have hrun (more : List Input) : idle.run toyWorld (offerFirst maxPendingPeers ++ more) =
      (idle.run toyWorld (offerFirst maxPendingPeers)).run toyWorld more := List.foldl_append
  rw [hrun]
  refine ⟨htwo, hqueue, ?_⟩
  rw [htwo, hqueue]
  decide

end Queues

end PilotProtocol.Tunnel
