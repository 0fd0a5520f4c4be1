import PilotProtocol.KeyExchange.Store
import PilotProtocol.Library.Run

/-! # The key-exchange manager

The manager's tables are grouped by the lock that guards them: the public-key
cache and the retransmit table are records of their own, so that an operation
under one lock leaves the other by its type. The registry answers lookups from
outside; its `n`-th answer is `none` for an error. Every operation reads the
clock once.
-/

namespace PilotProtocol.KeyExchange

open Library

def millisecond : Nat := 1000000

def rekeyRetransmitInterval : Nat := 4 * second
def maxRekeyAttempts : Nat := 5
def rekeyRelayFallbackAfter : Nat := 2
def keyExchangeReplyStaleThreshold : Nat := 6 * second
def keyExchangeReplyMinInterval : Nat := 1 * second
def rekeyGaveUpCooldown : Nat := 5 * second
def duplicateHandshakeDebounce : Nat := 250 * millisecond
def negativePubKeyCacheTTL : Nat := 3 * second
def maxNegPubKeyEntries : Nat := 4096
def keyRequestAfterSends : Nat := 1
def maxRetransmitsPerTick : Nat := 64

abbrev Registry := Nat → NodeID → Option Bytes

/-! ## The public-key cache -/

inductive PubKeyErr
  | unresolved
  | noVerify
  | lookup
  deriving DecidableEq

/-- What `pubKeysMu` guards, and the number of registry lookups made so far. -/
structure PubKeyCache where
  peerPubKeys : GoMap NodeID Bytes
  negPubKeys : GoMap NodeID Nat
  lookups : Nat

namespace PubKeyCache

variable (k : PubKeyCache) (node : NodeID)

def recordNegPubKey (now : Nat) : PubKeyCache :=
  if (k.negPubKeys.lookup node).isNone ∧ maxNegPubKeyEntries ≤ k.negPubKeys.len then
    let live := k.negPubKeys.keep fun _ at_ => decide (now - at_ < negativePubKeyCacheTTL)
    if maxNegPubKeyEntries ≤ live.len then { k with negPubKeys := live }
    else { k with negPubKeys := live.insert node now }
  else { k with negPubKeys := k.negPubKeys.insert node now }

/-- `verify` says whether a verify function is set. -/
def getPeerPubKey (reg : Registry) (verify : Bool) (now : Nat) (k : PubKeyCache) (node : NodeID) :
    Except PubKeyErr Bytes × PubKeyCache :=
  match k.peerPubKeys.lookup node with
  | some pk => (.ok pk, k)
  | none =>
    if (k.negPubKeys.lookup node).any fun at_ => now - at_ < negativePubKeyCacheTTL then
      (.error .unresolved, k)
    else if verify then
      match reg k.lookups node with
      | none => (.error .lookup, { k with lookups := k.lookups + 1 }.recordNegPubKey node now)
      | some pk =>
        (.ok pk, { peerPubKeys := k.peerPubKeys.insert node pk
                   negPubKeys := k.negPubKeys.erase node
                   lookups := k.lookups + 1 })
    else (.error .noVerify, k)

def setPeerPubKey (pk : Bytes) : PubKeyCache :=
  { k with peerPubKeys := k.peerPubKeys.insert node pk }

def invalidatePeerPubKey : PubKeyCache := { k with peerPubKeys := k.peerPubKeys.erase node }

def removePeer : PubKeyCache :=
  { k with peerPubKeys := k.peerPubKeys.erase node, negPubKeys := k.negPubKeys.erase node }

/-- The key a key-exchange frame must carry: the one on record for `node`, looked up
afresh when the frame carries another. -/
def verifiedKey (reg : Registry) (verify : Bool) (now : Nat) (k : PubKeyCache) (node : NodeID)
    (carried : Bytes) : Option Bytes × PubKeyCache :=
  match k.getPeerPubKey reg verify now node with
  | (.error _, k₁) => (none, k₁)
  | (.ok expected, k₁) =>
    if carried = expected then (some expected, k₁)
    else
      match (k₁.invalidatePeerPubKey node).getPeerPubKey reg verify now node with
      | (.error _, k₂) => (none, k₂)
      | (.ok expected, k₂) => (if carried = expected then some expected else none, k₂)

def Known (pk : Bytes) : Prop := ∀ key, k.peerPubKeys.lookup node = some key → key = pk

@[simp] theorem recordNegPubKey_peerPubKeys (k : PubKeyCache) (node : NodeID) (now : Nat) :
    (k.recordNegPubKey node now).peerPubKeys = k.peerPubKeys := by
  unfold recordNegPubKey
  split
  · simp only
    split <;> rfl
  · rfl

theorem Known.setPeerPubKey {k : PubKeyCache} {node q : NodeID} {pk key : Bytes}
    (h : k.Known node pk) (hkey : q = node → key = pk) : (k.setPeerPubKey q key).Known node pk := by
  intro key' hlookup
  rw [PubKeyCache.setPeerPubKey, GoMap.lookup_insert_ite] at hlookup
  split_ifs at hlookup with hq
  · cases hlookup
    exact hkey hq.symm
  · exact h key' hlookup

theorem Known.invalidatePeerPubKey {k : PubKeyCache} {node : NodeID} {pk : Bytes}
    (h : k.Known node pk) (q : NodeID) : (k.invalidatePeerPubKey q).Known node pk := by
  intro key hlookup
  rw [PubKeyCache.invalidatePeerPubKey, GoMap.lookup_erase_ite] at hlookup
  split at hlookup
  · cases hlookup
  · exact h key hlookup

section

variable {reg : Registry} (verify : Bool) (now : Nat) {k : PubKeyCache} {node : NodeID} {pk : Bytes}

theorem Known.getPeerPubKey (h : k.Known node pk) (hreg : ∀ n key, reg n node = some key → key = pk)
    (q : NodeID) : (k.getPeerPubKey reg verify now q).2.Known node pk ∧
      (q = node → ∀ key, (k.getPeerPubKey reg verify now q).1 = .ok key → key = pk) := by
  unfold PubKeyCache.getPeerPubKey
  cases hcached : k.peerPubKeys.lookup q with
  | some cached =>
    refine ⟨h, fun hq key hkey => ?_⟩
    cases hkey
    exact h cached (hq ▸ hcached)
  | none =>
    simp only
    repeat' split
    · exact ⟨h, nofun⟩
    · refine ⟨fun key hlookup => h key ?_, nofun⟩
      rwa [recordNegPubKey_peerPubKeys] at hlookup
    next answer hanswer =>
      have hpk : q = node → answer = pk := fun hq => hreg k.lookups answer (hq ▸ hanswer)
      refine ⟨h.setPeerPubKey hpk, fun hq key hkey => ?_⟩
      cases hkey
      exact hpk hq
    · exact ⟨h, nofun⟩

/-- From `k` to `k'` only what is held for `peer` changes, but that failures may be dropped. -/
structure Keeps (peer : NodeID) (k k' : PubKeyCache) : Prop where
  key : ∀ q, q ≠ peer → k'.peerPubKeys.lookup q = k.peerPubKeys.lookup q
  failure : ∀ q, q ≠ peer → k'.negPubKeys.lookup q = k.negPubKeys.lookup q ∨
    k'.negPubKeys.lookup q = none

theorem Keeps.refl (peer : NodeID) (k : PubKeyCache) : Keeps peer k k :=
  ⟨fun _ _ => rfl, fun _ _ => .inl rfl⟩

theorem Keeps.trans {peer : NodeID} {k k' k'' : PubKeyCache} (h : Keeps peer k k')
    (h' : Keeps peer k' k'') : Keeps peer k k'' := by
  refine ⟨fun q hq => (h'.key q hq).trans (h.key q hq), fun q hq => ?_⟩
  obtain hsame | hnone := h'.failure q hq
  · rw [hsame]
    exact h.failure q hq
  · exact .inr hnone

theorem keeps_setPeerPubKey (k : PubKeyCache) (peer : NodeID) (pk : Bytes) :
    Keeps peer k (k.setPeerPubKey peer pk) :=
  ⟨fun _ hq => AList.lookup_insert_ne hq, fun _ _ => .inl rfl⟩

theorem keeps_recordNegPubKey (k : PubKeyCache) (peer : NodeID) :
    Keeps peer k (k.recordNegPubKey peer now) := by
  refine ⟨fun q _ => by rw [recordNegPubKey_peerPubKeys], fun q hq => ?_⟩
  have hkeep (p : NodeID → Nat → Bool) : (k.negPubKeys.keep p).lookup q = k.negPubKeys.lookup q ∨
      (k.negPubKeys.keep p).lookup q = none := by
    rw [GoMap.lookup_keep]
    cases k.negPubKeys.lookup q with
    | none => exact .inl rfl
    | some at_ => cases hp : p q at_ <;> simp [Option.filter, hp]
  unfold recordNegPubKey
  split
  · simp only
    split
    · exact hkeep _
    · simp only [GoMap.lookup_insert_ite, if_neg hq]
      exact hkeep _
  · exact .inl (AList.lookup_insert_ne hq)

theorem keeps_getPeerPubKey (reg : Registry) (k : PubKeyCache) (peer : NodeID) :
    Keeps peer k (k.getPeerPubKey reg verify now peer).2 := by
  unfold getPeerPubKey
  repeat' split
  any_goals exact .refl peer k
  · have hrecord := keeps_recordNegPubKey now { k with lookups := k.lookups + 1 } peer
    exact ⟨hrecord.key, hrecord.failure⟩
  · exact ⟨fun q hq => AList.lookup_insert_ne hq, fun q hq => .inl (AList.lookup_erase_ne hq)⟩

/-! A registry that always answers for `node` leaves no failure on record against it. -/

theorem getPeerPubKey_noRefusal (hreg : ∀ n, reg n node = some pk)
    (hnone : k.negPubKeys.lookup node = none) (q : NodeID) :
    (k.getPeerPubKey reg verify now q).2.negPubKeys.lookup node = none := by
  unfold PubKeyCache.getPeerPubKey
  repeat' split
  any_goals exact hnone
  next hanswer =>
    have hq : node ≠ q := by
      rintro rfl
      simp [hreg] at hanswer
    obtain hsame | hgone :=
      (keeps_recordNegPubKey now { k with lookups := k.lookups + 1 } q).failure node hq
    · rwa [hsame]
    · exact hgone
  · simp [GoMap.lookup_erase_ite, hnone]

variable (reg) in
/-- What the lookups for a frame of `peer` can make of the cache `k`. -/
inductive Reaches (peer : NodeID) (k : PubKeyCache) : PubKeyCache → Prop
  | refl : Reaches peer k k
  | get {k' : PubKeyCache} (h : Reaches peer k k') :
      Reaches peer k (k'.getPeerPubKey reg verify now peer).2
  | drop {k' : PubKeyCache} (h : Reaches peer k k') : Reaches peer k (k'.invalidatePeerPubKey peer)
  | enter {k' k₀ : PubKeyCache} {key : Bytes} (h : Reaches peer k k') (h₀ : Reaches peer k k₀)
      (hkey : (k₀.getPeerPubKey reg verify now peer).1 = .ok key) :
      Reaches peer k (k'.setPeerPubKey peer key)

theorem reaches_verifiedKey (reg : Registry) (k : PubKeyCache) (peer : NodeID) (carried : Bytes) :
    Reaches reg verify now peer k (k.verifiedKey reg verify now peer carried).2 ∧
      ∀ key, (k.verifiedKey reg verify now peer carried).1 = some key → carried = key ∧
        ∃ k₀, Reaches reg verify now peer k k₀ ∧
          (k₀.getPeerPubKey reg verify now peer).1 = .ok key := by
  have hfirst : Reaches reg verify now peer k (k.getPeerPubKey reg verify now peer).2 := .get .refl
  unfold verifiedKey
  split
  next hget =>
    rw [hget] at hfirst
    exact ⟨hfirst, nofun⟩
  next expected k₁ hget =>
    rw [hget] at hfirst
    split
    next hsame =>
      refine ⟨hfirst, fun key hkey => ?_⟩
      cases hkey
      exact ⟨hsame, k, .refl, by rw [hget]⟩
    · have hagain := hfirst.drop.get
      split
      next hget₂ =>
        rw [hget₂] at hagain
        exact ⟨hagain, nofun⟩
      next hget₂ =>
        rw [hget₂] at hagain
        refine ⟨hagain, fun key hkey => ?_⟩
        split at hkey <;> cases hkey
        next hsame => exact ⟨hsame, _, hfirst.drop, by rw [hget₂]⟩

section

variable {verify now} {peer : NodeID} {k' : PubKeyCache} (h : Reaches reg verify now peer k k')
include h

theorem Reaches.known (hreg : ∀ n key, reg n node = some key → key = pk)
    (hknown : k.Known node pk) : k'.Known node pk := by
  induction h with
  | refl => exact hknown
  | get _ ih => exact (ih.getPeerPubKey verify now hreg peer).1
  | drop _ ih => exact ih.invalidatePeerPubKey peer
  | enter _ _ hkey ih ih₀ =>
    exact ih.setPeerPubKey fun hpeer => (ih₀.getPeerPubKey verify now hreg peer).2 hpeer _ hkey

theorem Reaches.noRefusal (hreg : ∀ n, reg n node = some pk)
    (hnone : k.negPubKeys.lookup node = none) : k'.negPubKeys.lookup node = none := by
  induction h with
  | refl => exact hnone
  | get _ ih => exact getPeerPubKey_noRefusal verify now hreg ih peer
  | drop _ ih | enter _ _ _ ih => exact ih

theorem Reaches.keeps : Keeps peer k k' := by
  induction h with
  | refl => exact .refl peer k
  | get _ ih => exact ih.trans (keeps_getPeerPubKey verify now reg _ peer)
  | drop _ ih => exact ih.trans ⟨fun q hq => AList.lookup_erase_ne hq, fun _ _ => .inl rfl⟩
  | enter _ _ _ ih => exact ih.trans (keeps_setPeerPubKey _ peer _)

end

theorem getPeerPubKey_ok (hreg : ∀ n, reg n node = some pk) (hknown : k.Known node pk)
    (hnone : k.negPubKeys.lookup node = none) : (k.getPeerPubKey reg true now node).1 = .ok pk := by
  unfold PubKeyCache.getPeerPubKey
  cases hcached : k.peerPubKeys.lookup node with
  | some cached => rw [hknown cached hcached]
  | none => simp [hnone, hreg]

theorem verifiedKey_ok (hreg : ∀ n, reg n node = some pk) (hknown : k.Known node pk)
    (hnone : k.negPubKeys.lookup node = none) :
    (k.verifiedKey reg true now node pk).1 = some pk := by
  have hget := getPeerPubKey_ok now hreg hknown hnone
  unfold PubKeyCache.verifiedKey
  cases hresult : k.getPeerPubKey reg true now node with
  | mk answer k₁ =>
    rw [hresult] at hget
    obtain rfl : answer = .ok pk := hget
    simp

end

end PubKeyCache

/-! ## The retransmit table -/

structure PendingRekeyState where
  firstSentAt : Nat
  lastSentAt : Nat
  attempts : Nat
  deriving DecidableEq

/-- What `rkPendingMu` guards. -/
structure RekeyTable where
  pendingRekey : GoMap NodeID PendingRekeyState
  lastInboundDecrypt : GoMap NodeID Nat
  rekeyGaveUp : GoMap NodeID Nat
  lastKeyExchangeReply : GoMap NodeID Nat
  keyRequestDue : GoMap NodeID Unit

namespace RekeyTable

variable (r : RekeyTable) (peer : NodeID) (now : Nat)

def peerInRekeyGaveUp : Bool :=
  (r.rekeyGaveUp.lookup peer).any fun at_ => now - at_ < rekeyGaveUpCooldown

def markPendingRekey : RekeyTable :=
  if r.peerInRekeyGaveUp peer now then r
  else
    let st := (r.pendingRekey.lookup peer).getD ⟨now, 0, 0⟩
    { r with
      rekeyGaveUp := r.rekeyGaveUp.erase peer
      pendingRekey := r.pendingRekey.insert peer
        { st with lastSentAt := now, attempts := st.attempts + 1 } }

def clearPendingRekey : RekeyTable := { r with pendingRekey := r.pendingRekey.erase peer }

/-- The entry's last send becomes the zero time, so that the next tick finds it due. -/
def resetPendingRekeyAttempts : RekeyTable :=
  match r.pendingRekey.lookup peer with
  | none => r
  | some st =>
    { r with pendingRekey := r.pendingRekey.insert peer { st with attempts := 0, lastSentAt := 0 } }

def clearRekeyGaveUp : RekeyTable := { r with rekeyGaveUp := r.rekeyGaveUp.erase peer }

def pendingRekeyHas : Bool := (r.pendingRekey.lookup peer).isSome

def recordInboundDecrypt : RekeyTable :=
  { r with lastInboundDecrypt := r.lastInboundDecrypt.insert peer now }

def inboundDecryptStale : Bool :=
  match r.lastInboundDecrypt.lookup peer with
  | none => true
  | some at_ => decide (keyExchangeReplyStaleThreshold < now - at_)

/-- `whitelisted` peers pass the interval gate. -/
def markReplyKeyExchangeSent (whitelisted : Bool) (now : Nat) : Bool × RekeyTable :=
  if !whitelisted && (r.lastKeyExchangeReply.lookup peer).any
      (fun last => now - last < keyExchangeReplyMinInterval) then (false, r)
  else (true, { r with lastKeyExchangeReply := r.lastKeyExchangeReply.insert peer now })

def markKeyRequestDue : RekeyTable :=
  if r.keyRequestDue.len < maxNegPubKeyEntries then
    { r with keyRequestDue := r.keyRequestDue.insert peer () }
  else r

def takeKeyRequest : Bool × RekeyTable :=
  if (r.keyRequestDue.lookup peer).isSome then
    (true, { r with keyRequestDue := r.keyRequestDue.erase peer })
  else ((r.pendingRekey.lookup peer).any fun st => keyRequestAfterSends ≤ st.attempts, r)

def removePeer : RekeyTable :=
  { r with
    pendingRekey := r.pendingRekey.erase peer
    lastInboundDecrypt := r.lastInboundDecrypt.erase peer
    lastKeyExchangeReply := r.lastKeyExchangeReply.erase peer
    keyRequestDue := r.keyRequestDue.erase peer }

/-- The first half of a retransmit tick, under the lock: the peers given up, the
peers to retransmit to with their attempt counts, and the table without the former. -/
def scanPending : List NodeID × List (NodeID × Nat) × RekeyTable :=
  let spent := r.pendingRekey.entries.filter fun e => decide (maxRekeyAttempts + 1 ≤ e.2.attempts)
  let due := r.pendingRekey.entries.filter fun e =>
    !decide (maxRekeyAttempts + 1 ≤ e.2.attempts) &&
      !decide (now - e.2.lastSentAt < rekeyRetransmitInterval)
  let toGiveUp := spent.map (·.1)
  let table := toGiveUp.foldl (fun r id =>
    { r with pendingRekey := r.pendingRekey.erase id
             rekeyGaveUp := r.rekeyGaveUp.insert id now }) r
  (toGiveUp, due.map (fun e => (e.1, e.2.attempts)),
    { table with rekeyGaveUp :=
        table.rekeyGaveUp.keep (fun _ at_ => decide (now - at_ < rekeyGaveUpCooldown)) })

/-- `r'` waits for no peer that `r` did not wait for, but perhaps `peer`. -/
def Waits (r r' : RekeyTable) : Prop :=
  ∀ q, (r'.pendingRekey.lookup q).isSome = true → q = peer ∨ (r.pendingRekey.lookup q).isSome = true

theorem Waits.refl (peer : NodeID) (r : RekeyTable) : Waits peer r r := fun _ hq => Or.inr hq

variable {peer : NodeID} {r : RekeyTable} {now : Nat}

theorem Waits.trans {r' r'' : RekeyTable} (h : Waits peer r r') (h' : Waits peer r' r'') :
    Waits peer r r'' := by
  intro q hq
  obtain hpeer | hq' := h' q hq
  · exact .inl hpeer
  · exact h q hq'

theorem Waits.of_erase {q₀ : NodeID} {r' : RekeyTable}
    (h : r'.pendingRekey = r.pendingRekey.erase q₀) : Waits peer r r' := by
  intro q hq
  rw [h, GoMap.lookup_erase_ite] at hq
  split at hq
  · cases hq
  · exact .inr hq

/-- What the table holds for a node, the give-ups aside. -/
def view (r : RekeyTable) (q : NodeID) :
    Option PendingRekeyState × Option Nat × Option Nat × Option Unit :=
  (r.pendingRekey.lookup q, r.lastInboundDecrypt.lookup q, r.lastKeyExchangeReply.lookup q,
    r.keyRequestDue.lookup q)

/-- From `r` to `r'` only what is held for `peer` changes, and a decrypt is noted at `now`. -/
structure Touches (now : Nat) (peer : NodeID) (r r' : RekeyTable) : Prop where
  others : ∀ q, q ≠ peer → r'.view q = r.view q
  decrypt : r'.lastInboundDecrypt.lookup peer = r.lastInboundDecrypt.lookup peer ∨
    r'.lastInboundDecrypt.lookup peer = some now

theorem Touches.waits {r' : RekeyTable} (h : Touches now peer r r') : Waits peer r r' := by
  intro q hq
  by_cases hpeer : q = peer
  · exact .inl hpeer
  · have hsame : r'.pendingRekey.lookup q = r.pendingRekey.lookup q :=
      congrArg Prod.fst (h.others q hpeer)
    exact .inr (hsame ▸ hq)

section

variable (now : Nat) (peer : NodeID) (r : RekeyTable)

theorem touches_markPendingRekey : Touches now peer r (r.markPendingRekey peer now) := by
  unfold markPendingRekey
  split <;> exact ⟨fun q hq => by simp [view, hq], .inl rfl⟩

theorem touches_resetPendingRekeyAttempts : Touches now peer r (r.resetPendingRekeyAttempts peer) := by
  unfold resetPendingRekeyAttempts
  split <;> exact ⟨fun q hq => by simp [view, hq], .inl rfl⟩

theorem touches_clearPendingRekey : Touches now peer r (r.clearPendingRekey peer) :=
  ⟨fun q hq => by simp [view, clearPendingRekey, hq], .inl rfl⟩

theorem touches_recordInboundDecrypt :
    Touches now peer r ((r.recordInboundDecrypt peer now).clearRekeyGaveUp peer) :=
  ⟨fun q hq => by simp [view, recordInboundDecrypt, clearRekeyGaveUp, hq],
    .inr (AList.lookup_insert _)⟩

theorem touches_markReplyKeyExchangeSent (whitelisted : Bool) :
    Touches now peer r (r.markReplyKeyExchangeSent peer whitelisted now).2 := by
  unfold markReplyKeyExchangeSent
  split <;> exact ⟨fun q hq => by simp [view, hq], .inl rfl⟩

theorem touches_markKeyRequestDue : Touches now peer r (r.markKeyRequestDue peer) := by
  unfold markKeyRequestDue
  split <;> exact ⟨fun q hq => by simp [view, hq], .inl rfl⟩

theorem touches_takeKeyRequest : Touches now peer r (r.takeKeyRequest peer).2 := by
  unfold takeKeyRequest
  split <;> exact ⟨fun q hq => by simp [view, hq], .inl rfl⟩

end

theorem waits_scanPending (r : RekeyTable) (now : Nat) (peer : NodeID) :
    Waits peer r (r.scanPending now).2.2 := by
  exact run_invariant_all (fun r' => Waits peer r r')
    (fun r' id h => h.trans (Waits.of_erase rfl)) (r.scanPending now).1 (Waits.refl peer r)

/-- A tick gives up exactly the peers with more than `maxRekeyAttempts` attempts. -/
theorem mem_scanPending_toGiveUp : peer ∈ (r.scanPending now).1 ↔
      ∃ st, r.pendingRekey.lookup peer = some st ∧ maxRekeyAttempts < st.attempts := by
  simp only [scanPending, List.mem_map, List.mem_filter, decide_eq_true_eq, GoMap.lookup_eq_some_iff]
  constructor
  · rintro ⟨⟨q, st⟩, ⟨hmem, hspent⟩, rfl⟩
    exact ⟨st, hmem, hspent⟩
  · rintro ⟨st, hmem, hspent⟩
    exact ⟨⟨peer, st⟩, ⟨hmem, hspent⟩, rfl⟩

theorem scanPending_single {st : PendingRekeyState} (h : r.pendingRekey.lookup peer = some st)
    (honly : ∀ q, (r.pendingRekey.lookup q).isSome = true → q = peer)
    (hleft : st.attempts ≤ maxRekeyAttempts)
    (hdue : rekeyRetransmitInterval ≤ now - st.lastSentAt) :
    r.scanPending now = ([], [(peer, st.attempts)],
      { r with rekeyGaveUp :=
          r.rekeyGaveUp.keep (fun _ at_ => decide (now - at_ < rekeyGaveUpCooldown)) }) := by
  have hspent : decide (maxRekeyAttempts + 1 ≤ st.attempts) = false := decide_eq_false (by omega)
  have hwaited : decide (now - st.lastSentAt < rekeyRetransmitInterval) = false :=
    decide_eq_false (by omega)
  simp only [scanPending, GoMap.entries_eq_singleton h honly, List.filter_cons, List.filter_nil,
    hspent, hwaited, Bool.not_false, Bool.and_self, Bool.false_eq_true, if_true, if_false,
    List.map_cons, List.map_nil, List.foldl_nil]

theorem waiting_of_mem_toRetry {due : NodeID × Nat} (h : due ∈ (r.scanPending now).2.1) :
    (r.pendingRekey.lookup due.1).isSome = true := by
  simp only [scanPending, List.mem_map, List.mem_filter] at h
  obtain ⟨⟨q, st⟩, ⟨hmem, _⟩, rfl⟩ := h
  rw [GoMap.lookup_eq_some_iff.mpr hmem]
  rfl

end RekeyTable

/-! ## The manager -/

structure Setup where
  identity : Option Bytes
  verifyFunc : Bool
  privKey : Option Bytes
  pubKey : Option Bytes
  replyWhitelist : List NodeID
  replyWhitelistAll : Bool

structure Manager where
  env : Store
  setup : Setup
  pubKeys : PubKeyCache
  rk : RekeyTable
  /-- The number of `Crypto` objects derived so far. -/
  allocated : Nat

namespace Manager

def getPeerPubKey (reg : Registry) (now : Nat) (m : Manager) (node : NodeID) :
    Except PubKeyErr Bytes × Manager :=
  let (answer, pubKeys) := m.pubKeys.getPeerPubKey reg m.setup.verifyFunc now node
  (answer, { m with pubKeys })

def whitelisted (m : Manager) (peer : NodeID) : Bool :=
  m.setup.replyWhitelistAll || (decide (peer ≠ 0) && m.setup.replyWhitelist.contains peer)

def removePeer (m : Manager) (peer : NodeID) : Manager :=
  { m with pubKeys := m.pubKeys.removePeer peer, rk := m.rk.removePeer peer }

end Manager

end PilotProtocol.KeyExchange
