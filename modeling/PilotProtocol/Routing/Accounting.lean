import PilotProtocol.Routing.Calls

/-! # The table of peers on the relay

The manager counts the peers on the relay by the size of the table of flags. An entry whose
flag is off counts too, and some calls add entries without a look at the size. The account is
right as long as no entry's flag is off and no call adds an entry to a full table.
-/

namespace PilotProtocol.Routing

open Library KeyExchange GoMap

namespace Manager

variable {m : Manager} {c : Call} {node : NodeID}

structure RelayAccounting (m : Manager) : Prop where
  bounded : m.relayPeerIDs.length ≤ maxRelayPeers
  counted : m.relayPeerCount = m.relayPeerIDs.length
  pinned : ∀ node, m.isRelayPinned node = true → m.isRelayPeer node = true
  admitRefused : ∀ node, m.admitsRelayFromBeacon node = false →
    maxRelayPeers ≤ (m.relayPeerIDs.filter (· ≠ node)).length
  markRefused : ∀ node hadCrypto, (m.markRelayActivatedIfHadCrypto node hadCrypto).1 = false →
    maxRelayPeers ≤ (m.relayPeerIDs.filter (· ≠ node)).length
  sendErrorRefused : ∀ node result, m.refusesSendError node result = true →
    maxRelayPeers ≤ (m.relayPeerIDs.filter (· ≠ node)).length

/-! ## One step -/

structure Accounted (m : Manager) : Prop where
  on : ∀ node flag, m.relayPeers.lookup node = some flag → flag = true
  bounded : m.relayPeers.len ≤ maxRelayPeers
  pinned : ∀ node, m.isRelayPinned node = true → m.isRelayPeer node = true

theorem new_accounted : new.Accounted where
  on := nofun
  bounded := Nat.zero_le _
  pinned := nofun

theorem isRelayPinned_erase {pins : GoMap NodeID Bool} {q : NodeID}
    (h : ((pins.erase node).lookup q).getD false = true) :
    q ≠ node ∧ (pins.lookup q).getD false = true := by
  rw [lookup_erase_ite] at h
  split at h
  · cases h
  next hne => exact ⟨hne, h⟩

theorem Accounted.call (h : m.Accounted) (hok : m.accountable c = true) : (m.call c).Accounted := by
  have hbounded := h.bounded
  cases (m.called c).relays with
  | same hpeers hpins =>
    refine ⟨hpeers ▸ h.on, hpeers ▸ hbounded, fun q hq => ?_⟩
    unfold isRelayPeer
    rw [isRelayPinned, hpins] at hq
    rw [hpeers]
    exact h.pinned q hq
  | on hpeers hpins hroom =>
    constructor
    · intro q flag hq
      rw [hpeers, lookup_insert_ite] at hq
      split at hq
      · exact (Option.some.inj hq).symm
      · exact h.on q flag hq
    · rw [hpeers, len_insert]
      split
      · exact hbounded
      next hnone =>
        rcases Bool.or_eq_true_iff.mp (hroom hok) with hsome | hlt
        · exact absurd hsome hnone
        · exact of_decide_eq_true hlt
    · intro q hq
      unfold isRelayPeer
      unfold isRelayPinned at hq
      rw [hpeers, lookup_insert_ite]
      split
      · rfl
      next hne =>
        rcases hpins with hsame | hinsert
        · rw [hsame] at hq
          exact h.pinned q hq
        · rw [hinsert, lookup_insert_ite, if_neg hne] at hq
          exact h.pinned q hq
  | off _ _ _ haccount => rw [haccount] at hok; cases hok
  | gone hpeers hpins =>
    constructor
    · intro q flag hq
      rcases hpeers with hpeers | hpeers
      · exact h.on q flag (hpeers ▸ hq)
      · rw [hpeers, lookup_erase_ite] at hq
        split at hq
        · cases hq
        · exact h.on q flag hq
    · rcases hpeers with hpeers | hpeers
      · exact hpeers ▸ hbounded
      · rw [hpeers, len_erase]
        split <;> omega
    · intro q hq
      unfold isRelayPinned at hq
      rw [hpins] at hq
      obtain ⟨hne, hpinned⟩ := isRelayPinned_erase hq
      unfold isRelayPeer
      rcases hpeers with hpeers | hpeers
      · rw [hpeers]
        exact h.pinned q hpinned
      · rw [hpeers, lookup_erase_ite, if_neg hne]
        exact h.pinned q hpinned

/-! ## What the invariant says of the results -/

theorem Accounted.relayPeerIDs (h : m.Accounted) : m.relayPeerIDs = m.relayPeers.keys := by
  unfold Manager.relayPeerIDs
  rw [List.filter_eq_self.mpr]
  · rfl
  · intro e he
    exact h.on e.1 e.2 (lookup_eq_some_iff.mpr he)

theorem Accounted.length_relayPeerIDs (h : m.Accounted) : m.relayPeerIDs.length = m.relayPeers.len := by
  rw [h.relayPeerIDs, len_eq_keys]

theorem Accounted.others (h : m.Accounted) (hnot : m.isRelayPeer node = false)
    (hfull : maxRelayPeers ≤ m.relayPeers.len) :
    maxRelayPeers ≤ (m.relayPeerIDs.filter (· ≠ node)).length := by
  have hmem : node ∉ m.relayPeers.keys := by
    intro hmem
    obtain ⟨flag, hflag⟩ := Option.isSome_iff_exists.mp (lookup_isSome_iff.mpr hmem)
    unfold isRelayPeer at hnot
    simp [hflag, h.on node flag hflag] at hnot
  have hall : m.relayPeerIDs.filter (· ≠ node) = m.relayPeerIDs := by
    rw [h.relayPeerIDs, List.filter_eq_self]
    intro q hq
    apply decide_eq_true
    rintro rfl
    exact hmem hq
  rwa [hall, h.length_relayPeerIDs]

theorem Accounted.relayAccounting (h : m.Accounted) : m.RelayAccounting where
  bounded := by
    rw [h.length_relayPeerIDs]
    exact h.bounded
  counted := h.length_relayPeerIDs.symm
  pinned := h.pinned
  admitRefused := fun node hrefused => by
    simp only [admitsRelayFromBeacon, Bool.not_eq_false', Bool.and_eq_true, Option.isNone_iff_eq_none,
      decide_eq_true_eq] at hrefused
    apply h.others _ hrefused.2
    simp [isRelayPeer, hrefused.1]
  markRefused := fun node hadCrypto hrefused => by
    unfold markRelayActivatedIfHadCrypto at hrefused
    split at hrefused
    · split at hrefused
      next hfull =>
        simp only [Bool.and_eq_true, Bool.not_eq_true', decide_eq_true_eq] at hfull
        exact h.others hfull.1 hfull.2
      next => cases hrefused
    · cases hrefused
  sendErrorRefused := fun node result hrefused => by
    simp only [refusesSendError, Bool.and_eq_true, decide_eq_true_eq, Bool.not_eq_true'] at hrefused
    obtain ⟨⟨⟨hresult, hcount⟩, hnot⟩, hstays⟩ := hrefused
    apply h.others hnot
    by_contra hroom
    unfold handleSendError at hstays
    rw [if_pos hresult, if_pos ⟨hcount, hnot, Nat.lt_of_not_le hroom⟩] at hstays
    simp [isRelayPeer] at hstays

end Manager

/-! ## Runs -/

namespace System

def accountable (s : System) : Input → Bool
  | .call c => s.m.accountable c
  | .flip look => s.m.accountable (.flipBlackhole look.node)
  | _ => true

theorem step_accounted {s : System} {i : Input} (h : s.m.Accounted) (hok : s.accountable i = true) :
    (s.step i).m.Accounted := by
  rcases s.step_cases i with ⟨c, hstep, hi⟩ | ⟨node, since, -, -, hstep⟩ | ⟨now, addr, -, hstep⟩
  · have hcall : s.m.accountable c = true := by
      rcases hi with ⟨rfl, -, -⟩ | ⟨look, -, rfl, rfl, -⟩
      · exact hok
      · exact hok
    rw [hstep]
    exact h.call hcall
  · rwa [hstep]
  · rw [hstep]
    exact ⟨h.on, h.bounded, h.pinned⟩

/-- The accounting is right in every state that is reached without a call that leaves a flag
off or adds an entry to a full table unchecked. -/
theorem relay_accounting {began : Nat} {inputs : List Input}
    (hok : AllSteps step (fun s i => s.accountable i = true) (initial began) inputs) :
    ((initial began).run inputs).m.RelayAccounting :=
  (run_invariant (fun s : System => s.m.Accounted) (fun _ _ h hok => step_accounted h hok)
    Manager.new_accounted hok).relayAccounting

theorem admitted_and_removed :
    ((initial 0).run [.call (.admitRelayFromBeacon 7), .call (.setRelayPeer 8 true),
        .call (.removePeer 7)]).m.RelayAccounting ∧
      ((initial 0).run [.call (.admitRelayFromBeacon 7), .call (.setRelayPeer 8 true),
        .call (.removePeer 7)]).m.relayPeerIDs = [8] :=
  ⟨relay_accounting (by decide), by decide⟩

/-- The flags of the first `n` peers are set, without regard to the size of the table. -/
def setFirst (relay : Bool) (n : Nat) : List Input :=
  (List.range n).map fun i => .call (.setRelayPeer (UInt32.ofNat i) relay)

theorem run_setFirst (relay : Bool) {n : Nat} (hn : n ≤ UInt32.size) :
    ((initial 0).run (setFirst relay n)).m.relayPeers.len = n ∧
      ∀ q flag, ((initial 0).run (setFirst relay n)).m.relayPeers.lookup q = some flag →
        flag = relay ∧ q.toNat < n := by
  induction n with
  | zero => exact ⟨rfl, nofun⟩
  | succ n ih =>
    obtain ⟨hlen, hflags⟩ := ih (by omega)
    have hrun : ((initial 0).run (setFirst relay (n + 1))).m.relayPeers =
        ((initial 0).run (setFirst relay n)).m.relayPeers.insert (UInt32.ofNat n) relay := by
      simp [run, setFirst, List.range_succ, step, call, Manager.call, Manager.setRelayPeer]
    have hnew : ((initial 0).run (setFirst relay n)).m.relayPeers.lookup (UInt32.ofNat n) = none := by
      cases hlookup :
          ((initial 0).run (setFirst relay n)).m.relayPeers.lookup (UInt32.ofNat n) with
      | none => rfl
      | some flag =>
        have hlt := (hflags _ flag hlookup).2
        rw [UInt32.toNat_ofNat_of_lt' hn] at hlt
        omega
    constructor
    · rw [hrun, len_insert, hnew, hlen]
      rfl
    · intro q flag hq
      rw [hrun, lookup_insert_ite] at hq
      split at hq
      next heq =>
        rw [heq, UInt32.toNat_ofNat_of_lt' hn]
        exact ⟨(Option.some.inj hq).symm, Nat.lt_succ_self n⟩
      next =>
        obtain ⟨hflag, hlt⟩ := hflags q flag hq
        exact ⟨hflag, Nat.lt_succ_of_lt hlt⟩

/-- The ways in which the account goes wrong. A flag that is switched off leaves a pin and an
entry that counts; with all of a full table's flags off a peer is refused although no peer is
on the relay; and any number of peers can be put on the relay. -/
theorem accounting_goes_wrong : (¬ ∀ inputs, ((initial 0).run inputs).m.RelayAccounting) ∧
      (((initial 0).run [.call (.setRelayPeerPinned 7 true), .call (.setRelayPeer 7 false)]).m.isRelayPinned
          7 = true ∧ ((initial 0).run [.call (.setRelayPeerPinned 7 true),
          .call (.setRelayPeer 7 false)]).m.relayPeerIDs = [] ∧
        ((initial 0).run [.call (.setRelayPeerPinned 7 true),
          .call (.setRelayPeer 7 false)]).m.relayPeerCount = 1) ∧
      (((initial 0).run (setFirst false maxRelayPeers)).m.admitsRelayFromBeacon 9999 = false ∧
        ((initial 0).run (setFirst false maxRelayPeers)).m.relayPeerIDs = []) ∧
      ((initial 0).run (setFirst true (maxRelayPeers + 1))).m.relayPeerIDs.length =
        maxRelayPeers + 1 := by
  refine ⟨fun h => ?_, by decide, ⟨?_, ?_⟩, ?_⟩
  · have hcounted := (h [.call (.setRelayPeerPinned 7 true), .call (.setRelayPeer 7 false)]).counted
    exact absurd hcounted (by decide)
  · obtain ⟨hlen, hflags⟩ := run_setFirst false (show maxRelayPeers ≤ UInt32.size by decide)
    have hnone : ((initial 0).run (setFirst false maxRelayPeers)).m.relayPeers.lookup 9999 = none := by
      cases hlookup : ((initial 0).run (setFirst false maxRelayPeers)).m.relayPeers.lookup 9999 with
      | none => rfl
      | some flag => exact absurd (hflags 9999 flag hlookup).2 (by decide)
    unfold Manager.admitsRelayFromBeacon
    rw [hnone, hlen]
    rfl
  · obtain ⟨-, hflags⟩ := run_setFirst false (show maxRelayPeers ≤ UInt32.size by decide)
    unfold Manager.relayPeerIDs
    rw [List.filter_eq_nil_iff.mpr]
    · rfl
    · intro e he
      rw [(hflags e.1 e.2 (lookup_eq_some_iff.mpr he)).1]
      exact Bool.false_ne_true
  · obtain ⟨hlen, hflags⟩ := run_setFirst true (show maxRelayPeers + 1 ≤ UInt32.size by decide)
    unfold Manager.relayPeerIDs
    rw [List.filter_eq_self.mpr, List.length_map]
    · exact hlen
    · intro e he
      exact (hflags e.1 e.2 (lookup_eq_some_iff.mpr he)).1

end System

end PilotProtocol.Routing
