import Mathlib.Data.List.Dedup
import PilotProtocol.Network.PortPolicy

/-! # The announcements of joins and leaves

A reconciliation announces a network as joined or left by comparing the registry's list with
the networks that the daemon has some state for: a port policy, member tags, a policy runner
or a managed engine. Joins and leaves through IPC, and the subscribers of the announcements,
change that state between the reconciliations.
-/

namespace PilotProtocol.Network

open Library

/-! ## What the operations do for one network -/

namespace Daemon

variable {d : Daemon} {n : NetworkID}

theorem mem_knownNetworkSet (hn : n ≠ 0) : n ∈ d.knownNetworkSet ↔
    (d.netPolicies.lookup n).isSome = true ∨ n ∈ d.policyRunners ∨ n ∈ d.managed ∨
      (d.memberTags.lookup n).isSome = true := by
  unfold knownNetworkSet
  rw [List.mem_dedup, List.mem_append, List.mem_append, List.mem_append, List.mem_filter,
    GoMap.lookup_isSome_iff, GoMap.lookup_isSome_iff]
  simp [hn, or_assoc]

theorem foldl_mergeNetworkPolicy_isSome {prior : GoMap NetworkID (List Port)}
    {results : List NetPolicyResult} {policies : GoMap NetworkID (List Port)} :
    ((results.foldl (mergeNetworkPolicy prior) policies).lookup n).isSome = true ↔
      (policies.lookup n).isSome = true ∨
        ∃ r ∈ results, r.netID = n ∧ (r.ports.isSome = true ∨ (prior.lookup n).isSome = true) := by
  induction results generalizing policies with
  | nil => simp
  | cons r rest ih =>
    rw [List.foldl_cons, ih, mergeNetworkPolicy_lookup]
    by_cases hr : n = r.netID
    · subst hr
      cases hports : r.ports <;> cases prior.lookup r.netID <;> simp [hports]
    · have hne : ¬ r.netID = n := fun h => hr h.symm
      simp [hr, hne]

/-- The fetch of the network's policy succeeds in a refresh over these networks. -/
def policyFetched (n : NetworkID) (policy : Nat → Nat → Option PolicyResp)
    (nets : List NetworkID) : Bool :=
  (fetchNetworkPolicies policy 0 nets).2.any fun r => r.netID == n && r.ports.isSome

def tagsFetched (n : NetworkID) (answer : Nat → Option TagsResp) (nets : List NetworkID) : Bool :=
  nets.zipIdx.any fun e => e.1 == n && (answer e.2).isSome

theorem loadNetworkPolicies_forgets {a : PolicyAnswers} (h : n ∉ d.refreshedNets a) :
    (d.loadNetworkPolicies a).netPolicies.lookup n = none := by
  rw [loadNetworkPolicies_netPolicies, mergeNetworkPolicies, foldl_mergeNetworkPolicy_of_notMem]
  · rfl
  · rwa [fetchNetworkPolicies_netID]

theorem loadNetworkPolicies_keeps {a : PolicyAnswers} (h : n ∈ d.refreshedNets a)
    (hprior : (d.netPolicies.lookup n).isSome = true) :
    ((d.loadNetworkPolicies a).netPolicies.lookup n).isSome = true := by
  have hmem : n ∈ (fetchNetworkPolicies a.policy 0 (d.refreshedNets a)).2.map (·.netID) := by
    rwa [fetchNetworkPolicies_netID]
  obtain ⟨r, hr, hid⟩ := List.mem_map.mp hmem
  rw [loadNetworkPolicies_netPolicies, mergeNetworkPolicies, foldl_mergeNetworkPolicy_isSome]
  exact .inr ⟨r, hr, hid, .inr hprior⟩

theorem loadNetworkPolicies_stores {a : PolicyAnswers}
    (h : policyFetched n a.policy (d.refreshedNets a) = true) :
    ((d.loadNetworkPolicies a).netPolicies.lookup n).isSome = true := by
  obtain ⟨r, hr, hfetched⟩ := List.any_eq_true.mp h
  rw [Bool.and_eq_true, beq_iff_eq] at hfetched
  rw [loadNetworkPolicies_netPolicies, mergeNetworkPolicies, foldl_mergeNetworkPolicy_isSome]
  exact .inr ⟨r, hr, hfetched.1, .inl hfetched.2⟩

theorem nodeNetworks_frame (d : Daemon) (now : Nat) (answer : Option LookupResp) (t : Nat) :
    (d.nodeNetworks now answer t).2.memberTags = d.memberTags ∧
      (d.nodeNetworks now answer t).2.policyRunners = d.policyRunners ∧
      (d.nodeNetworks now answer t).2.managed = d.managed ∧
      (d.nodeNetworks now answer t).2.events = d.events := by
  unfold nodeNetworks nodeNetworksFresh
  split
  · exact ⟨rfl, rfl, rfl, rfl⟩
  · cases answer <;> exact ⟨rfl, rfl, rfl, rfl⟩

theorem loadNetworkPolicies_frame (d : Daemon) (a : PolicyAnswers) :
    (d.loadNetworkPolicies a).memberTags = d.memberTags ∧
      (d.loadNetworkPolicies a).policyRunners = d.policyRunners ∧
      (d.loadNetworkPolicies a).managed = d.managed := by
  have h := d.nodeNetworks_frame a.now a.lookup a.answeredAt
  exact ⟨h.1, h.2.1, h.2.2.1⟩

end Daemon

/-! ## The announcements of one network -/

def announcement (n : NetworkID) : NetworkEvent → Option Bool
  | .joined netID _ _ _ => if netID = n then some true else none
  | .left netID => if netID = n then some false else none
  | .policyLoadFailed _ _ | .tagsChanged _ _ => none

def announcements (n : NetworkID) (events : List NetworkEvent) : List Bool :=
  events.filterMap (announcement n)

theorem announcements_append (n : NetworkID) (first second : List NetworkEvent) :
    announcements n (first ++ second) = announcements n first ++ announcements n second :=
  List.filterMap_append

theorem announcements_eq_nil {n : NetworkID} {events : List NetworkEvent}
    (h : ∀ e ∈ events, announcement n e = none) : announcements n events = [] :=
  List.filterMap_eq_nil_iff.mpr h

theorem announcements_map {n : NetworkID} {nets : List NetworkID} {b : Bool}
    {event : NetworkID → NetworkEvent} (hnodup : nets.Nodup)
    (hevent : ∀ k, announcement n (event k) = if k = n then some b else none) :
    announcements n (nets.map event) = if n ∈ nets then [b] else [] := by
  unfold announcements
  induction nets with
  | nil => rfl
  | cons k rest ih =>
    rw [List.nodup_cons] at hnodup
    rw [List.map_cons, List.filterMap_cons, hevent, ih hnodup.2]
    by_cases hk : k = n
    · subst hk
      simp [hnodup.1]
    · simp [hk, Ne.symm hk]

namespace Daemon

variable {d : Daemon} {n : NetworkID}

theorem loadNetworkPolicies_announcements (d : Daemon) (n : NetworkID) (a : PolicyAnswers) :
    announcements n (d.loadNetworkPolicies a).events = announcements n d.events := by
  have hevents := (d.nodeNetworks_frame a.now a.lookup a.answeredAt).2.2.2
  simp only [loadNetworkPolicies, hevents]
  rw [announcements_append, List.append_right_eq_self]
  apply announcements_eq_nil
  intro e he
  obtain ⟨r, -, hr⟩ := List.mem_filterMap.mp he
  split at hr <;> cases hr
  rfl

theorem loadNetworkPolicies_events_grow (d : Daemon) (a : PolicyAnswers) :
    d.events <+: (d.loadNetworkPolicies a).events := by
  have hevents := (d.nodeNetworks_frame a.now a.lookup a.answeredAt).2.2.2
  simp only [loadNetworkPolicies, hevents]
  exact List.prefix_append _ _

/-- The networks that a tick announces as joined, and those it announces as left. -/
def joinedNets (newNets oldSet : List NetworkID) : List NetworkID :=
  newNets.dedup.filter fun netID => netID != 0 && !oldSet.contains netID

def goneNets (newNets oldSet : List NetworkID) : List NetworkID :=
  oldSet.filter fun netID => !newNets.contains netID

theorem publishDeltas_eq (d : Daemon) (newNets oldSet : List NetworkID) (a : ReconcileAnswers) :
    ∃ file calls policies tags events, d.publishDeltas newNets oldSet a = { d with
          snapshotFile := file
          calls := calls
          netPolicies := policies
          memberTags := tags
          events := d.events ++ events } ∧
      (∀ n, oldSet.Nodup →
        announcements n events =
          (if n ∈ joinedNets newNets oldSet then [true] else []) ++
            if n ∈ goneNets newNets oldSet then [false] else []) ∧
      ∀ n, policies.lookup n =
          (if n ∈ goneNets newNets oldSet then none else d.netPolicies.lookup n) ∧
        (n ∈ goneNets newNets oldSet → tags.lookup n = none) ∧
        (n ∉ newNets → n ∉ goneNets newNets oldSet → tags.lookup n = d.memberTags.lookup n) ∧
        (n ≠ 0 → n ∈ newNets → tagsFetched n a.memberTags newNets = true →
          (tags.lookup n).isSome = true) := by
  let gone := goneNets newNets oldSet
  let R := (d.logCall (.listNetworks a.listNetworks)).refreshMemberTagsAndDiff a.memberTags 0 newNets
  let joins := (joinedNets newNets oldSet).map fun netID =>
    R.2.buildJoinPayload netID ((listByID a.listNetworks).lookup netID) a.exprPolicy
  let tagEvents := R.1.entries.map fun e => NetworkEvent.tagsChanged e.1 e.2
  obtain ⟨refreshed, calls, hrefresh, -, hrefreshed⟩ :=
    refreshMemberTagsAndDiff_spec (d.logCall (.listNetworks a.listNetworks)) a.memberTags 0 newNets
  obtain ⟨policies, tags, hclear, hcleared⟩ := foldl_clearNetworkState_spec gone R.2
  obtain ⟨file, hsave⟩ := saveNetworkSnapshot_eq
    { gone.foldl clearNetworkState R.2 with
      events := (gone.foldl clearNetworkState R.2).events ++ joins ++
        gone.map NetworkEvent.left ++ tagEvents } newNets a.written
  refine ⟨file, calls, policies, tags,
    joins ++ gone.map NetworkEvent.left ++ tagEvents, ?_, ?_, ?_⟩
  · have hframe : ∀ (r : Daemon) (events : List NetworkEvent),
        r = { d.logCall (.listNetworks a.listNetworks) with
              memberTags := refreshed, calls := calls } →
        ({ r with
            snapshotFile := file
            netPolicies := policies
            memberTags := tags
            events := r.events ++ joins ++ gone.map NetworkEvent.left ++
              events } : Daemon) =
          { d with
            snapshotFile := file
            calls := calls
            netPolicies := policies
            memberTags := tags
            events := d.events ++
              (joins ++ gone.map NetworkEvent.left ++ events) } := by
      intro r events hr
      rw [List.append_assoc, List.append_assoc, ← List.append_assoc joins, hr]
      rfl
    apply Eq.trans hsave
    rw [hclear]
    exact hframe R.2 tagEvents hrefresh
  · intro n hnodup
    have htags : announcements n tagEvents = [] := announcements_eq_nil fun e he => by
      obtain ⟨entry, -, rfl⟩ := List.mem_map.mp he
      rfl
    rw [announcements_append, announcements_append, htags, List.append_nil]
    congr 1
    · exact announcements_map ((List.nodup_dedup newNets).filter _) fun k => rfl
    · exact announcements_map (hnodup.filter _) fun k => rfl
  · intro n
    have hR : R.2 = _ := hrefresh
    obtain ⟨hpolicies, htags⟩ := hcleared n
    rw [hR] at hpolicies htags
    refine ⟨hpolicies, fun hgone => ?_, fun hn hgone => ?_, fun hn hmem hfetched => ?_⟩
    · rw [htags, if_pos hgone]
    · rw [htags, if_neg hgone, (hrefreshed n).1 hn]
      rfl
    · have hkept : n ∉ goneNets newNets oldSet := by simp [goneNets, hmem]
      rw [htags, if_neg hkept]
      exact (hrefreshed n).2.2 hn hfetched

/-- What a tick that fetched `nets` does for one network. -/
structure Ticked (n : NetworkID) (nets : List NetworkID) (d d' : Daemon) : Prop where
  runners : d'.policyRunners = d.policyRunners
  engines : d'.managed = d.managed
  grows : d.events <+: d'.events
  announced : announcements n d'.events = announcements n d.events ++
    ((if n ∈ nets ∧ n ∉ d.knownNetworkSet then [true] else []) ++
      if n ∈ d.knownNetworkSet ∧ n ∉ nets then [false] else [])
  forgotten : n ∉ nets → d'.netPolicies.lookup n = none ∧ d'.memberTags.lookup n = none

theorem mem_joinedNets (hn : n ≠ 0) {newNets oldSet : List NetworkID} :
    n ∈ joinedNets newNets oldSet ↔ n ∈ newNets ∧ n ∉ oldSet := by
  simp [joinedNets, hn]

theorem mem_goneNets {newNets oldSet : List NetworkID} :
    n ∈ goneNets newNets oldSet ↔ n ∈ oldSet ∧ n ∉ newNets := by
  simp [goneNets]

theorem refreshedNets_of_fresh {answeredAt : Nat} {resp : LookupResp} {a : PolicyAnswers}
    (hfresh : a.now - answeredAt < nodeNetworksTTL) :
    (d.nodeNetworksFresh (some resp) answeredAt).2.refreshedNets a = resp.nets := by
  have hcache : (d.nodeNetworksFresh (some resp) answeredAt).2.cacheFresh a.now = true := by
    simpa [nodeNetworksFresh, cacheFresh] using hfresh
  simp only [refreshedNets, nodeNetworks, hcache, if_true]
  rfl

theorem reconcileMembership_ticked (hn : n ≠ 0) {a : ReconcileAnswers} {resp : LookupResp}
    (hreg : d.hasReg = true) (hlookup : a.lookup = some resp)
    (hfresh : a.load.now - a.answeredAt < nodeNetworksTTL) :
    Ticked n resp.nets d (d.reconcileMembership a) ∧
      (n ∈ resp.nets → (policyFetched n a.load.policy resp.nets = true ∨
        tagsFetched n a.memberTags resp.nets = true) →
        n ∈ (d.reconcileMembership a).knownNetworkSet) := by
  let fresh := (d.nodeNetworksFresh (some resp) a.answeredAt).2
  have hnets : fresh.refreshedNets a.load = resp.nets := refreshedNets_of_fresh hfresh
  have htick : d.reconcileMembership a =
      (fresh.loadNetworkPolicies a.load).publishDeltas resp.nets d.knownNetworkSet a := by
    unfold reconcileMembership
    rw [if_pos hreg, hlookup]
    rfl
  obtain ⟨file, calls, policies, tags, events, heq, hevents, hlookups⟩ :=
    publishDeltas_eq (fresh.loadNetworkPolicies a.load) resp.nets d.knownNetworkSet a
  have hframe := fresh.loadNetworkPolicies_frame a.load
  have hloaded : announcements n (fresh.loadNetworkPolicies a.load).events =
      announcements n d.events := fresh.loadNetworkPolicies_announcements n a.load
  rw [htick, heq]
  constructor
  · refine ⟨hframe.2.1, hframe.2.2, ?_, ?_, ?_⟩
    · exact (fresh.loadNetworkPolicies_events_grow a.load).trans (List.prefix_append _ events)
    · rw [announcements_append, hloaded, hevents n (List.nodup_dedup _)]
      simp only [mem_joinedNets hn, mem_goneNets]
    · intro hout
      have hpolicies := (hlookups n).1
      rw [loadNetworkPolicies_forgets (hnets ▸ hout), ite_self] at hpolicies
      refine ⟨hpolicies, ?_⟩
      by_cases hknown : n ∈ d.knownNetworkSet
      · exact (hlookups n).2.1 (mem_goneNets.mpr ⟨hknown, hout⟩)
      · have hstays := (hlookups n).2.2.1 hout fun h => hknown (mem_goneNets.mp h).1
        have hunknown := (not_iff_not.mpr (mem_knownNetworkSet hn)).mp hknown
        have htags : d.memberTags.lookup n = none := by
          simpa using fun h => hunknown (.inr (.inr (.inr h)))
        exact (hstays.trans (congrArg (AList.lookup n) hframe.1)).trans htags
  · intro hin hfetched
    rw [mem_knownNetworkSet hn]
    rcases hfetched with hpolicy | htags
    · left
      have hpolicies := (hlookups n).1
      rw [if_neg fun h => (mem_goneNets.mp h).2 hin] at hpolicies
      rw [hpolicies]
      exact loadNetworkPolicies_stores (hnets.symm ▸ hpolicy)
    · exact .inr (.inr (.inr ((hlookups n).2.2.2 hn hin htags)))

end Daemon

end PilotProtocol.Network
