import PilotProtocol.Library.Run
import PilotProtocol.Network.Membership

/-! # Port restrictions across registry failures

A cached restriction is to be relaxed by a registry answer that says so, never
by a failed call. The refresh keeps it across every failed policy fetch; the
list of networks it is rebuilt from, though, is empty after a failed lookup.
-/

namespace PilotProtocol.Network.Daemon

open Library

/-! ## What the operations leave alone -/

variable {n : NetworkID} {ports : List Port} (d : Daemon) (a : PolicyAnswers)
  (answer : Option LookupResp) (nets : List NetworkID) (t : Nat)

@[simp] theorem nodeNetworksFresh_netPolicies :
    (d.nodeNetworksFresh answer t).2.netPolicies = d.netPolicies := by
  cases answer <;> rfl

theorem nodeNetworksFresh_calls :
    (d.nodeNetworksFresh answer t).2.calls = d.calls ++ [.lookup answer] := by
  cases answer <;> rfl

@[simp] theorem nodeNetworks_netPolicies (now : Nat) (answer : Option LookupResp) (t : Nat) :
    (d.nodeNetworks now answer t).2.netPolicies = d.netPolicies := by
  unfold nodeNetworks
  split <;> simp

theorem nodeNetworks_calls (now : Nat) (answer : Option LookupResp) (t : Nat) :
    (d.nodeNetworks now answer t).2.calls =
      d.calls ++ if d.cacheFresh now then [] else [.lookup answer] := by
  unfold nodeNetworks
  split
  · simp
  · exact nodeNetworksFresh_calls d answer t

theorem logCall_calls (call : RegistryCall) : d.calls <+: (d.logCall call).calls :=
  List.prefix_append _ _

/-- One round of `refreshMemberTagsAndDiff`. -/
def tagged (netID : NetworkID) (answer : Option TagsResp) : Daemon :=
  if netID = 0 then d
  else { d.logCall (.getMemberTags netID answer) with
    memberTags := answer.elim d.memberTags fun resp => d.memberTags.insert netID resp.values }

theorem refreshMemberTagsAndDiff_cons (answer : Nat → Option TagsResp) (i : Nat)
    (netID : NetworkID) (rest : List NetworkID) :
    (d.refreshMemberTagsAndDiff answer i (netID :: rest)).2 =
      ((d.tagged netID (answer i)).refreshMemberTagsAndDiff answer (i + 1) rest).2 := by
  rw [refreshMemberTagsAndDiff, tagged]
  split
  · rfl
  · cases answer i with
    | none => rfl
    | some resp => dsimp only; split <;> rfl

theorem tagged_spec (netID : NetworkID) (answer : Option TagsResp) :
    ∃ tags calls, d.tagged netID answer = { d with memberTags := tags, calls := calls } ∧
      d.calls <+: calls ∧ ∀ n, tags.lookup n =
        (if n = netID ∧ n ≠ 0 then answer.map (·.values) else none).or (d.memberTags.lookup n) := by
  unfold tagged
  split
  · exact ⟨d.memberTags, d.calls, rfl, List.prefix_rfl, fun n => by simp [*]⟩
  next h0 =>
    refine ⟨_, _, rfl, d.logCall_calls _, fun n => ?_⟩
    by_cases hn : n = netID <;> cases answer <;> simp [GoMap.lookup_insert_ite, hn, h0]

/-- The tags after a refresh: nothing is lost, only listed networks change, and a fetch that
succeeds leaves an entry. -/
theorem refreshMemberTagsAndDiff_spec (answer : Nat → Option TagsResp) (i : Nat)
    (nets : List NetworkID) : ∃ tags calls, (d.refreshMemberTagsAndDiff answer i nets).2 =
        { d with memberTags := tags, calls := calls } ∧ d.calls <+: calls ∧
      ∀ n : NetworkID, (n ∉ nets → tags.lookup n = d.memberTags.lookup n) ∧
        ((d.memberTags.lookup n).isSome = true → (tags.lookup n).isSome = true) ∧
        (n ≠ 0 → ((nets.zipIdx i).any fun e => e.1 == n && (answer e.2).isSome) = true →
          (tags.lookup n).isSome = true) := by
  induction nets generalizing d i with
  | nil => exact ⟨d.memberTags, d.calls, rfl, List.prefix_rfl, fun n => ⟨fun _ => rfl, id, by simp⟩⟩
  | cons netID rest ih =>
    obtain ⟨tags₁, calls₁, hround, hgrow, htags⟩ := d.tagged_spec netID (answer i)
    obtain ⟨tags, calls, heq, hcalls, hspec⟩ := ih (d.tagged netID (answer i)) (i + 1)
    rw [hround] at heq hcalls hspec
    refine ⟨tags, calls, ?_, hgrow.trans hcalls, fun n => ⟨fun hn => ?_, fun hsome => ?_,
      fun hn hany => ?_⟩⟩
    · rw [refreshMemberTagsAndDiff_cons, hround, heq]
    · rw [List.mem_cons, not_or] at hn
      rw [(hspec n).1 hn.2, htags, if_neg fun h => hn.1 h.1, Option.none_or]
    · exact (hspec n).2.1 (by simp [htags, hsome])
    · rw [List.zipIdx_cons, List.any_cons, Bool.or_eq_true, Bool.and_eq_true, beq_iff_eq] at hany
      rcases hany with ⟨hid, hfetched⟩ | hrest
      · exact (hspec n).2.1 (by simp [htags, hid.symm, hid ▸ hn, hfetched])
      · exact (hspec n).2.2 hn hrest

theorem refreshMemberTagsAndDiff_netPolicies (answer : Nat → Option TagsResp) (i : Nat)
    (nets : List NetworkID) :
    (d.refreshMemberTagsAndDiff answer i nets).2.netPolicies = d.netPolicies := by
  obtain ⟨tags, calls, heq, -⟩ := d.refreshMemberTagsAndDiff_spec answer i nets
  rw [heq]

theorem foldl_clearNetworkState_spec (gone : List NetworkID) (d : Daemon) :
    ∃ policies tags, gone.foldl clearNetworkState d =
        { d with netPolicies := policies, memberTags := tags } ∧
      ∀ n : NetworkID,
        policies.lookup n = (if n ∈ gone then none else d.netPolicies.lookup n) ∧
        tags.lookup n = (if n ∈ gone then none else d.memberTags.lookup n) := by
  induction gone generalizing d with
  | nil => exact ⟨d.netPolicies, d.memberTags, rfl, fun n => ⟨by simp, by simp⟩⟩
  | cons netID rest ih =>
    obtain ⟨policies, tags, heq, hspec⟩ := ih (d.clearNetworkState netID)
    refine ⟨policies, tags, heq, fun n => ?_⟩
    rw [(hspec n).1, (hspec n).2, clearNetworkState, GoMap.lookup_erase_ite,
      GoMap.lookup_erase_ite]
    by_cases hid : n = netID
    · simp [hid]
    · simp [hid]

theorem foldl_clearNetworkState_calls (gone : List NetworkID) (d : Daemon) :
    (gone.foldl clearNetworkState d).calls = d.calls := by
  obtain ⟨policies, tags, heq, -⟩ := foldl_clearNetworkState_spec gone d
  rw [heq]

theorem foldl_clearNetworkState_lookup {gone : List NetworkID} (hn : n ∉ gone) (d : Daemon) :
    (gone.foldl clearNetworkState d).netPolicies.lookup n = d.netPolicies.lookup n := by
  obtain ⟨policies, tags, heq, hspec⟩ := foldl_clearNetworkState_spec gone d
  rw [heq, (hspec n).1, if_neg hn]

theorem saveNetworkSnapshot_eq (written : Bool) :
    ∃ file, d.saveNetworkSnapshot nets written = { d with snapshotFile := file } := by
  unfold saveNetworkSnapshot
  split
  · exact ⟨_, rfl⟩
  · exact ⟨d.snapshotFile, rfl⟩

@[simp] theorem saveNetworkSnapshot_netPolicies (w : Bool) :
    (d.saveNetworkSnapshot nets w).netPolicies = d.netPolicies := by
  obtain ⟨file, heq⟩ := d.saveNetworkSnapshot_eq nets w
  rw [heq]

@[simp] theorem saveNetworkSnapshot_calls (w : Bool) :
    (d.saveNetworkSnapshot nets w).calls = d.calls := by
  obtain ⟨file, heq⟩ := d.saveNetworkSnapshot_eq nets w
  rw [heq]

theorem publishDeltas_calls (newNets oldSet : List NetworkID) (a : ReconcileAnswers) :
    d.calls <+: (d.publishDeltas newNets oldSet a).calls := by
  simp only [publishDeltas, saveNetworkSnapshot_calls, foldl_clearNetworkState_calls]
  obtain ⟨tags, calls, heq, hcalls, -⟩ :=
    (d.logCall (.listNetworks a.listNetworks)).refreshMemberTagsAndDiff_spec a.memberTags 0 newNets
  rw [heq]
  exact (d.logCall_calls _).trans hcalls

theorem publishDeltas_lookup {d : Daemon} {newNets oldSet : List NetworkID} {a : ReconcileAnswers}
    (hn : n ∈ newNets) :
    (d.publishDeltas newNets oldSet a).netPolicies.lookup n = d.netPolicies.lookup n := by
  simp only [publishDeltas, saveNetworkSnapshot_netPolicies]
  rw [foldl_clearNetworkState_lookup, refreshMemberTagsAndDiff_netPolicies]
  · rfl
  · simp [hn]

theorem fillGaps_lookup {V : Type} {live saved : GoMap NetworkID V} {v : V}
    (h : live.lookup n = some v) : (fillGaps live saved).lookup n = some v := by
  unfold fillGaps
  generalize saved.entries = entries
  induction entries generalizing live with
  | nil => exact h
  | cons e rest ih =>
    rw [List.foldl_cons]
    apply ih
    cases he : live.lookup e.1 with
    | some _ => exact h
    | none =>
      rw [GoMap.lookup_insert_ite, if_neg, h]
      rintro rfl
      simp [h] at he

theorem loadNetworkSnapshot_lookup {d : Daemon} {readable : Bool}
    (h : d.netPolicies.lookup n = some ports) :
    (d.loadNetworkSnapshot readable).netPolicies.lookup n = some ports := by
  unfold loadNetworkSnapshot
  split
  · exact fillGaps_lookup h
  · exact h

theorem loadNetworkSnapshot_calls (readable : Bool) :
    (d.loadNetworkSnapshot readable).calls = d.calls := by
  unfold loadNetworkSnapshot
  split <;> rfl

/-! ## The policy refresh -/

theorem mergeNetworkPolicy_lookup (prior policies : GoMap NetworkID (List Port))
    (r : NetPolicyResult) (n : NetworkID) : (mergeNetworkPolicy prior policies r).lookup n =
      if n = r.netID then r.ports.or ((prior.lookup n).or (policies.lookup n))
      else policies.lookup n := by
  unfold mergeNetworkPolicy
  cases hr : r.ports with
  | some ports => rw [GoMap.lookup_insert_ite]; rfl
  | none =>
    cases hp : prior.lookup r.netID with
    | some p =>
      simp only [GoMap.lookup_insert_ite]
      split
      next h => subst h; simp [hp]
      · rfl
    | none =>
      simp only
      split
      next h => subst h; simp [hp]
      · rfl

theorem foldl_mergeNetworkPolicy_of_notMem {prior : GoMap NetworkID (List Port)}
    {results : List NetPolicyResult} (hn : n ∉ results.map (·.netID))
    (policies : GoMap NetworkID (List Port)) :
    (results.foldl (mergeNetworkPolicy prior) policies).lookup n = policies.lookup n := by
  induction results generalizing policies with
  | nil => rfl
  | cons r rest ih =>
    rw [List.map_cons, List.mem_cons, not_or] at hn
    rw [List.foldl_cons, ih hn.2, mergeNetworkPolicy_lookup, if_neg hn.1]

theorem foldl_mergeNetworkPolicy_retains {prior : GoMap NetworkID (List Port)}
    (hprior : prior.lookup n = some ports) {results : List NetPolicyResult}
    (hsame : ∀ r ∈ results, r.netID = n → ∀ p, r.ports = some p → p = ports)
    {policies : GoMap NetworkID (List Port)}
    (h : policies.lookup n = some ports ∨ n ∈ results.map (·.netID)) :
    (results.foldl (mergeNetworkPolicy prior) policies).lookup n = some ports := by
  induction results generalizing policies with
  | nil => simpa using h
  | cons r rest ih =>
    apply ih (fun r' hr' => hsame r' (List.mem_cons_of_mem r hr'))
    rw [mergeNetworkPolicy_lookup]
    by_cases hn : n = r.netID
    · left
      rw [if_pos hn, hprior]
      cases hr : r.ports with
      | none => rfl
      | some p => rw [hsame r (.head _) hn.symm p hr]; rfl
    · simpa [hn] using h

theorem fetchNetworkPolicy_success {netID : NetworkID} {answer : Nat → Option PolicyResp}
    {attempt left : Nat} {resp : PolicyResp}
    (h : (fetchNetworkPolicy netID answer attempt left).2 = some resp) :
    .getNetworkPolicy netID (some resp) ∈ (fetchNetworkPolicy netID answer attempt left).1 := by
  induction left generalizing attempt with
  | zero => cases h
  | succ left ih =>
    unfold fetchNetworkPolicy at h ⊢
    cases ha : answer attempt with
    | some r =>
      simp only [ha, Option.some.injEq] at h
      subst h
      exact List.mem_singleton_self _
    | none =>
      simp only [ha] at h
      exact .tail _ (ih h)

theorem fetchNetworkPolicies_netID (policy : Nat → Nat → Option PolicyResp) (i : Nat)
    (nets : List NetworkID) : (fetchNetworkPolicies policy i nets).2.map (·.netID) = nets := by
  induction nets generalizing i with
  | nil => rfl
  | cons netID rest ih =>
    unfold fetchNetworkPolicies
    rw [List.map_cons, ih]

theorem fetchNetworkPolicies_success {policy : Nat → Nat → Option PolicyResp} {i : Nat}
    {nets : List NetworkID} {r : NetPolicyResult} {p : List Port}
    (hr : r ∈ (fetchNetworkPolicies policy i nets).2) (hp : r.ports = some p) :
    ∃ resp, .getNetworkPolicy r.netID (some resp) ∈ (fetchNetworkPolicies policy i nets).1 ∧
      resp.ports = p := by
  induction nets generalizing i with
  | nil => cases hr
  | cons netID rest ih =>
    unfold fetchNetworkPolicies at hr ⊢
    rcases List.mem_cons.mp hr with rfl | hrest
    · obtain ⟨resp, hresp, hports⟩ := Option.map_eq_some_iff.mp hp
      exact ⟨resp, List.mem_append_left _ (fetchNetworkPolicy_success hresp), hports⟩
    · obtain ⟨resp, hmem, hports⟩ := ih hrest
      exact ⟨resp, List.mem_append_right _ hmem, hports⟩

def refreshedNets (d : Daemon) (a : PolicyAnswers) : List NetworkID :=
  (d.nodeNetworks a.now a.lookup a.answeredAt).1.getD []

theorem loadNetworkPolicies_calls : (d.loadNetworkPolicies a).calls =
      d.calls ++ ((if d.cacheFresh a.now then [] else [.lookup a.lookup]) ++
        (fetchNetworkPolicies a.policy 0 (d.refreshedNets a)).1) := by
  rw [← List.append_assoc, ← nodeNetworks_calls d a.now a.lookup a.answeredAt]
  rfl

theorem loadNetworkPolicies_netPolicies : (d.loadNetworkPolicies a).netPolicies =
    mergeNetworkPolicies d.netPolicies (fetchNetworkPolicies a.policy 0 (d.refreshedNets a)).2 := by
  have h := nodeNetworks_netPolicies d a.now a.lookup a.answeredAt
  rw [← h]
  rfl

/-! ## When a restriction survives a refresh -/

/-- Registry answers that change the restriction `ports` of `n`: a policy answer with
another list, or a membership answer without `n`. -/
def relaxes (n : NetworkID) (ports : List Port) : RegistryCall → Prop
  | .lookup (some resp) => n ∉ resp.nets
  | .getNetworkPolicy m (some resp) => m = n ∧ resp.ports ≠ ports
  | _ => False

instance (n : NetworkID) (ports : List Port) : DecidablePred (relaxes n ports)
  | .lookup (some resp) => inferInstanceAs (Decidable (n ∉ resp.nets))
  | .getNetworkPolicy m (some resp) => inferInstanceAs (Decidable (m = n ∧ resp.ports ≠ ports))
  | .lookup none | .getNetworkPolicy _ none | .getMemberTags _ _ | .listNetworks _ =>
    inferInstanceAs (Decidable False)

/-- The refresh reads a membership list at all: from a fresh cache, which has to list
`n`, or from a lookup, which has to succeed. -/
def membershipKnown (d : Daemon) (n : NetworkID) (a : PolicyAnswers) : Prop :=
  if d.cacheFresh a.now then n ∈ d.nodeNetworksCache else a.lookup.isSome = true

instance (d : Daemon) (n : NetworkID) (a : PolicyAnswers) : Decidable (d.membershipKnown n a) :=
  inferInstanceAs (Decidable (if d.cacheFresh a.now = true then _ else _))

theorem mem_refreshedNets_iff {d : Daemon} {a : PolicyAnswers}
    (hcalls : ∀ c ∈ newEntries d.calls (d.loadNetworkPolicies a).calls, ¬ relaxes n ports c) :
    n ∈ d.refreshedNets a ↔ d.membershipKnown n a := by
  rw [loadNetworkPolicies_calls, newEntries_append] at hcalls
  unfold refreshedNets membershipKnown nodeNetworks
  by_cases hfresh : d.cacheFresh a.now
  · simp [hfresh]
  · cases ha : a.lookup with
    | none => simp [hfresh, nodeNetworksFresh]
    | some resp =>
      have hmem := hcalls (.lookup (some resp)) (by simp [hfresh, ha])
      simpa [hfresh, nodeNetworksFresh, relaxes] using hmem

/-- As long as no answer relaxes the restriction, a refresh keeps it exactly when it
reads a membership list; otherwise the entry is gone. -/
theorem loadNetworkPolicies_lookup {d : Daemon} {a : PolicyAnswers}
    (h : d.netPolicies.lookup n = some ports)
    (hcalls : ∀ c ∈ newEntries d.calls (d.loadNetworkPolicies a).calls, ¬ relaxes n ports c) :
    (d.loadNetworkPolicies a).netPolicies.lookup n =
      if d.membershipKnown n a then some ports else none := by
  have hiff := mem_refreshedNets_iff hcalls
  rw [loadNetworkPolicies_calls, newEntries_append] at hcalls
  rw [loadNetworkPolicies_netPolicies]
  unfold mergeNetworkPolicies
  by_cases hknown : d.membershipKnown n a
  · rw [if_pos hknown]
    apply foldl_mergeNetworkPolicy_retains h
    · intro r hr hrn p hp
      obtain ⟨resp, hmem, hports⟩ := fetchNetworkPolicies_success hr hp
      have hnot := hcalls _ (List.mem_append_right _ hmem)
      simp only [relaxes, hrn, true_and, not_not] at hnot
      rw [← hports, hnot]
    · right
      rw [fetchNetworkPolicies_netID]
      exact hiff.mpr hknown
  · rw [if_neg hknown, foldl_mergeNetworkPolicy_of_notMem]
    · exact AList.lookup_empty n
    · rw [fetchNetworkPolicies_netID]
      exact fun hmem => hknown (hiff.mp hmem)

/-! ## Runs -/

/-- Every policy refresh made by the input reads a membership list. -/
def refreshesKnown (n : NetworkID) (d : Daemon) : Input → Prop
  | .loadNetworkPolicies a => d.membershipKnown n a
  | .leaveNetwork m a => ((d.stopEngines m).clearNetworkState m).membershipKnown n a
  | .reconcileMembership a =>
    d.hasReg = true → a.lookup.isSome = true →
      (d.nodeNetworksFresh a.lookup a.answeredAt).2.membershipKnown n a.load
  | _ => True

def leaves (n : NetworkID) : Input → Prop
  | .leaveNetwork m _ => m = n
  | _ => False

theorem reconcileMembership_cases (a : ReconcileAnswers) : d.reconcileMembership a = d ∨
    d.reconcileMembership a = (d.nodeNetworksFresh a.lookup a.answeredAt).2 ∨
    ∃ resp, d.hasReg = true ∧ a.lookup = some resp ∧ d.reconcileMembership a =
        ((d.nodeNetworksFresh a.lookup a.answeredAt).2.loadNetworkPolicies a.load).publishDeltas
          resp.nets (d.nodeNetworksFresh a.lookup a.answeredAt).2.knownNetworkSet a := by
  unfold reconcileMembership
  by_cases hreg : d.hasReg = true
  · rw [if_pos hreg]
    right
    cases ha : a.lookup with
    | none => exact .inl rfl
    | some resp => exact .inr ⟨resp, hreg, rfl, rfl⟩
  · exact .inl (if_neg hreg)

theorem nodeNetworksFresh_calls_grow : d.calls <+: (d.nodeNetworksFresh answer t).2.calls :=
  nodeNetworksFresh_calls d answer t ▸ List.prefix_append _ _

theorem loadNetworkPolicies_calls_grow : d.calls <+: (d.loadNetworkPolicies a).calls :=
  loadNetworkPolicies_calls d a ▸ List.prefix_append _ _

theorem step_calls (i : Input) : d.calls <+: (d.step i).calls := by
  cases i with
  | loadNetworkSnapshot readable => exact d.loadNetworkSnapshot_calls readable ▸ List.prefix_rfl
  | loadNetworkPolicies a => exact d.loadNetworkPolicies_calls_grow a
  | reconcileMembership a =>
    simp only [step]
    rcases d.reconcileMembership_cases a with h | h | ⟨resp, -, -, h⟩
    · exact h.symm ▸ List.prefix_rfl
    · rw [h]
      exact d.nodeNetworksFresh_calls_grow a.lookup a.answeredAt
    · rw [h]
      exact ((d.nodeNetworksFresh_calls_grow a.lookup a.answeredAt).trans
        (loadNetworkPolicies_calls_grow _ a.load)).trans (publishDeltas_calls _ _ _ a)
  | leaveNetwork m a =>
    exact ((d.stopEngines m).clearNetworkState m).loadNetworkPolicies_calls_grow a
  | invalidateNodeNetworksCache => exact List.prefix_rfl
  | nodeNetworks now answer t => exact d.nodeNetworks_calls now answer t ▸ List.prefix_append _ _

section

variable {d : Daemon} (h : d.netPolicies.lookup n = some ports)
include h

/-- One step: an entry survives a snapshot load, a refresh that reads a membership
list, and the leaving of another network. -/
theorem step_lookup {i : Input} (hknown : refreshesKnown n d i) (hstay : ¬ leaves n i)
    (hcalls : ∀ c ∈ newEntries d.calls (d.step i).calls, ¬ relaxes n ports c) :
    (d.step i).netPolicies.lookup n = some ports := by
  cases i with
  | loadNetworkSnapshot readable => exact loadNetworkSnapshot_lookup h
  | loadNetworkPolicies a => exact (loadNetworkPolicies_lookup h hcalls).trans (if_pos hknown)
  | reconcileMembership a =>
    simp only [step] at hcalls ⊢
    rcases d.reconcileMembership_cases a with hr | hr | ⟨resp, hreg, ha, hr⟩
    · rwa [hr]
    · rwa [hr, nodeNetworksFresh_netPolicies]
    · have hfresh := d.nodeNetworksFresh_calls a.lookup a.answeredAt
      -- the calls of the tick are its lookup, those of the refresh, and later ones
      obtain ⟨later, hlater⟩ := publishDeltas_calls
        ((d.nodeNetworksFresh a.lookup a.answeredAt).2.loadNetworkPolicies a.load) resp.nets
        (d.nodeNetworksFresh a.lookup a.answeredAt).2.knownNetworkSet a
      rw [hr, ← hlater, loadNetworkPolicies_calls, hfresh, List.append_assoc, List.append_assoc,
        newEntries_append] at hcalls
      have hmem : n ∈ resp.nets := by
        have hl := hcalls (.lookup (some resp)) (by simp [ha])
        simpa [relaxes] using hl
      have hprior : (d.nodeNetworksFresh a.lookup a.answeredAt).2.netPolicies.lookup n =
          some ports := by rwa [nodeNetworksFresh_netPolicies]
      rw [hr, publishDeltas_lookup hmem, loadNetworkPolicies_lookup hprior]
      · exact if_pos (hknown hreg (by simp [ha]))
      · intro c hc
        rw [loadNetworkPolicies_calls, newEntries_append] at hc
        exact hcalls c (List.mem_append_right _ (List.mem_append_left _ hc))
  | leaveNetwork m a =>
    have hm : n ≠ m := fun hnm => hstay hnm.symm
    have hcleared :
        ((d.stopEngines m).clearNetworkState m).netPolicies.lookup n = some ports :=
      (AList.lookup_erase_ne hm).trans h
    exact (loadNetworkPolicies_lookup hcleared hcalls).trans (if_pos hknown)
  | invalidateNodeNetworksCache => exact h
  | nodeNetworks now answer t => rwa [step, nodeNetworks_netPolicies]

theorem run_lookup {inputs : List Input}
    (hknown : AllSteps step (refreshesKnown n) d inputs) (hstay : ∀ i ∈ inputs, ¬ leaves n i)
    (hcalls : ∀ c ∈ newEntries d.calls (inputs.foldl step d).calls, ¬ relaxes n ports c) :
    (inputs.foldl step d).netPolicies.lookup n = some ports := by
  have hsteps := (hknown.and (allSteps_of_inputs step d hstay)).and
    (allSteps_of_log step_calls hcalls)
  exact run_invariant (fun d => d.netPolicies.lookup n = some ports)
    (fun d i hd hok => step_lookup hd hok.1.1 hok.1.2 hok.2) h hsteps

theorem isPortAllowed_of_lookup
    (hne : ports ≠ []) (port : Port) : d.isPortAllowed n port = decide (port ∈ ports) := by
  unfold isPortAllowed
  rw [h, Option.getD_some, if_neg (by simpa using hne)]
  rw [Bool.eq_iff_iff, List.any_eq_true, decide_eq_true_iff]
  simp

end

/-- In every run whose refreshes all read a membership list, a restriction stays in
force until an answer changes it or this node leaves the network. -/
theorem portRestriction_survives {d : Daemon} {n : NetworkID} {ports : List Port}
    {inputs : List Input} (h : d.netPolicies.lookup n = some ports) (hne : ports ≠ [])
    (hknown : AllSteps step (refreshesKnown n) d inputs) (hstay : ∀ i ∈ inputs, ¬ leaves n i)
    (hcalls : ∀ c ∈ newEntries d.calls (inputs.foldl step d).calls, ¬ relaxes n ports c)
    (port : Port) : (inputs.foldl step d).isPortAllowed n port = decide (port ∈ ports) :=
  isPortAllowed_of_lookup (run_lookup h hknown hstay hcalls) hne port

/-- A daemon that restricts network 7 to port 80 and has no cached membership list. -/
def restrictedDaemon : Daemon where
  hasReg := true
  hasIdentityPath := false
  nodeNetworksCache := []
  nodeNetworksCacheAt := none
  netPolicies := (∅ : GoMap NetworkID (List Port)).insert 7 [80]
  memberTags := ∅
  policyRunners := []
  managed := []
  snapshotFile := none
  calls := []
  events := []

/-- A refresh whose lookup answers with network 7 and whose policy fetches all fail,
then a reconciliation that finds the registry unreachable. -/
def flakyRegistry : List Input :=
  [.loadNetworkPolicies ⟨0, some ⟨some [.num 7]⟩, 0, fun _ _ => none⟩,
    .reconcileMembership
      ⟨none, 0, ⟨0, none, 0, fun _ _ => none⟩, none, fun _ => none, fun _ => none, false⟩]

theorem flakyRegistry_keeps_restriction :
    (flakyRegistry.foldl step restrictedDaemon).isPortAllowed 7 443 = decide (443 ∈ [(80 : Port)]) := by
  have hfirst : restrictedDaemon.membershipKnown 7
      ⟨0, some ⟨some [.num 7]⟩, 0, fun _ _ => none⟩ := by decide
  refine portRestriction_survives (by decide) (by decide) ?_ ?_ (by decide) 443
  · exact ⟨hfirst, fun _ hsome => absurd hsome (by decide), trivial⟩
  · intro i hi
    simp only [flakyRegistry, List.mem_cons, List.not_mem_nil, or_false] at hi
    rcases hi with rfl | rfl <;> exact id

/-- A refresh that cannot read the membership list lifts the restriction. -/
theorem failedLookup_lifts_restriction : restrictedDaemon.netPolicies.lookup 7 = some [80] ∧
    (∀ c ∈ (restrictedDaemon.step
        (.loadNetworkPolicies ⟨0, none, 0, fun _ _ => none⟩)).calls, ¬ relaxes 7 [80] c) ∧
    (restrictedDaemon.step
        (.loadNetworkPolicies ⟨0, none, 0, fun _ _ => none⟩)).isPortAllowed 7 443 = true := by
  decide

end PilotProtocol.Network.Daemon
