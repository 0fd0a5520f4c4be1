import Mathlib.Data.List.Chain
import PilotProtocol.Network.Announcements

/-! # Reconciliations beside joins and leaves

The daemon after its startup: ticks of the reconciliation, joins and leaves that clients ask
for, and what these leave to run later. A join refreshes the port policies in a goroutine of
its own and may start a policy runner; a leave cleans up in a goroutine; the subscribers of
an announcement start and stop the network's engine and policy runner. The runners belong to a
plugin, of which no more is assumed than what the topics' description says.
-/

namespace PilotProtocol.Network

open Library
open Daemon (PolicyAnswers ReconcileAnswers policyFetched tagsFetched nodeNetworksTTL)
open Daemon

inductive RunnerCall
  | start (netID : NetworkID)
  | stop (netID : NetworkID)
  deriving DecidableEq

/-- The policy plugin's manager, as its effect on the networks that `All` lists, and the calls
that its subscription makes when an event is published. A join with a policy starts a runner,
a leave stops one, and nothing else of the plugin's own does either. -/
structure PolicyManager where
  /-- `Start`, with whether the policy compiles. -/
  start : NetworkID → Bool → List NetworkID → List NetworkID
  stop : NetworkID → List NetworkID → List NetworkID
  reacts : NetworkEvent → List RunnerCall
  start_keeps : ∀ {n netID ok runners}, n ∈ runners → n ∈ start netID ok runners
  start_only : ∀ {n netID ok runners}, n ∈ start netID ok runners → n ∈ runners ∨ n = netID
  stop_keeps : ∀ {n netID runners}, n ∈ runners → n ≠ netID → n ∈ stop netID runners
  stop_only : ∀ {n netID runners}, n ∈ stop netID runners → n ∈ runners ∧ n ≠ netID
  starts_on_joined : ∀ {netID e}, .start netID ∈ reacts e →
    ∃ rules exprPolicy tags, e = .joined netID rules (some exprPolicy) tags
  stops_on_left : ∀ {netID e}, .stop netID ∈ reacts e ↔ e = .left netID

namespace Daemon

variable (M : PolicyManager)

def startPolicyRunner (d : Daemon) (netID : NetworkID) (valid : Bool) : Daemon :=
  { d with policyRunners := M.start netID valid d.policyRunners }

def stopPolicyRunner (d : Daemon) (netID : NetworkID) : Daemon :=
  { d with policyRunners := M.stop netID d.policyRunners }

def startManagedEngine (d : Daemon) (netID : NetworkID) : Daemon :=
  if netID ∈ d.managed then d else { d with managed := netID :: d.managed }

def stopManagedEngine (d : Daemon) (netID : NetworkID) : Daemon :=
  { d with managed := d.managed.filter (· != netID) }

variable {M} {d d' : Daemon} {n netID : NetworkID}

/-- Where the daemon keeps something for a network. -/
inductive Slot
  | policies | runners | engines | tags

def Holds (d : Daemon) (n : NetworkID) : Slot → Prop
  | .policies => (d.netPolicies.lookup n).isSome = true
  | .runners => n ∈ d.policyRunners
  | .engines => n ∈ d.managed
  | .tags => (d.memberTags.lookup n).isSome = true

theorem known_iff_holds (hn : n ≠ 0) : n ∈ d.knownNetworkSet ↔ ∃ x, d.Holds n x := by
  rw [mem_knownNetworkSet hn]
  constructor
  · rintro (h | h | h | h)
    exacts [⟨.policies, h⟩, ⟨.runners, h⟩, ⟨.engines, h⟩, ⟨.tags, h⟩]
  · rintro ⟨x, h⟩
    cases x with
    | policies => exact .inl h
    | runners => exact .inr (.inl h)
    | engines => exact .inr (.inr (.inl h))
    | tags => exact .inr (.inr (.inr h))

/-- A change that announces nothing of a network, loses nothing of it unless it drops it, and
has nothing new of it unless it brings it. -/
structure Changes (n : NetworkID) (drops brings : Prop) (d d' : Daemon) : Prop where
  announced : announcements n d'.events = announcements n d.events
  keeps : ¬ drops → ∀ x, d.Holds n x → d'.Holds n x
  quiet : ¬ brings → ∀ x, d'.Holds n x → d.Holds n x

theorem Changes.refl (n : NetworkID) (drops brings : Prop) (d : Daemon) : Changes n drops brings d d :=
  ⟨rfl, fun _ _ h => h, fun _ _ h => h⟩

theorem changes_load (a : PolicyAnswers) :
    Changes n (n ∉ d.refreshedNets a) (n ∈ d.refreshedNets a) d (d.loadNetworkPolicies a) := by
  obtain ⟨htags, hrunners, hmanaged⟩ := d.loadNetworkPolicies_frame a
  refine ⟨d.loadNetworkPolicies_announcements n a, fun hlisted x h => ?_, fun hout x h => ?_⟩
  · cases x with
    | policies => exact loadNetworkPolicies_keeps (not_not.mp hlisted) h
    | runners | engines | tags => simpa only [Holds, htags, hrunners, hmanaged] using h
  · cases x with
    | policies => simp [Holds, loadNetworkPolicies_forgets hout] at h
    | runners | engines | tags => simpa only [Holds, htags, hrunners, hmanaged] using h

theorem changes_startPolicyRunner (valid : Bool) :
    Changes n False (n = netID) d (d.startPolicyRunner M netID valid) := by
  refine ⟨rfl, fun _ x h => ?_, fun hne x h => ?_⟩
  · cases x with
    | runners => exact M.start_keeps h
    | policies | engines | tags => exact h
  · cases x with
    | runners => exact (M.start_only h).resolve_right hne
    | policies | engines | tags => exact h

theorem changes_startManagedEngine :
    Changes n False (n = netID) d (d.startManagedEngine netID) := by
  unfold startManagedEngine
  split
  · exact .refl ..
  · refine ⟨rfl, fun _ x h => ?_, fun hne x h => ?_⟩ <;> cases x <;> simp_all [Holds]

theorem changes_stopPolicyRunner : Changes n (n = netID) False d (d.stopPolicyRunner M netID) := by
  refine ⟨rfl, fun hne x h => ?_, fun _ x h => ?_⟩
  · cases x with
    | runners => exact M.stop_keeps h hne
    | policies | engines | tags => exact h
  · cases x with
    | runners => exact (M.stop_only h).1
    | policies | engines | tags => exact h

theorem changes_stopManagedEngine : Changes n (n = netID) False d (d.stopManagedEngine netID) := by
  refine ⟨rfl, fun hne x h => ?_, fun _ x h => ?_⟩ <;> cases x <;>
    simp_all [Holds, stopManagedEngine]

theorem changes_clearNetworkState : Changes n (n = netID) False d (d.clearNetworkState netID) := by
  refine ⟨rfl, fun hne x h => ?_, fun _ x h => ?_⟩ <;> cases x <;>
    simp_all [Holds, clearNetworkState, GoMap.lookup_erase_ite, apply_ite Option.isSome]

end Daemon

inductive LeaveAt
  | stopRunner
  | stopEngine
  | clear
  | load
  deriving DecidableEq

inductive Task
  /-- The refresh after a join. -/
  | joinLoad
  /-- A join whose answer has a policy. -/
  | joinRunner (netID : NetworkID)
  | leaving (p : LeaveAt) (netID : NetworkID)
  /-- The subscribers of an announcement. -/
  | joinedEngine (netID : NetworkID)
  | joinedRunner (netID : NetworkID)
  | leftEngine (netID : NetworkID)
  | leftRunner (netID : NetworkID)
  deriving DecidableEq

structure Sync where
  d : Daemon
  tasks : List Task

/-- What a task meets outside: the registry's answers, and whether a policy compiles or the
rules parse. -/
structure TaskAnswers where
  load : PolicyAnswers
  valid : Bool

namespace Sync

inductive Input
  | tick (a : ReconcileAnswers)
  /-- `none` is an error; otherwise whether the answer has a policy. -/
  | join (netID : NetworkID) (answer : Option Bool)
  | leave (netID : NetworkID) (accepted : Bool)
  | task (t : Task) (a : TaskAnswers)

def start (d : Daemon) : Sync := ⟨d, []⟩

/-- The daemon's own subscription: the engine is started for a network with rules. -/
def engineReactions : NetworkEvent → List Task
  | .joined netID rules _ _ => if rules.isSome then [.joinedEngine netID] else []
  | .left netID => [.leftEngine netID]
  | .policyLoadFailed _ _ | .tagsChanged _ _ => []

def runnerReaction : RunnerCall → Task
  | .start netID => .joinedRunner netID
  | .stop netID => .leftRunner netID

variable (M : PolicyManager)

def reactions (e : NetworkEvent) : List Task := engineReactions e ++ (M.reacts e).map runnerReaction

def perform (d : Daemon) (a : TaskAnswers) : Task → Daemon
  | .joinLoad | .leaving .load _ => d.loadNetworkPolicies a.load
  | .joinRunner netID | .joinedRunner netID => d.startPolicyRunner M netID a.valid
  | .joinedEngine netID => if a.valid then d.startManagedEngine netID else d
  | .leaving .stopRunner netID | .leftRunner netID => d.stopPolicyRunner M netID
  | .leaving .stopEngine netID | .leftEngine netID => d.stopManagedEngine netID
  | .leaving .clear netID => d.clearNetworkState netID

def next : Task → List Task
  | .leaving .stopRunner netID => [.leaving .stopEngine netID]
  | .leaving .stopEngine netID => [.leaving .clear netID]
  | .leaving .clear netID => [.leaving .load netID]
  | _ => []

def step (s : Sync) : Input → Sync
  | .tick a =>
    let d := s.d.reconcileMembership a
    ⟨d, s.tasks ++ (newEntries s.d.events d.events).flatMap (reactions M)⟩
  | .join _ none => s
  | .join netID (some hasPolicy) =>
    ⟨s.d.invalidateNodeNetworksCache,
      s.tasks ++ [.joinLoad] ++ if hasPolicy then [.joinRunner netID] else []⟩
  | .leave netID accepted =>
    if accepted then ⟨s.d.invalidateNodeNetworksCache, s.tasks ++ [.leaving .stopRunner netID]⟩
    else s
  | .task t a =>
    if t ∈ s.tasks then ⟨perform M s.d a t, s.tasks.erase t ++ next t⟩ else s

/-! ## What the announcements say -/

/-- Whether the last announcement is of a join; `was` is whether the network was known before
the first. -/
def announced (s : Sync) (n : NetworkID) (was : Bool) : Bool :=
  (announcements n s.d.events).getLast?.getD was

/-- The task is a subscriber's reaction to an announcement of the network. -/
def reacts (n : NetworkID) : Task → Bool
  | .joinedEngine netID | .joinedRunner netID | .leftEngine netID | .leftRunner netID => netID == n
  | .joinLoad | .joinRunner _ | .leaving _ _ => false

/-- A refresh lists the network exactly if it is announced, a join starts its runner only
while it is, and a leave cleans it up only while it is not. -/
def calmTask (s : Sync) (n : NetworkID) (was : Bool) (a : TaskAnswers) : Task → Bool
  | .joinLoad | .leaving .load _ => (s.d.refreshedNets a.load).contains n == s.announced n was
  | .joinRunner netID => netID != n || s.announced n was
  | .leaving _ netID => netID != n || !s.announced n was
  | .joinedEngine _ | .joinedRunner _ | .leftEngine _ | .leftRunner _ => true

/-- A tick that fetches the list finds the reactions to the network's last announcement
done, refreshes the policies while the list is fresh, and stores something for the network if
the list has it. -/
def calm (s : Sync) (n : NetworkID) (was : Bool) : Input → Bool
  | .tick a =>
    match s.d.hasReg, a.lookup with
    | true, some resp =>
      s.tasks.all (fun t => !reacts n t) &&
        decide (a.load.now - a.answeredAt < nodeNetworksTTL) &&
        (!resp.nets.contains n || policyFetched n a.load.policy resp.nets ||
          tagsFetched n a.memberTags resp.nets)
    | _, _ => true
  | .task t a => s.calmTask n was a t
  | .join _ _ | .leave _ _ => true

def tells (n : NetworkID) : Task → Option Bool
  | .joinedEngine netID | .joinedRunner netID => if netID = n then some true else none
  | .leftEngine netID | .leftRunner netID => if netID = n then some false else none
  | .joinLoad | .joinRunner _ | .leaving _ _ => none

def cleans (n : NetworkID) : Slot → Option Task
  | .runners => some (.leftRunner n)
  | .engines => some (.leftEngine n)
  | .policies | .tags => none

/-- The announcements alternate, and what the daemon knows of the network follows them. -/
structure Mirror (n : NetworkID) (was : Bool) (s : Sync) : Prop where
  alternate : (was :: announcements n s.d.events).IsChain (· ≠ ·)
  known : s.announced n was = true → ∃ x, s.d.Holds n x
  cleaned : s.announced n was = false → ∀ x, s.d.Holds n x → ∃ t ∈ s.tasks, cleans n x = some t
  follows : ∀ t ∈ s.tasks, ∀ b, tells n t = some b → b = s.announced n was

variable {M} {n : NetworkID} {was : Bool} {s s' : Sync} {a : TaskAnswers} {t : Task}
  {e : NetworkEvent}

theorem reacts_of_tells {b : Bool} (h : tells n t = some b) : reacts n t = true := by
  cases t with
  | joinLoad | joinRunner | leaving => cases h
  | joinedEngine | joinedRunner | leftEngine | leftRunner => simp_all [tells, reacts]

theorem tells_of_cleans {x : Slot} (h : cleans n x = some t) : tells n t = some false := by
  cases x with
  | policies | tags => cases h
  | runners | engines => cases h; exact if_pos rfl

theorem Mirror.of_changes {drops brings : Prop} (h : Mirror n was s)
    (hc : Changes n drops brings s.d s'.d) (hdrops : drops → s.announced n was = false)
    (hbrings : brings → s.announced n was = true)
    (htasks : ∀ u ∈ s'.tasks, reacts n u = true → u ∈ s.tasks)
    (hcleans : ∀ x u, cleans n x = some u → u ∈ s.tasks → s'.d.Holds n x → u ∈ s'.tasks) :
    Mirror n was s' := by
  have hsame : s'.announced n was = s.announced n was :=
    congrArg (fun l : List Bool => l.getLast?.getD was) hc.announced
  constructor
  · rw [hc.announced]
    exact h.alternate
  · intro hannounced
    rw [hsame] at hannounced
    obtain ⟨x, hx⟩ := h.known hannounced
    exact ⟨x, hc.keeps (fun hdrop => by simp [hdrops hdrop] at hannounced) x hx⟩
  · intro hannounced x hx
    rw [hsame] at hannounced
    have hquiet : ¬ brings := fun hbring => by simp [hbrings hbring] at hannounced
    obtain ⟨u, hu, hclean⟩ := h.cleaned hannounced x (hc.quiet hquiet x hx)
    exact ⟨u, hcleans x u hclean hu hx, hclean⟩
  · intro u hu b hb
    rw [hsame]
    exact h.follows u (htasks u hu (reacts_of_tells hb)) b hb

theorem Mirror.same (h : Mirror n was s) (hc : Changes n False False s.d s'.d)
    (htasks : ∀ u, reacts n u = true → (u ∈ s'.tasks ↔ u ∈ s.tasks)) : Mirror n was s' :=
  h.of_changes hc False.elim False.elim (fun u hu hreacts => (htasks u hreacts).mp hu)
    fun _ u hclean hu _ => (htasks u (reacts_of_tells (tells_of_cleans hclean))).mpr hu

/-! ## Tasks -/

def drops (n : NetworkID) (d : Daemon) (a : TaskAnswers) : Task → Prop
  | .joinLoad | .leaving .load _ => n ∉ d.refreshedNets a.load
  | .leaving _ netID | .leftRunner netID | .leftEngine netID => n = netID
  | .joinRunner _ | .joinedRunner _ | .joinedEngine _ => False

def brings (n : NetworkID) (d : Daemon) (a : TaskAnswers) : Task → Prop
  | .joinLoad | .leaving .load _ => n ∈ d.refreshedNets a.load
  | .joinRunner netID | .joinedRunner netID | .joinedEngine netID => n = netID
  | .leaving _ _ | .leftRunner _ | .leftEngine _ => False

theorem perform_changes (n : NetworkID) (d : Daemon) (a : TaskAnswers) (t : Task) :
    Changes n (drops n d a t) (brings n d a t) d (perform M d a t) := by
  cases t with
  | joinLoad => exact changes_load a.load
  | joinRunner netID | joinedRunner netID => exact changes_startPolicyRunner a.valid
  | joinedEngine netID =>
    simp only [perform]
    split
    · exact changes_startManagedEngine
    · exact .refl ..
  | leftRunner netID => exact changes_stopPolicyRunner
  | leftEngine netID => exact changes_stopManagedEngine
  | leaving p netID =>
    cases p with
    | load => exact changes_load a.load
    | stopRunner => exact changes_stopPolicyRunner
    | stopEngine => exact changes_stopManagedEngine
    | clear => exact changes_clearNetworkState

/-- A calm task that drops a network still announced, or brings one that is not, reacts to an
announcement of it. -/
theorem tells_of_calm (hcalm : s.calmTask n was a t = true) :
    (drops n s.d a t → s.announced n was = false ∨ tells n t = some false) ∧
      (brings n s.d a t → s.announced n was = true ∨ tells n t = some true) := by
  cases t with
  | leaving p netID => cases p <;> grind [calmTask, drops, brings, tells]
  | _ => grind [calmTask, drops, brings, tells]

theorem reacts_next (n : NetworkID) {u : Task} (h : u ∈ next t) : reacts n u = false := by
  cases t with
  | leaving p netID => cases p <;> simp_all [next, reacts]
  | _ => cases h

theorem Mirror.task (h : Mirror n was s) (hmem : t ∈ s.tasks)
    (hcalm : s.calmTask n was a t = true) :
    Mirror n was ⟨perform M s.d a t, s.tasks.erase t ++ next t⟩ := by
  obtain ⟨hdrops, hbrings⟩ := tells_of_calm hcalm
  refine h.of_changes (perform_changes n s.d a t) (fun hdrop => ?_) (fun hbring => ?_)
    (fun u hu hreacts => ?_) fun x u hclean hu hx => ?_
  · exact (hdrops hdrop).elim id fun htells => (h.follows t hmem _ htells).symm
  · exact (hbrings hbring).elim id fun htells => (h.follows t hmem _ htells).symm
  · rcases List.mem_append.mp hu with hold | hnext
    · exact List.mem_of_mem_erase hold
    · simp [reacts_next n hnext] at hreacts
  · -- The reaction that clears the slot cannot be the one that has run.
    have hne : u ≠ t := by
      rintro rfl
      cases x with
      | policies | tags => cases hclean
      | runners =>
        cases hclean
        exact (M.stop_only hx).2 rfl
      | engines => cases hclean; simp [Holds, perform, stopManagedEngine] at hx
    exact List.mem_append_left _ ((List.mem_erase_of_ne hne).mpr hu)

/-! ## Ticks -/

theorem announcement_of_tells {u : Task} {b : Bool} (hu : u ∈ reactions M e)
    (hb : tells n u = some b) : announcement n e = some b := by
  rcases List.mem_append.mp hu with hu | hu
  · cases e with
    | joined netID rules exprPolicy tags =>
      simp only [engineReactions] at hu
      split at hu <;> simp_all [tells, announcement]
    | left netID => rwa [List.mem_singleton.mp hu] at hb
    | _ => cases hu
  · obtain ⟨call, hcall, rfl⟩ := List.mem_map.mp hu
    cases call with
    | start netID =>
      obtain ⟨rules, exprPolicy, tags, rfl⟩ := M.starts_on_joined hcall
      exact hb
    | stop netID => rwa [M.stops_on_left.mp hcall]

theorem reactions_of_left (h : announcement n e = some false) :
    .leftRunner n ∈ reactions M e ∧ .leftEngine n ∈ reactions M e := by
  cases e with
  | left netID =>
    obtain rfl : netID = n := by simpa [announcement] using h
    have hstop : RunnerCall.stop netID ∈ M.reacts (.left netID) := M.stops_on_left.mpr rfl
    exact ⟨List.mem_append_right _ (List.mem_map.mpr ⟨_, hstop, rfl⟩),
      List.mem_append_left _ (List.mem_singleton_self _)⟩
  | joined netID rules exprPolicy tags => simp [announcement] at h
  | _ => cases h

theorem Mirror.known_iff (hn : n ≠ 0) (h : Mirror n was s)
    (hdone : ∀ t ∈ s.tasks, reacts n t = false) :
    n ∈ s.d.knownNetworkSet ↔ s.announced n was = true := by
  rw [known_iff_holds hn]
  constructor
  · rintro ⟨x, hx⟩
    by_contra hnot
    obtain ⟨t, ht, hclean⟩ := h.cleaned (Bool.not_eq_true _ ▸ hnot) x hx
    have hreacts := hdone t ht
    simp [reacts_of_tells (tells_of_cleans hclean)] at hreacts
  · exact h.known

theorem announced_after {A : List Bool} (inNets : Prop) {known : Prop} [Decidable inNets]
    [Decidable known] (hchain : (was :: A).IsChain (· ≠ ·)) (hknown : known ↔ A.getLast?.getD was = true) :
    (was :: (A ++ ((if inNets ∧ ¬ known then [true] else []) ++
        if known ∧ ¬ inNets then [false] else []))).IsChain (· ≠ ·) ∧
      (A ++ ((if inNets ∧ ¬ known then [true] else []) ++
        if known ∧ ¬ inNets then [false] else [])).getLast?.getD was = decide inNets := by
  have happend (b : Bool) (hb : A.getLast?.getD was ≠ b) : (was :: (A ++ [b])).IsChain (· ≠ ·) := by
    rw [← List.cons_append, List.isChain_append]
    refine ⟨hchain, List.isChain_singleton b, ?_⟩
    intro x hx y hy
    rw [List.getLast?_cons] at hx
    cases hx
    cases hy
    exact hb
  by_cases hin : inNets <;> by_cases hk : known
  · have hl := hknown.mp hk
    simp [hin, hk, hchain, hl]
  · have hl : A.getLast?.getD was ≠ true := fun h => hk (hknown.mpr h)
    simpa [hin, hk] using happend true hl
  · have hl : A.getLast?.getD was ≠ false := by simp [hknown.mp hk]
    simpa [hin, hk] using happend false hl
  · have hl : A.getLast?.getD was = false := by simpa using fun h => hk (hknown.mpr h)
    simp [hin, hk, hchain, hl]

theorem Mirror.ticked (hn : n ≠ 0) (h : Mirror n was s) {nets : List NetworkID} {d : Daemon}
    (hticked : Ticked n nets s.d d) (hdone : ∀ t ∈ s.tasks, reacts n t = false)
    (hstored : n ∈ nets → n ∈ d.knownNetworkSet) :
    Mirror n was ⟨d, s.tasks ++ (newEntries s.d.events d.events).flatMap (reactions M)⟩ ∧
      announced ⟨d, s.tasks ++ (newEntries s.d.events d.events).flatMap (reactions M)⟩ n was =
        decide (n ∈ nets) := by
  obtain ⟨new, hnew⟩ := hticked.grows
  have hknown := h.known_iff hn hdone
  have hafter := announced_after (n ∈ nets) h.alternate hknown
  have hdelta : announcements n new =
      (if n ∈ nets ∧ n ∉ s.d.knownNetworkSet then [true] else []) ++
        if n ∈ s.d.knownNetworkSet ∧ n ∉ nets then [false] else [] := by
    apply List.append_cancel_left
    rw [← announcements_append, hnew]
    exact hticked.announced
  have hentries : newEntries s.d.events d.events = new := by rw [← hnew, newEntries_append]
  rw [← hticked.announced] at hafter
  rw [hentries]
  have hlast : announced ⟨d, s.tasks ++ new.flatMap (reactions M)⟩ n was = decide (n ∈ nets) := hafter.2
  -- The reactions that wait after the tick are reactions to what it has announced.
  have hreacts (u : Task) (hu : reacts n u = true) (hin : u ∈ s.tasks ++ new.flatMap (reactions M)) :
      ∃ e ∈ new, u ∈ reactions M e := by
    rcases List.mem_append.mp hin with hold | hfresh
    · simp [hdone u hold] at hu
    · exact List.mem_flatMap.mp hfresh
  have hleft (hin : n ∈ s.d.knownNetworkSet) (hout : n ∉ nets) :
      ∃ e ∈ new, announcement n e = some false := by
    apply List.mem_filterMap.mp
    change false ∈ announcements n new
    rw [hdelta]
    simp [hin, hout]
  have hpublished {e : NetworkEvent} {b : Bool} (he : e ∈ new) (hb : announcement n e = some b) :
      b = decide (n ∈ nets) := by
    have hmem : b ∈ announcements n new := List.mem_filterMap.mpr ⟨e, he, hb⟩
    rw [hdelta] at hmem
    by_cases hin : n ∈ nets <;> by_cases hk : n ∈ s.d.knownNetworkSet <;>
      simp [hin, hk] at hmem ⊢ <;> exact hmem
  refine ⟨⟨hafter.1, ?_, ?_, ?_⟩, hlast⟩
  · intro hannounced
    rw [hlast] at hannounced
    exact (known_iff_holds hn).mp (hstored (of_decide_eq_true hannounced))
  · intro hannounced x hx
    rw [hlast] at hannounced
    have hout := of_decide_eq_false hannounced
    have hwaits (hx : s.d.Holds n x) : ∃ e ∈ new, announcement n e = some false :=
      hleft ((known_iff_holds hn).mpr ⟨x, hx⟩) hout
    cases x with
    | policies => simp [Holds, (hticked.forgotten hout).1] at hx
    | tags => simp [Holds, (hticked.forgotten hout).2] at hx
    | runners =>
      obtain ⟨e, he, hb⟩ := hwaits (by simpa only [Holds, hticked.runners] using hx)
      exact ⟨_, List.mem_append_right _ (List.mem_flatMap.mpr ⟨e, he, (reactions_of_left hb).1⟩), rfl⟩
    | engines =>
      obtain ⟨e, he, hb⟩ := hwaits (by simpa only [Holds, hticked.engines] using hx)
      exact ⟨_, List.mem_append_right _ (List.mem_flatMap.mpr ⟨e, he, (reactions_of_left hb).2⟩), rfl⟩
  · intro u hu b hb
    rw [hlast]
    obtain ⟨e, he, hmem⟩ := hreacts u (reacts_of_tells hb) hu
    exact hpublished he (announcement_of_tells hmem hb)

/-! ## Runs -/

def fetches (s : Sync) : Input → Option (List NetworkID)
  | .tick a => if s.d.hasReg then a.lookup.map LookupResp.nets else none
  | _ => none

theorem Mirror.step (hn : n ≠ 0) (h : Mirror n was s) {i : Input} (hcalm : s.calm n was i = true) :
    Mirror n was (s.step M i) ∧
      ∀ nets, s.fetches i = some nets → (s.step M i).announced n was = decide (n ∈ nets) := by
  have hidle : newEntries s.d.events s.d.events = [] := by simp [newEntries]
  cases i with
  | tick a =>
    by_cases hreg : s.d.hasReg = true
    · cases hlookup : a.lookup with
      | none =>
        have hd : s.d.reconcileMembership a = s.d.logCall (.lookup none) := by
          simp [reconcileMembership, hreg, hlookup, nodeNetworksFresh]
        refine ⟨?_, by simp [fetches, hlookup]⟩
        simp only [Sync.step, hd]
        refine h.same { Changes.refl _ _ _ s.d with } fun u _ => ?_
        simp [logCall, hidle]
      | some resp =>
        simp only [calm, hreg, hlookup, Bool.and_eq_true, List.all_eq_true, Bool.not_eq_true',
          decide_eq_true_eq] at hcalm
        obtain ⟨⟨hdone, hfresh⟩, hfetched⟩ := hcalm
        obtain ⟨hticked, hstores⟩ := reconcileMembership_ticked hn hreg hlookup hfresh
        have hstored : n ∈ resp.nets → n ∈ (s.d.reconcileMembership a).knownNetworkSet := by
          intro hin
          apply hstores hin
          simpa [hin] using hfetched
        obtain ⟨hmirror, hlast⟩ := h.ticked hn hticked hdone hstored
        refine ⟨hmirror, ?_⟩
        intro nets hnets
        have heq : resp.nets = nets := by simpa [fetches, hreg, hlookup] using hnets
        rwa [← heq]
    · have hd : s.d.reconcileMembership a = s.d := by
        simp [reconcileMembership, hreg]
      refine ⟨?_, by simp [fetches, hreg]⟩
      simp only [Sync.step, hd]
      exact h.same { Changes.refl _ _ _ s.d with } fun u _ => by simp [hidle]
  | join netID answer =>
    refine ⟨?_, by simp [fetches]⟩
    cases answer with
    | none => exact h
    | some hasPolicy =>
      refine h.same { Changes.refl _ _ _ s.d with } fun u hu => ?_
      cases u <;> cases hasPolicy <;> simp_all [Sync.step, reacts]
  | leave netID accepted =>
    refine ⟨?_, by simp [fetches]⟩
    cases accepted with
    | false => exact h
    | true =>
      refine h.same { Changes.refl _ _ _ s.d with } fun u hu => ?_
      cases u <;> simp_all [Sync.step, reacts]
  | task t a =>
    refine ⟨?_, by simp [fetches]⟩
    by_cases hmem : t ∈ s.tasks
    · simp only [Sync.step, hmem, if_true]
      exact h.task hmem hcalm
    · simp only [Sync.step, hmem, if_false]
      exact h

theorem start_mirror {d : Daemon} (hn : n ≠ 0) (hquiet : announcements n d.events = []) :
    Mirror n (decide (n ∈ d.knownNetworkSet)) (start d) := by
  have hannounced : (start d).announced n (decide (n ∈ d.knownNetworkSet)) =
      decide (n ∈ d.knownNetworkSet) := by
    simp [announced, start, hquiet]
  constructor
  · simp [start, hquiet]
  · intro h
    rw [hannounced] at h
    exact (known_iff_holds hn).mp (of_decide_eq_true h)
  · intro h x hx
    rw [hannounced] at h
    exact absurd ((known_iff_holds hn).mpr ⟨x, hx⟩) (of_decide_eq_false h)
  · exact nofun

/-- After startup, as long as the steps are calm for a network: its announcements alternate,
the first one with whether it was known at startup; after every tick that fetches the list,
the last one is of a join if the list has the network and it was not known at startup, and is
not of a join if the list lacks it. -/
theorem membership_events (M : PolicyManager) {d : Daemon} (hn : n ≠ 0)
    (hquiet : announcements n d.events = []) {inputs : List Input} (hok : AllSteps (step M)
      (fun s i => s.calm n (decide (n ∈ d.knownNetworkSet)) i = true) (start d) inputs) :
    AllSteps (step M) (fun s i =>
      (decide (n ∈ d.knownNetworkSet) :: announcements n (s.step M i).d.events).IsChain (· ≠ ·) ∧
      ∀ nets, s.fetches i = some nets → (n ∈ nets → n ∉ d.knownNetworkSet →
          (announcements n (s.step M i).d.events).getLast? = some true) ∧
        (n ∉ nets → (announcements n (s.step M i).d.events).getLast? ≠ some true))
      (start d) inputs := by
  have hstep : ∀ (s : Sync) (i : Input), Mirror n (decide (n ∈ d.knownNetworkSet)) s →
      s.calm n (decide (n ∈ d.knownNetworkSet)) i = true →
      Mirror n (decide (n ∈ d.knownNetworkSet)) (s.step M i) := by
    intro s i h hcalm
    exact (Mirror.step hn h hcalm).1
  refine run_every_step hstep ?_ (start_mirror hn hquiet) hok
  intro s i h hcalm
  obtain ⟨hnext, hfetched⟩ := Mirror.step hn h hcalm
  refine ⟨hnext.alternate, ?_⟩
  intro nets hnets
  have hlast := hfetched nets hnets
  unfold announced at hlast
  constructor
  · intro hin hstartup
    cases hget : (announcements n (s.step M i).d.events).getLast? with
    | none => simp [hget, hin, hstartup] at hlast
    | some b => simpa [hget, hin] using hlast
  · intro hout hjoined
    simp [hjoined, hout] at hlast

/-- A registry that lists these networks and answers every fetch. -/
def answering (nets : List NetworkID) : ReconcileAnswers where
  lookup := some ⟨some (nets.map fun k => .num k.toNat)⟩
  answeredAt := 0
  load := ⟨0, none, 0, fun _ _ => some ⟨some []⟩⟩
  listNetworks := some ⟨some (nets.map fun k => some ⟨.num k.toNat, some "rules", false⟩)⟩
  memberTags := fun _ => some ⟨some []⟩
  exprPolicy := fun _ => none
  written := false

def failing (nets : List NetworkID) : ReconcileAnswers :=
  { answering nets with
    load := ⟨0, none, 0, fun _ _ => none⟩
    memberTags := fun _ => none }

def listing (nets : List NetworkID) : TaskAnswers :=
  ⟨⟨0, some ⟨some (nets.map fun k => .num k.toNat)⟩, 0, fun _ _ => some ⟨some []⟩⟩, true⟩

/-- A manager that keeps a set of networks. -/
def runnerSet : PolicyManager where
  start netID ok runners := if ok && !runners.contains netID then netID :: runners else runners
  stop netID runners := runners.filter (· != netID)
  reacts e :=
    match e with
    | .joined netID _ (some _) _ => [.start netID]
    | .left netID => [.stop netID]
    | _ => []
  start_keeps h := by split <;> simp [h]
  start_only h := by split at h <;> simp_all [or_comm]
  stop_keeps h hne := by simp [h, hne]
  stop_only h := by simpa using h
  starts_on_joined h := by split at h <;> simp_all
  stops_on_left := by
    intro netID e
    split <;> simp_all [eq_comm]

def newDaemon : Daemon where
  hasReg := true
  hasIdentityPath := false
  nodeNetworksCache := []
  nodeNetworksCacheAt := none
  netPolicies := ∅
  memberTags := ∅
  policyRunners := []
  managed := []
  snapshotFile := none
  calls := []
  events := []

/-- Network 5 is joined, left and joined again elsewhere, and its engine follows. -/
def joinedAndLeft : List Input :=
  [.tick (answering [5]), .task (.joinedEngine 5) (listing []), .tick (answering []),
    .task (.leftEngine 5) (listing []), .task (.leftRunner 5) (listing []), .tick (answering [5])]

theorem joined_left_joined : AllSteps (step runnerSet) (fun s i =>
      (decide (5 ∈ newDaemon.knownNetworkSet) ::
        announcements 5 (s.step runnerSet i).d.events).IsChain (· ≠ ·) ∧
      ∀ nets, s.fetches i = some nets → (5 ∈ nets → 5 ∉ newDaemon.knownNetworkSet →
          (announcements 5 (s.step runnerSet i).d.events).getLast? = some true) ∧
        (5 ∉ nets → (announcements 5 (s.step runnerSet i).d.events).getLast? ≠ some true))
      (start newDaemon) joinedAndLeft ∧
    announcements 5 (joinedAndLeft.foldl (step runnerSet) (start newDaemon)).d.events =
      [true, false, true] :=
  ⟨membership_events runnerSet (by decide) rfl (by decide), by decide⟩

def joinedByClient : List Input :=
  [.join 5 (some false), .task .joinLoad (listing [5]), .tick (answering [5])]

/-- A client leaves network 5 and the node is taken into it again. -/
def leftByClient : List Input :=
  [.tick (answering [5]), .leave 5 true, .task (.leaving .stopRunner 5) (listing []),
    .task (.leaving .stopEngine 5) (listing []), .task (.leaving .clear 5) (listing []),
    .task (.leaving .load 5) (listing []), .tick (answering []), .tick (answering [5])]

/-- A join by a client is not announced, a join is announced at every tick whose fetches for
the network fail, and after a leave by a client the next join is announced without a leave. -/
theorem announcements_fail : 5 ∉ newDaemon.knownNetworkSet ∧
    announcements 5 (joinedByClient.foldl (step runnerSet) (start newDaemon)).d.events = [] ∧
    announcements 5 ([.tick (failing [5]), .tick (failing [5])].foldl (step runnerSet)
      (start newDaemon)).d.events = [true, true] ∧
    announcements 5 (leftByClient.foldl (step runnerSet) (start newDaemon)).d.events = [true, true] := by
  decide

end Sync

end PilotProtocol.Network
