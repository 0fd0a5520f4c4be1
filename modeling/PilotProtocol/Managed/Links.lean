import PilotProtocol.Managed.Engine

/-! # The link limit of a managed network

What the sections of the loop and of the cycles keep, in any interleaving: this node is never
in its own set, a peer goes only past its grace period, and a cycle removes and adds no more
than the rules say. The limit on the links is kept by every cycle, but by the loop's first
filling only while the set is as empty as it was found.
-/

namespace PilotProtocol.Managed

open Library GoMap

variable {G : Config} {now : Int} {peers peers' : Peers}

/-- Each peer is filed under its own number, and this node is not among them. -/
structure Fit (G : Config) (peers : Peers) : Prop where
  filed : ∀ id p, peers.lookup id = some p → p.nodeID = id
  self : peers.lookup G.nodeID = none

/-! ## Pruning -/

variable (ranked : List ManagedPeer)

theorem victims_length : (victims G now ranked 0).length ≤ G.rules.prune.toNat := by
  have hle : (victims G now ranked 0).length ≤ (G.rules.prune - (0 : Nat)).toNat :=
    List.length_take_le _ _
  omega

theorem lookup_prune (peers : Peers) (id : UInt32) : (prune G now ranked 0 peers).1.lookup id =
      if id ∈ (victims G now ranked 0).map ManagedPeer.nodeID then none else peers.lookup id := by
  rw [prune_eq]
  exact lookup_eraseAll _ peers id

theorem prune_fit (h : Fit G peers) : Fit G (prune G now ranked 0 peers).1 := by
  constructor
  · intro id p hp
    rw [lookup_prune] at hp
    split at hp
    · cases hp
    · exact h.filed id p hp
  · rw [lookup_prune, h.self, ite_self]

theorem prune_gone_length (peers : Peers) :
    (gone peers (prune G now ranked 0 peers).1).length ≤ G.rules.prune.toNat := by
  have hgone : (gone peers (prune G now ranked 0 peers).1).length ≤
      ((victims G now ranked 0).map ManagedPeer.nodeID).length := by
    apply gone_length_le
    intro id hnot hnone
    rwa [lookup_prune, if_neg hnot] at hnone
  rw [List.length_map] at hgone
  exact hgone.trans (victims_length ranked)

theorem prune_len (peers : Peers) : (prune G now ranked 0 peers).1.len ≤ peers.len := by
  have hgone : (gone (prune G now ranked 0 peers).1 peers).length ≤
      ([] : List UInt32).length := by
    apply gone_length_le
    intro id _ hnone
    rw [lookup_prune, hnone, ite_self]
  have hlen := len_le_add_gone peers (prune G now ranked 0 peers).1
  simp only [List.length_nil] at hgone
  omega

theorem prune_past_grace {order : Arrangement ManagedPeer} {id : UInt32} {p : ManagedPeer}
    (h : Fit G peers) (hp : peers.lookup id = some p)
    (hgone : (prune G now (rankedPeers G order peers) 0 peers).1.lookup id = none) :
    inGrace G now p = false := by
  rw [lookup_prune] at hgone
  split at hgone
  next hvictim =>
    obtain ⟨q, hq, hid⟩ := List.mem_map.mp hvictim
    obtain ⟨hranked, hpast⟩ := List.mem_filter.mp (List.mem_of_mem_take hq)
    obtain ⟨key, hkey⟩ := mem_rankedPeers hranked
    -- The victim is filed under its own number, so it is the peer that went.
    have hsame : key = id := (h.filed key q hkey).symm.trans hid
    rw [hsame, hp] at hkey
    cases hkey
    simpa using hpast
  next => rw [hp] at hgone; cases hgone

/-! ## Filling -/

theorem addAll_fit {ids : List UInt32} (h : Fit G peers) (hself : G.nodeID ∉ ids) :
    Fit G (ids.foldl (addPeer now) peers) := by
  constructor
  · intro id p hp
    rw [lookup_addAll] at hp
    split at hp
    · cases hp; rfl
    · exact h.filed id p hp
  · rw [lookup_addAll, if_neg hself, h.self]

theorem addAll_gone_length (now : Int) (ids : List UInt32) (peers : Peers) :
    (gone (ids.foldl (addPeer now) peers) peers).length ≤ ids.length := by
  apply gone_length_le
  intro id hnot hnone
  rw [lookup_addAll, if_neg hnot, hnone]

theorem fill_spec {members : List UInt32} {shuffle : Arrangement UInt32} {n : Nat}
    (hfill : fill G now members shuffle peers = .ok (peers', n)) :
    ∃ ids : List UInt32, peers' = ids.foldl (addPeer now) peers ∧ G.nodeID ∉ ids ∧
      ids.length ≤ G.rules.fill.toNat ∧ ids.length ≤ G.rules.links - peers.len := by
  simp only [fill] at hfill
  split at hfill
  · cases hfill
  next hn =>
    cases hfill
    have htake := List.length_take_le
      (toFill G (shuffle.arrange (fillCandidates G members peers)) peers).toNat
      (shuffle.arrange (fillCandidates G members peers))
    have hmin : toFill G (shuffle.arrange (fillCandidates G members peers)) peers ≤
        min G.rules.fill (max 0 ((G.rules.links : Int) - (peers.len : Int))) := by
      exact min_le_left _ _
    refine ⟨_, rfl, ?_, by omega, by omega⟩
    intro hmem
    have hcandidate := (shuffle.perm _).mem_iff.mp (List.mem_of_mem_take hmem)
    have hother := (List.mem_filter.mp hcandidate).2
    simp [bne_self_eq_false, Bool.false_and] at hother

/-! ## The first filling -/

theorem bootstrapAdd_fit {chosen : List UInt32} (h : Fit G peers) (hself : G.nodeID ∉ chosen) :
    Fit G (bootstrapAdd now chosen peers) := by
  constructor
  · intro id p hp
    rw [lookup_bootstrapAdd] at hp
    split at hp
    · cases hp; rfl
    · exact h.filed id p hp
  · rw [lookup_bootstrapAdd, if_neg fun hmem => hself hmem.1, h.self]

theorem bootstrapAdd_gone_length (now : Int) (chosen : List UInt32) (peers : Peers) :
    (gone (bootstrapAdd now chosen peers) peers).length ≤ chosen.length := by
  apply gone_length_le
  intro id hnot hnone
  rw [lookup_bootstrapAdd, if_neg fun h => hnot h.1, hnone]

theorem bootstrapChoice_spec (G : Config) (members : List UInt32) (shuffle : Arrangement UInt32) :
    G.nodeID ∉ bootstrapChoice G members shuffle ∧
      (bootstrapChoice G members shuffle).length ≤ G.rules.links := by
  constructor
  · intro hmem
    have hcandidate := (shuffle.perm _).mem_iff.mp (List.mem_of_mem_take hmem)
    have hother := (List.mem_filter.mp hcandidate).2
    simp [bne_self_eq_false] at hother
  · exact List.length_take_le _ _

/-! ## The engine -/

def CycleAt.removed : CycleAt → List UInt32
  | .begun => []
  | .fetching _ removed => removed
  | .filling _ removed _ => removed

namespace Engine

variable {e : Engine} {m : Meets} {c : CycleAt} {i : Input}

def cycles (e : Engine) : List CycleAt :=
  match e.loop with
  | .cycling c => c :: e.forced
  | _ => e.forced

def turn (e : Engine) : Input → Option (CycleAt × Meets)
  | .loop m =>
    match e.loop with
    | .cycling c => some (c, m)
    | _ => none
  | .forced c m => if c ∈ e.forced then some (c, m) else none
  | _ => none

/-- When the loop adds what it has chosen, the set is still empty. -/
def stillEmpty (e : Engine) (i : Input) : Bool :=
  match i, e.loop with
  | .loop _, .adding _ => decide (e.peers.len = 0)
  | _, _ => true

structure Sound (G : Config) (e : Engine) : Prop where
  fit : Fit G e.peers
  chosen : ∀ chosen, e.loop = .adding chosen →
    G.nodeID ∉ chosen ∧ chosen.length ≤ G.rules.links
  cycles : ∀ c ∈ e.cycles, c.removed.length ≤ G.rules.prune.toNat
  ended : ∀ r ∈ e.ended,
    r.removed.length ≤ G.rules.prune.toNat ∧ r.added.length ≤ G.rules.fill.toNat

theorem advance_peers (G : Config) (e : Engine) (m : Meets) (c : CycleAt) :
    (e.advance G m c).1.peers = e.peers ∨ (c = .begun ∧
      (e.advance G m c).1.peers = (prune G m.now (rankedPeers G m.order e.peers) 0 e.peers).1) ∨
    ∃ members n, fill G m.now members m.shuffle e.peers = .ok ((e.advance G m c).1.peers, n) := by
  cases c with
  | begun => exact .inr (.inl ⟨rfl, rfl⟩)
  | fetching pruned removed =>
    left
    simp only [advance]
    cases fetchMembers m.reply <;> rfl
  | filling pruned removed members =>
    simp only [advance]
    cases hfill : fill G m.now members m.shuffle e.peers with
    | error _ => exact .inl rfl
    | ok result => exact .inr (.inr ⟨members, result.2, hfill⟩)

theorem advance_frame (G : Config) (e : Engine) (m : Meets) (c : CycleAt) :
    (e.advance G m c).1.loop = e.loop ∧ (e.advance G m c).1.forced = e.forced := by
  cases c with
  | begun => exact ⟨rfl, rfl⟩
  | fetching pruned removed =>
    simp only [advance]
    cases fetchMembers m.reply <;> exact ⟨rfl, rfl⟩
  | filling pruned removed members =>
    simp only [advance]
    cases fill G m.now members m.shuffle e.peers <;> exact ⟨rfl, rfl⟩

theorem advance_records (m : Meets) (h : e.Sound G) (hc : c.removed.length ≤ G.rules.prune.toNat) :
    (∀ c' ∈ (e.advance G m c).2, c'.removed.length ≤ G.rules.prune.toNat) ∧
    ∀ r ∈ (e.advance G m c).1.ended,
      r.removed.length ≤ G.rules.prune.toNat ∧ r.added.length ≤ G.rules.fill.toNat := by
  cases c with
  | begun =>
    refine ⟨?_, h.ended⟩
    intro c' hc'
    cases hc'
    exact prune_gone_length _ e.peers
  | fetching pruned removed =>
    simp only [advance]
    cases fetchMembers m.reply with
    | error err =>
      refine ⟨nofun, ?_⟩
      intro r hr
      rcases List.mem_cons.mp hr with rfl | hold
      · exact ⟨hc, Nat.zero_le _⟩
      · exact h.ended r hold
    | ok members =>
      refine ⟨?_, h.ended⟩
      intro c' hc'
      cases hc'
      exact hc
  | filling pruned removed members =>
    simp only [advance]
    cases hfill : fill G m.now members m.shuffle e.peers with
    | error _ => exact ⟨nofun, h.ended⟩
    | ok result =>
      refine ⟨nofun, ?_⟩
      intro r hr
      rcases List.mem_cons.mp hr with rfl | hold
      · obtain ⟨ids, hpeers, -, hids, -⟩ := fill_spec hfill
        refine ⟨hc, ?_⟩
        have hadded := addAll_gone_length m.now ids e.peers
        rw [← hpeers] at hadded
        exact hadded.trans hids
      · exact h.ended r hold

theorem advance_fit (m : Meets) (c : CycleAt) (h : Fit G e.peers) :
    Fit G (e.advance G m c).1.peers := by
  rcases advance_peers G e m c with hsame | ⟨-, hpruned⟩ | ⟨members, n, hfill⟩
  · rwa [hsame]
  · rw [hpruned]
    exact prune_fit _ h
  · obtain ⟨ids, hpeers, hself, -, -⟩ := fill_spec hfill
    rw [hpeers]
    exact addAll_fit h hself

theorem advance_len (m : Meets) (c : CycleAt) (h : e.peers.len ≤ G.rules.links) :
    (e.advance G m c).1.peers.len ≤ G.rules.links := by
  rcases advance_peers G e m c with hsame | ⟨-, hpruned⟩ | ⟨members, n, hfill⟩
  · rwa [hsame]
  · rw [hpruned]
    exact (prune_len _ e.peers).trans h
  · obtain ⟨ids, hpeers, -, -, hids⟩ := fill_spec hfill
    have hadded := addAll_gone_length m.now ids e.peers
    have hlen := len_le_add_gone e.peers (e.advance G m c).1.peers
    rw [← hpeers] at hadded
    omega

theorem advance_lost {id : UInt32} {p : ManagedPeer} (h : Fit G e.peers)
    (hp : e.peers.lookup id = some p) (hlost : (e.advance G m c).1.peers.lookup id = none) :
    c = .begun ∧ inGrace G m.now p = false := by
  rcases advance_peers G e m c with hsame | ⟨hbegun, hpruned⟩ | ⟨members, n, hfill⟩
  · simp [hsame, hp] at hlost
  · rw [hpruned] at hlost
    exact ⟨hbegun, prune_past_grace h hp hlost⟩
  · obtain ⟨ids, hpeers, -, -, -⟩ := fill_spec hfill
    rw [hpeers, lookup_addAll, hp] at hlost
    split at hlost <;> cases hlost

/-! ## Steps -/

inductive Moves (G : Config) (e : Engine) : Input → Engine → Prop
  | idle (i : Input) : Moves G e i e
  /-- The loop goes on without touching the set. -/
  | loop (i : Input) (l : LoopAt) (hcycle : ∀ c, l = .cycling c → c = .begun)
      (hchosen : ∀ chosen, l = .adding chosen → ∃ members shuffle,
        chosen = bootstrapChoice G members shuffle) : Moves G e i { e with loop := l }
  | force : Moves G e .force { e with forced := .begun :: e.forced }
  | adding (m : Meets) (chosen : List UInt32) (h : e.loop = .adding chosen) :
      Moves G e (.loop m) { e with peers := bootstrapAdd m.now chosen e.peers, loop := .waiting }
  | cycling (m : Meets) (c : CycleAt) (h : e.loop = .cycling c) :
      Moves G e (.loop m)
        { (e.advance G m c).1 with loop := (e.advance G m c).2.elim .waiting .cycling }
  | forced (m : Meets) (c : CycleAt) (h : c ∈ e.forced) :
      Moves G e (.forced c m)
        { (e.advance G m c).1 with forced := (e.advance G m c).2.toList ++ e.forced.erase c }

theorem loopNext_moves (G : Config) (e : Engine) (m : Meets) :
    Moves G e (.loop m) (e.loopNext G m) := by
  unfold loopNext
  cases hloop : e.loop with
  | starting =>
    apply Moves.loop
    · intro c hc
      split at hc <;> cases hc
    · intro chosen hchosen
      split at hchosen <;> cases hchosen
  | bootstrapping =>
    cases fetchMembers m.reply with
    | error err => exact .loop _ _ nofun nofun
    | ok members =>
      apply Moves.loop
      · nofun
      · intro chosen hchosen
        cases hchosen
        exact ⟨members, m.shuffle, rfl⟩
  | adding chosen => exact .adding m chosen hloop
  | waiting =>
    apply Moves.loop
    · intro c hc
      cases hc
      rfl
    · nofun
  | cycling c => exact .cycling m c hloop
  | stopped => exact .idle _

theorem step_moves (G : Config) (e : Engine) (i : Input) : Moves G e i (e.step G i) := by
  unfold step
  by_cases hpanicked : e.panicked = true
  · rw [if_pos hpanicked]
    exact .idle i
  · rw [if_neg hpanicked]
    cases i with
    | loop m => exact loopNext_moves G e m
    | stop =>
      by_cases hwaiting : e.loop = .waiting
      · simp only [hwaiting, if_true]
        exact .loop _ _ nofun nofun
      · simp only [hwaiting, if_false]
        exact .idle _
    | force => exact .force
    | forced c m =>
      by_cases hc : c ∈ e.forced
      · simp only [hc, if_true]
        exact .forced m c hc
      · simp only [hc, if_false]
        exact .idle _

theorem mem_cycles : c ∈ e.cycles ↔ e.loop = .cycling c ∨ c ∈ e.forced := by
  unfold cycles
  cases e.loop with
  | cycling d =>
    rw [List.mem_cons, LoopAt.cycling.injEq]
    exact or_congr_left eq_comm
  | _ => simp

theorem Sound.of_moves {e' : Engine} (h : e.Sound G) (hmoves : Moves G e i e') : e'.Sound G := by
  cases hmoves with
  | idle => exact h
  | loop _ l hcycle hchosen =>
    refine ⟨h.fit, ?_, ?_, h.ended⟩
    · intro chosen hl
      obtain ⟨members, shuffle, rfl⟩ := hchosen chosen hl
      exact bootstrapChoice_spec G members shuffle
    · intro c hc
      rcases mem_cycles.mp hc with hl | hforced
      · rw [hcycle c hl]
        exact Nat.zero_le _
      · exact h.cycles c (mem_cycles.mpr (.inr hforced))
  | force =>
    refine ⟨h.fit, h.chosen, ?_, h.ended⟩
    intro c hc
    rcases mem_cycles.mp hc with hl | hforced
    · exact h.cycles c (mem_cycles.mpr (.inl hl))
    · rcases List.mem_cons.mp hforced with rfl | hold
      · exact Nat.zero_le _
      · exact h.cycles c (mem_cycles.mpr (.inr hold))
  | adding m chosen hloop =>
    refine ⟨bootstrapAdd_fit h.fit (h.chosen chosen hloop).1, nofun, ?_, h.ended⟩
    intro c hc
    rcases mem_cycles.mp hc with hl | hforced
    · cases hl
    · exact h.cycles c (mem_cycles.mpr (.inr hforced))
  | cycling m c hloop =>
    have hc := h.cycles c (mem_cycles.mpr (.inl hloop))
    have hrecords := advance_records m h hc
    refine ⟨advance_fit m c h.fit, ?_, ?_, hrecords.2⟩
    · intro chosen hl
      cases hnext : (e.advance G m c).2 <;> simp [hnext] at hl
    · intro c' hc'
      rcases mem_cycles.mp hc' with hl | hforced
      · cases hnext : (e.advance G m c).2 <;> simp_all
      · rw [(advance_frame G e m c).2] at hforced
        exact h.cycles c' (mem_cycles.mpr (.inr hforced))
  | forced m c hmem =>
    have hc := h.cycles c (mem_cycles.mpr (.inr hmem))
    have hrecords := advance_records m h hc
    refine ⟨advance_fit m c h.fit, ?_, ?_, hrecords.2⟩
    · intro chosen hl
      rw [(advance_frame G e m c).1] at hl
      exact h.chosen chosen hl
    · intro c' hc'
      rcases mem_cycles.mp hc' with hl | hforced
      · rw [(advance_frame G e m c).1] at hl
        exact h.cycles c' (mem_cycles.mpr (.inl hl))
      · rcases List.mem_append.mp hforced with hnext | hold
        · exact hrecords.1 c' (Option.mem_toList.mp hnext)
        · exact h.cycles c' (mem_cycles.mpr (.inr (List.mem_of_mem_erase hold)))

theorem lost_of_moves {e' : Engine} {id : UInt32} {p : ManagedPeer} (h : e.Sound G)
    (hmoves : Moves G e i e') (hp : e.peers.lookup id = some p)
    (hlost : e'.peers.lookup id = none) :
    ∃ m, e.turn i = some (.begun, m) ∧ inGrace G m.now p = false := by
  cases hmoves with
  | idle | loop _ l hcycle hchosen | force => rw [hp] at hlost; cases hlost
  | adding m chosen hloop =>
    rw [lookup_bootstrapAdd, hp] at hlost
    split at hlost <;> cases hlost
  | cycling m c hloop =>
    obtain ⟨rfl, hgrace⟩ := advance_lost h.fit hp hlost
    exact ⟨m, by simp [turn, hloop], hgrace⟩
  | forced m c hmem =>
    obtain ⟨rfl, hgrace⟩ := advance_lost h.fit hp hlost
    exact ⟨m, by simp [turn, hmem], hgrace⟩

theorem len_of_moves {e' : Engine} (h : e.Sound G) (hlen : e.peers.len ≤ G.rules.links)
    (hempty : e.stillEmpty i = true) (hmoves : Moves G e i e') : e'.peers.len ≤ G.rules.links := by
  cases hmoves with
  | idle | loop _ l hcycle hchosen | force => exact hlen
  | adding m chosen hloop =>
    have hzero : e.peers.len = 0 := by simpa [stillEmpty, hloop] using hempty
    have hgrown := len_le_add_gone e.peers (bootstrapAdd m.now chosen e.peers)
    have hadded := bootstrapAdd_gone_length m.now chosen e.peers
    have hchosen := (h.chosen chosen hloop).2
    have hbound : len (bootstrapAdd m.now chosen e.peers) ≤ G.rules.links := by omega
    exact hbound
  | cycling m c hloop | forced m c hmem => exact advance_len m c hlen

/-! ## Runs -/

/-- What a step leaves and what it does, whatever the loop finds. -/
structure Keeps (G : Config) (e : Engine) (i : Input) : Prop where
  self : G.nodeID ∉ (e.step G i).peers.keys
  grace : ∀ id p, e.peers.lookup id = some p → id ∉ (e.step G i).peers.keys →
    ∃ m, e.turn i = some (.begun, m) ∧ inGrace G m.now p = false
  cycles : ∀ c ∈ (e.step G i).cycles, c.removed.length ≤ G.rules.prune.toNat
  ended : ∀ r ∈ (e.step G i).ended,
    r.removed.length ≤ G.rules.prune.toNat ∧ r.added.length ≤ G.rules.fill.toNat

theorem Sound.step (h : e.Sound G) (i : Input) : (e.step G i).Sound G :=
  h.of_moves (step_moves G e i)

theorem Sound.keeps (h : e.Sound G) (i : Input) : Keeps G e i := by
  have hnext := h.step i
  refine ⟨?_, ?_, hnext.cycles, hnext.ended⟩
  · exact AList.lookup_eq_none.mp hnext.fit.self
  · intro id p hp hgone
    exact lost_of_moves h (step_moves G e i) hp (AList.lookup_eq_none.mpr hgone)

theorem start_sound (h : Fit G peers) : (start peers).Sound G := ⟨h, nofun, nofun, nofun⟩

/-- From a set in which every peer is filed under its own number and this node is not: after
every step this node is not in the set, a peer has gone only in the pruning of a cycle and
past its grace period, and no cycle has removed more than `Prune` peers or added more than
`Fill`. If the set starts within the limit, and is still empty whenever the loop adds what it
has chosen, it stays within the limit. -/
theorem managed_links (G : Config) (hfit : Fit G peers) (inputs : List Input) :
    AllSteps (step G) (Keeps G) (start peers) inputs ∧ (peers.len ≤ G.rules.links →
      AllSteps (step G) (fun e i => e.stillEmpty i = true) (start peers) inputs →
      AllSteps (step G) (fun e i => (e.step G i).peers.len ≤ G.rules.links) (start peers)
        inputs) := by
  have hall : AllSteps (step G) (fun _ _ => True) (start peers) inputs :=
    allSteps_of_inputs (P := fun _ => True) (step G) (start peers) fun _ _ => trivial
  refine ⟨?_, ?_⟩
  · have hstep : ∀ e i, Sound G e → True → (e.step G i).Sound G := fun e i h _ => h.step i
    exact run_every_step hstep (fun e i h _ => Sound.keeps h i) (start_sound hfit) hall
  · intro hlen hempty
    have hstep : ∀ e i, (Sound G e ∧ e.peers.len ≤ G.rules.links) → e.stillEmpty i = true →
        (e.step G i).Sound G ∧ (e.step G i).peers.len ≤ G.rules.links := by
      intro e i h hi
      exact ⟨h.1.step i, len_of_moves h.1 h.2 hi (step_moves G e i)⟩
    exact run_every_step hstep (fun e i h hi => (hstep e i h hi).2) ⟨start_sound hfit, hlen⟩ hempty

/-- The registry answers with these members; nothing is reordered. -/
def plain (now : Int) (members : List UInt32) : Meets where
  now := now
  order := ⟨id, fun l => .refl l⟩
  reply := fun _ => .nodes (members.map some)
  shuffle := ⟨id, fun l => .refl l⟩

/-- Node 1 in a network with the given limit; a cycle prunes one peer older than 10 and adds
one. -/
def nodeOne (links : Nat) : Config := ⟨3, 1, ⟨links, 1, .other, 1, 10⟩⟩

def chooseFirst (members : List UInt32) : List Input :=
  [.loop (plain 0 members), .loop (plain 0 members)]

def forcedCycle (now : Int) (removed members : List UInt32) : List Input :=
  [.force, .forced .begun (plain now []),
    .forced (.fetching removed.length removed) (plain now members),
    .forced (.filling removed.length removed members) (plain now [])]

/-- The first filling, from a list with repetitions, then a cycle that replaces its only peer. -/
def fillThenCycle : List Input :=
  chooseFirst [1, 5, 5, 6, 6] ++ [.loop (plain 0 [])] ++ forcedCycle 20 [5] [1, 6, 7, 7]

theorem fit_empty (G : Config) : Fit G ∅ := ⟨nofun, rfl⟩

theorem filled_then_cycled :
    AllSteps (step (nodeOne 2)) (Keeps (nodeOne 2)) (start ∅) fillThenCycle ∧
    AllSteps (step (nodeOne 2)) (fun e i => (e.step (nodeOne 2) i).peers.len ≤ 2) (start ∅)
      fillThenCycle ∧
    (fillThenCycle.foldl (step (nodeOne 2)) (start ∅)).ended.map (fun r => (r.removed, r.added)) =
      [([5], [6])] :=
  ⟨(managed_links (nodeOne 2) (fit_empty _) fillThenCycle).1,
    (managed_links (nodeOne 2) (fit_empty _) fillThenCycle).2 (by decide) (by decide), by decide⟩

/-- A forced cycle fills the set between the loop's look at it and its first filling. -/
def cycleBeforeFilling : List Input :=
  chooseFirst [1, 5] ++ forcedCycle 0 [] [1, 6] ++ [.loop (plain 0 [])]

theorem limit_exceeded : (∅ : Peers).len ≤ (nodeOne 1).rules.links ∧
    (cycleBeforeFilling.foldl (step (nodeOne 1)) (start ∅)).peers.keys.length = 2 ∧
    (nodeOne 1).rules.links < (cycleBeforeFilling.foldl (step (nodeOne 1)) (start ∅)).peers.len := by
  decide

end Engine

end PilotProtocol.Managed
