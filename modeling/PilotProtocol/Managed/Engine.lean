import PilotProtocol.Library.GoMap
import PilotProtocol.Library.Run
import PilotProtocol.Library.Slices

/-! # The engine of a managed network

The peers that a node keeps of a managed network: the loop that fills the set when it starts
empty, and the cycles, from the loop's timer or forced by a client, that prune it and fill it
again. The member list is fetched outside the lock. A step is one locked section, or one
fetch.
-/

namespace PilotProtocol.Managed

open Library

inductive PruneBy
  | age
  | activity
  /-- Any other strategy leaves the peers in the order of the map. -/
  | other
  deriving DecidableEq

/-- Durations are nanoseconds. A grace period that is missing or malformed is 0. -/
structure NetworkRules where
  links : Nat
  prune : Int
  pruneBy : PruneBy
  fill : Int
  grace : Int

/-- Times are nanoseconds after the zero time, which stands for a peer never seen. -/
structure ManagedPeer where
  nodeID : UInt32
  addedAt : Int
  lastSeen : Int
  deriving DecidableEq

structure Config where
  netID : UInt16
  nodeID : UInt32
  rules : NetworkRules

abbrev Peers := GoMap UInt32 ManagedPeer

/-! ## The member list -/

inductive NodesReply
  | failed (err : String)
  /-- There is no list of nodes in the reply. -/
  | malformed
  /-- A node without a number is `none`. -/
  | nodes (ids : List (Option UInt32))

def maxAttempts : Nat := 5

/-- The attempts from `attempt` on, of which `left` remain. -/
def fetchFrom (reply : Nat → NodesReply) (lastErr : String) :
    (left attempt : Nat) → Except String (List UInt32)
  | 0, _ =>
    .error ("fetchMembers: failed after " ++ toString maxAttempts ++ " attempts: " ++ lastErr)
  | left + 1, attempt =>
    match reply attempt with
    | .nodes ids => .ok ids.reduceOption
    | .malformed => .error "unexpected list_nodes response"
    | .failed err => fetchFrom reply err left (attempt + 1)

def fetchMembers (reply : Nat → NodesReply) : Except String (List UInt32) :=
  fetchFrom reply "" maxAttempts 0

/-! ## The locked sections -/

def addPeer (now : Int) (peers : Peers) (id : UInt32) : Peers := peers.insert id ⟨id, now, 0⟩

def bootstrapChoice (G : Config) (members : List UInt32) (shuffle : Arrangement UInt32) :
    List UInt32 :=
  (shuffle.arrange (members.filter fun id => id != G.nodeID)).take G.rules.links

/-- `Bootstrap` under the lock. It does not look at how many peers there are. -/
def bootstrapAdd (now : Int) (chosen : List UInt32) (peers : Peers) : Peers :=
  chosen.foldl (fun ps id => if (ps.lookup id).isSome then ps else addPeer now ps id) peers

/-- The peers in the order of the map, then sorted. Any order among equals comes from some
order of the map. -/
def rankedPeers (G : Config) (order : Arrangement ManagedPeer) (peers : Peers) : List ManagedPeer :=
  let listed := order.arrange (peers.entries.map fun e => e.2)
  match G.rules.pruneBy with
  | .age => listed.mergeSort fun p q => decide (p.addedAt ≤ q.addedAt)
  | .activity => listed.mergeSort fun p q => decide (p.lastSeen ≤ q.lastSeen)
  | .other => listed

def inGrace (G : Config) (now : Int) (p : ManagedPeer) : Bool :=
  decide (0 < G.rules.grace) && decide (now - p.addedAt < G.rules.grace)

def prune (G : Config) (now : Int) : List ManagedPeer → Nat → Peers → Peers × Nat
  | [], pruned, peers => (peers, pruned)
  | p :: rest, pruned, peers =>
    if G.rules.prune ≤ pruned then (peers, pruned)
    else if inGrace G now p then prune G now rest pruned peers
    else prune G now rest (pruned + 1) (peers.erase p.nodeID)

def fillCandidates (G : Config) (members : List UInt32) (peers : Peers) : List UInt32 :=
  members.filter fun id => id != G.nodeID && !(peers.lookup id).isSome

def toFill (G : Config) (candidates : List UInt32) (peers : Peers) : Int :=
  let available : Int := max 0 ((G.rules.links : Int) - (peers.len : Int))
  min (min G.rules.fill available) (candidates.length : Int)

/-- The peers after the fill and the number it reports. A negative `Fill` ends in a slice
expression out of range. -/
def fill (G : Config) (now : Int) (members : List UInt32) (shuffle : Arrangement UInt32)
    (peers : Peers) : Except Panic (Peers × Nat) :=
  let candidates := shuffle.arrange (fillCandidates G members peers)
  let n := toFill G candidates peers
  if n < 0 then .error .sliceBounds
  else .ok ((candidates.take n.toNat).foldl (addPeer now) peers, n.toNat)

/-! ## The engine -/

/-- How far a cycle has come, with the peers that its pruning has taken from the set. -/
inductive CycleAt
  | begun
  | fetching (pruned : Nat) (removed : List UInt32)
  | filling (pruned : Nat) (removed : List UInt32) (members : List UInt32)
  deriving DecidableEq

inductive CycleResult
  | failed (pruned : Nat) (error : String)
  | complete (networkID : UInt16) (pruned filled peers : Nat)
  deriving DecidableEq

/-- A cycle that has returned, with the peers it removed and those it added. -/
structure Ended where
  removed : List UInt32
  added : List UInt32
  result : CycleResult
  deriving DecidableEq

inductive LoopAt
  | starting
  /-- The set was empty; the members are being fetched. -/
  | bootstrapping
  | adding (chosen : List UInt32)
  | waiting
  | cycling (c : CycleAt)
  | stopped
  deriving DecidableEq

structure Engine where
  peers : Peers
  loop : LoopAt
  /-- The cycles forced by clients that have not returned. -/
  forced : List CycleAt
  ended : List Ended
  /-- A panic has ended the process. -/
  panicked : Bool

/-- What a section meets outside: the clock, the order of the map, the registry, chance. -/
structure Meets where
  now : Int
  order : Arrangement ManagedPeer
  reply : Nat → NodesReply
  shuffle : Arrangement UInt32

inductive Input
  | loop (m : Meets)
  | stop
  | force
  | forced (c : CycleAt) (m : Meets)

namespace Engine

def start (peers : Peers) : Engine := ⟨peers, .starting, [], [], false⟩

variable (G : Config) (e : Engine) (m : Meets)

def pruned : Engine × Option CycleAt :=
  let result := prune G m.now (rankedPeers G m.order e.peers) 0 e.peers
  ({ e with peers := result.1 }, some (.fetching result.2 (GoMap.gone e.peers result.1)))

def fetched (pruned : Nat) (removed : List UInt32) :
    Except String (List UInt32) → Engine × Option CycleAt
  | .error err => ({ e with ended := ⟨removed, [], .failed pruned err⟩ :: e.ended }, none)
  | .ok members => (e, some (.filling pruned removed members))

def filled (pruned : Nat) (removed : List UInt32) :
    Except Panic (Peers × Nat) → Engine × Option CycleAt
  | .error _ => ({ e with panicked := true }, none)
  | .ok result =>
    ({ e with
      peers := result.1
      ended := ⟨removed, GoMap.gone result.1 e.peers,
        .complete G.netID pruned result.2 result.1.len⟩ :: e.ended }, none)

/-- The next section of a cycle, and where the cycle is then unless it has returned. -/
def advance : CycleAt → Engine × Option CycleAt
  | .begun => e.pruned G m
  | .fetching pruned removed => e.fetched pruned removed (fetchMembers m.reply)
  | .filling pruned removed members =>
    e.filled G pruned removed (fill G m.now members m.shuffle e.peers)

/-- `Bootstrap` after the fetch. An error is only logged. -/
def bootstrapped : Except String (List UInt32) → Engine
  | .error _ => { e with loop := .waiting }
  | .ok members => { e with loop := .adding (bootstrapChoice G members m.shuffle) }

def loopNext : Engine :=
  match e.loop with
  | .starting => { e with loop := if e.peers.len = 0 then .bootstrapping else .waiting }
  | .bootstrapping => e.bootstrapped G m (fetchMembers m.reply)
  | .adding chosen => { e with peers := bootstrapAdd m.now chosen e.peers, loop := .waiting }
  -- The timer fires.
  | .waiting => { e with loop := .cycling .begun }
  | .cycling c =>
    let next := e.advance G m c
    { next.1 with loop := next.2.elim .waiting .cycling }
  | .stopped => e

def step (i : Input) : Engine :=
  if e.panicked then e
  else
    match i with
    | .loop m => e.loopNext G m
    | .stop => if e.loop = .waiting then { e with loop := .stopped } else e
    | .force => { e with forced := .begun :: e.forced }
    | .forced c m =>
      if c ∈ e.forced then
        let next := e.advance G m c
        { next.1 with forced := next.2.toList ++ e.forced.erase c }
      else e

end Engine

/-! ## What the sections do to the set -/

variable {G : Config} {now : Int} {peers : Peers}

def victims (G : Config) (now : Int) (ranked : List ManagedPeer) (pruned : Nat) :
    List ManagedPeer :=
  (ranked.filter fun p => !inGrace G now p).take (G.rules.prune - pruned).toNat

theorem prune_eq (ranked : List ManagedPeer) (pruned : Nat) (peers : Peers) :
    prune G now ranked pruned peers =
      ((victims G now ranked pruned).foldl (fun ps p => ps.erase p.nodeID) peers,
        pruned + (victims G now ranked pruned).length) := by
  induction ranked generalizing pruned peers with
  | nil => simp [prune, victims]
  | cons p rest ih =>
    unfold prune
    by_cases hdone : G.rules.prune ≤ pruned
    · have hnone : (G.rules.prune - pruned).toNat = 0 := by omega
      simp [hdone, victims, hnone]
    · by_cases hgrace : inGrace G now p = true
      · simp [hdone, hgrace, ih, victims]
      · have hmore : (G.rules.prune - pruned).toNat =
            (G.rules.prune - (pruned + 1 : Nat)).toNat + 1 := by omega
        have hvictims : victims G now (p :: rest) pruned =
            p :: victims G now rest (pruned + 1) := by
          simp [victims, hgrace, hmore]
        rw [if_neg hdone, if_neg hgrace, ih, hvictims]
        simp [Nat.add_assoc, Nat.add_comm 1]

theorem lookup_eraseAll (ps : List ManagedPeer) (peers : Peers) (id : UInt32) :
    (ps.foldl (fun ps p => ps.erase p.nodeID) peers).lookup id =
      if id ∈ ps.map ManagedPeer.nodeID then none else peers.lookup id := by
  induction ps generalizing peers with
  | nil => simp
  | cons p rest ih =>
    rw [List.foldl_cons, ih, GoMap.lookup_erase_ite]
    by_cases hid : id = p.nodeID
    · simp [hid]
    · simp [hid]

theorem lookup_addAll (ids : List UInt32) (peers : Peers) (id : UInt32) :
    (ids.foldl (addPeer now) peers).lookup id =
      if id ∈ ids then some ⟨id, now, 0⟩ else peers.lookup id := by
  induction ids generalizing peers with
  | nil => simp
  | cons first rest ih =>
    rw [List.foldl_cons, ih, addPeer, GoMap.lookup_insert_ite]
    by_cases hid : id = first
    · simp [hid]
    · simp [hid]

theorem lookup_bootstrapAdd (chosen : List UInt32) (peers : Peers) (id : UInt32) :
    (bootstrapAdd now chosen peers).lookup id =
      if id ∈ chosen ∧ peers.lookup id = none then some ⟨id, now, 0⟩ else peers.lookup id := by
  unfold bootstrapAdd
  induction chosen generalizing peers with
  | nil => simp
  | cons first rest ih =>
    rw [List.foldl_cons, ih]
    cases hfirst : peers.lookup first with
    | some p =>
      by_cases hid : id = first
      · subst hid
        simp [hfirst]
      · simp [hid]
    | none =>
      by_cases hid : id = first
      · subst hid
        simp [hfirst, addPeer]
      · simp [hid, addPeer]

theorem mem_rankedPeers {order : Arrangement ManagedPeer} {p : ManagedPeer}
    (h : p ∈ rankedPeers G order peers) : ∃ id, peers.lookup id = some p := by
  have hlisted : p ∈ order.arrange (peers.entries.map fun e => e.2) := by
    unfold rankedPeers at h
    cases hby : G.rules.pruneBy with
    | age | activity | other => simpa [hby] using h
  obtain ⟨e, he, rfl⟩ := List.mem_map.mp ((order.perm _).mem_iff.mp hlisted)
  exact ⟨e.1, GoMap.lookup_eq_some_iff.mpr he⟩

end PilotProtocol.Managed
