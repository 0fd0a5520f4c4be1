import PilotProtocol.Library.GoMap
import PilotProtocol.Library.Run

/-! # Key rotation and re-registration

The node's key stands in three places: the daemon's memory, its identity file and the
registry. `RotateKey` changes them one after another while `registerEndpoint` and the
shutdown flush run beside it, so each call is cut where another call, a lost message
or a crash can come in between.
-/

namespace PilotProtocol.Identity

open Library

variable {Key : Type} [DecidableEq Key]

/-! ## The registry -/

def nodeOf (registry : GoMap UInt32 Key) (key : Key) : Option UInt32 :=
  (registry.entries.find? fun e => e.2 = key).map Sigma.fst

theorem lookup_of_nodeOf {registry : GoMap UInt32 Key} {key : Key} {id : UInt32}
    (h : nodeOf registry key = some id) : registry.lookup id = some key := by
  obtain ⟨⟨id', key'⟩, hfind, rfl⟩ := Option.map_eq_some_iff.mp h
  have hkey : key' = key := by simpa using List.find?_some hfind
  rw [GoMap.lookup_eq_some_iff, ← hkey]
  exact List.mem_of_find?_eq_some hfind

theorem nodeOf_eq_none {registry : GoMap UInt32 Key} {key : Key} :
    nodeOf registry key = none ↔ ∀ id, registry.lookup id ≠ some key := by
  rw [nodeOf, Option.map_eq_none_iff, List.find?_eq_none]
  constructor
  · intro h id hid
    exact h _ (GoMap.lookup_eq_some_iff.mp hid) (decide_eq_true rfl)
  · rintro h ⟨id, key'⟩ hmem hkey
    rw [decide_eq_true_eq] at hkey
    exact h id (hkey ▸ GoMap.lookup_eq_some_iff.mpr hmem)

/-! ## The calls -/

/-- Where the one `RotateKey` that holds `rotateKeyMu` is. -/
inductive RotateAt (Key : Type)
  | locked
  | read (current : Key)
  /-- The new key and the challenge signed with the current one are ready to be sent. -/
  | signed (current newID : Key) (nodeID : UInt32)
  /-- The registry has dealt with the request; its answer is on the way. -/
  | sent (newID : Key) (applied : Bool)
  | swapped (newID : Key)
  deriving DecidableEq

/-- Where a `registerEndpoint` is. -/
inductive RegisterAt (Key : Type)
  | snapshot (pubKey : Key)
  | sent (answer : Option UInt32)
  deriving DecidableEq

structure Node (Key : Type) where
  registry : GoMap UInt32 Key
  identity : Key
  /-- The key in the file at `IdentityPath`. -/
  disk : Key
  nodeID : UInt32
  rotation : Option (RotateAt Key)
  registers : List (RegisterAt Key)
  /-- What each shutdown flush has read and not yet saved. -/
  flushes : List Key

structure Outcome (Key : Type) where
  /-- `none` when there is no registry connection or no key could be generated. -/
  newKey : Option Key := none
  /-- The ID the registry gives to a node it creates. -/
  newNode : UInt32 := 0
  applied : Bool := true
  answered : Bool := true
  saved : Bool := true

def Node.rotateKey (s : Node Key) (o : Outcome Key) : Node Key :=
  match s.rotation with
  | none => { s with rotation := some .locked }
  | some .locked => { s with rotation := some (.read s.identity) }
  | some (.read current) =>
    match o.newKey with
    | none => { s with rotation := none }
    | some newID => { s with rotation := some (.signed current newID s.nodeID) }
  | some (.signed current newID nodeID) =>
    -- The registry checks the signature against the key it has for the node.
    if o.applied ∧ s.registry.lookup nodeID = some current then
      { s with
        registry := s.registry.insert nodeID newID
        rotation := some (.sent newID true) }
    else { s with rotation := some (.sent newID false) }
  | some (.sent newID applied) =>
    if applied ∧ o.answered then
      { s with identity := newID, rotation := some (.swapped newID) }
    else { s with rotation := none }
  | some (.swapped newID) =>
    { s with disk := if o.saved then newID else s.disk, rotation := none }

/-- The registry's part of a registration: the node that has the key, or a new one. -/
def Node.serveRegister (s : Node Key) (pubKey : Key) (newNode : UInt32) :
    GoMap UInt32 Key × Option UInt32 :=
  match nodeOf s.registry pubKey with
  | some id => (s.registry, some id)
  | none =>
    if (s.registry.lookup newNode).isSome then (s.registry, none)
    else (s.registry.insert newNode pubKey, some newNode)

/-- The next section of the `i`-th registration, or the start of a new one. -/
def Node.registerEndpoint (s : Node Key) (i : Nat) (o : Outcome Key) : Node Key :=
  match s.registers[i]? with
  | none => { s with registers := s.registers ++ [.snapshot s.identity] }
  | some (.snapshot pubKey) =>
    if o.applied then
      { s with
        registry := (s.serveRegister pubKey o.newNode).1
        registers := s.registers.set i (.sent (s.serveRegister pubKey o.newNode).2) }
    else { s with registers := s.registers.set i (.sent none) }
  | some (.sent answer) =>
    { s with
      registers := s.registers.eraseIdx i
      nodeID := if o.answered then answer.getD s.nodeID else s.nodeID }

def Node.flush (s : Node Key) (i : Nat) (o : Outcome Key) : Node Key :=
  match s.flushes[i]? with
  | none => { s with flushes := s.flushes ++ [s.identity] }
  | some id =>
    { s with
      flushes := s.flushes.eraseIdx i
      disk := if o.saved then id else s.disk }

/-- The process dies and is started again with the key in its file. -/
def Node.crash (s : Node Key) : Node Key :=
  { s with identity := s.disk, rotation := none, registers := [], flushes := [] }

inductive Op (Key : Type)
  | rotateKey (o : Outcome Key)
  | registerEndpoint (i : Nat) (o : Outcome Key)
  | flush (i : Nat) (o : Outcome Key)
  | crash

def Node.step (s : Node Key) : Op Key → Node Key
  | .rotateKey o => s.rotateKey o
  | .registerEndpoint i o => s.registerEndpoint i o
  | .flush i o => s.flush i o
  | .crash => s.crash

/-! ## What is asked of a run -/

def Node.Quiet (s : Node Key) : Prop := s.rotation = none ∧ s.registers = []

/-- A generated key is one the registry has not seen. -/
def Fresh (s : Node Key) : Op Key → Prop
  | .rotateKey o => ∀ key ∈ o.newKey, nodeOf s.registry key = none
  | _ => True

def RotateAt.ahead : RotateAt Key → Bool
  | .sent _ applied => applied
  | _ => false

def RotateAt.unsaved : RotateAt Key → Bool
  | .swapped _ => true
  | _ => false

/-- The registry has the new key and the daemon still has the old one. -/
def Node.ahead (s : Node Key) : Bool := s.rotation.any RotateAt.ahead

/-- The daemon has the new key and its file still has the old one. -/
def Node.unsaved (s : Node Key) : Bool := s.rotation.any RotateAt.unsaved

def RegisterAt.holdsSnapshot : RegisterAt Key → Bool
  | .snapshot _ => true
  | .sent _ => false

/-- An applied rotation is answered and its key is saved. When the registry takes the new
key no registration holds a snapshot of the old one, and when the daemon takes it no
flush does. -/
def RotateCareful (s : Node Key) (o : Outcome Key) : Option (RotateAt Key) → Prop
  | some (.signed _ _ _) => o.applied = true → ∀ r ∈ s.registers, r.holdsSnapshot = false
  | some (.sent _ applied) => applied = true → o.answered = true ∧ s.flushes = []
  | some (.swapped _) => o.saved = true
  | _ => True

/-- While the registry is ahead no registration takes its snapshot, and until the new key
is saved the daemon does not crash. -/
def Careful (s : Node Key) : Op Key → Prop
  | .rotateKey o => RotateCareful s o s.rotation
  | .registerEndpoint i _ => s.registers[i]? = none → s.ahead = false
  | .flush _ _ => True
  | .crash => s.ahead = false ∧ s.unsaved = false

instance (s : Node Key) (o : Outcome Key) (point : Option (RotateAt Key)) :
    Decidable (RotateCareful s o point) := by
  rcases point with _ | (_ | _ | _ | _ | _) <;> dsimp only [RotateCareful] <;> infer_instance

instance (s : Node Key) (op : Op Key) : Decidable (Careful s op) := by
  cases op <;> dsimp only [Careful] <;> infer_instance

instance (s : Node Key) (op : Op Key) : Decidable (Fresh s op) := by
  cases op <;> dsimp only [Fresh] <;> infer_instance

/-! ## Careful runs -/

def PointFits (id : UInt32) (k : Key) (registry : GoMap UInt32 Key) : Option (RotateAt Key) → Prop
  | some (.read current) => current = k
  | some (.signed current newID nodeID) =>
    current = k ∧ nodeID = id ∧ nodeOf registry newID = none
  | some (.sent newID true) => newID = k
  | some (.swapped newID) => newID = k
  | _ => True

/-- The registry has `k` for the node `id` and only for it, and so has the daemon, as far
as the running rotation has come. -/
structure Sound (id : UInt32) (k : Key) (s : Node Key) : Prop where
  nodeID : s.nodeID = id
  registered : s.registry.lookup id = some k
  only : ∀ j, s.registry.lookup j = some k → j = id
  identity : s.ahead = false → s.identity = k
  flushes : s.ahead = false → ∀ key ∈ s.flushes, key = k
  disk : s.ahead = false → s.unsaved = false → s.disk = k
  snapshots : ∀ pubKey, .snapshot pubKey ∈ s.registers → pubKey = k
  answers : ∀ j, .sent (some j) ∈ s.registers → j = id
  point : PointFits id k s.registry s.rotation

variable {id : UInt32} {k : Key} {s : Node Key}

section

variable (h : Sound id k s)
include h

theorem Sound.advance (hahead : s.ahead = false) (hunsaved : s.unsaved = false)
    {point : Option (RotateAt Key)} (hpoint : PointFits id k s.registry point) :
    Sound id k { s with rotation := point } :=
  { h with
    identity := fun _ => h.identity hahead
    flushes := fun _ => h.flushes hahead
    disk := fun _ _ => h.disk hahead hunsaved
    point := hpoint }

theorem Sound.apply_rotation {newID : Key} (hnew : nodeOf s.registry newID = none)
    (hsnapshots : ∀ r ∈ s.registers, r.holdsSnapshot = false) : Sound id newID { s with
      registry := s.registry.insert id newID
      rotation := some (.sent newID true) } where
  nodeID := h.nodeID
  registered := by rw [GoMap.lookup_insert_ite, if_pos rfl]
  only j hj := by
    rw [GoMap.lookup_insert_ite] at hj
    split at hj
    · assumption
    · exact absurd hj (nodeOf_eq_none.mp hnew j)
  identity := nofun
  flushes := nofun
  disk := nofun
  snapshots pubKey hmem := Bool.noConfusion (hsnapshots _ hmem)
  answers := h.answers
  point := rfl

theorem Sound.rotateKey {o : Outcome Key} (hfresh : Fresh s (.rotateKey o))
    (hcareful : Careful s (.rotateKey o)) : ∃ k', Sound id k' (s.rotateKey o) := by
  replace hcareful : RotateCareful s o s.rotation := hcareful
  have hpoint := h.point
  unfold Node.rotateKey
  cases hrot : s.rotation with
  | none =>
    exact ⟨k, h.advance (congrArg (Option.any RotateAt.ahead) hrot)
      (congrArg (Option.any RotateAt.unsaved) hrot) trivial⟩
  | some point =>
    have hahead : s.ahead = point.ahead := congrArg (Option.any RotateAt.ahead) hrot
    have hunsaved : s.unsaved = point.unsaved := congrArg (Option.any RotateAt.unsaved) hrot
    rw [hrot] at hpoint hcareful
    cases point with
    | locked => exact ⟨k, h.advance hahead hunsaved (h.identity hahead)⟩
    | read current =>
      dsimp only
      split
      · exact ⟨k, h.advance hahead hunsaved trivial⟩
      next newID hkey => exact ⟨k, h.advance hahead hunsaved ⟨hpoint, h.nodeID, hfresh newID hkey⟩⟩
    | signed current newID nodeID =>
      obtain ⟨rfl, rfl, hnew⟩ := hpoint
      dsimp only
      by_cases happlied : o.applied = true
      · rw [if_pos ⟨happlied, h.registered⟩]
        exact ⟨newID, h.apply_rotation hnew (hcareful happlied)⟩
      · rw [if_neg fun hboth => happlied hboth.1]
        exact ⟨_, h.advance hahead hunsaved trivial⟩
    | sent newID applied =>
      dsimp only
      cases applied with
      | false => exact ⟨k, h.advance hahead hunsaved trivial⟩
      | true =>
        obtain ⟨hanswered, hflushes⟩ := hcareful rfl
        rw [if_pos ⟨rfl, hanswered⟩]
        exact ⟨k, { h with
          identity := fun _ => hpoint
          flushes := fun _ key hkey => absurd (hflushes ▸ hkey) List.not_mem_nil
          disk := fun _ hsaved => nomatch hsaved
          point := hpoint }⟩
    | swapped newID =>
      have hsaved : o.saved = true := hcareful
      exact ⟨k, { h with
        identity := fun _ => h.identity hahead
        flushes := fun _ => h.flushes hahead
        disk := fun _ _ => (if_pos hsaved).trans hpoint
        point := trivial }⟩

theorem Sound.serveRegister (newNode : UInt32) :
    s.serveRegister k newNode = (s.registry, some id) := by
  unfold Node.serveRegister
  cases hnode : nodeOf s.registry k with
  | none => exact absurd h.registered (nodeOf_eq_none.mp hnode id)
  | some j => rw [h.only j (lookup_of_nodeOf hnode)]

theorem Sound.registerEndpoint {i : Nat} {o : Outcome Key}
    (hcareful : Careful s (.registerEndpoint i o)) : Sound id k (s.registerEndpoint i o) := by
  unfold Node.registerEndpoint
  cases hpoint : s.registers[i]? with
  | none =>
    have hidentity := h.identity (hcareful hpoint)
    refine { h with
      snapshots := fun pubKey hmem => ?_
      answers := fun j hmem => ?_ }
    · rcases List.mem_append.mp hmem with hmem | hmem
      · exact h.snapshots pubKey hmem
      · cases List.mem_singleton.mp hmem
        exact hidentity
    · rcases List.mem_append.mp hmem with hmem | hmem
      · exact h.answers j hmem
      · cases List.mem_singleton.mp hmem
  | some point =>
    have hmem := List.mem_of_getElem? hpoint
    cases point with
    | snapshot pubKey =>
      have hserve : ∀ answer, (∀ j, answer = some j → j = id) →
          Sound id k { s with registers := s.registers.set i (.sent answer) } := by
        intro answer hanswer
        refine { h with
          snapshots := fun pubKey hmem => ?_
          answers := fun j hmem => ?_ }
        · rcases List.mem_or_eq_of_mem_set hmem with hmem | hsame
          · exact h.snapshots pubKey hmem
          · cases hsame
        · rcases List.mem_or_eq_of_mem_set hmem with hmem | hsame
          · exact h.answers j hmem
          · cases hsame
            exact hanswer j rfl
      obtain rfl := h.snapshots pubKey hmem
      simp only [h.serveRegister]
      split
      · exact hserve (some id) fun j hj => (Option.some.inj hj).symm
      · exact hserve none nofun
    | sent answer =>
      have hnode : (if o.answered then answer.getD s.nodeID else s.nodeID) = id := by
        split
        · cases answer with
          | none => exact h.nodeID
          | some j => exact h.answers j hmem
        · exact h.nodeID
      exact { h with
        nodeID := hnode
        snapshots := fun pubKey hmem => h.snapshots pubKey (List.mem_of_mem_eraseIdx hmem)
        answers := fun j hmem => h.answers j (List.mem_of_mem_eraseIdx hmem) }

theorem Sound.flush (i : Nat) (o : Outcome Key) : Sound id k (s.flush i o) := by
  unfold Node.flush
  cases hflush : s.flushes[i]? with
  | none =>
    refine { h with flushes := fun hahead key hkey => ?_ }
    rcases List.mem_append.mp hkey with hkey | hkey
    · exact h.flushes hahead key hkey
    · rw [List.mem_singleton.mp hkey]
      exact h.identity hahead
  | some key =>
    refine { h with
      flushes := fun hahead key hkey => h.flushes hahead key (List.mem_of_mem_eraseIdx hkey)
      disk := fun hahead hunsaved => ?_ }
    dsimp only
    split
    · exact h.flushes hahead key (List.mem_of_getElem? hflush)
    · exact h.disk hahead hunsaved

theorem Sound.crash (hcareful : Careful s .crash) : Sound id k s.crash :=
  { h with
    identity := fun _ => h.disk hcareful.1 hcareful.2
    flushes := nofun
    disk := fun _ _ => h.disk hcareful.1 hcareful.2
    snapshots := nofun
    answers := nofun
    point := trivial }

theorem Sound.step {op : Op Key} (hfresh : Fresh s op) (hcareful : Careful s op) :
    ∃ k', Sound id k' (s.step op) := by
  cases op with
  | rotateKey o => exact h.rotateKey hfresh hcareful
  | registerEndpoint i o => exact ⟨k, h.registerEndpoint hcareful⟩
  | flush i o => exact ⟨k, h.flush i o⟩
  | crash => exact ⟨k, h.crash hcareful⟩

end

/-- A daemon at rest, registered under `id` with the key that it and its file have. -/
structure Registered (id : UInt32) (k : Key) (s : Node Key) : Prop where
  nodeID : s.nodeID = id
  lookup : s.registry.lookup id = some k
  only : ∀ j, s.registry.lookup j = some k → j = id
  identity : s.identity = k
  disk : s.disk = k
  idle : s.rotation = none ∧ s.registers = [] ∧ s.flushes = []

theorem Registered.sound (h : Registered id k s) : Sound id k s where
  nodeID := h.nodeID
  registered := h.lookup
  only := h.only
  identity _ := h.identity
  flushes _ key hkey := by
    simp [h.idle.2.2] at hkey
  disk _ _ := h.disk
  snapshots pubKey hmem := by
    simp [h.idle.2.1] at hmem
  answers j hmem := by
    simp [h.idle.2.1] at hmem
  point := by
    rw [h.idle.1]
    trivial

/-- In a careful run from a registered daemon, whenever no call is in progress the node ID
is the old one and the registry has the daemon's key for it, and whenever the daemon may
crash the registry has the key that it is started with again. -/
theorem identity_never_stranded (id : UInt32) (k : Key) (s : Node Key) (h : Registered id k s)
    (ops : List (Op Key)) (hfresh : AllSteps Node.step Fresh s ops)
    (hcareful : AllSteps Node.step Careful s ops) :
    let s' := ops.foldl Node.step s
    s'.nodeID = id ∧
    (s'.Quiet → s'.registry.lookup id = some s'.identity) ∧
    (Careful s' .crash → s'.registry.lookup id = some s'.crash.identity) := by
  obtain ⟨k', hs⟩ : ∃ k', Sound id k' (ops.foldl Node.step s) :=
    run_invariant (fun s => ∃ k', Sound id k' s)
      (fun s op ⟨_, hs⟩ hok => hs.step hok.1 hok.2) ⟨k, h.sound⟩ (hfresh.and hcareful)
  refine ⟨hs.nodeID, fun hquiet => ?_, fun hcrash => ?_⟩
  · rw [hs.identity (congrArg (Option.any RotateAt.ahead) hquiet.1)]
    exact hs.registered
  · rw [(hs.crash hcrash).identity rfl]
    exact hs.registered

def home : Node Nat where
  registry := (∅ : GoMap UInt32 Nat).insert 7 1
  identity := 1
  disk := 1
  nodeID := 7
  rotation := none
  registers := []
  flushes := []

theorem home_registered : Registered 7 1 home where
  nodeID := rfl
  lookup := rfl
  only j hj := by
    rw [home, GoMap.lookup_insert_ite] at hj
    split at hj
    · assumption
    · cases hj
  identity := rfl
  disk := rfl
  idle := ⟨rfl, rfl, rfl⟩

/-- The sections of a rotation to key 2, and those of a registration that would create
node 8. -/
def rotation (o : Outcome Nat) : List (Op Nat) :=
  [.rotateKey o, .rotateKey o, .rotateKey { o with newKey := some 2 }, .rotateKey o,
    .rotateKey o, .rotateKey o]

def registration : List (Op Nat) := List.replicate 3 (.registerEndpoint 0 { newNode := 8 })

/-- A registration whose answer is pending when the rotation is applied, a restart and
another registration. -/
def rotateAndRestart : List (Op Nat) :=
  registration.take 2 ++ rotation {} ++ registration.drop 2 ++ [.crash] ++ registration

theorem rotated_identity_kept :
    Registered 7 1 home ∧ AllSteps Node.step Careful home rotateAndRestart ∧
    (rotateAndRestart.foldl Node.step home).identity = 2 ∧
    (rotateAndRestart.foldl Node.step home).nodeID = 7 ∧
    ((rotateAndRestart.foldl Node.step home).Quiet →
      (rotateAndRestart.foldl Node.step home).registry.lookup 7 =
        some (rotateAndRestart.foldl Node.step home).identity) := by
  have hkept := identity_never_stranded 7 1 home home_registered rotateAndRestart
    (by decide +kernel) (by decide +kernel)
  exact ⟨home_registered, by decide +kernel, by decide +kernel, hkept.1, hkept.2.1⟩

/-- The registry applies a rotation and its answer is lost: the daemon keeps a key that the
registry has replaced, and its next registration makes it another node. -/
theorem lostAnswer_strands_identity :
    let lost := (rotation { answered := false }).take 5
    let s := lost.foldl Node.step home
    let later := registration.foldl Node.step s
    Registered 7 1 home ∧ AllSteps Node.step Fresh home (lost ++ registration) ∧
    s.Quiet ∧ s.identity = 1 ∧ s.registry.lookup 7 = some 2 ∧
    later.Quiet ∧ later.nodeID = 8 := by
  refine ⟨home_registered, ?_, ?_, ?_, ?_, ?_, ?_⟩
  · decide +kernel
  · exact ⟨rfl, rfl⟩
  · decide +kernel
  · decide +kernel
  · exact ⟨rfl, rfl⟩
  · decide +kernel

end PilotProtocol.Identity
