import PilotProtocol.Envelope.Overlap
import PilotProtocol.KeyExchange.Handle
import PilotProtocol.Library.Pool

/-! # Nonces under one key

Senders, flushes, keepalives and salvage replays on any number of nodes seal at the
same time, while key exchanges derive and install sessions and others drop them. A
`Crypto` is an object that outlives its place in the store: whoever has looked it up
keeps sealing under it. `EncryptWith` is cut at its one atomic operation, the
increment of the send counter.
-/

namespace PilotProtocol.Envelope

open Library KeyExchange

/-- What one node holds. A pointer to a `Crypto` is its position in `objects`. -/
structure Node where
  localNodeID : NodeID
  privKey : Bytes
  objects : List Crypto
  /-- The store: the object installed for each peer. -/
  installed : GoMap NodeID Nat

/-- A call of `Seal`, with the object and the counter it was made for. -/
structure Seal (ι : Type*) where
  node : ι
  ref : Nat
  counter : Nat
  key : Bytes
  nonce : Bytes

def Seal.tag {ι : Type*} (x : Seal ι) : ι × Nat × Nat := (x.node, x.ref, x.counter)

structure Nodes (ι : Type*) where
  node : ι → Node
  /-- Every counter value handed out: node, object, value. -/
  issued : List (ι × Nat × Nat)
  seals : List (Seal ι)

/-- A caller of `EncryptWith`: the plaintexts it still has to send, and whether it looks
the session up again before each of them, as `flushPending` does. -/
structure Caller where
  peer : NodeID
  recheck : Bool
  plaintexts : List Bytes

inductive Work
  /-- A key-exchange frame past its checks: before `DeriveSecret`, before the lookup of
  the session in place, and before the install. -/
  | derive (peer : NodeID) (x25519 : Bytes)
  | derived (peer : NodeID) (ref : Nat)
  | install (peer : NodeID) (ref : Nat)
  /-- The hook after an install, about to replay the salvage of the old session. -/
  | hook (peer : NodeID) (ref : Nat)
  /-- A caller before its lookup, with an object in hand, inside `EncryptWith` before the
  counter is advanced, and with the counter value that it got. -/
  | lookup (caller : Caller)
  | held (ref : Nat) (caller : Caller)
  | counting (ref : Nat) (plaintext : Bytes) (caller : Caller)
  | sealing (ref counter : Nat) (plaintext : Bytes) (caller : Caller)
  | drop (peer : NodeID)
  | compareAndDrop (peer : NodeID) (expected : Nat)
  | done

structure Task (ι : Type*) where
  node : ι
  work : Work

/-- What a section reads from outside: the clock, the random nonce prefix, and the
plaintexts in the salvage ring of the replaced session. -/
structure Readings where
  now : Nat
  draw : Option Bytes
  salvage : List Bytes

/-- The nonce that `EncryptWith` passes to `Seal`. -/
def sealNonce (c : Crypto) (counter : Nat) : Bytes := c.noncePrefix ++ putBE 8 counter

theorem encryptWith_eq (P : Primitives) (localNodeID : NodeID) (c : Crypto) (plaintext : Bytes) :
    encryptWith P localNodeID c plaintext =
      (tunnelMagicSecure ++ nodeBytes localNodeID ++ sealNonce c ((c.nonce + 1) % 2 ^ 64) ++
        P.aeadSeal c.key (sealNonce c ((c.nonce + 1) % 2 ^ 64)) plaintext (nodeBytes localNodeID),
        { c with nonce := (c.nonce + 1) % 2 ^ 64 }) := rfl

section

variable {ι : Type*} [DecidableEq ι]

def Nodes.update (s : Nodes ι) (i : ι) (n : Node) : Nodes ι :=
  { s with node := Function.update s.node i n }

/-- The session in place, if any, is for another X25519 key. -/
def Node.replaces (n : Node) (peer : NodeID) (pc : Crypto) : Bool :=
  ((n.installed.lookup peer).bind (n.objects[·]?)).all fun old =>
    decide (old.peerX25519Key ≠ pc.peerX25519Key)

/-- One section of a task on node `i`. -/
def Work.step (P : Primitives) (a : Readings) (s : Nodes ι) (i : ι) : Work → Nodes ι × Work
  | .derive peer x25519 =>
    match P.ecdh (s.node i).privKey x25519, a.draw with
    | some shared, some noncePrefix =>
      let ref := (s.node i).objects.length
      let pc := freshCrypto ref (deriveKey P shared) x25519 noncePrefix a.now
      (s.update i { s.node i with objects := (s.node i).objects ++ [pc] }, .derived peer ref)
    | _, _ => (s, .done)
  | .derived peer ref =>
    match (s.node i).objects[ref]? with
    | none => (s, .done)
    | some pc => (s, if (s.node i).replaces peer pc then .install peer ref else .done)
  | .install peer ref =>
    (s.update i { s.node i with installed := (s.node i).installed.insert peer ref },
      .hook peer ref)
  | .hook peer ref => (s, .held ref ⟨peer, false, a.salvage⟩)
  | .lookup caller =>
    match (s.node i).installed.lookup caller.peer with
    | none => (s, .done)
    | some ref => (s, .held ref caller)
  | .held _ ⟨_, _, []⟩ => (s, .done)
  | .held ref ⟨peer, recheck, plaintext :: rest⟩ =>
    if recheck && decide ((s.node i).installed.lookup peer ≠ some ref) then (s, .done)
    else (s, .counting ref plaintext ⟨peer, recheck, rest⟩)
  | .counting ref plaintext caller =>
    match (s.node i).objects[ref]? with
    | none => (s, .done)
    | some c =>
      let c' := (encryptWith P (s.node i).localNodeID c plaintext).2
      ({ s.update i { s.node i with objects := (s.node i).objects.set ref c' } with
          issued := (i, ref, c'.nonce) :: s.issued }, .sealing ref c'.nonce plaintext caller)
  | .sealing ref counter _ caller =>
    match (s.node i).objects[ref]? with
    | none => (s, .done)
    | some c =>
      ({ s with seals := ⟨i, ref, counter, c.key, sealNonce c counter⟩ :: s.seals },
        .held ref caller)
  | .drop peer =>
    (s.update i { s.node i with installed := (s.node i).installed.erase peer }, .done)
  | .compareAndDrop peer expected =>
    if (s.node i).installed.lookup peer = some expected then
      (s.update i { s.node i with installed := (s.node i).installed.erase peer }, .done)
    else (s, .done)
  | .done => (s, .done)

def Task.step (P : Primitives) (a : Readings) (s : Nodes ι) (task : Task ι) : Nodes ι × Task ι :=
  ((task.work.step P a s task.node).1, ⟨task.node, (task.work.step P a s task.node).2⟩)

variable {s s' : Nodes ι} {i : ι} {work next : Work} {task : Task ι} (P : Primitives) (a : Readings)

theorem derive_eq_deriveSecret (s : Nodes ι) (i : ι) (m : Manager)
    (hkey : m.setup.privKey = some (s.node i).privKey)
    (hallocated : m.allocated = (s.node i).objects.length) (peer : NodeID) (x25519 : Bytes) :
    ((Work.derive peer x25519).step P a s i).1 =
      match (m.deriveSecret P (fun _ => a.draw) a.now x25519).1 with
      | none => s
      | some pc => s.update i { s.node i with objects := (s.node i).objects ++ [pc] } := by
  rw [Work.step, Manager.deriveSecret, hkey, hallocated]
  simp only
  cases P.ecdh (s.node i).privKey x25519 with
  | none => rfl
  | some shared => cases a.draw <;> rfl

/-! ## What a section does -/

def Nodes.objects (s : Nodes ι) (i : ι) : List Crypto := (s.node i).objects

/-- The object and counter value that a task has taken and not yet sealed with. -/
def Work.token : Work → Option (Nat × Nat)
  | .sealing ref counter _ _ => some (ref, counter)
  | _ => none

/-- A section leaves the objects alone, derives one, advances a counter, or seals. -/
inductive Effect (s : Nodes ι) (i : ι) : Work → Nodes ι → Work → Prop
  | quiet {work next : Work} {s' : Nodes ι} (hobjects : s'.objects = s.objects)
      (hissued : s'.issued = s.issued) (hseals : s'.seals = s.seals)
      (hwork : work.token = none) (hnext : next.token = none) : Effect s i work s' next
  | derived {work next : Work} {s' : Nodes ι} (pc : Crypto) (hnonce : pc.nonce = 0)
      (hobjects : s'.objects = Function.update s.objects i (s.objects i ++ [pc]))
      (hissued : s'.issued = s.issued) (hseals : s'.seals = s.seals)
      (hwork : work.token = none) (hnext : next.token = none) : Effect s i work s' next
  | counted {work next : Work} {s' : Nodes ι} (ref : Nat) (c : Crypto)
      (hget : (s.objects i)[ref]? = some c)
      (hobjects : s'.objects = Function.update s.objects i
        ((s.objects i).set ref { c with nonce := (c.nonce + 1) % 2 ^ 64 }))
      (hissued : s'.issued = (i, ref, (c.nonce + 1) % 2 ^ 64) :: s.issued)
      (hseals : s'.seals = s.seals) (hwork : work.token = none)
      (hnext : next.token = some (ref, (c.nonce + 1) % 2 ^ 64)) : Effect s i work s' next
  | sealed {work next : Work} {s' : Nodes ι} (ref counter : Nat) (c : Crypto)
      (hget : (s.objects i)[ref]? = some c) (hobjects : s'.objects = s.objects)
      (hissued : s'.issued = s.issued)
      (hseals : s'.seals = ⟨i, ref, counter, c.key, sealNonce c counter⟩ :: s.seals)
      (hwork : work.token = some (ref, counter)) (hnext : next.token = none) :
      Effect s i work s' next

theorem Effect.refl (s : Nodes ι) (i : ι) (hwork : work.token = none) (hnext : next.token = none) :
    Effect s i work s next :=
  .quiet rfl rfl rfl hwork hnext

theorem objects_update (s : Nodes ι) (i : ι) (n : Node) :
    (s.update i n).objects = Function.update s.objects i n.objects := by
  funext j
  by_cases hj : j = i
  · subst hj
    simp [Nodes.objects, Nodes.update]
  · simp [Nodes.objects, Nodes.update, hj]

theorem Effect.of_installed (installed : GoMap NodeID Nat) (hwork : work.token = none)
    (hnext : next.token = none) : Effect s i work (s.update i { s.node i with installed }) next :=
  .quiet ((objects_update ..).trans (Function.update_eq_self i s.objects)) rfl rfl hwork hnext

theorem step_effect (h : ∀ token, work.token = some token → token.1 < (s.objects i).length) :
    Effect s i work (work.step P a s i).1 (work.step P a s i).2 := by
  cases work with
  | derive peer x25519 =>
    rw [Work.step]
    split
    · exact .derived _ rfl (objects_update ..) rfl rfl rfl rfl
    · exact .refl s i rfl rfl
  | derived peer ref =>
    rw [Work.step]
    cases (s.node i).objects[ref]? with
    | none => exact .refl s i rfl rfl
    | some pc =>
      simp only
      split <;> exact .refl s i rfl rfl
  | install peer ref | drop peer => exact .of_installed _ rfl rfl
  | hook peer ref | done => exact .refl s i rfl rfl
  | lookup caller =>
    rw [Work.step]
    split <;> exact .refl s i rfl rfl
  | held ref caller =>
    obtain ⟨peer, recheck, plaintexts⟩ := caller
    cases plaintexts with
    | nil => exact .refl s i rfl rfl
    | cons plaintext rest =>
      rw [Work.step]
      split <;> exact .refl s i rfl rfl
  | counting ref plaintext caller =>
    rw [Work.step]
    cases hget : (s.node i).objects[ref]? with
    | none => exact .refl s i rfl rfl
    | some c => exact .counted ref c hget (objects_update ..) rfl rfl rfl rfl
  | sealing ref counter plaintext caller =>
    have hlt : ref < (s.objects i).length := h (ref, counter) rfl
    have hget : (s.node i).objects[ref]? = some (s.objects i)[ref] := List.getElem?_eq_getElem hlt
    rw [Work.step]
    rw [hget]
    exact .sealed ref counter _ hget rfl rfl rfl rfl rfl
  | compareAndDrop peer expected =>
    rw [Work.step]
    split
    · exact .of_installed _ rfl rfl
    · exact .refl s i rfl rfl

/-! ## Invariants -/

/-- How often the counter of an object has been advanced. -/
def Nodes.sends (s : Nodes ι) (i : ι) (ref : Nat) : Nat :=
  s.issued.countP fun e => decide (e.1 = i ∧ e.2.1 = ref)

theorem sends_cons {e : ι × Nat × Nat} (h : s'.issued = e :: s.issued) (i : ι) (ref : Nat) :
    s'.sends i ref = s.sends i ref + if e.1 = i ∧ e.2.1 = ref then 1 else 0 := by
  simp [Nodes.sends, h, List.countP_cons]

theorem sends_eq (h : s'.issued = s.issued) : s'.sends = s.sends := by
  funext i ref
  rw [Nodes.sends, h]
  rfl

theorem Effect.object_kept (h : Effect s i work s' next) {j : ι} {ref : Nat} {c : Crypto}
    (hget : (s.objects j)[ref]? = some c) :
    ∃ c', (s'.objects j)[ref]? = some c' ∧ c'.key = c.key ∧ c'.noncePrefix = c.noncePrefix := by
  cases h with
  | quiet hobjects | sealed _ _ _ _ hobjects => exact ⟨c, by rw [hobjects, hget], rfl, rfl⟩
  | derived pc _ hobjects =>
    refine ⟨c, ?_, rfl, rfl⟩
    rw [hobjects]
    by_cases hj : j = i
    · subst hj
      rwa [Function.update_self, List.getElem?_append_left (List.getElem?_eq_some_iff.mp hget).1]
    · rwa [Function.update_of_ne hj]
  | counted ref' d hd hobjects =>
    rw [hobjects]
    by_cases hj : j = i
    · subst hj
      rw [Function.update_self, List.getElem?_set]
      by_cases hr : ref' = ref
      · subst hr
        have hcd : d = c := Option.some.inj (hd.symm.trans hget)
        rw [if_pos rfl, if_pos (List.getElem?_eq_some_iff.mp hget).1]
        exact ⟨_, rfl, by rw [hcd], by rw [hcd]⟩
      · rw [if_neg hr]
        exact ⟨c, hget, rfl, rfl⟩
    · rw [Function.update_of_ne hj]
      exact ⟨c, hget, rfl, rfl⟩

theorem Effect.length_le (h : Effect s i work s' next) (j : ι) :
    (s.objects j).length ≤ (s'.objects j).length := by
  by_contra hlt
  have hget := List.getElem?_eq_getElem (Nat.lt_of_not_le hlt)
  obtain ⟨c', hc', -⟩ := h.object_kept hget
  exact absurd (List.getElem?_eq_some_iff.mp hc').1 (Nat.lt_irrefl _)

/-- Each object's counter is the number of its sends, and a value is handed out once. -/
structure Nodes.Counted (s : Nodes ι) : Prop where
  counters : ∀ i ref c, (s.objects i)[ref]? = some c → c.nonce = s.sends i ref % 2 ^ 64
  known : ∀ e ∈ s.issued, e.2.1 < (s.objects e.1).length
  once : (∀ i ref, s.sends i ref < 2 ^ 64) →
    s.issued.Nodup ∧ ∀ e ∈ s.issued, e.2.2 ≤ s.sends e.1 e.2.1
  sealed : ∀ x ∈ s.seals, x.counter < 2 ^ 64 ∧ ∃ c, (s.objects x.node)[x.ref]? = some c ∧
    x.key = c.key ∧ x.nonce = sealNonce c x.counter

def Task.Fits (s : Nodes ι) (task : Task ι) : Prop :=
  ∀ token, task.work.token = some token →
    token.1 < (s.objects task.node).length ∧ token.2 < 2 ^ 64

theorem Effect.sends_le (h : Effect s i work s' next) (j : ι) (ref : Nat) :
    s.sends j ref ≤ s'.sends j ref := by
  cases h with
  | counted _ _ _ _ hissued =>
    rw [sends_cons hissued]
    exact Nat.le_add_right ..
  | quiet _ hissued | derived _ _ _ hissued | sealed _ _ _ _ _ hissued => rw [sends_eq hissued]

theorem Nodes.Counted.sends_fresh (h : s.Counted) (i : ι) {ref : Nat}
    (href : (s.objects i).length ≤ ref) : s.sends i ref = 0 := by
  refine List.countP_eq_zero.mpr fun e he hsame => ?_
  obtain ⟨rfl, rfl⟩ := of_decide_eq_true hsame
  exact absurd (h.known e he) (Nat.not_lt.mpr href)

section

variable (h : Effect s i work s' next)
include h

theorem Effect.counters (hs : s.Counted) (j : ι) (ref : Nat)
    (c : Crypto) (hget : (s'.objects j)[ref]? = some c) : c.nonce = s'.sends j ref % 2 ^ 64 := by
  cases h with
  | quiet hobjects hissued | sealed _ _ _ _ hobjects hissued =>
    rw [hobjects] at hget
    rw [sends_eq hissued]
    exact hs.counters j ref c hget
  | derived pc hnonce hobjects hissued =>
    rw [sends_eq hissued]
    rw [hobjects] at hget
    by_cases hj : j = i
    · subst hj
      rw [Function.update_self] at hget
      by_cases hlt : ref < (s.objects j).length
      · rw [List.getElem?_append_left hlt] at hget
        exact hs.counters j ref c hget
      · have hle := Nat.le_of_not_lt hlt
        rw [List.getElem?_append_right hle] at hget
        have hc : c = pc := List.mem_singleton.mp (List.mem_of_getElem? hget)
        rw [hs.sends_fresh j hle, hc, hnonce, Nat.zero_mod]
    · rw [Function.update_of_ne hj] at hget
      exact hs.counters j ref c hget
  | counted ref' d hd hobjects hissued =>
    rw [sends_cons hissued]
    rw [hobjects] at hget
    by_cases hsame : i = j ∧ ref' = ref
    · obtain ⟨rfl, rfl⟩ := hsame
      rw [Function.update_self, List.getElem?_set, if_pos rfl,
        if_pos (List.getElem?_eq_some_iff.mp hd).1] at hget
      have hnonce : c.nonce = (d.nonce + 1) % 2 ^ 64 := by rw [← Option.some.inj hget]
      rw [hnonce, hs.counters i ref' d hd, if_pos ⟨rfl, rfl⟩, Nat.mod_add_mod]
    · rw [if_neg hsame, Nat.add_zero]
      refine hs.counters j ref c ?_
      by_cases hj : j = i
      · subst hj
        have hr : ref' ≠ ref := fun hr => hsame ⟨rfl, hr⟩
        rwa [Function.update_self, List.getElem?_set, if_neg hr] at hget
      · rwa [Function.update_of_ne hj] at hget

theorem Effect.once (hs : s.Counted) (hbound : ∀ j ref, s'.sends j ref < 2 ^ 64) :
    s'.issued.Nodup ∧ ∀ e ∈ s'.issued, e.2.2 ≤ s'.sends e.1 e.2.1 := by
  have hbefore : ∀ j ref, s.sends j ref < 2 ^ 64 := fun j ref =>
    Nat.lt_of_le_of_lt (h.sends_le j ref) (hbound j ref)
  obtain ⟨hnodup, hle⟩ := hs.once hbefore
  cases h with
  | quiet _ hissued | derived _ _ _ hissued | sealed _ _ _ _ _ hissued =>
    rw [sends_eq hissued, hissued]
    exact ⟨hnodup, hle⟩
  | counted ref c hget hobjects hissued =>
    have hsends : s'.sends i ref = s.sends i ref + 1 := by
      rw [sends_cons hissued, if_pos ⟨rfl, rfl⟩]
    -- The value handed out is the number of sends, above every earlier value.
    have hvalue : (c.nonce + 1) % 2 ^ 64 = s.sends i ref + 1 := by
      have hlt := hbound i ref
      rw [hs.counters i ref c hget, Nat.mod_add_mod, Nat.mod_eq_of_lt (hsends ▸ hlt)]
    rw [hissued, hvalue]
    refine ⟨List.nodup_cons.mpr ⟨fun hin => ?_, hnodup⟩, ?_⟩
    · exact absurd (hle _ hin) (Nat.not_le.mpr (Nat.lt_succ_self _))
    · intro e he
      rcases List.mem_cons.mp he with rfl | he
      · exact Nat.le_of_eq hsends.symm
      · refine Nat.le_trans (hle e he) ?_
        rw [sends_cons hissued]
        exact Nat.le_add_right ..

theorem Effect.seal_kept {x : Seal ι}
    (hx : x.counter < 2 ^ 64 ∧ ∃ c, (s.objects x.node)[x.ref]? = some c ∧
      x.key = c.key ∧ x.nonce = sealNonce c x.counter) :
    x.counter < 2 ^ 64 ∧ ∃ c, (s'.objects x.node)[x.ref]? = some c ∧
      x.key = c.key ∧ x.nonce = sealNonce c x.counter := by
  obtain ⟨hlt, c, hget, hkey, hnonce⟩ := hx
  obtain ⟨c', hget', hkey', hdistinct⟩ := h.object_kept hget
  refine ⟨hlt, c', hget', hkey.trans hkey'.symm, ?_⟩
  rw [hnonce, sealNonce, sealNonce, hdistinct]

theorem Effect.counted_kept (htoken : Task.Fits s ⟨i, work⟩)
    (hs : s.Counted) : s'.Counted where
  counters := h.counters hs
  once := h.once hs
  known e he := by
    have hlonger := h.length_le e.1
    cases h with
    | quiet _ hissued | derived _ _ _ hissued | sealed _ _ _ _ _ hissued =>
      rw [hissued] at he
      exact Nat.lt_of_lt_of_le (hs.known e he) hlonger
    | counted ref c hget hobjects hissued =>
      rw [hissued] at he
      rcases List.mem_cons.mp he with rfl | he
      · exact Nat.lt_of_lt_of_le (List.getElem?_eq_some_iff.mp hget).1 hlonger
      · exact Nat.lt_of_lt_of_le (hs.known e he) hlonger
  sealed x hx := by
    have hkept := fun hold => h.seal_kept (x := x) hold
    cases h with
    | quiet _ _ hseals | derived _ _ _ _ hseals | counted _ _ _ _ _ hseals =>
      rw [hseals] at hx
      exact hkept (hs.sealed x hx)
    | sealed ref counter c hget hobjects _ hseals hwork =>
      rw [hseals] at hx
      rcases List.mem_cons.mp hx with rfl | hx
      · exact ⟨(htoken _ hwork).2, c, by rw [hobjects]; exact hget, rfl, rfl⟩
      · exact hkept (hs.sealed x hx)

end

theorem step_counted (hs : s.Counted) (h : task.Fits s) :
    (task.step P a s).1.Counted ∧ (task.step P a s).2.Fits (task.step P a s).1 := by
  have heffect := step_effect P a fun token ht => (h token ht).1
  refine ⟨heffect.counted_kept h hs, fun token ht => ?_⟩
  have hlonger := heffect.length_le task.node
  have hlater : (task.work.step P a s task.node).2.token = some token := ht
  cases heffect with
  | quiet _ _ _ _ hnext | derived _ _ _ _ _ _ hnext | sealed _ _ _ _ _ _ _ _ hnext =>
    simp [hnext] at hlater
  | counted ref c hget _ _ _ _ hnext =>
    rw [hnext] at hlater
    obtain rfl := Option.some.inj hlater
    exact ⟨Nat.lt_of_lt_of_le (List.getElem?_eq_some_iff.mp hget).1 hlonger,
      Nat.mod_lt _ (Nat.two_pow_pos 64)⟩

theorem step_fits_other {other : Task ι} (h : task.Fits s) (ho : other.Fits s) :
    other.Fits (task.step P a s).1 := by
  have heffect := step_effect P a fun token ht => (h token ht).1
  intro token ht
  exact ⟨Nat.lt_of_lt_of_le (ho token ht).1 (heffect.length_le other.node), (ho token ht).2⟩

def Task.owns (task : Task ι) : List (ι × Nat × Nat) :=
  task.work.token.toList.map fun token => (task.node, token)

def Nodes.sealedTags (s : Nodes ι) : List (ι × Nat × Nat) := s.seals.map Seal.tag

theorem step_balance (h : task.Fits s) (e : ι × Nat × Nat) :
    (task.step P a s).2.owns.count e + (task.step P a s).1.sealedTags.count e + s.issued.count e =
      task.owns.count e + s.sealedTags.count e + (task.step P a s).1.issued.count e := by
  have heffect := step_effect P a fun token ht => (h token ht).1
  have hstep : (task.step P a s).1 = (task.work.step P a s task.node).1 := rfl
  have hnode : (task.step P a s).2 = ⟨task.node, (task.work.step P a s task.node).2⟩ := rfl
  rw [hstep, hnode]
  cases heffect with
  | quiet _ hissued hseals hwork hnext | derived _ _ _ hissued hseals hwork hnext =>
    simp [Task.owns, Nodes.sealedTags, hissued, hseals, hwork, hnext]
  | counted ref c _ _ hissued hseals hwork hnext =>
    simp only [Task.owns, Nodes.sealedTags, hissued, hseals, hwork, hnext, Option.toList_some,
      Option.toList_none, List.map_cons, List.map_nil, List.count_cons, List.count_nil]
    omega
  | sealed ref counter c _ _ hissued hseals hwork hnext =>
    simp only [Task.owns, Nodes.sealedTags, hissued, hseals, hwork, hnext, Option.toList_some,
      Option.toList_none, List.map_cons, List.map_nil, List.count_cons, List.count_nil, Seal.tag]
    omega

/-! ## Runs -/

def Work.unstarted : Work → Bool
  | .derive _ _ | .lookup _ | .drop _ | .compareAndDrop _ _ => true
  | _ => false

/-- Nodes that have derived nothing, each with its identifier and X25519 key. -/
def Nodes.start (localNodeID : ι → NodeID) (privKey : ι → Bytes) : Nodes ι where
  node i := ⟨localNodeID i, privKey i, [], ∅⟩
  issued := []
  seals := []

/-- No two objects have both the key and the nonce prefix in common. -/
def Nodes.PrefixesDistinct (s : Nodes ι) : Prop :=
  ∀ i j, ∀ x ∈ (s.objects i).zipIdx, ∀ y ∈ (s.objects j).zipIdx,
    x.1.key = y.1.key → x.1.noncePrefix = y.1.noncePrefix → i = j ∧ x.2 = y.2

theorem putBE_injective {m n : Nat} (hm : m < 2 ^ 64) (hn : n < 2 ^ 64)
    (h : putBE 8 m = putBE 8 n) : m = n := by
  have hvalue := congrArg getBE h
  rw [getBE_putBE, getBE_putBE, show 256 ^ 8 = 2 ^ 64 from rfl] at hvalue
  rwa [Nat.mod_eq_of_lt hm, Nat.mod_eq_of_lt hn] at hvalue

theorem Nodes.Counted.tag_eq (h : s.Counted) (hdistinct : s.PrefixesDistinct) {x y : Seal ι}
    (hx : x ∈ s.seals) (hy : y ∈ s.seals) (hkey : x.key = y.key) (hnonce : x.nonce = y.nonce) :
    x.tag = y.tag := by
  obtain ⟨hltx, c, hc, hkeyx, hnoncex⟩ := h.sealed x hx
  obtain ⟨hlty, d, hd, hkeyy, hnoncey⟩ := h.sealed y hy
  rw [hnoncex, hnoncey] at hnonce
  obtain ⟨hsame, hcounter⟩ := List.append_inj' hnonce (by simp)
  obtain ⟨hnode, href⟩ : x.node = y.node ∧ x.ref = y.ref :=
    hdistinct x.node y.node (c, x.ref) (List.mem_zipIdx_iff_getElem?.mpr hc) (d, y.ref)
      (List.mem_zipIdx_iff_getElem?.mpr hd) (hkeyx.symm.trans (hkey.trans hkeyy)) hsame
  rw [Seal.tag, Seal.tag, hnode, href, putBE_injective hltx hlty hcounter]

theorem counted_start (localNodeID : ι → NodeID) (privKey : ι → Bytes) :
    (Nodes.start localNodeID privKey).Counted where
  counters i ref c hget := by simp [Nodes.objects, Nodes.start] at hget
  known := nofun
  once _ := ⟨List.nodup_nil, nofun⟩
  sealed := nofun

theorem Work.token_of_unstarted (h : work.unstarted = true) : work.token = none := by
  cases work <;> first | rfl | cases h

/-- In every run in which the nonce prefixes of objects with one key differ and no object
is used for `2 ^ 64` sends, no two seals share key and nonce. -/
theorem nonces_distinct (P : Primitives) (localNodeID : ι → NodeID) (privKey : ι → Bytes)
    {tasks : List (Task ι)} (hstart : ∀ task ∈ tasks, task.work.unstarted = true)
    (turns : List (Nat × Readings)) (hdistinct : (turns.foldl (Pool.step (Task.step P))
      ⟨.start localNodeID privKey, tasks⟩).shared.PrefixesDistinct)
    (hsends : ∀ i ref, (turns.foldl (Pool.step (Task.step P))
      ⟨.start localNodeID privKey, tasks⟩).shared.sends i ref < 2 ^ 64) :
    ((turns.foldl (Pool.step (Task.step P)) ⟨.start localNodeID privKey, tasks⟩).shared.seals.map
      fun x => (x.key, x.nonce)).Nodup := by
  have htokens : ∀ task ∈ tasks, task.work.token = none := fun task ht =>
    Work.token_of_unstarted (hstart task ht)
  have hfits : Pool.Holds Nodes.Counted Task.Fits ⟨.start localNodeID privKey, tasks⟩ :=
    ⟨counted_start localNodeID privKey, fun task ht token htoken => by
      rw [htokens task ht] at htoken
      cases htoken⟩
  have hbalanced : Pool.Balanced Task.owns Nodes.sealedTags Nodes.issued
      ⟨.start localNodeID privKey, tasks⟩ := by
    intro e
    have hnone : tasks.flatMap Task.owns = [] :=
      List.flatMap_eq_nil_iff.mpr fun task ht => by rw [Task.owns, htokens task ht]; rfl
    rw [hnone]
    rfl
  obtain ⟨hholds, hbalance⟩ := run_invariant_all
    (fun p : Pool (Nodes ι) (Task ι) => p.Holds Nodes.Counted Task.Fits ∧
      p.Balanced Task.owns Nodes.sealedTags Nodes.issued)
    (fun p turn hp => ⟨hp.1.step (fun a s task => step_counted P a)
        (fun a s task other _ => step_fits_other P a) turn,
      hp.2.step (fun a s task e _ hfits => step_balance P a hfits e) hp.1 turn⟩)
    turns ⟨hfits, hbalanced⟩
  have htags := List.pairwise_map.mp (hbalance.ledger_nodup (hholds.shared.once hsends).1)
  refine List.pairwise_map.mpr (htags.imp_of_mem fun hx hy htag hsame => htag ?_)
  exact hholds.shared.tag_eq hdistinct hx hy (congrArg Prod.fst hsame) (congrArg Prod.snd hsame)

theorem sends_le_issued (s : Nodes ι) (i : ι) (ref : Nat) : s.sends i ref ≤ s.issued.length :=
  List.countP_le_length

end

/-- Two nodes with one session: the first sends under an object that is dropped and
installed again between two of its frames. -/
def reinstallTasks : List (Task Bool) :=
  [⟨false, .derive 7 [1]⟩, ⟨true, .derive 3 [2]⟩, ⟨false, .lookup ⟨7, false, [[10], [11]]⟩⟩,
    ⟨true, .lookup ⟨3, true, [[12]]⟩⟩, ⟨false, .drop 7⟩, ⟨false, .derive 7 [1]⟩,
    ⟨false, .lookup ⟨7, false, [[13]]⟩⟩]

/-- The turns of `reinstallTasks`; the n-th turn draws the prefix made of byte `n`. -/
def reinstallTurns : List (Nat × Readings) :=
  [0, 0, 0, 1, 1, 1, 2, 2, 2, 3, 2, 3, 4, 5, 5, 5, 2, 6, 6, 2, 6, 3, 2, 3, 6].mapIdx
    fun n task => (task, ⟨n, some (List.replicate 4 (UInt8.ofNat n)), []⟩)

def reinstallRun : Nodes Bool :=
  (reinstallTurns.foldl (Pool.step (Task.step zeroTag))
    ⟨.start (fun i => if i then 7 else 3) (fun i => if i then [1] else [2]), reinstallTasks⟩).shared

theorem reinstalled_nonces_distinct :
    reinstallRun.seals.map Seal.tag = [(false, 1, 1), (true, 0, 1), (false, 0, 2), (false, 0, 1)] ∧
    (reinstallRun.seals.map fun x => (x.key, x.nonce)).Nodup := by
  refine ⟨by decide, nonces_distinct zeroTag _ _ (by decide) reinstallTurns ?_ ?_⟩
  · intro i j
    cases i <;> cases j <;> decide
  · intro i ref
    exact Nat.lt_of_le_of_lt (sends_le_issued _ i ref) (by decide)

end PilotProtocol.Envelope
