import PilotProtocol.Library.GoMap
import PilotProtocol.Trust.HandshakePoll

/-! # Waits for handshake answers

The table of the peers that a request was sent to. A wait is open until its window ends, an
answer arrives or the peer is found trusted; the entry stays after that until its rearm time,
so that automatic requests do not open the next window early. A new peer may cost a closed
entry its place, never an open one.
-/

namespace PilotProtocol.HandshakePoll

open Library GoMap

def handshakeFastPollWindow : Nat := 2 * 60 * 10 ^ 9

def handshakeAutoRearm : Nat := 10 * 60 * 10 ^ 9

def handshakeMaxWaiting : Nat := 64

abbrev Peer := UInt32

/-- The zero time, which is before every other, is 0. -/
structure HandshakeWait where
  until_ : Nat
  rearm : Nat
  deriving DecidableEq

def HandshakeWait.isOpen (w : HandshakeWait) (now : Nat) : Bool := decide (now < w.until_)

abbrev Waiting := GoMap Peer HandshakeWait

abbrev Order := Arrangement (Sigma fun _ : Peer => HandshakeWait)

namespace Waiting

variable (waiting : Waiting) (now : Nat)

def pruneLocked : Waiting := waiting.keep fun _ w => w.isOpen now || decide (now < w.rearm)

/-- The loop that looks for the closed entry whose rearm time comes first, from what it has
found so far. -/
def soonestClosed (now : Nat) :
    Option (Peer × Nat) → List (Sigma fun _ : Peer => HandshakeWait) → Option (Peer × Nat)
  | found, [] => found
  | found, e :: rest =>
    if !e.2.isOpen now && found.all fun f => decide (e.2.rearm < f.2) then
      soonestClosed now (some (e.1, e.2.rearm)) rest
    else soonestClosed now found rest

/-- The peer evicted from a full table, if one is, and the table that is left. -/
def makeRoom (order : Order) : Option Peer × Waiting :=
  let pruned := pruneLocked waiting now
  if handshakeMaxWaiting ≤ pruned.len then
    match soonestClosed now none (order.arrange pruned.entries) with
    | some (oldest, _) => (some oldest, pruned.erase oldest)
    | none => (none, pruned)
  else (none, pruned)

inductive Outcome
  | alreadyWaiting
  /-- An automatic request before the rearm time. -/
  | heldOff
  /-- The table is full. -/
  | refused
  | opened (evicted : Option Peer)
  deriving DecidableEq

def openWindow (peer : Peer) (now : Nat) : Waiting :=
  waiting.insert peer ⟨now + handshakeFastPollWindow, now + handshakeAutoRearm⟩

def requestSent (peer : Peer) (explicit : Bool) (now : Nat) (order : Order) : Outcome × Waiting :=
  match waiting.lookup peer with
  | some w =>
    if w.isOpen now then (.alreadyWaiting, waiting)
    else if !explicit && decide (now < w.rearm) then (.heldOff, waiting)
    else (.opened none, openWindow waiting peer now)
  | none =>
    if handshakeMaxWaiting ≤ waiting.len then
      let (evicted, left) := makeRoom waiting now order
      if handshakeMaxWaiting ≤ left.len then (.refused, left)
      else (.opened evicted, openWindow left peer now)
    else (.opened none, openWindow waiting peer now)

def answered (peer : Peer) : Waiting :=
  match waiting.lookup peer with
  | some w => waiting.insert peer { w with until_ := 0 }
  | none => waiting

/-- The first locked section of `fastActive`: the peers with an open window. -/
def openPeers (order : Order) : List Peer × Waiting :=
  let pruned := pruneLocked waiting now
  (((order.arrange pruned.entries).filter fun e => e.2.isOpen now).map (·.1), pruned)

def settle (settled : List Peer) : Waiting := settled.foldl answered waiting

/-- `trusted` is false everywhere where the source has no oracle. -/
def fastActive (order : Order) (trusted : Peer → Bool) : Bool × Waiting :=
  let (peers, pruned) := openPeers waiting now order
  (peers.any fun peer => !trusted peer, settle pruned (peers.filter trusted))

end Waiting

/-! ## Waits on a clock

`fastActive` asks its oracle between its two locked sections, so the two are separate steps,
with any number of calls between them. Beside the table stand two records that the code does
not keep: the rearm time that each peer's latest window was opened with, and the peers that
have been evicted since.
-/

structure Waits where
  now : Nat
  waiting : Waiting
  /-- What the calls of `fastActive` in flight have seen. -/
  snapshots : List (List Peer)
  rearms : GoMap Peer Nat
  evicted : List Peer

namespace Waits

inductive Input
  | advance (d : Nat)
  | requestSent (peer : Peer) (explicit : Bool) (order : Order)
  | answered (peer : Peer)
  | fastActive (order : Order)
  /-- The end of a call whose oracle has answered `trusted` for the peers it saw. -/
  | settle (snapshot : List Peer) (trusted : Peer → Bool)

def initial (now : Nat) : Waits := ⟨now, ∅, [], ∅, []⟩

def record (s : Waits) (peer : Peer) : Waiting.Outcome → Waits
  | .opened evicted =>
    { s with
      rearms := s.rearms.insert peer (s.now + handshakeAutoRearm)
      evicted := (s.evicted ++ evicted.toList).filter (· != peer) }
  | _ => s

def step (s : Waits) : Input → Waits
  | .advance d => { s with now := s.now + d }
  | .requestSent peer explicit order =>
    let r := s.waiting.requestSent peer explicit s.now order
    { s.record peer r.1 with waiting := r.2 }
  | .answered peer => { s with waiting := s.waiting.answered peer }
  | .fastActive order =>
    let r := s.waiting.openPeers s.now order
    { s with waiting := r.2, snapshots := r.1 :: s.snapshots }
  | .settle snapshot trusted =>
    if s.snapshots.contains snapshot then
      { s with
        waiting := s.waiting.settle (snapshot.filter trusted)
        snapshots := s.snapshots.erase snapshot }
    else s

def run (s : Waits) (inputs : List Input) : Waits := inputs.foldl step s

theorem fastActive_steps (s : Waits) (order : Order) (trusted : Peer → Bool) :
    ((s.step (.fastActive order)).step
        (.settle (s.waiting.openPeers s.now order).1 trusted)).waiting =
      (s.waiting.fastActive s.now order trusted).2 := by
  simp [step, Waiting.fastActive]

/-- The input is an answer from the peer, or finds the peer trusted. -/
def Input.ends (peer : Peer) : Input → Bool
  | .answered q => q == peer
  | .settle snapshot trusted => snapshot.contains peer && trusted peer
  | _ => false

end Waits

/-! ## What a request does to the table -/

namespace Waiting

variable {waiting : Waiting} {now : Nat} {order : Order} {peer q : Peer} {w : HandshakeWait}

theorem lookup_pruneLocked (waiting : Waiting) (now : Nat) (q : Peer) :
    (pruneLocked waiting now).lookup q =
      (waiting.lookup q).filter fun w => w.isOpen now || decide (now < w.rearm) :=
  lookup_keep _ _ _

theorem lookup_pruneLocked_of_live (now : Nat) (hq : waiting.lookup q = some w)
    (hlive : w.isOpen now = true ∨ now < w.rearm) :
    (pruneLocked waiting now).lookup q = some w := by
  rw [lookup_pruneLocked, hq]
  rcases hlive with h | h <;> simp [Option.filter, h]

theorem soonestClosed_some {found : Option (Peer × Nat)} {rearm : Nat}
    {entries : List (Sigma fun _ : Peer => HandshakeWait)}
    (h : soonestClosed now found entries = some (q, rearm)) :
    found = some (q, rearm) ∨ ∃ e ∈ entries, e.1 = q ∧ e.2.isOpen now = false := by
  induction entries generalizing found with
  | nil => exact .inl h
  | cons e rest ih =>
    unfold soonestClosed at h
    split at h
    next hcond =>
      have hclosed : e.2.isOpen now = false := by
        simp only [Bool.and_eq_true, Bool.not_eq_true'] at hcond
        exact hcond.1
      rcases ih h with hfound | ⟨e', hmem, heq⟩
      · cases hfound
        exact .inr ⟨e, .head _, rfl, hclosed⟩
      · exact .inr ⟨e', List.mem_cons_of_mem e hmem, heq⟩
    next =>
      rcases ih h with hfound | ⟨e', hmem, heq⟩
      · exact .inl hfound
      · exact .inr ⟨e', List.mem_cons_of_mem e hmem, heq⟩

theorem soonestClosed_none {found : Option (Peer × Nat)}
    {entries : List (Sigma fun _ : Peer => HandshakeWait)}
    (h : soonestClosed now found entries = none) :
    found = none ∧ ∀ e ∈ entries, e.2.isOpen now = true := by
  induction entries generalizing found with
  | nil => exact ⟨h, nofun⟩
  | cons e rest ih =>
    unfold soonestClosed at h
    split at h
    next => exact nomatch (ih h).1
    next hcond =>
      obtain ⟨hfound, hrest⟩ := ih h
      rw [hfound] at hcond
      refine ⟨hfound, fun e' hmem => ?_⟩
      rcases List.mem_cons.mp hmem with rfl | hmem
      · simpa using hcond
      · exact hrest e' hmem

theorem makeRoom_cases (waiting : Waiting) (now : Nat) (order : Order) :
    (makeRoom waiting now order = (none, pruneLocked waiting now) ∧
      (handshakeMaxWaiting ≤ (pruneLocked waiting now).len →
        ∀ e ∈ (pruneLocked waiting now).entries, e.2.isOpen now = true)) ∨
    ∃ q w, makeRoom waiting now order = (some q, (pruneLocked waiting now).erase q) ∧
      (pruneLocked waiting now).lookup q = some w ∧ w.isOpen now = false := by
  have hperm := order.perm (pruneLocked waiting now).entries
  unfold makeRoom
  dsimp only
  split
  next hfull =>
    split
    next q rearm hfound =>
      rcases soonestClosed_some hfound with h | ⟨e, hmem, rfl, hclosed⟩
      · cases h
      · exact .inr ⟨e.1, e.2, rfl, lookup_eq_some_iff.mpr (hperm.mem_iff.mp hmem), hclosed⟩
    next hnone =>
      exact .inl ⟨rfl, fun _ e he => (soonestClosed_none hnone).2 e (hperm.mem_iff.mpr he)⟩
  next hroom => exact .inl ⟨rfl, fun hfull => absurd hfull hroom⟩

theorem makeRoom_keeps_rearm (order : Order) (hq : waiting.lookup q = some w) (hrearm : now < w.rearm) :
    (makeRoom waiting now order).2.lookup q = some w ∨ (makeRoom waiting now order).1 = some q := by
  have hkept := lookup_pruneLocked_of_live now hq (.inr hrearm)
  rcases makeRoom_cases waiting now order with ⟨heq, -⟩ | ⟨oldest, w', heq, -, -⟩
  · rw [heq]
    exact .inl hkept
  · rw [heq]
    by_cases hsame : q = oldest
    · exact .inr (congrArg some hsame.symm)
    · refine .inl ?_
      rwa [lookup_erase_ite, if_neg hsame]

theorem makeRoom_len_le : (makeRoom waiting now order).2.len ≤ waiting.len := by
  have hle : (pruneLocked waiting now).len ≤ waiting.len := len_keep_le _ _
  rcases makeRoom_cases waiting now order with ⟨heq, -⟩ | ⟨oldest, w, heq, -, -⟩
  · rwa [heq]
  · rw [heq, len_erase]
    split <;> omega

/-- A request that opens a window opens it in a table that has the peer already or has room:
the table as it was, or what making room has left of a full one. -/
theorem requestSent_cases (waiting : Waiting) (peer : Peer) (explicit : Bool) (now : Nat)
    (order : Order) :
    ((∀ evicted, (requestSent waiting peer explicit now order).1 ≠ .opened evicted) ∧
      (requestSent waiting peer explicit now order).1 ≠ .refused ∧
      (requestSent waiting peer explicit now order).2 = waiting) ∨
    (requestSent waiting peer explicit now order = (.opened none, openWindow waiting peer now) ∧
      (∀ w, waiting.lookup peer = some w →
        w.isOpen now = false ∧ (explicit = true ∨ w.rearm ≤ now)) ∧
      ((waiting.lookup peer).isSome = true ∨ waiting.len < handshakeMaxWaiting)) ∨
    (waiting.lookup peer = none ∧ requestSent waiting peer explicit now order =
        (.opened (makeRoom waiting now order).1,
          openWindow (makeRoom waiting now order).2 peer now) ∧
      (makeRoom waiting now order).2.len < handshakeMaxWaiting) ∨ (waiting.lookup peer = none ∧
      requestSent waiting peer explicit now order = (.refused, (makeRoom waiting now order).2) ∧
      handshakeMaxWaiting ≤ (makeRoom waiting now order).2.len) := by
  unfold requestSent
  cases hpeer : waiting.lookup peer with
  | some w =>
    dsimp only
    split
    next => exact .inl ⟨fun _ => nofun, nofun, rfl⟩
    next hclosed =>
      split
      next => exact .inl ⟨fun _ => nofun, nofun, rfl⟩
      next hrearm =>
        refine .inr (.inl ⟨rfl, fun w' hw' => ?_, .inl rfl⟩)
        cases hw'
        refine ⟨Bool.eq_false_iff.mpr hclosed, ?_⟩
        cases explicit <;> simp at hrearm ⊢
        exact hrearm
  | none =>
    dsimp only
    split
    next =>
      split
      next hfull => exact .inr (.inr (.inr ⟨rfl, rfl, hfull⟩))
      next hroom => exact .inr (.inr (.inl ⟨rfl, rfl, Nat.lt_of_not_le hroom⟩))
    next hroom => exact .inr (.inl ⟨rfl, fun _ => nofun, .inr (Nat.lt_of_not_le hroom)⟩)

theorem lookup_openWindow (waiting : Waiting) (peer : Peer) (now : Nat) (q : Peer) :
    (openWindow waiting peer now).lookup q =
      if q = peer then some ⟨now + handshakeFastPollWindow, now + handshakeAutoRearm⟩
      else waiting.lookup q :=
  lookup_insert_ite _ _ _ _

theorem lookup_answered (waiting : Waiting) (peer q : Peer) : (answered waiting peer).lookup q =
      if q = peer then (waiting.lookup peer).map fun w => { w with until_ := 0 }
      else waiting.lookup q := by
  unfold answered
  cases hpeer : waiting.lookup peer with
  | none =>
    by_cases heq : q = peer
    · rw [if_pos heq, heq, hpeer]
      rfl
    · simp [heq]
  | some w => exact lookup_insert_ite _ _ _ _

theorem len_answered (waiting : Waiting) (peer : Peer) : (answered waiting peer).len = waiting.len := by
  unfold answered
  split
  next w hpeer => rw [len_insert, hpeer]; rfl
  next => rfl

theorem len_settle (settled : List Peer) (waiting : Waiting) :
    (settle waiting settled).len = waiting.len := by
  induction settled generalizing waiting with
  | nil => rfl
  | cons peer rest ih => exact (ih (answered waiting peer)).trans (len_answered waiting peer)

theorem rearm_settle (settled : List Peer) (waiting : Waiting) (q : Peer) :
    ((settle waiting settled).lookup q).map (·.rearm) = (waiting.lookup q).map (·.rearm) := by
  induction settled generalizing waiting with
  | nil => rfl
  | cons peer rest ih =>
    refine (ih (answered waiting peer)).trans ?_
    rw [lookup_answered]
    split
    next heq => rw [heq]; cases waiting.lookup peer <;> rfl
    next => rfl

end Waiting

/-! ## Runs -/

namespace Waits

variable {s : Waits}

structure Inv (s : Waits) : Prop where
  bounded : s.waiting.len ≤ handshakeMaxWaiting
  /-- Until its rearm time only an eviction takes an entry away. -/
  heldOff : ∀ q rearm, s.rearms.lookup q = some rearm → s.now < rearm → q ∉ s.evicted →
    ∃ w, s.waiting.lookup q = some w ∧ w.rearm = rearm

theorem initial_inv (now : Nat) : (initial now).Inv where
  bounded := Nat.zero_le _
  heldOff := nofun

theorem Inv.of_waiting {s' : Waits} (h : s.Inv) (hnow : s.now ≤ s'.now)
    (hrearms : s'.rearms = s.rearms) (hevicted : s'.evicted = s.evicted)
    (hlen : s'.waiting.len ≤ s.waiting.len)
    (hkept : ∀ q w, s.waiting.lookup q = some w → s'.now < w.rearm →
      ∃ w', s'.waiting.lookup q = some w' ∧ w'.rearm = w.rearm) : s'.Inv where
  bounded := hlen.trans h.bounded
  heldOff := fun q rearm hq hbefore hnot => by
    rw [hrearms] at hq
    rw [hevicted] at hnot
    obtain ⟨w, hw, rfl⟩ := h.heldOff q rearm hq (Nat.lt_of_le_of_lt hnow hbefore) hnot
    exact hkept q w hw hbefore

theorem Inv.opened {evicted : Option Peer} {left : Waiting} {peer : Peer} (h : s.Inv)
    (hroom : (left.lookup peer).isSome = true ∧ left.len ≤ handshakeMaxWaiting ∨
      left.len < handshakeMaxWaiting)
    (hkept : ∀ q w, s.waiting.lookup q = some w → s.now < w.rearm →
      left.lookup q = some w ∨ evicted = some q) :
    Inv { s.record peer (.opened evicted) with waiting := left.openWindow peer s.now } where
  bounded := by
    unfold Waiting.openWindow
    rw [len_insert]
    split
    next hsome => rcases hroom with ⟨-, hle⟩ | hlt <;> omega
    next hnone => rcases hroom with ⟨hsome, -⟩ | hlt
                  · exact absurd hsome hnone
                  · omega
  heldOff := fun q rearm hq hbefore hnot => by
    rw [Waiting.lookup_openWindow]
    simp only [record, lookup_insert_ite] at hq hbefore hnot
    by_cases heq : q = peer
    · rw [if_pos heq] at hq ⊢
      cases hq
      exact ⟨_, rfl, rfl⟩
    · rw [if_neg heq] at hq ⊢
      simp only [List.mem_filter, List.mem_append, Option.mem_toList, not_and, bne_iff_ne, ne_eq,
        not_not] at hnot
      have hq' : q ∉ s.evicted := fun hmem => heq (hnot (.inl hmem))
      obtain ⟨w, hw, rfl⟩ := h.heldOff q rearm hq hbefore hq'
      rcases hkept q w hw hbefore with hleft | hgone
      · exact ⟨w, hleft, rfl⟩
      · exact absurd (hnot (.inr hgone)) heq

theorem Inv.requestSent (h : s.Inv) (peer : Peer) (explicit : Bool) (order : Order) :
    (s.step (.requestSent peer explicit order)).Inv := by
  have hmade (q : Peer) (w : HandshakeWait) (hq : s.waiting.lookup q = some w)
      (hrearm : s.now < w.rearm) := Waiting.makeRoom_keeps_rearm order hq hrearm
  simp only [step]
  rcases s.waiting.requestSent_cases peer explicit s.now order with
    ⟨hopened, -, hsame⟩ | ⟨heq, -, hroom⟩ | ⟨-, heq, hroom⟩ | ⟨-, heq, hfull⟩
  · have hrecord : s.record peer (s.waiting.requestSent peer explicit s.now order).1 = s := by
      cases hout : (s.waiting.requestSent peer explicit s.now order).1 with
      | opened evicted => exact absurd hout (hopened evicted)
      | _ => rfl
    rwa [hrecord, hsame]
  · rw [heq]
    apply h.opened
    · rcases hroom with hsome | hlt
      · exact .inl ⟨hsome, h.bounded⟩
      · exact .inr hlt
    · exact fun q w hq _ => .inl hq
  · rw [heq]
    exact h.opened (.inr hroom) hmade
  · rw [heq]
    refine h.of_waiting le_rfl rfl rfl Waiting.makeRoom_len_le ?_
    intro q w hq hrearm
    -- A table without room has evicted nobody.
    rcases Waiting.makeRoom_cases s.waiting s.now order with ⟨hmake, -⟩ | ⟨oldest, w', hmake, hold, -⟩
    · rcases hmade q w hq hrearm with hleft | hgone
      · exact ⟨w, hleft, rfl⟩
      · simp [hmake] at hgone
    · have hprune : (Waiting.pruneLocked s.waiting s.now).len ≤ s.waiting.len := len_keep_le _ _
      have hpos : 0 < (Waiting.pruneLocked s.waiting s.now).len :=
        List.length_pos_of_mem (lookup_eq_some_iff.mp hold)
      have hbounded := h.bounded
      rw [hmake, len_erase, hold] at hfull
      simp only [Option.isSome_some, if_true] at hfull
      omega

theorem step_inv (h : s.Inv) (i : Input) : (s.step i).Inv := by
  cases i with
  | advance d =>
    exact h.of_waiting (Nat.le_add_right _ _) rfl rfl le_rfl fun q w hq _ => ⟨w, hq, rfl⟩
  | requestSent peer explicit order => exact h.requestSent peer explicit order
  | answered peer =>
    refine h.of_waiting le_rfl rfl rfl (Waiting.len_answered _ _).le ?_
    intro q w hq _
    have hrearm := Waiting.rearm_settle [peer] s.waiting q
    rw [hq] at hrearm
    exact Option.map_eq_some_iff.mp hrearm
  | fastActive order =>
    refine h.of_waiting le_rfl rfl rfl (len_keep_le _ _) ?_
    intro q w hq hrearm
    exact ⟨w, Waiting.lookup_pruneLocked_of_live s.now hq (.inr hrearm), rfl⟩
  | settle snapshot trusted =>
    simp only [step]
    split
    · refine h.of_waiting le_rfl rfl rfl (Waiting.len_settle _ _).le ?_
      intro q w hq _
      have hrearm := Waiting.rearm_settle (snapshot.filter trusted) s.waiting q
      rw [hq] at hrearm
      exact Option.map_eq_some_iff.mp hrearm
    · exact h

theorem run_inv (began : Nat) (inputs : List Input) : ((initial began).run inputs).Inv :=
  run_invariant_all Inv (fun _ i h => step_inv h i) inputs (initial_inv began)

end Waits

end PilotProtocol.HandshakePoll
