import Mathlib.Data.List.Perm.Basic
import PilotProtocol.Stream.Dial
import PilotProtocol.Stream.EphemeralPorts

/-! # Four-tuples

The connection table under SYNs, dials, state changes and removals. One goroutine handles
the packets, so at most one SYN is between its lookup and its connection; dials run
beside it. The order in which a loop meets the table's entries is an argument of the
lookup.
-/

namespace PilotProtocol.Ports

open Library
open PilotProtocol.Stream (ConnState)
open PilotProtocol.Dial (OwnIDs kept_modifyConn kept_removeConnection)
open PortManager

@[ext] structure FourTuple where
  localPort : UInt16
  remoteAddr : Addr
  remotePort : UInt16
  deriving DecidableEq

def Conn.tuple (c : Conn) : FourTuple := ⟨c.localPort, c.remoteAddr, c.remotePort⟩

/-- `FindConnection` over the table's entries in a given order. -/
def findAmong (order : List (Nat × Conn)) (t : FourTuple) : Option Nat :=
  let found := order.filter fun e => e.2.tuple = t
  match found.find? fun e => e.2.active with
  | some e => some e.1
  | none => found.getLast?.map Prod.fst

theorem findConnection_eq_findAmong (pm : PortManager) (t : FourTuple) :
    pm.findConnection t.localPort t.remoteAddr t.remotePort = findAmong pm.listed t := by
  have hmatch : (fun e : Nat × Conn => decide (e.2.localPort = t.localPort) &&
      decide (e.2.remoteAddr = t.remoteAddr) && decide (e.2.remotePort = t.remotePort)) =
      fun e => decide (e.2.tuple = t) := by
    funext e
    rw [Bool.eq_iff_iff]
    simp [Conn.tuple, FourTuple.ext_iff, and_assoc]
  unfold findConnection findAmong
  exact hmatch ▸ rfl

inductive SynAt
  | idle
  /-- The lookup found a connection; neither its held FIN nor its state has been read. -/
  | found (t : FourTuple) (ref : Nat)
  /-- The lookup found nothing to answer for; the connection is not made yet. -/
  | passed (t : FourTuple)
  deriving DecidableEq

structure Table where
  ports : PortManager
  /-- The connections whose creator has not set the state yet. -/
  creating : List Nat
  syn : SynAt

namespace Table

inductive Input
  /-- The lookup for a SYN at a port that is listened on. -/
  | synLookup (t : FourTuple) (order : List (Nat × Conn))
  /-- `restarted` is whether the FIN of the connection that was found is held. -/
  | synCheck (restarted : Bool)
  /-- The trust gate, a policy or a limit refuses the SYN. -/
  | synRefused
  | synCreate (now : Nat)
  /-- A dial registers its connection. -/
  | dialCreate (t : FourTuple) (now : Nat)
  /-- The creator of a connection sets its state. -/
  | create (ref : Nat) (state : ConnState)
  | setState (ref : Nat) (state : ConnState)
  | removeConnection (id : UInt32)

def initial : Table := ⟨new, [], .idle⟩

def setConnState (pm : PortManager) (ref : Nat) (state : ConnState) : PortManager :=
  pm.modifyConn ref fun c => { c with state := state }

/-- Ends the old connection of a peer that has restarted. -/
def closeRestarted (pm : PortManager) (ref : Nat) (c : Conn) : PortManager :=
  (setConnState pm ref .closed).removeConnection c.id

/-- A SYN that found a connection: answered for it if it is active, or passed on. -/
def synFound (s : Table) (t : FourTuple) (ref : Nat) (c : Conn) (restarted : Bool) : Table :=
  if restarted then { s with ports := closeRestarted s.ports ref c, syn := .passed t }
  else if c.state = .synReceived ∨ c.state = .established then { s with syn := .idle }
  else { s with syn := .passed t }

def register (s : Table) (t : FourTuple) (now : Nat) : Table :=
  { s with
    ports := (s.ports.newConnection t.localPort t.remoteAddr t.remotePort now).2
    creating := (s.ports.newConnection t.localPort t.remoteAddr t.remotePort now).1 :: s.creating }

def step (s : Table) : Input → Table
  | .synLookup t order =>
    if s.syn ≠ .idle ∨ ¬ order.Perm s.ports.listed then s
    else
      match findAmong order t with
      | none => { s with syn := .passed t }
      | some ref => { s with syn := .found t ref }
  | .synCheck restarted =>
    match s.syn with
    | .found t ref =>
      match s.ports.conn ref with
      | some c => s.synFound t ref c restarted
      | none => s
    | _ => s
  | .synRefused => { s with syn := .idle }
  | .synCreate now =>
    match s.syn with
    | .passed t => { s.register t now with syn := .idle }
    | _ => s
  | .dialCreate t now => s.register t now
  | .create ref state =>
    if ref ∈ s.creating then
      { s with
        ports := setConnState s.ports ref state
        creating := s.creating.filter fun r => r ≠ ref }
    else s
  | .setState ref state => { s with ports := setConnState s.ports ref state }
  | .removeConnection id => { s with ports := s.ports.removeConnection id }

def Pending (creating : List Nat) (e : Nat × Conn) : Prop := e.2.active = true ∨ e.1 ∈ creating

/-- No connection of the four-tuple is live or being made. -/
def Vacant (s : Table) (t : FourTuple) : Prop :=
  ∀ e ∈ s.ports.listed, e.2.tuple = t → ¬ Pending s.creating e

def Settled (s : Table) (t : FourTuple) : Prop :=
  ∀ e ∈ s.ports.listed, e.2.tuple = t → e.1 ∉ s.creating

/-- A SYN is not looked up for a four-tuple that a dial is just taking, and does not meet a
live connection that is neither SYN_RECEIVED nor ESTABLISHED and whose FIN is not held; a
dial does not take a four-tuple that is taken or that a SYN is being handled for; a
connection that has ended stays so. -/
def Careful (s : Table) : Input → Prop
  | .synLookup t _ => s.Settled t
  | .synCheck restarted =>
    restarted = false → ∀ t ref, s.syn = .found t ref → ∀ c, s.ports.conn ref = some c →
      c.active = true → c.state = .synReceived ∨ c.state = .established
  | .dialCreate t _ => s.Vacant t ∧ s.syn ≠ .passed t ∧ ∀ ref, s.syn ≠ .found t ref
  | .setState ref state =>
    Allocation.live state = true → ∀ c, s.ports.conn ref = some c → c.active = true
  | _ => True

/-! ## Lookups -/

variable {order : List (Nat × Conn)} {t : FourTuple} {ref : Nat} {s s' : Table}

theorem findAmong_none (h : findAmong order t = none) : ∀ e ∈ order, e.2.tuple ≠ t := by
  unfold findAmong at h
  dsimp only at h
  split at h
  · cases h
  · rw [Option.map_eq_none_iff, List.getLast?_eq_none_iff, List.filter_eq_nil_iff] at h
    intro e he heq
    exact h e he (by simp [heq])

theorem findAmong_some (h : findAmong order t = some ref) : ∃ c, (ref, c) ∈ order ∧ c.tuple = t ∧
      (c.active = true ∨ ∀ e ∈ order, e.2.tuple = t → e.2.active = false) := by
  unfold findAmong at h
  dsimp only at h
  split at h
  next e hfind =>
    cases h
    obtain ⟨hmem, heq⟩ := List.mem_filter.mp (List.mem_of_find?_eq_some hfind)
    have hactive : e.2.active = true := by simpa using List.find?_some hfind
    exact ⟨e.2, hmem, by simpa using heq, .inl hactive⟩
  next hnone =>
    obtain ⟨e, hlast, rfl⟩ := Option.map_eq_some_iff.mp h
    obtain ⟨hmem, heq⟩ := List.mem_filter.mp (List.mem_of_getLast? hlast)
    refine ⟨e.2, hmem, by simpa using heq, .inr fun e' he' ht => ?_⟩
    have hnot := List.find?_eq_none.mp hnone e' (List.mem_filter.mpr ⟨he', by simp [ht]⟩)
    simpa using hnot

/-! ## The invariant -/

structure Inv (s : Table) : Prop where
  ids : OwnIDs s.ports
  unique : ∀ e ∈ s.ports.listed, ∀ e' ∈ s.ports.listed, e.2.tuple = e'.2.tuple →
    Pending s.creating e → Pending s.creating e' → e.1 = e'.1
  /-- What the lookup found is the only connection of its four-tuple that can be live, and
  its creator is done with it. -/
  found : ∀ t ref, s.syn = .found t ref → ∀ e ∈ s.ports.listed, e.2.tuple = t →
    Pending s.creating e → e.1 = ref ∧ e.1 ∉ s.creating
  passed : ∀ t, s.syn = .passed t → s.Vacant t

theorem initial_inv : initial.Inv where
  ids := nofun
  unique := nofun
  found := nofun
  passed := nofun

/-- The entries of the second table are entries of the first with the same four-tuple, and
none of them is more alive. -/
structure Shrinks (s s' : Table) : Prop where
  creating : ∀ ref ∈ s'.creating, ref ∈ s.creating
  entries : ∀ e' ∈ s'.ports.listed, ∃ c, (e'.1, c) ∈ s.ports.listed ∧ c.tuple = e'.2.tuple ∧
    (Pending s'.creating e' → Pending s.creating (e'.1, c))

theorem Shrinks.vacant (h : Shrinks s s') (hv : s.Vacant t) : s'.Vacant t := by
  intro e' he' ht hpending
  obtain ⟨c, hc, htuple, hback⟩ := h.entries e' he'
  exact hv (e'.1, c) hc (htuple.trans ht) (hback hpending)

theorem Inv.shrinks (h : s.Inv) (hids : OwnIDs s'.ports) (hshrinks : Shrinks s s')
    (hsyn : s'.syn = s.syn ∨ s'.syn = .idle ∨ ∃ t, s'.syn = .passed t ∧ s'.Vacant t) : s'.Inv where
  ids := hids
  unique := by
    intro e he e' he' htuple hp hp'
    obtain ⟨c, hc, hct, hback⟩ := hshrinks.entries e he
    obtain ⟨c', hc', hct', hback'⟩ := hshrinks.entries e' he'
    exact h.unique (e.1, c) hc (e'.1, c') hc' (hct.trans (htuple.trans hct'.symm)) (hback hp)
      (hback' hp')
  found := by
    intro t ref hfound e he htuple hp
    obtain ⟨c, hc, hct, hback⟩ := hshrinks.entries e he
    rcases hsyn with hsame | hidle | ⟨t', hpassed, -⟩
    · obtain ⟨href, hdone⟩ :=
        h.found t ref (hsame ▸ hfound) (e.1, c) hc (hct.trans htuple) (hback hp)
      exact ⟨href, fun hcreate => hdone (hshrinks.creating e.1 hcreate)⟩
    · rw [hidle] at hfound
      cases hfound
    · rw [hpassed] at hfound
      cases hfound
  passed := by
    intro t ht
    rcases hsyn with hsame | hidle | ⟨t', hpassed, hvacant⟩
    · exact hshrinks.vacant (h.passed t (hsame ▸ ht))
    · rw [hidle] at ht
      cases ht
    · rw [hpassed] at ht
      cases ht
      exact hvacant

theorem ownIDs_setConnState {pm : PortManager} (h : OwnIDs pm) (ref : Nat) (state : ConnState) :
    OwnIDs (setConnState pm ref state) := by
  have hkept := kept_modifyConn pm ref (f := fun c => { c with state := state }) fun _ => ⟨rfl, rfl⟩
  exact hkept.ids h

theorem ownIDs_newConnection {pm : PortManager} (h : OwnIDs pm) (t : FourTuple) (now : Nat) :
    OwnIDs (pm.newConnection t.localPort t.remoteAddr t.remotePort now).2 := by
  intro id ref hid
  rw [newConnection_connections, GoMap.lookup_insert_ite] at hid
  split at hid
  next heq =>
    cases hid
    exact ⟨_, newConnection_conn, heq.symm⟩
  next =>
    obtain ⟨c, hc, hcid⟩ := h id ref hid
    exact ⟨c, newConnection_conn_of_some hc, hcid⟩

/-! ## One step -/

theorem shrinks_setConnState {state : ConnState} {creating : List Nat} {syn : SynAt}
    (hsub : ∀ r ∈ creating, r ∈ s.creating) (hlive : Allocation.live state = true →
      ∀ c, (ref, c) ∈ s.ports.listed → Pending s.creating (ref, c)) :
    Shrinks s ⟨setConnState s.ports ref state, creating, syn⟩ := by
  refine ⟨hsub, fun e' he' => ?_⟩
  obtain ⟨c, hc, heq⟩ := mem_listed_modifyConn he'
  refine ⟨c, hc, ?_, fun hpending => ?_⟩
  · rw [heq]
    split <;> rfl
  · rcases hpending with hactive | hcreate
    · by_cases href : e'.1 = ref
      · rw [if_pos href] at heq
        rw [heq] at hactive
        rw [href] at hc ⊢
        exact hlive hactive c hc
      · rw [if_neg href] at heq
        exact .inl (heq ▸ hactive)
    · exact .inr (hsub e'.1 hcreate)

theorem shrinks_removeConnection (s : Table) (id : UInt32) :
    Shrinks s { s with ports := s.ports.removeConnection id } where
  creating := fun _ h => h
  entries := fun e' he' => ⟨e'.2, mem_listed_removeConnection he', rfl, fun h => h⟩

theorem shrinks_syn (s : Table) (syn : SynAt) : Shrinks s { s with syn := syn } where
  creating := fun _ h => h
  entries := fun e' he' => ⟨e'.2, he', rfl, fun h => h⟩

theorem Shrinks.trans {s'' : Table} (h : Shrinks s s') (h' : Shrinks s' s'') : Shrinks s s'' := by
  refine ⟨fun ref hr => h.creating ref (h'.creating ref hr), fun e'' he'' => ?_⟩
  obtain ⟨c', hc', ht', hback'⟩ := h'.entries e'' he''
  obtain ⟨c, hc, ht, hback⟩ := h.entries (e''.1, c') hc'
  exact ⟨c, hc, ht.trans ht', fun hp => hback (hback' hp)⟩

theorem Inv.register (h : s.Inv) (hvacant : s.Vacant t) (now : Nat) {syn : SynAt}
    (hpassed : ∀ t', syn = .passed t' → s.syn = .passed t' ∧ t' ≠ t)
    (hfound : ∀ t' ref, syn = .found t' ref → s.syn = .found t' ref ∧ t' ≠ t) :
    Inv { s.register t now with syn := syn } := by
  -- an entry that is not the new one was there before, and was as much alive
  have hcreated : ∀ e ∈ s.ports.listed, e.1 ∈ (s.register t now).creating → e.1 ∈ s.creating := by
    intro e he hcreate
    rcases List.mem_cons.mp hcreate with hnew | hcreate
    · obtain ⟨id, -, hconn⟩ := mem_listed.mp he
      exact absurd hnew (Nat.ne_of_lt (List.getElem?_eq_some_iff.mp hconn).1)
    · exact hcreate
  have hold : ∀ e ∈ s.ports.listed, Pending (s.register t now).creating e → Pending s.creating e :=
    fun e he hpending => hpending.imp_right (hcreated e he)
  have hfresh : (s.ports.fresh t.localPort t.remoteAddr t.remotePort now).tuple = t := rfl
  refine ⟨ownIDs_newConnection h.ids t now, ?_, ?_, ?_⟩
  · intro e he e' he' htuple hp hp'
    rcases mem_listed_newConnection he with hmem | rfl
    · rcases mem_listed_newConnection he' with hmem' | rfl
      · exact h.unique e hmem e' hmem' htuple (hold e hmem hp) (hold e' hmem' hp')
      · exact absurd (hold e hmem hp) (hvacant e hmem (htuple.trans hfresh))
    · rcases mem_listed_newConnection he' with hmem' | rfl
      · exact absurd (hold e' hmem' hp') (hvacant e' hmem' (htuple.symm.trans hfresh))
      · rfl
  · intro t' ref ht' e he htuple hp
    obtain ⟨hsyn, hne⟩ := hfound t' ref ht'
    rcases mem_listed_newConnection he with hmem | rfl
    · obtain ⟨href, hdone⟩ := h.found t' ref hsyn e hmem htuple (hold e hmem hp)
      exact ⟨href, fun hcreate => hdone (hcreated e hmem hcreate)⟩
    · exact absurd (htuple.symm.trans hfresh) hne
  · intro t' ht' e he htuple hp
    obtain ⟨hsyn, hne⟩ := hpassed t' ht'
    rcases mem_listed_newConnection he with hmem | rfl
    · exact h.passed t' hsyn e hmem htuple (hold e hmem hp)
    · exact hne (htuple.symm.trans hfresh)

theorem Inv.synLookup (h : s.Inv) (hsettled : s.Settled t) : (s.step (.synLookup t order)).Inv := by
  simp only [step]
  split
  · exact h
  next hguard =>
    have hperm : order.Perm s.ports.listed := by
      by_contra hne
      exact hguard (.inr hne)
    split
    next hnone =>
      refine h.shrinks h.ids (shrinks_syn s _) (.inr (.inr ⟨t, rfl, ?_⟩))
      intro e he htup
      exact absurd htup (findAmong_none hnone e (hperm.mem_iff.mpr he))
    next ref hfound =>
      obtain ⟨c, hmem, htuple, hactive⟩ := findAmong_some hfound
      refine ⟨h.ids, h.unique, ?_, nofun⟩
      rintro t' ref' heq e he htup hpending
      cases heq
      refine ⟨?_, hsettled e he htup⟩
      rcases hpending with halive | hcreate
      · rcases hactive with hlive | hnone
        · exact h.unique e he (ref, c) (hperm.mem_iff.mp hmem) (htup.trans htuple.symm) (.inl halive)
            (.inl hlive)
        · simp [hnone e (hperm.mem_iff.mpr he) htup] at halive
      · exact absurd hcreate (hsettled e he htup)

theorem Inv.restarted (h : s.Inv) (c : Conn) (hfound : s.syn = .found t ref) :
    Inv { s with ports := closeRestarted s.ports ref c, syn := .passed t } := by
  have hclosed : Shrinks s ⟨setConnState s.ports ref .closed, s.creating, .passed t⟩ :=
    shrinks_setConnState (fun r hr => hr) nofun
  have hids := ownIDs_setConnState h.ids ref .closed
  refine h.shrinks ((kept_removeConnection hids c.id).ids hids)
    (hclosed.trans (shrinks_removeConnection _ c.id)) (.inr (.inr ⟨t, rfl, ?_⟩))
  rintro e he htup hpending
  have he := mem_listed_removeConnection he
  obtain ⟨d, hd, hdt, hback⟩ := hclosed.entries e he
  obtain ⟨href, hdone⟩ := h.found t ref hfound (e.1, d) hd (hdt.trans htup) (hback hpending)
  obtain ⟨d', -, heq⟩ := mem_listed_modifyConn he
  rcases hpending with halive | hcreate
  · rw [heq, if_pos href] at halive
    cases halive
  · exact hdone hcreate

theorem Inv.synCheck (h : s.Inv) {restarted : Bool} (hok : s.Careful (.synCheck restarted)) :
    (s.step (.synCheck restarted)).Inv := by
  simp only [step]
  split
  next t ref hfound =>
    split
    next c hconn =>
      unfold synFound
      cases restarted with
      | true => exact h.restarted c hfound
      | false =>
        rw [if_neg Bool.false_ne_true]
        split
        · exact h.shrinks h.ids (shrinks_syn s _) (.inr (.inl rfl))
        next hstate =>
          -- the connection that was found has ended, and no other one is live
          refine h.shrinks h.ids (shrinks_syn s _) (.inr (.inr ⟨t, rfl, ?_⟩))
          intro e he htup hpending
          obtain ⟨href, hdone⟩ := h.found t ref hfound e he htup hpending
          obtain ⟨id, -, hentry⟩ := mem_listed.mp he
          rw [href, hconn] at hentry
          cases hentry
          rcases hpending with halive | hcreate
          · exact hstate (hok rfl t ref hfound e.2 hconn halive)
          · exact hdone hcreate
    next => exact h
  next => exact h

theorem step_inv {i : Input} (h : s.Inv) (hok : s.Careful i) : (s.step i).Inv := by
  cases i with
  | synLookup t order => exact h.synLookup hok
  | synCheck restarted => exact h.synCheck hok
  | synRefused => exact h.shrinks h.ids (shrinks_syn s _) (.inr (.inl rfl))
  | synCreate now =>
    simp only [step]
    split
    next t ht =>
      exact h.register (h.passed t ht) now (fun _ ht' => (nomatch ht')) fun _ _ ht' => (nomatch ht')
    next => exact h
  | dialCreate t now =>
    obtain ⟨hvacant, hpassed, hfound⟩ := hok
    refine h.register hvacant now (fun t' ht' => ⟨ht', ?_⟩) fun t' ref ht' => ⟨ht', ?_⟩
    · rintro rfl
      exact hpassed ht'
    · rintro rfl
      exact hfound ref ht'
  | create ref state =>
    simp only [step]
    split
    next href =>
      exact h.shrinks (ownIDs_setConnState h.ids ref state)
        (shrinks_setConnState (fun r hr => List.mem_of_mem_filter hr) fun _ _ _ => .inr href)
        (.inl rfl)
    next => exact h
  | setState ref state =>
    refine h.shrinks (ownIDs_setConnState h.ids ref state)
      (shrinks_setConnState (fun r hr => hr) fun hlive c hc => .inl ?_) (.inl rfl)
    obtain ⟨id, -, hconn⟩ := mem_listed.mp hc
    exact hok hlive c hconn
  | removeConnection id =>
    exact h.shrinks ((kept_removeConnection h.ids id).ids h.ids) (shrinks_removeConnection s id)
      (.inl rfl)

/-! ## Whole runs -/

/-- In every careful run from an empty table at most one entry of a four-tuple is live, and
the lookup of a live connection's four-tuple finds that connection in whatever order it
meets the entries. -/
theorem one_live_connection_per_tuple {inputs : List Input}
    (hok : AllSteps step Careful initial inputs) :
    let s := inputs.foldl step initial
    (∀ id id' ref ref' c c', s.ports.connections.lookup id = some ref → s.ports.conn ref = some c →
      s.ports.connections.lookup id' = some ref' → s.ports.conn ref' = some c' →
      c.tuple = c'.tuple → c.active = true → c'.active = true → id = id') ∧
    ∀ ref c order, (ref, c) ∈ s.ports.listed → c.active = true → order.Perm s.ports.listed →
      findAmong order c.tuple = some ref := by
  intro s
  have hinv : s.Inv := run_invariant Inv (fun _ _ h hi => step_inv h hi) initial_inv hok
  refine ⟨?_, ?_⟩
  · intro id id' ref ref' c c' hid hc hid' hc' htuple hactive hactive'
    have href : ref = ref' := hinv.unique (ref, c) (mem_listed.mpr ⟨id, hid, hc⟩)
      (ref', c') (mem_listed.mpr ⟨id', hid', hc'⟩) htuple (.inl hactive) (.inl hactive')
    subst href
    obtain ⟨d, hd, rfl⟩ := hinv.ids id ref hid
    obtain ⟨d', hd', rfl⟩ := hinv.ids id' ref hid'
    rw [hd, Option.some.injEq] at hd'
    rw [hd']
  · intro ref c order hmem hactive hperm
    cases hfound : findAmong order c.tuple with
    | none => exact absurd rfl (findAmong_none hfound (ref, c) (hperm.mem_iff.mpr hmem))
    | some ref' =>
      obtain ⟨c', hmem', htuple, hlive | hnone⟩ := findAmong_some hfound
      · exact congrArg some (hinv.unique (ref', c') (hperm.mem_iff.mp hmem') (ref, c) hmem htuple
          (.inl hlive) (.inl hactive))
      · simp [hnone (ref, c) (hperm.mem_iff.mpr hmem) rfl] at hactive

def sampleTuple : FourTuple := ⟨1000, ⟨0, 7⟩, 80⟩

def sampleEntry (state : ConnState) : Nat × Conn :=
  (0, { new.fresh 1000 ⟨0, 7⟩ 80 0 with state := state })

def connected : List Input :=
  [.synLookup sampleTuple [], .synCreate 0, .create 0 .synReceived, .setState 0 .established]

theorem connected_found :
    let s := connected.foldl step initial
    (sampleEntry .established) ∈ s.ports.listed ∧
    findAmong s.ports.listed.reverse sampleTuple = some 0 := by
  have hok : AllSteps step Careful initial connected := by
    refine ⟨nofun, trivial, trivial, fun _ c hc => ?_, trivial⟩
    cases hc
    rfl
  have hmem : sampleEntry .established ∈ (connected.foldl step initial).ports.listed := by
    decide +kernel
  exact ⟨hmem, (one_live_connection_per_tuple hok).2 0 _ _ hmem rfl (List.reverse_perm _)⟩

/-- The daemon closes its side, and the peer, which has restarted, connects from the same
port. -/
def reconnected : List Input :=
  connected ++ [.setState 0 .finWait, .synLookup sampleTuple [sampleEntry .finWait], .synCheck false,
    .synCreate 0, .create 1 .synReceived]

/-- Both connections are live, and which of them is found depends on the order. -/
theorem reconnected_both_live :
    let s := reconnected.foldl step initial
    (s.ports.listed.all fun e => e.2.active && decide (e.2.tuple = sampleTuple)) = true ∧
    s.ports.listed.length = 2 ∧
    findAmong s.ports.listed sampleTuple ≠ findAmong s.ports.listed.reverse sampleTuple := by
  decide +kernel

end Table

end PilotProtocol.Ports
