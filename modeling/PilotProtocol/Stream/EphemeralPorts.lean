import PilotProtocol.Library.Run
import PilotProtocol.Stream.Ports

/-! # Ephemeral ports

The bitmap is a cache of a property of the whole table: a set bit means that the port is
taken. `NewConnection` registers a connection as CLOSED, and its creator sets the state
in a later step, so a scan for live connections does not see it. The system below
records which connections still wait for their creator's write, and which ports have
been handed out and not been released or removed since; the code keeps neither record.
-/

namespace PilotProtocol.Ports

open Library
open PilotProtocol.Stream (ConnState)
open PortManager

namespace PortManager

variable {pm : PortManager}

def new : PortManager where
  objects := []
  connections := ∅
  ephBitmap := Bitmap.empty
  nextConnID := 1
  nextEphPort := portEphemeralMin

theorem firstClear_none {bitmap : Bitmap 256} {fuel : Nat} {start : Fin (64 * 256)}
    (h : firstClear bitmap fuel start = none) :
    ∀ k < fuel, bitmap.has (start + Fin.ofNat (64 * 256) k) = true := by
  induction fuel generalizing start with
  | zero => exact fun k hk => absurd hk (Nat.not_lt_zero k)
  | succ fuel ih =>
    rw [firstClear] at h
    split at h
    case isFalse => cases h
    case isTrue hset =>
      intro k hk
      cases k with
      | zero => rwa [show start + Fin.ofNat (64 * 256) 0 = start from by simp]
      | succ k =>
        have hrest := ih h k (Nat.lt_of_succ_lt_succ hk)
        rwa [show start + Fin.ofNat (64 * 256) (k + 1) = start + 1 + Fin.ofNat (64 * 256) k from by
          apply Fin.ext
          simp only [Fin.val_add, Fin.val_ofNat, Fin.val_one]
          omega]

theorem allocEphemeralPort_none :
    pm.allocEphemeralPort.1 = none ↔ ∀ i, pm.ephBitmap.has i = true := by
  unfold allocEphemeralPort
  dsimp only
  split
  next hnone =>
    refine ⟨fun _ i => ?_, fun _ => rfl⟩
    have hall := firstClear_none hnone
      (i - Fin.ofNat (64 * 256) (pm.nextEphPort - portEphemeralMin).toNat).val (Fin.isLt _)
    rwa [Fin.ofNat_val_eq_self, add_sub_cancel] at hall
  next idx hfirst =>
    refine ⟨nofun, fun h => ?_⟩
    exact absurd (h idx) (by rw [firstClear_clear hfirst]; decide)

theorem allocEphemeralPort_cursor (h : portEphemeralMin ≤ pm.nextEphPort) :
    portEphemeralMin ≤ pm.allocEphemeralPort.2.nextEphPort := by
  unfold allocEphemeralPort
  dsimp only
  split
  · exact h
  next idx _ =>
    split
    · exact UInt16.le_refl _
    next hmax =>
      have hval : (portEphemeralMin + UInt16.ofNat idx.val).toNat = 49152 + idx.val := by
        rw [UInt16.toNat_add, show portEphemeralMin.toNat = 49152 from rfl, UInt16.toNat_ofNat']
        omega
      rw [UInt16.le_iff_toNat_le, hval, show portEphemeralMax.toNat = 65535 from rfl] at hmax
      rw [UInt16.le_iff_toNat_le, UInt16.toNat_add, hval, show portEphemeralMin.toNat = 49152 from rfl,
        show (1 : UInt16).toNat = 1 from rfl]
      omega

/-! ## The connections in the table -/

theorem allocEphemeralPort_listed : pm.allocEphemeralPort.2.listed = pm.listed := by
  unfold allocEphemeralPort
  dsimp only
  split <;> rfl

theorem clearEphPort_listed (port : UInt16) : (pm.clearEphPort port).listed = pm.listed := by
  obtain ⟨bitmap, h⟩ := clearEphPort_eq pm port
  rw [h]
  rfl

theorem mem_listed_newConnection {localPort remotePort : UInt16} {remoteAddr : Addr} {now : Nat}
    {e : Nat × Conn} (h : e ∈ (pm.newConnection localPort remoteAddr remotePort now).2.listed) :
    e ∈ pm.listed ∨ e = (pm.objects.length, pm.fresh localPort remoteAddr remotePort now) := by
  obtain ⟨id, hid, hconn⟩ := mem_listed.mp h
  rw [newConnection_connections, GoMap.lookup_insert_ite] at hid
  by_cases hnew : e.1 = pm.objects.length
  · rw [hnew, newConnection_conn, Option.some.injEq] at hconn
    exact .inr (Prod.ext hnew hconn.symm)
  · split at hid
    · exact absurd (Option.some.inj hid).symm hnew
    · refine .inl (mem_listed.mpr ⟨id, hid, ?_⟩)
      unfold conn at hconn ⊢
      rw [newConnection_objects, List.getElem?_append] at hconn
      split at hconn
      · exact hconn
      next hlt =>
        have hsingle := (List.getElem?_eq_some_iff.mp hconn).1
        simp only [List.length_singleton] at hsingle
        omega

theorem mem_listed_modifyConn {ref : Nat} {f : Conn → Conn} {e : Nat × Conn}
    (h : e ∈ (pm.modifyConn ref f).listed) :
    ∃ c, (e.1, c) ∈ pm.listed ∧ e.2 = if e.1 = ref then f c else c := by
  obtain ⟨id, hid, hconn⟩ := mem_listed.mp h
  rw [modifyConn_conn] at hconn
  split at hconn
  next heq =>
    obtain ⟨c, hc, hf⟩ := Option.map_eq_some_iff.mp hconn
    exact ⟨c, mem_listed.mpr ⟨id, hid, hc⟩, by rw [if_pos heq, hf]⟩
  next hne => exact ⟨e.2, mem_listed.mpr ⟨id, hid, hconn⟩, by rw [if_neg hne]⟩

theorem mem_listed_removeConnection {id : UInt32} {e : Nat × Conn}
    (h : e ∈ (pm.removeConnection id).listed) : e ∈ pm.listed := by
  obtain ⟨j, hj, hconn⟩ := mem_listed.mp h
  rw [removeConnection_lookup] at hj
  rw [removeConnection_conn] at hconn
  split at hj
  · cases hj
  · exact mem_listed.mpr ⟨j, hj, hconn⟩

theorem clearEphPort_active {e : Nat × Conn} (he : e ∈ pm.listed) (hactive : e.2.active = true) :
    pm.clearEphPort e.2.localPort = pm := by
  have hany : (pm.listed.any fun e' => decide (e'.2.localPort = e.2.localPort) && e'.2.active) = true :=
    List.any_eq_true.mpr ⟨e, he, by simp [hactive]⟩
  unfold clearEphPort
  split
  · rfl
  · rw [if_pos hany]

theorem markEphPortUsed_self {port : UInt16} (h : (ephBitIndex port).isSome = true) :
    (pm.markEphPortUsed port).portUsed port = true := by
  obtain ⟨i, hi⟩ := Option.isSome_iff_exists.mp h
  unfold markEphPortUsed portUsed
  rw [hi]
  simp only [Bitmap.has_set, decide_true, Bool.true_or]

theorem allocEphemeralPort_portUsed {q : UInt16} (h : pm.portUsed q = true) :
    pm.allocEphemeralPort.2.portUsed q = true := by
  cases halloc : pm.allocEphemeralPort.1 with
  | some port => exact (allocEphemeralPort_some (Prod.ext halloc rfl)).2.2.1 q h
  | none =>
    unfold allocEphemeralPort at halloc ⊢
    dsimp only at halloc ⊢
    split at halloc
    · exact h
    · cases halloc

theorem removeConnection_some {id : UInt32} {c : Conn}
    (h : (pm.connections.lookup id).bind pm.conn = some c) : pm.removeConnection id =
      { pm with connections := pm.connections.erase id }.clearEphPort c.localPort := by
  unfold removeConnection
  rw [h]

end PortManager

/-! ## The system -/

structure Allocation where
  ports : PortManager
  /-- The connections whose creator has not set the state yet. -/
  creating : List Nat
  /-- The ports given out and not released or removed since. -/
  handed : List UInt16

namespace Allocation

inductive Input
  | allocEphemeralPort
  | releaseEphemeralPort (port : UInt16)
  | newConnection (localPort : UInt16) (remoteAddr : Addr) (remotePort : UInt16) (now : Nat)
  /-- The creator of a connection sets its state. -/
  | create (ref : Nat) (state : ConnState)
  | setState (ref : Nat) (state : ConnState)
  | removeConnection (id : UInt32)

def initial : Allocation := ⟨PortManager.new, [], []⟩

def removed (s : Allocation) (id : UInt32) : Option Conn :=
  (s.ports.connections.lookup id).bind s.ports.conn

def writeState (s : Allocation) (ref : Nat) (state : ConnState) : PortManager :=
  s.ports.modifyConn ref fun c => { c with state := state }

def step (s : Allocation) : Input → Allocation
  | .allocEphemeralPort =>
    { s with
      ports := s.ports.allocEphemeralPort.2
      handed := s.ports.allocEphemeralPort.1.toList ++ s.handed }
  | .releaseEphemeralPort port =>
    { s with
      ports := s.ports.clearEphPort port
      handed := s.handed.filter fun p => p ≠ port }
  | .newConnection localPort remoteAddr remotePort now =>
    { s with
      ports := (s.ports.newConnection localPort remoteAddr remotePort now).2
      creating := (s.ports.newConnection localPort remoteAddr remotePort now).1 :: s.creating }
  | .create ref state =>
    if ref ∈ s.creating then
      { s with ports := s.writeState ref state, creating := s.creating.filter fun r => r ≠ ref }
    else s
  | .setState ref state => { s with ports := s.writeState ref state }
  | .removeConnection id =>
    { s with
      ports := s.ports.removeConnection id
      handed := s.handed.filter fun p => some p ≠ (s.removed id).map Conn.localPort }

def live (state : ConnState) : Bool := state ≠ .closed && state ≠ .timeWait

/-- A port is not released, nor a connection with it removed, while another connection with
the port waits for its creator's write; and a connection that has ended stays so. -/
def Careful (s : Allocation) : Input → Prop
  | .releaseEphemeralPort port => ∀ e ∈ s.ports.listed, e.1 ∈ s.creating → e.2.localPort ≠ port
  | .removeConnection id => ∀ e ∈ (s.ports.removeConnection id).listed, e.1 ∈ s.creating →
      some e.2.localPort ≠ (s.removed id).map Conn.localPort
  | .setState ref state => live state = true → ∀ c, s.ports.conn ref = some c → c.active = true
  | _ => True

/-! ## The invariant -/

/-- The ephemeral port of every connection that is live or may become so is taken, and so
is every port that has been handed out. -/
structure Inv (s : Allocation) : Prop where
  held : ∀ e ∈ s.ports.listed, e.2.active = true ∨ e.1 ∈ s.creating →
    (ephBitIndex e.2.localPort).isSome = true → s.ports.portUsed e.2.localPort = true
  handed : ∀ port ∈ s.handed, s.ports.portUsed port = true
  cursor : portEphemeralMin ≤ s.ports.nextEphPort

theorem initial_inv : initial.Inv where
  held := by
    rintro e he
    cases he
  handed := by simp [initial]
  cursor := UInt16.le_refl _

variable {s : Allocation}

theorem Inv.alloc (h : s.Inv) : (s.step .allocEphemeralPort).Inv where
  held := by
    intro e he hlive heph
    have hmem : e ∈ s.ports.allocEphemeralPort.2.listed := he
    rw [allocEphemeralPort_listed] at hmem
    exact allocEphemeralPort_portUsed (h.held e hmem hlive heph)
  handed := by
    intro port hport
    rcases List.mem_append.mp hport with hnew | hold
    · exact (allocEphemeralPort_some
        (Prod.ext (Option.mem_toList.mp hnew) rfl)).2.1
    · exact allocEphemeralPort_portUsed (h.handed port hold)
  cursor := allocEphemeralPort_cursor h.cursor

theorem clear_held {pm : PortManager} {creating : List Nat} {port : UInt16}
    (hheld : ∀ e ∈ pm.listed, e.2.active = true ∨ e.1 ∈ creating →
      (ephBitIndex e.2.localPort).isSome = true → pm.portUsed e.2.localPort = true)
    (hcreating : ∀ e ∈ pm.listed, e.1 ∈ creating → e.2.localPort ≠ port) :
    ∀ e ∈ (pm.clearEphPort port).listed, e.2.active = true ∨ e.1 ∈ creating →
      (ephBitIndex e.2.localPort).isSome = true →
      (pm.clearEphPort port).portUsed e.2.localPort = true := by
  intro e he hlive heph
  rw [clearEphPort_listed] at he
  have hused := hheld e he hlive heph
  by_cases hport : e.2.localPort = port
  · rcases hlive with hactive | hcreate
    · rwa [← hport, clearEphPort_active he hactive]
    · exact absurd hport (hcreating e he hcreate)
  · rwa [clearEphPort_portUsed hport]

theorem Inv.release (h : s.Inv) {port : UInt16} (hok : s.Careful (.releaseEphemeralPort port)) :
    (s.step (.releaseEphemeralPort port)).Inv where
  held := clear_held h.held hok
  handed := by
    intro p hp
    obtain ⟨hold, hne⟩ := List.mem_filter.mp hp
    show (s.ports.clearEphPort port).portUsed p = true
    rw [clearEphPort_portUsed (by simpa using hne)]
    exact h.handed p hold
  cursor := by
    obtain ⟨bitmap, heq⟩ := clearEphPort_eq s.ports port
    show portEphemeralMin ≤ (s.ports.clearEphPort port).nextEphPort
    rw [heq]
    exact h.cursor

theorem Inv.newConnection (h : s.Inv) (localPort : UInt16) (remoteAddr : Addr) (remotePort : UInt16)
    (now : Nat) : (s.step (.newConnection localPort remoteAddr remotePort now)).Inv where
  held := by
    intro e he hlive heph
    rcases mem_listed_newConnection he with hold | rfl
    · refine newConnection_portUsed (h.held e hold ?_ heph)
      rcases hlive with hactive | hcreate
      · exact .inl hactive
      · rcases List.mem_cons.mp hcreate with hnew | hcreate
        · -- a connection that was there before has an earlier number
          obtain ⟨id, -, hconn⟩ := mem_listed.mp hold
          have hlt := (List.getElem?_eq_some_iff.mp hconn).1
          exact absurd hnew (Nat.ne_of_lt hlt)
        · exact .inr hcreate
    · exact markEphPortUsed_self heph
  handed := fun port hport => newConnection_portUsed (h.handed port hport)
  cursor := by
    obtain ⟨bitmap, heq⟩ := newConnection_eq s.ports
    unfold Allocation.step
    dsimp only
    rw [heq]
    exact h.cursor

theorem Inv.writeState (h : s.Inv) {ref : Nat} {state : ConnState} {creating : List Nat}
    (hsub : ∀ r ∈ creating, r ∈ s.creating) (hlive : live state = true →
      ∀ c, (ref, c) ∈ s.ports.listed → c.active = true ∨ ref ∈ s.creating) :
    Inv { s with ports := s.writeState ref state, creating := creating } where
  held := by
    intro e he hstate heph
    obtain ⟨c, hc, heq⟩ := mem_listed_modifyConn he
    by_cases href : e.1 = ref
    · rw [if_pos href] at heq
      rw [heq] at hstate heph ⊢
      rw [href] at hc
      refine h.held (ref, c) hc ?_ heph
      rcases hstate with hactive | hcreate
      · exact hlive hactive c hc
      · exact .inr (hsub ref (href ▸ hcreate))
    · rw [if_neg href] at heq
      rw [heq] at hstate heph ⊢
      refine h.held (e.1, c) hc ?_ heph
      rcases hstate with hactive | hcreate
      · exact .inl hactive
      · exact .inr (hsub e.1 hcreate)
  handed := h.handed
  cursor := h.cursor

theorem Inv.removeConnection (h : s.Inv) {id : UInt32} (hok : s.Careful (.removeConnection id)) :
    (s.step (.removeConnection id)).Inv := by
  have hsub : ∀ e ∈ (s.ports.removeConnection id).listed, e ∈ s.ports.listed :=
    fun e he => mem_listed_removeConnection he
  have hcursor : portEphemeralMin ≤ (s.ports.removeConnection id).nextEphPort := by
    obtain ⟨bitmap, heq⟩ := removeConnection_eq s.ports id
    rw [heq]
    exact h.cursor
  cases hc : s.removed id with
  | none =>
    have hbits : (s.ports.removeConnection id).ephBitmap = s.ports.ephBitmap := by
      unfold PortManager.removeConnection
      rw [show (s.ports.connections.lookup id).bind s.ports.conn = none from hc]
    refine ⟨fun e he hlive heph => ?_, fun port hport => ?_, hcursor⟩
    · show (s.ports.removeConnection id).portUsed e.2.localPort = true
      unfold PortManager.portUsed
      rw [hbits]
      exact h.held e (hsub e he) hlive heph
    · show (s.ports.removeConnection id).portUsed port = true
      unfold PortManager.portUsed
      rw [hbits]
      exact h.handed port (List.mem_of_mem_filter hport)
  | some c =>
    have heq := removeConnection_some (show (s.ports.connections.lookup id).bind
      s.ports.conn = some c from hc)
    have hlisted : (s.ports.removeConnection id).listed =
        { s.ports with connections := s.ports.connections.erase id : PortManager }.listed := by
      rw [heq, clearEphPort_listed]
    refine ⟨?_, fun port hport => ?_, hcursor⟩
    · show ∀ e ∈ (s.ports.removeConnection id).listed, _ → _ →
        (s.ports.removeConnection id).portUsed e.2.localPort = true
      rw [heq]
      apply clear_held
      · intro e he
        exact h.held e (hsub e (hlisted ▸ he))
      · intro e he hcreate hport
        exact hok e (hlisted ▸ he) hcreate (by rw [hc, hport]; rfl)
    · obtain ⟨hold, hne⟩ := List.mem_filter.mp hport
      show (s.ports.removeConnection id).portUsed port = true
      rw [heq, clearEphPort_portUsed]
      · exact h.handed port hold
      · rintro rfl
        simp [hc] at hne

theorem step_inv {i : Input} (h : s.Inv) (hok : s.Careful i) : (s.step i).Inv := by
  cases i with
  | allocEphemeralPort => exact h.alloc
  | releaseEphemeralPort port => exact h.release hok
  | newConnection localPort remoteAddr remotePort now =>
    exact h.newConnection localPort remoteAddr remotePort now
  | create ref state =>
    simp only [step]
    split
    next href => exact h.writeState (fun r hr => List.mem_of_mem_filter hr) fun _ _ _ => .inr href
    next => exact h
  | setState ref state =>
    refine h.writeState (fun r hr => hr) fun hlive c hc => .inl ?_
    obtain ⟨id, -, hconn⟩ := mem_listed.mp hc
    exact hok hlive c hconn
  | removeConnection id => exact h.removeConnection hok

/-- In every careful run from an empty table the ephemeral port of each live connection is
marked as taken, so that neither such a port nor one that has been handed out and not been
released or removed is given out; the cursor stays in the range, and no port is given out
exactly when all are taken. -/
theorem ephemeral_ports_unique {inputs : List Input} (hok : AllSteps step Careful initial inputs) :
    let s := inputs.foldl step initial
    (∀ e ∈ s.ports.listed, e.2.active = true → (ephBitIndex e.2.localPort).isSome = true →
      s.ports.portUsed e.2.localPort = true) ∧
    (∀ port, s.ports.allocEphemeralPort.1 = some port →
      (∀ e ∈ s.ports.listed, e.2.active = true → e.2.localPort ≠ port) ∧ port ∉ s.handed) ∧
    (portEphemeralMin ≤ s.ports.nextEphPort ∧ s.ports.nextEphPort ≤ portEphemeralMax) ∧
    (s.ports.allocEphemeralPort.1 = none ↔ ∀ i, s.ports.ephBitmap.has i = true) := by
  intro s
  have hinv : s.Inv := run_invariant Inv (fun _ _ h hi => step_inv h hi) initial_inv hok
  refine ⟨fun e he hactive => hinv.held e he (.inl hactive), fun port hport => ?_,
    ⟨hinv.cursor, ?_⟩, allocEphemeralPort_none⟩
  · obtain ⟨hfree, hnow, -⟩ := allocEphemeralPort_some (Prod.ext hport rfl)
    have heph : (ephBitIndex port).isSome = true := by
      unfold PortManager.portUsed at hnow
      cases hi : ephBitIndex port with
      | none => rw [hi] at hnow; cases hnow
      | some i => rfl
    refine ⟨?_, fun hhanded => ?_⟩
    · rintro e he hactive rfl
      simp [hinv.held e he (.inl hactive) heph] at hfree
    · simp [hinv.handed port hhanded] at hfree
  · rw [UInt16.le_iff_toNat_le]
    have hlt := s.ports.nextEphPort.toNat_lt
    show _ ≤ 65535
    omega

def dialing : List Input :=
  [.allocEphemeralPort, .newConnection 49152 ⟨0, 7⟩ 80 0, .create 0 .synSent]

theorem dialing_port_kept : (dialing.foldl step initial).ports.portUsed 49152 = true ∧
    49152 ∈ (dialing.foldl step initial).handed ∧
    ∀ port, (dialing.foldl step initial).ports.allocEphemeralPort.1 = some port →
      port ∉ (dialing.foldl step initial).handed :=
  have hok : AllSteps step Careful initial dialing := ⟨trivial, trivial, trivial, trivial⟩
  ⟨by decide +kernel, by decide +kernel, fun port hport =>
    ((ephemeral_ports_unique hok).2.1 port hport).2⟩

/-- Two peers reach a listener on port 49152. The first connection is removed while the
second is registered and not yet live, which frees the port. -/
def overlapping : List Input :=
  [.newConnection 49152 ⟨0, 7⟩ 80 0, .create 0 .established, .newConnection 49152 ⟨0, 8⟩ 80 0,
    .removeConnection 1, .create 1 .established]

/-- The second connection is live and its port is free; the next dial is given that port. -/
theorem live_port_handed_out :
    let s := overlapping.foldl step initial
    (s.ports.listed.any fun e => e.2.active && decide (e.2.localPort = 49152)) = true ∧
    s.ports.portUsed 49152 = false ∧ s.ports.allocEphemeralPort.1 = some 49152 := by
  decide +kernel

end Allocation

end PilotProtocol.Ports
