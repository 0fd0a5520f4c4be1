import PilotProtocol.Library.Bitmap
import PilotProtocol.Library.GoMap
import PilotProtocol.Stream.Sender

/-! # The connection table

`PortManager` with the parts that dialing, keepalive and the sweeps use. A connection
is an object that outlives its table entry, so the table maps connection IDs to
positions in the list of all connections made so far.
-/

namespace PilotProtocol.Ports

open Library
open PilotProtocol.Stream (ConnState Seq)

structure Addr where
  network : UInt16
  node : UInt32
  deriving DecidableEq

structure Conn where
  id : UInt32
  localPort : UInt16
  remoteAddr : Addr
  remotePort : UInt16
  state : ConnState
  lastActivity : Nat
  keepaliveUnacked : Nat
  sendSeq : Seq
  recvAck : Seq
  deriving DecidableEq

structure PortManager where
  objects : List Conn
  connections : GoMap UInt32 Nat
  ephBitmap : Bitmap 256
  nextConnID : UInt32
  nextEphPort : UInt16

def portEphemeralMin : UInt16 := 49152
def portEphemeralMax : UInt16 := 65535

def second : Nat := 1000000000

/-- How long a SYN_SENT connection may sit before the idle sweeper closes it. -/
def synSentReapDuration : Nat := 5 * second

namespace Conn

def active (c : Conn) : Bool := c.state ≠ .closed && c.state ≠ .timeWait

def idle (c : Conn) (now maxIdle : Nat) : Bool :=
  c.state = .established && decide (maxIdle < now - c.lastActivity)

def stale (c : Conn) (now timeWaitDur : Nat) : Bool :=
  match c.state with
  | .closed | .closeWait => true
  | .finWait | .timeWait => decide (timeWaitDur < now - c.lastActivity)
  | .synSent => decide (synSentReapDuration < now - c.lastActivity)
  | _ => false

end Conn

/-! ## Ephemeral ports -/

/-- The bit of an ephemeral port; `none` for any other port. -/
def ephBitIndex (port : UInt16) : Option (Fin (64 * 256)) :=
  if h : portEphemeralMin ≤ port ∧ port ≤ portEphemeralMax then
    some ⟨port.toNat - portEphemeralMin.toNat, by
      have hlow := UInt16.le_iff_toNat_le.mp h.1
      have hhigh := port.toNat_lt
      have hmin : portEphemeralMin.toNat = 49152 := rfl
      omega⟩
  else none

namespace PortManager

variable (pm : PortManager)

def conn (ref : Nat) : Option Conn := pm.objects[ref]?

def listed : List (Nat × Conn) :=
  pm.connections.entries.filterMap fun e => (pm.conn e.2).map fun c => (e.2, c)

def portUsed (port : UInt16) : Bool :=
  match ephBitIndex port with
  | none => false
  | some i => pm.ephBitmap.has i

def markEphPortUsed (port : UInt16) : PortManager :=
  match ephBitIndex port with
  | none => pm
  | some i => { pm with ephBitmap := pm.ephBitmap.set i }

/-- No-op for a port that an active connection in the table still holds. -/
def clearEphPort (port : UInt16) : PortManager :=
  match ephBitIndex port with
  | none => pm
  | some i =>
    if pm.listed.any fun e => e.2.localPort = port && e.2.active then pm
    else { pm with ephBitmap := pm.ephBitmap.clear i }

/-- The first clear bit from `idx` on, looking at `fuel` bits. -/
def firstClear (bitmap : Bitmap 256) : (fuel : Nat) → (idx : Fin (64 * 256)) →
    Option (Fin (64 * 256))
  | 0, _ => none
  | fuel + 1, idx => if bitmap.has idx then firstClear bitmap fuel (idx + 1) else some idx

/-- `none` is the port 0 of an exhausted range. -/
def allocEphemeralPort : Option UInt16 × PortManager :=
  let start : Fin (64 * 256) := Fin.ofNat _ (pm.nextEphPort - portEphemeralMin).toNat
  match firstClear pm.ephBitmap (64 * 256) start with
  | none => (none, pm)
  | some idx =>
    let port := portEphemeralMin + UInt16.ofNat idx.val
    (some port, { pm with
      ephBitmap := pm.ephBitmap.set idx
      nextEphPort := if portEphemeralMax ≤ port then portEphemeralMin else port + 1 })

/-! ## Connections -/

def fresh (localPort : UInt16) (remoteAddr : Addr) (remotePort : UInt16) (now : Nat) : Conn :=
  { id := pm.nextConnID, localPort, remoteAddr, remotePort, state := .closed, lastActivity := now,
    keepaliveUnacked := 0, sendSeq := 0, recvAck := 0 }

/-- The new connection's reference; its state is CLOSED until the caller sets it. -/
def newConnection (localPort : UInt16) (remoteAddr : Addr) (remotePort : UInt16) (now : Nat) :
    Nat × PortManager :=
  let ref := pm.objects.length
  (ref, { pm with
    objects := pm.objects ++ [pm.fresh localPort remoteAddr remotePort now]
    nextConnID := if pm.nextConnID + 1 = 0 then 1 else pm.nextConnID + 1
    connections := pm.connections.insert pm.nextConnID ref }.markEphPortUsed localPort)

def modifyConn (ref : Nat) (f : Conn → Conn) : PortManager :=
  { pm with objects := pm.objects.modify ref f }

/-- An active connection of the four-tuple, otherwise the last other one met. -/
def findConnection (localPort : UInt16) (remoteAddr : Addr) (remotePort : UInt16) : Option Nat :=
  let found := pm.listed.filter fun e =>
    e.2.localPort = localPort && e.2.remoteAddr = remoteAddr && e.2.remotePort = remotePort
  match found.find? fun e => e.2.active with
  | some e => some e.1
  | none => found.getLast?.map Prod.fst

def removeConnection (id : UInt32) : PortManager :=
  let removed := { pm with connections := pm.connections.erase id }
  match (pm.connections.lookup id).bind pm.conn with
  | none => removed
  | some c => removed.clearEphPort c.localPort

def staleConnections (now timeWaitDur : Nat) : List Conn :=
  (pm.listed.filter fun e => e.2.stale now timeWaitDur).map Prod.snd

/-! ## What the operations do to the table -/

variable {pm : PortManager}

theorem mem_listed {e : Nat × Conn} :
    e ∈ pm.listed ↔ ∃ id, pm.connections.lookup id = some e.1 ∧ pm.conn e.1 = some e.2 := by
  rw [listed, List.mem_filterMap]
  constructor
  · rintro ⟨⟨id, ref⟩, hmem, hconn⟩
    obtain ⟨c, hc, rfl⟩ := Option.map_eq_some_iff.mp hconn
    exact ⟨id, GoMap.lookup_eq_some_iff.mpr hmem, hc⟩
  · rintro ⟨id, hid, hc⟩
    exact ⟨⟨id, e.1⟩, GoMap.lookup_eq_some_iff.mp hid, by rw [hc]; rfl⟩

theorem ephBitIndex_injective {p q : UInt16} {i : Fin (64 * 256)} (hp : ephBitIndex p = some i)
    (hq : ephBitIndex q = some i) : p = q := by
  unfold ephBitIndex at hp hq
  split at hp
  case isFalse => cases hp
  case isTrue hpr =>
    split at hq
    case isFalse => cases hq
    case isTrue hqr =>
      have hval := congrArg Fin.val ((Option.some.inj hp).trans (Option.some.inj hq).symm)
      have hplow := UInt16.le_iff_toNat_le.mp hpr.1
      have hqlow := UInt16.le_iff_toNat_le.mp hqr.1
      simp only at hval
      exact UInt16.toNat_inj.mp (by omega)

theorem ephBitIndex_ofNat (i : Fin (64 * 256)) :
    ephBitIndex (portEphemeralMin + UInt16.ofNat i.val) = some i := by
  have hmin : portEphemeralMin.toNat = 49152 := rfl
  have hval : (portEphemeralMin + UInt16.ofNat i.val).toNat = 49152 + i.val := by
    rw [UInt16.toNat_add, hmin, UInt16.toNat_ofNat']
    omega
  have hrange : portEphemeralMin ≤ portEphemeralMin + UInt16.ofNat i.val ∧
      portEphemeralMin + UInt16.ofNat i.val ≤ portEphemeralMax := by
    rw [UInt16.le_iff_toNat_le, UInt16.le_iff_toNat_le, hval, hmin]
    exact ⟨Nat.le_add_right _ _, by show 49152 + i.val ≤ 65535; omega⟩
  rw [ephBitIndex, dif_pos hrange, Option.some.injEq]
  apply Fin.ext
  simp only [hval, hmin]
  omega

theorem clearEphPort_eq (pm : PortManager) (port : UInt16) :
    ∃ bitmap, pm.clearEphPort port = { pm with ephBitmap := bitmap } := by
  unfold clearEphPort
  split
  · exact ⟨_, rfl⟩
  · split <;> exact ⟨_, rfl⟩

theorem removeConnection_eq (pm : PortManager) (id : UInt32) : ∃ bitmap, pm.removeConnection id =
      { pm with connections := pm.connections.erase id, ephBitmap := bitmap } := by
  unfold removeConnection
  split
  · exact ⟨_, rfl⟩
  next c _ =>
    obtain ⟨bitmap, hclear⟩ :=
      clearEphPort_eq { pm with connections := pm.connections.erase id } c.localPort
    exact ⟨bitmap, hclear⟩

theorem removeConnection_lookup (id j : UInt32) : (pm.removeConnection id).connections.lookup j =
      if j = id then none else pm.connections.lookup j := by
  obtain ⟨bitmap, h⟩ := removeConnection_eq pm id
  rw [h, ← GoMap.lookup_erase_ite]

@[simp] theorem removeConnection_conn (id : UInt32) (ref : Nat) :
    (pm.removeConnection id).conn ref = pm.conn ref := by
  obtain ⟨bitmap, h⟩ := removeConnection_eq pm id
  rw [h]
  rfl

theorem clearEphPort_portUsed {p q : UInt16} (hne : q ≠ p) :
    (pm.clearEphPort p).portUsed q = pm.portUsed q := by
  unfold clearEphPort portUsed
  cases hp : ephBitIndex p with
  | none => rfl
  | some i =>
    cases hq : ephBitIndex q with
    | none => rfl
    | some j =>
      have hij : j ≠ i := fun h => hne (ephBitIndex_injective hq (h ▸ hp))
      dsimp only
      split
      · rfl
      · rw [Bitmap.has_clear, decide_eq_false hij, Bool.not_false, Bool.true_and]

/-- Removing a connection leaves every port alone but its own. -/
theorem removeConnection_portUsed {id : UInt32} {q : UInt16}
    (h : ∀ ref c, pm.connections.lookup id = some ref → pm.conn ref = some c → c.localPort ≠ q) :
    (pm.removeConnection id).portUsed q = pm.portUsed q := by
  unfold removeConnection
  cases hc : (pm.connections.lookup id).bind pm.conn with
  | none => rfl
  | some c =>
    obtain ⟨ref, hid, hconn⟩ := Option.bind_eq_some_iff.mp hc
    exact clearEphPort_portUsed (h ref c hid hconn).symm

theorem modifyConn_conn (ref j : Nat) (f : Conn → Conn) :
    (pm.modifyConn ref f).conn j = if j = ref then (pm.conn j).map f else pm.conn j := by
  unfold modifyConn conn
  by_cases h : ref = j
  · simp [h]
  · rw [if_neg fun hj => h hj.symm]
    simp [h]

theorem firstClear_clear {bitmap : Bitmap 256} {fuel : Nat} {start idx : Fin (64 * 256)}
    (h : firstClear bitmap fuel start = some idx) : bitmap.has idx = false := by
  induction fuel generalizing start with
  | zero => cases h
  | succ fuel ih =>
    rw [firstClear] at h
    split at h
    · exact ih h
    next hclear =>
      cases h
      exact Bool.not_eq_true _ ▸ hclear

theorem portUsed_set {pm' : PortManager} {i : Fin (64 * 256)} {q : UInt16}
    (h : pm.portUsed q = true) (hset : pm'.ephBitmap = pm.ephBitmap.set i) :
    pm'.portUsed q = true := by
  unfold portUsed at h ⊢
  cases hj : ephBitIndex q with
  | none => rw [hj] at h; cases h
  | some j =>
    rw [hj] at h
    simp only [hset, Bitmap.has_set, show Bitmap.has pm.ephBitmap j = true from h, Bool.or_true]

theorem allocEphemeralPort_some {port : UInt16} {pm' : PortManager}
    (h : pm.allocEphemeralPort = (some port, pm')) :
    pm.portUsed port = false ∧ pm'.portUsed port = true ∧
    (∀ q, pm.portUsed q = true → pm'.portUsed q = true) ∧
    ∃ bitmap next, pm' = { pm with ephBitmap := bitmap, nextEphPort := next } := by
  unfold allocEphemeralPort at h
  dsimp only at h
  split at h
  · simp at h
  next idx hfirst =>
    obtain ⟨rfl, rfl⟩ := h
    have hindex : ephBitIndex (portEphemeralMin + UInt16.ofNat idx.val) = some idx :=
      ephBitIndex_ofNat idx
    refine ⟨?_, ?_, fun q hq => ?_, _, _, rfl⟩
    · rw [portUsed, hindex]
      exact firstClear_clear hfirst
    · rw [portUsed, hindex]
      simp only [Bitmap.has_set, decide_true, Bool.true_or]
    · exact portUsed_set hq rfl

theorem markEphPortUsed_eq (pm : PortManager) (port : UInt16) :
    ∃ bitmap, pm.markEphPortUsed port = { pm with ephBitmap := bitmap } := by
  unfold markEphPortUsed
  split <;> exact ⟨_, rfl⟩

theorem markEphPortUsed_portUsed {port q : UInt16} (h : pm.portUsed q = true) :
    (pm.markEphPortUsed port).portUsed q = true := by
  unfold markEphPortUsed
  split
  · exact h
  · exact portUsed_set h rfl

section NewConnection

variable {localPort q : UInt16} {remoteAddr : Addr} {remotePort : UInt16} {now : Nat}

theorem newConnection_eq (pm : PortManager) :
    ∃ bitmap, (pm.newConnection localPort remoteAddr remotePort now).2 = { pm with
      objects := pm.objects ++ [pm.fresh localPort remoteAddr remotePort now]
      nextConnID := if pm.nextConnID + 1 = 0 then 1 else pm.nextConnID + 1
      connections := pm.connections.insert pm.nextConnID pm.objects.length
      ephBitmap := bitmap } := markEphPortUsed_eq _ localPort

theorem newConnection_connections :
    (pm.newConnection localPort remoteAddr remotePort now).2.connections =
      pm.connections.insert pm.nextConnID pm.objects.length := by
  obtain ⟨bitmap, h⟩ := newConnection_eq pm
  rw [h]

theorem newConnection_objects : (pm.newConnection localPort remoteAddr remotePort now).2.objects =
      pm.objects ++ [pm.fresh localPort remoteAddr remotePort now] := by
  obtain ⟨bitmap, h⟩ := newConnection_eq pm
  rw [h]

theorem newConnection_conn : (pm.newConnection localPort remoteAddr remotePort now).2.conn
    pm.objects.length = some (pm.fresh localPort remoteAddr remotePort now) := by
  rw [conn, newConnection_objects, List.getElem?_concat_length]

theorem newConnection_conn_of_some {ref : Nat} {c : Conn} (h : pm.conn ref = some c) :
    (pm.newConnection localPort remoteAddr remotePort now).2.conn ref = some c := by
  unfold conn at h ⊢
  rw [newConnection_objects, List.getElem?_append_left (List.getElem?_eq_some_iff.mp h).1, h]

theorem newConnection_portUsed (h : pm.portUsed q = true) :
    (pm.newConnection localPort remoteAddr remotePort now).2.portUsed q = true :=
  markEphPortUsed_portUsed h

end NewConnection

theorem findConnection_eq {ref : Nat} {c : Conn} (hlisted : (ref, c) ∈ pm.listed)
    (halone : ∀ e ∈ pm.listed, e.2.localPort = c.localPort → e.1 = ref) :
    pm.findConnection c.localPort c.remoteAddr c.remotePort = some ref := by
  unfold findConnection
  dsimp only
  split
  next e hfind =>
    have hmem := List.mem_filter.mp (List.mem_of_find?_eq_some hfind)
    simp only [Bool.and_eq_true, decide_eq_true_eq] at hmem
    rw [halone e hmem.1 hmem.2.1.1]
  next hnone =>
    cases hlast : (pm.listed.filter fun e =>
        decide (e.2.localPort = c.localPort) && decide (e.2.remoteAddr = c.remoteAddr) &&
          decide (e.2.remotePort = c.remotePort)).getLast? with
    | none =>
      have hempty := List.getLast?_eq_none_iff.mp hlast
      rw [List.filter_eq_nil_iff] at hempty
      exact absurd (by simp) (hempty _ hlisted)
    | some e =>
      have hmem := List.mem_filter.mp (List.mem_of_getLast? hlast)
      simp only [Bool.and_eq_true, decide_eq_true_eq] at hmem
      rw [Option.map_some, halone e hmem.1 hmem.2.1.1]

theorem findConnection_listed {localPort remotePort : UInt16} {remoteAddr : Addr} {ref : Nat}
    (h : pm.findConnection localPort remoteAddr remotePort = some ref) :
    ∃ c, (ref, c) ∈ pm.listed := by
  unfold findConnection at h
  dsimp only at h
  split at h
  next e hfind =>
    cases h
    exact ⟨e.2, (List.mem_filter.mp (List.mem_of_find?_eq_some hfind)).1⟩
  next hnone =>
    obtain ⟨e, hlast, rfl⟩ := Option.map_eq_some_iff.mp h
    exact ⟨e.2, (List.mem_filter.mp (List.mem_of_getLast? hlast)).1⟩

end PortManager

end PilotProtocol.Ports
