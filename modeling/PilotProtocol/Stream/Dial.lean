import PilotProtocol.Library.Run
import PilotProtocol.Stream.Ports

/-! # Dialing and the idle sweep

`dialConnectionLocked` cut where other goroutines can run, next to the packets that
arrive for it and the sweep that reaps stale connections. A sweep first collects its
connections and then removes them one after another.
-/

namespace PilotProtocol.Dial

open Library Ports
open PilotProtocol.Stream (ConnState Seq)
open PortManager

def millisecond : Nat := 1000000

def dialDirectRetries : Nat := 3
def dialMaxRetries : Nat := 7
def dialInitialRTO : Nat := 250 * millisecond
def dialMaxRTO : Nat := 8 * second
def dialKeyExchangeWait : Nat := 10 * second

inductive DialErr
  | context
  | policy
  | tunnel
  | ephemeralExhausted
  | sendSYN
  | connRefused
  | dialTimeout
  | dialKeyExchange
  deriving DecidableEq

inductive Effect
  | noteOutboundContact
  | sendSYN
  | setRelayPeer (relay : Bool)
  | forgetPeerResolution
  deriving DecidableEq

inductive SendErr
  | pendingDropped
  | other
  deriving DecidableEq

structure Config where
  /-- `TransportMode` is "compat". -/
  compat : Bool
  /-- `BeaconAddr` is set. -/
  hasBeacon : Bool

structure Answers where
  now : Nat
  ctxErr : Bool := false
  portAllowed : Bool := true
  tunnelErr : Bool := false
  isRelayPeer : Bool := false
  isRelayPinned : Bool := false
  sendErr : Option SendErr := none
  /-- The answers of `keyPending`, in the order in which the section asks. -/
  keyPending : Nat → Bool := fun _ => false
  keyArrivedViaRelayOnly : Bool := false

structure Vars where
  conn : Nat
  keyWaitUntil : Nat
  synQueued : Bool
  retries : Nat
  directRetries : Nat
  relayActive : Bool
  relayActivatedHere : Bool
  rto : Nat
  timerAt : Nat
  deriving DecidableEq

inductive DialAt
  | start
  | allocated (localPort : UInt16)
  /-- `NewConnection` has returned. -/
  | created (conn : Nat)
  /-- The connection is SYN_SENT. -/
  | opened (conn : Nat)
  | waiting (v : Vars)
  | returned (result : Except DialErr Nat)
  deriving DecidableEq

/-- The arms of the loop's `select`; `poll` is `conn.DialCh` and the check ticker. -/
inductive Arm
  | ctxDone
  | poll
  | timer
  deriving DecidableEq

def DialAt.conn : DialAt → Option Nat
  | .created conn | .opened conn => some conn
  | .waiting v => some v.conn
  | _ => none

inductive PacketKind
  | synAck (seq : Seq)
  | fin
  | rst
  deriving DecidableEq

structure Packet where
  kind : PacketKind
  dstPort : UInt16
  src : Addr
  srcPort : UInt16
  deriving DecidableEq

def DialAt.isCreated : DialAt → Bool
  | .created _ => true
  | _ => false

structure State where
  ports : PortManager
  dial : DialAt
  dstAddr : Addr
  dstPort : UInt16
  /-- The IDs that a running sweep has collected and not yet removed. -/
  sweeping : List UInt32
  effects : List Effect

namespace State

variable (cfg : Config) (s : State)

def return_ (result : Except DialErr Nat) : State := { s with dial := .returned result }

def emit (e : Effect) : State := { s with effects := s.effects ++ [e] }

def emitIf (b : Bool) (e : Effect) : State := if b then s.emit e else s

def removeConn (ref : Nat) : State :=
  match s.ports.conn ref with
  | none => s
  | some c => { s with ports := s.ports.removeConnection c.id }

/-! ## The dial -/

def begin (a : Answers) : State :=
  if a.ctxErr then s.return_ (.error .context)
  else if !a.portAllowed then s.return_ (.error .policy)
  else if a.tunnelErr then s.return_ (.error .tunnel)
  else
    let s := (s.emit .noteOutboundContact).emitIf (cfg.compat && !a.isRelayPeer) (.setRelayPeer true)
    match s.ports.allocEphemeralPort with
    | (none, _) => s.return_ (.error .ephemeralExhausted)
    | (some port, ports) => { s with ports, dial := .allocated port }

def sendSYN (s : State) (ref : Nat) (a : Answers) : State :=
  match a.sendErr with
  | some .other => (s.removeConn ref).return_ (.error .sendSYN)
  | sent =>
    { s.emit .sendSYN with
      ports := s.ports.modifyConn ref fun c => { c with sendSeq := c.sendSeq + 1 }
      dial := .waiting
        { conn := ref
          keyWaitUntil := a.now + dialKeyExchangeWait
          synQueued := sent.isNone && a.keyPending 0
          retries := 0
          directRetries := if a.isRelayPeer && a.isRelayPinned then 0 else dialDirectRetries
          relayActive := a.isRelayPeer
          relayActivatedHere := false
          rto := dialInitialRTO
          timerAt := a.now + dialInitialRTO } }

def poll (v : Vars) : State :=
  match (s.ports.conn v.conn).map Conn.state with
  | some .established | some .finWait | some .timeWait => s.return_ (.ok v.conn)
  | some .closed => (s.removeConn v.conn).return_ (.error .connRefused)
  | _ => s

/-- A dial that gives up drops the relay flag that it has set itself. -/
def dropRelayFlip (v : Vars) (a : Answers) : State :=
  s.emitIf (v.relayActivatedHere && !a.isRelayPinned) (.setRelayPeer false)

/-- The relay flips of one timer tick, and the retry it counts. -/
def countRetry (v : Vars) (a : Answers) (pending : Bool) : Vars × Bool :=
  let early := !pending && !v.relayActive && decide (v.retries < v.directRetries) && cfg.hasBeacon &&
    a.keyArrivedViaRelayOnly
  let v := if early then
      { v with
        relayActive := true, relayActivatedHere := true, directRetries := 0, rto := dialInitialRTO }
    else v
  let v := { v with retries := v.retries + 1 }
  let late := decide (v.retries = v.directRetries) && cfg.hasBeacon && !v.relayActive
  let v := if late then
      { v with relayActive := true, relayActivatedHere := true, rto := dialInitialRTO }
    else v
  (v, early || late)

def timer (v : Vars) (a : Answers) : State :=
  let pending := a.keyPending 0
  if pending && decide (a.now < v.keyWaitUntil) then
    { s.emitIf (!v.synQueued) .sendSYN with
      dial := .waiting
        { v with synQueued := v.synQueued || a.sendErr.isNone, timerAt := a.now + v.rto } }
  else
    let (v, flipped) := countRetry cfg v a pending
    let s := s.emitIf flipped (.setRelayPeer true)
    if dialMaxRetries < v.retries then
      (((s.removeConn v.conn).emit .forgetPeerResolution).dropRelayFlip v a).return_
        (.error (if a.keyPending 1 then .dialKeyExchange else .dialTimeout))
    else
      let resend := !a.keyPending 1 || !v.synQueued
      let rto := min (v.rto * 2) dialMaxRTO
      { s.emitIf resend .sendSYN with
        dial := .waiting
          { v with
            synQueued := if resend then a.sendErr.isNone && a.keyPending 2 else v.synQueued
            rto, timerAt := a.now + rto } }

/-- The next section of the dial; `arm` is the arm that the loop's `select` takes. -/
def dialConnectionLocked (arm : Arm) (a : Answers) : State :=
  match s.dial with
  | .start => s.begin cfg a
  | .allocated port =>
    let (ref, ports) := s.ports.newConnection port s.dstAddr s.dstPort a.now
    { s with ports, dial := .created ref }
  | .created ref =>
    { s with
      ports := s.ports.modifyConn ref fun c => { c with state := .synSent }
      dial := .opened ref }
  | .opened ref => s.sendSYN ref a
  | .waiting v =>
    match arm with
    | .ctxDone => ((s.removeConn v.conn).dropRelayFlip v a).return_ (.error .context)
    | .poll => s.poll v
    | .timer => if v.timerAt ≤ a.now then s.timer cfg v a else s
  | .returned _ => s

/-! ## Packets and sweeps -/

def handleStreamPacket (pkt : Packet) (now : Nat) : State :=
  match s.ports.findConnection pkt.dstPort pkt.src pkt.srcPort with
  | none => s
  | some ref =>
    match pkt.kind with
    | .synAck seq =>
      { s with
        ports := s.ports.modifyConn ref fun c =>
          if c.state = .synSent then { c with state := .established, recvAck := seq + 1 } else c }
    | .fin =>
      { s with
        ports := s.ports.modifyConn ref fun c =>
          { c with
            state := .timeWait
            lastActivity := if c.state = .timeWait then c.lastActivity else now
            keepaliveUnacked := 0 } }
    | .rst =>
      { s with ports := s.ports.modifyConn ref fun c => { c with state := .closed } }.removeConn ref

/-- The stale connections of an idle sweep; the ticker does not start one in another. -/
def sweep (now timeWaitDur : Nat) : State :=
  if s.sweeping.isEmpty then
    { s with sweeping := (s.ports.staleConnections now timeWaitDur).map Conn.id }
  else s

def sweepRemove : State :=
  match s.sweeping with
  | [] => s
  | id :: rest => { s with ports := s.ports.removeConnection id, sweeping := rest }

def closeConnection (ref now : Nat) : State :=
  { s with
    ports := s.ports.modifyConn ref fun c =>
      if c.state = .established then
        { c with state := .finWait, sendSeq := c.sendSeq + 1, lastActivity := now }
      else c }

end State

inductive Op
  | dial (arm : Arm) (a : Answers)
  | packet (pkt : Packet) (now : Nat)
  | sweep (now timeWaitDur : Nat)
  | sweepRemove
  | closeConnection (ref now : Nat)

def State.step (cfg : Config) (s : State) : Op → State
  | .dial arm a => s.dialConnectionLocked cfg arm a
  | .packet pkt now => s.handleStreamPacket pkt now
  | .sweep now timeWaitDur => s.sweep now timeWaitDur
  | .sweepRemove => s.sweepRemove
  | .closeConnection ref now => s.closeConnection ref now

/-! ## What is asked of a run -/

/-- No sweep collects stale connections between `NewConnection` and SYN_SENT, or when more
than `SynSentReapDuration` or the time-wait duration has passed since the last activity
of the dial's connection; no RST arrives before the connection is SYN_SENT. -/
def Careful (s : State) : Op → Prop
  | .packet pkt _ => pkt.kind = .rst → s.dial.isCreated = false
  | .sweep now timeWaitDur =>
    s.dial.isCreated = false ∧
    ∀ ref ∈ s.dial.conn, ∀ c ∈ s.ports.conn ref,
      now ≤ c.lastActivity + synSentReapDuration ∧ now ≤ c.lastActivity + timeWaitDur
  | _ => True

instance (s : State) (op : Op) : Decidable (Careful s op) := by
  cases op <;> dsimp only [Careful] <;> infer_instance

def OwnIDs (pm : PortManager) : Prop :=
  ∀ id ref, pm.connections.lookup id = some ref → ∃ c, pm.conn ref = some c ∧ c.id = id

/-- An ephemeral port of a connection in the table is marked, and no other connection in
the table has it. -/
def PortsHeld (pm : PortManager) : Prop :=
  ∀ e ∈ pm.listed, ∀ i ∈ ephBitIndex e.2.localPort, pm.portUsed e.2.localPort = true ∧
    ∀ e' ∈ pm.listed, e'.2.localPort = e.2.localPort → e'.1 = e.1

/-- The next connection ID is not in use, nor about to be removed. -/
def Unused (pm : PortManager) (sweeping : List UInt32) : Prop :=
  pm.connections.lookup pm.nextConnID = none ∧ pm.nextConnID ∉ sweeping

structure Ready (s : State) : Prop where
  start : s.dial = .start
  ids : OwnIDs s.ports
  held : PortsHeld s.ports
  unused : Unused s.ports s.sweeping

/-- The connection is in the table, and its local port is marked as used. -/
def InTable (pm : PortManager) (ref : Nat) : Prop :=
  ∃ c, pm.conn ref = some c ∧ pm.connections.lookup c.id = some ref ∧
    pm.portUsed c.localPort = true

/-! ## Careful runs -/

/-- The table entry of the dial's connection, and who else could disturb it. -/
structure Holds (pm : PortManager) (sweeping : List UInt32) (ref : Nat) (c : Conn) : Prop where
  entry : pm.connections.lookup c.id = some ref
  used : pm.portUsed c.localPort = true
  alone : ∀ e ∈ pm.listed, e.2.localPort = c.localPort → e.1 = ref
  kept : c.id ∉ sweeping

def Alive (c : Conn) : Prop :=
  c.state = .synSent ∨ c.state = .established ∨ c.state = .finWait ∨ c.state = .timeWait

/-- The connection of a running dial is held, or the peer has refused it. -/
def Running (pm : PortManager) (sweeping : List UInt32) (ref : Nat) : Prop :=
  ∃ c, pm.conn ref = some c ∧
    (Alive c ∧ Holds pm sweeping ref c ∨
      c.state = .closed ∧ ∀ id, pm.connections.lookup id ≠ some ref)

def PointInv (pm : PortManager) (sweeping : List UInt32) : DialAt → Prop
  | .start => PortsHeld pm ∧ Unused pm sweeping
  | .allocated port =>
    pm.portUsed port = true ∧ (∀ e ∈ pm.listed, e.2.localPort ≠ port) ∧ Unused pm sweeping
  | .created ref => ∃ c, pm.conn ref = some c ∧ Holds pm sweeping ref c
  | .opened ref => Running pm sweeping ref
  | .waiting v => Running pm sweeping v.conn
  | .returned _ => True

structure Inv (s : State) : Prop where
  ids : OwnIDs s.ports
  point : PointInv s.ports s.sweeping s.dial

/-- The fields by which a connection is known to the table. -/
def SameIdentity (c c' : Conn) : Prop := c'.id = c.id ∧ c'.localPort = c.localPort

/-- The table loses entries at most, connections stay who they are, and a port stays
marked as long as the connections that have it stay. -/
structure Kept (pm pm' : PortManager) : Prop where
  nextConnID : pm'.nextConnID = pm.nextConnID
  entries : ∀ id ref, pm'.connections.lookup id = some ref → pm.connections.lookup id = some ref
  back : ∀ ref c', pm'.conn ref = some c' → ∃ c, pm.conn ref = some c ∧ SameIdentity c c'
  forth : ∀ ref c, pm.conn ref = some c → ∃ c', pm'.conn ref = some c' ∧ SameIdentity c c'
  used : ∀ port, pm.portUsed port = true →
    (∀ e ∈ pm.listed, e.2.localPort = port → ∃ id, pm'.connections.lookup id = some e.1) →
    pm'.portUsed port = true

theorem kept_modifyConn (pm : PortManager) (ref : Nat) {f : Conn → Conn}
    (hf : ∀ c, SameIdentity c (f c)) : Kept pm (pm.modifyConn ref f) where
  nextConnID := rfl
  entries _ _ h := h
  back j c' hc' := by
    rw [modifyConn_conn] at hc'
    split at hc'
    · obtain ⟨c, hc, rfl⟩ := Option.map_eq_some_iff.mp hc'
      exact ⟨c, hc, hf c⟩
    · exact ⟨c', hc', rfl, rfl⟩
  forth j c hc := by
    rw [modifyConn_conn, hc]
    split
    · exact ⟨f c, rfl, hf c⟩
    · exact ⟨c, rfl, rfl, rfl⟩
  used _ hused _ := hused

variable {pm : PortManager} {s : State} {ref : Nat} {v : Vars}

theorem kept_removeConnection (hids : OwnIDs pm) (id : UInt32) :
    Kept pm (pm.removeConnection id) where
  nextConnID := by
    obtain ⟨bitmap, h⟩ := removeConnection_eq pm id
    rw [h]
  entries j ref h := by
    rw [removeConnection_lookup] at h
    split at h
    · cases h
    · exact h
  back ref c' hc' := by
    rw [removeConnection_conn] at hc'
    exact ⟨c', hc', rfl, rfl⟩
  forth ref c hc := by
    rw [removeConnection_conn]
    exact ⟨c, hc, rfl, rfl⟩
  used port hused hstay := by
    rw [removeConnection_portUsed, hused]
    intro ref c hentry hc hport
    -- The removed connection would have to stay under the ID that it is removed from.
    obtain ⟨j, hj⟩ := hstay (ref, c) (mem_listed.mpr ⟨id, hentry, hc⟩) hport
    rw [removeConnection_lookup] at hj
    split at hj
    · cases hj
    next hne =>
      obtain ⟨d, hd, hdid⟩ := hids j ref hj
      obtain ⟨e, he, heid⟩ := hids id ref hentry
      rw [hd] at he
      cases he
      exact hne (hdid.symm.trans heid)

section Kept

variable {pm pm' : PortManager} {sweeping sweeping' : List UInt32}

theorem Kept.listed (h : Kept pm pm') {e : Nat × Conn} (he : e ∈ pm'.listed) :
    ∃ c, (e.1, c) ∈ pm.listed ∧ SameIdentity c e.2 := by
  obtain ⟨id, hid, hc'⟩ := mem_listed.mp he
  obtain ⟨c, hc, hsame⟩ := h.back e.1 e.2 hc'
  exact ⟨c, mem_listed.mpr ⟨id, h.entries id e.1 hid, hc⟩, hsame⟩

theorem Kept.ids (h : Kept pm pm') (hids : OwnIDs pm) : OwnIDs pm' := by
  intro id ref hid
  obtain ⟨c, hc, hcid⟩ := hids id ref (h.entries id ref hid)
  obtain ⟨c', hc', hsame⟩ := h.forth ref c hc
  exact ⟨c', hc', hsame.1.trans hcid⟩

theorem Kept.portsHeld (h : Kept pm pm') (hheld : PortsHeld pm) : PortsHeld pm' := by
  intro e' he' i hi
  obtain ⟨c, hc, hsame⟩ := h.listed he'
  rw [hsame.2] at hi ⊢
  obtain ⟨hused, halone⟩ := hheld (e'.1, c) hc i hi
  refine ⟨h.used _ hused fun e he hport => ?_, fun e he hport => ?_⟩
  · rw [halone e he hport]
    obtain ⟨id, hid, -⟩ := mem_listed.mp he'
    exact ⟨id, hid⟩
  · obtain ⟨d, hd, hdsame⟩ := h.listed he
    exact halone (e.1, d) hd (hdsame.2.symm.trans hport)

theorem Kept.unused (h : Kept pm pm') (hsweeping : ∀ id ∈ sweeping', id ∈ sweeping)
    (hunused : Unused pm sweeping) : Unused pm' sweeping' := by
  rw [Unused, h.nextConnID]
  refine ⟨?_, fun hmem => hunused.2 (hsweeping _ hmem)⟩
  cases hlookup : pm'.connections.lookup pm.nextConnID with
  | none => rfl
  | some ref =>
    have hbefore := h.entries _ _ hlookup
    simp [hunused.1] at hbefore

theorem Kept.holds {ref : Nat} {c c' : Conn} (h : Kept pm pm')
    (hsweeping : ∀ id ∈ sweeping', id ∈ sweeping) (hsame : SameIdentity c c')
    (hentry : pm'.connections.lookup c.id = some ref) (hholds : Holds pm sweeping ref c) :
    Holds pm' sweeping' ref c' where
  entry := by rw [hsame.1, hentry]
  used := by
    rw [hsame.2]
    refine h.used _ hholds.used fun e he hport => ?_
    rw [hholds.alone e he hport]
    exact ⟨c.id, hentry⟩
  alone e he hport := by
    obtain ⟨d, hd, hdsame⟩ := h.listed he
    exact hholds.alone (e.1, d) hd (hdsame.2.symm.trans (hport.trans hsame.2))
  kept hmem := by
    rw [hsame.1] at hmem
    exact hholds.kept (hsweeping _ hmem)

/-- A change that leaves the dial's connection where it is. -/
structure Spares (pm pm' : PortManager) (sweeping : List UInt32) (ref : Nat) (c c' : Conn) :
    Prop where
  entry : Holds pm sweeping ref c → pm'.connections.lookup c.id = some ref
  alive : Alive c → Alive c'
  closed : c.state = .closed → (∀ id, pm.connections.lookup id ≠ some ref) → c'.state = .closed

theorem Kept.pointInv (h : Kept pm pm') (hsweeping : ∀ id ∈ sweeping', id ∈ sweeping)
    {point : DialAt} (hspares : ∀ ref ∈ point.conn, ∀ c c', pm.conn ref = some c →
      pm'.conn ref = some c' → Spares pm pm' sweeping ref c c')
    (hpoint : PointInv pm sweeping point) : PointInv pm' sweeping' point := by
  have hrunning : ∀ ref ∈ point.conn, Running pm sweeping ref → Running pm' sweeping' ref := by
    rintro ref href ⟨c, hc, hcase⟩
    obtain ⟨c', hc', hsame⟩ := h.forth ref c hc
    have hspare := hspares ref href c c' hc hc'
    refine ⟨c', hc', ?_⟩
    rcases hcase with ⟨hlive, hholds⟩ | ⟨hstate, hgone⟩
    · exact .inl ⟨hspare.alive hlive, h.holds hsweeping hsame (hspare.entry hholds) hholds⟩
    · exact .inr ⟨hspare.closed hstate hgone, fun id hid => hgone id (h.entries id ref hid)⟩
  cases point with
  | start => exact ⟨h.portsHeld hpoint.1, h.unused hsweeping hpoint.2⟩
  | allocated port =>
    obtain ⟨hused, hfree, hunused⟩ := hpoint
    refine ⟨h.used port hused fun e he hport => absurd hport (hfree e he), fun e he hport => ?_,
      h.unused hsweeping hunused⟩
    obtain ⟨d, hd, hsame⟩ := h.listed he
    exact hfree _ hd (hsame.2.symm.trans hport)
  | created ref =>
    obtain ⟨c, hc, hholds⟩ := hpoint
    obtain ⟨c', hc', hsame⟩ := h.forth ref c hc
    have hspare := hspares ref rfl c c' hc hc'
    exact ⟨c', hc', h.holds hsweeping hsame (hspare.entry hholds) hholds⟩
  | opened ref => exact hrunning ref rfl hpoint
  | waiting v => exact hrunning v.conn rfl hpoint
  | returned result => trivial

end Kept

/-! ### Packets and sweeps -/

section Others

variable {s : State}

variable {pm : PortManager} {now timeWaitDur : Nat}

theorem entry_of_listed (hids : OwnIDs pm) {ref : Nat} {c : Conn} (hlisted : (ref, c) ∈ pm.listed) :
    pm.connections.lookup c.id = some ref := by
  obtain ⟨id, hid, hc⟩ := mem_listed.mp hlisted
  obtain ⟨d, hd, hdid⟩ := hids id ref hid
  rw [show pm.conn ref = some c from hc] at hd
  cases hd
  rwa [hdid]

theorem Inv.modifyConn (h : Inv s) (r : Nat) {f : Conn → Conn} (hf : ∀ c, SameIdentity c (f c))
    (halive : s.dial.conn = some r → ∀ c, Alive c → Alive (f c))
    (hclosed : (∃ d, (r, d) ∈ s.ports.listed) ∨ ∀ c, c.state = .closed → (f c).state = .closed) :
    Inv { s with ports := s.ports.modifyConn r f } := by
  have hkept := kept_modifyConn s.ports r hf
  refine ⟨hkept.ids h.ids, hkept.pointInv (fun _ hid => hid) (fun ref hdial c c' hc hc' => ?_)
    h.point⟩
  rw [modifyConn_conn, hc] at hc'
  split at hc'
  next href =>
    cases hc'
    refine ⟨fun hholds => hholds.entry, halive (href ▸ hdial) c, fun hstate hgone => ?_⟩
    rcases hclosed with ⟨d, hd⟩ | hstays
    · exact absurd (entry_of_listed h.ids hd) (href ▸ hgone d.id)
    · exact hstays c hstate
  · cases hc'
    exact ⟨fun hholds => hholds.entry, fun hlive => hlive, fun hstate _ => hstate⟩

theorem Inv.removeConnection (h : Inv s) {id : UInt32} {sweeping : List UInt32}
    (hsweeping : ∀ j ∈ sweeping, j ∈ s.sweeping)
    (hother : ∀ ref ∈ s.dial.conn, ∀ c, s.ports.conn ref = some c →
      Holds s.ports s.sweeping ref c → c.id ≠ id) :
    Inv { s with ports := s.ports.removeConnection id, sweeping := sweeping } := by
  have hkept := kept_removeConnection h.ids id
  refine ⟨hkept.ids h.ids, hkept.pointInv hsweeping (fun ref href c c' hc hc' => ?_) h.point⟩
  rw [removeConnection_conn, hc] at hc'
  cases hc'
  refine ⟨fun hholds => ?_, fun hlive => hlive, fun hstate _ => hstate⟩
  rw [removeConnection_lookup, if_neg (hother ref href c hc hholds), hholds.entry]

theorem Inv.sweepRemove (h : Inv s) : Inv s.sweepRemove := by
  unfold State.sweepRemove
  cases hsweeping : s.sweeping with
  | nil => exact h
  | cons id rest =>
    refine h.removeConnection (fun j hj => hsweeping ▸ List.mem_cons_of_mem id hj)
      fun ref _ c _ hholds hid => hholds.kept ?_
    rw [hsweeping, hid]
    exact .head _

theorem mem_staleConnections {id : UInt32}
    (h : id ∈ (pm.staleConnections now timeWaitDur).map Conn.id) :
    ∃ e ∈ pm.listed, e.2.stale now timeWaitDur = true ∧ e.2.id = id := by
  simp only [PortManager.staleConnections, List.mem_map, List.mem_filter] at h
  obtain ⟨c, ⟨e, ⟨he, hstale⟩, rfl⟩, hid⟩ := h
  exact ⟨e, he, hstale, hid⟩

theorem Alive.not_stale {c : Conn} (h : Alive c) (hsyn : now ≤ c.lastActivity + synSentReapDuration)
    (hwait : now ≤ c.lastActivity + timeWaitDur) : c.stale now timeWaitDur = false := by
  unfold Conn.stale
  rcases h with h | h | h | h <;> rw [h]
  all_goals exact decide_eq_false (by omega)

theorem Inv.sweep (h : Inv s) (hcareful : Careful s (.sweep now timeWaitDur)) :
    Inv (s.sweep now timeWaitDur) := by
  unfold State.sweep
  split
  case isFalse => exact h
  case isTrue =>
    have hunused : Unused s.ports s.sweeping →
        Unused s.ports ((s.ports.staleConnections now timeWaitDur).map Conn.id) := by
      refine fun hunused => ⟨hunused.1, fun hmem => ?_⟩
      obtain ⟨e, he, -, hid⟩ := mem_staleConnections hmem
      have hentry := entry_of_listed h.ids he
      rw [hid, hunused.1] at hentry
      cases hentry
    have hrunning : ∀ ref ∈ s.dial.conn, Running s.ports s.sweeping ref →
        Running s.ports ((s.ports.staleConnections now timeWaitDur).map Conn.id) ref := by
      rintro ref href ⟨c, hc, ⟨hlive, hholds⟩ | hrefused⟩
      · refine ⟨c, hc, .inl ⟨hlive, { hholds with kept := fun hmem => ?_ }⟩⟩
        obtain ⟨⟨r, d⟩, he, hstale, hid⟩ := mem_staleConnections hmem
        have hentry := entry_of_listed h.ids he
        obtain ⟨-, -, hd⟩ := mem_listed.mp he
        rw [show d.id = c.id from hid, hholds.entry, Option.some.injEq] at hentry
        rw [← show ref = r from hentry] at hd
        have hsame : d = c := Option.some.inj (hd.symm.trans hc)
        obtain ⟨hsyn, hwait⟩ := hcareful.2 ref href c hc
        have hfresh := hlive.not_stale hsyn hwait
        rw [← hsame, show d.stale now timeWaitDur = true from hstale] at hfresh
        cases hfresh
      · exact ⟨c, hc, .inr hrefused⟩
    refine ⟨h.ids, ?_⟩
    have hpoint := h.point
    have hcreated := hcareful.1
    cases hdial : s.dial <;> rw [hdial] at hpoint hrunning hcreated
    case start => exact ⟨hpoint.1, hunused hpoint.2⟩
    case allocated => exact ⟨hpoint.1, hpoint.2.1, hunused hpoint.2.2⟩
    case created => cases hcreated
    case opened ref => exact hrunning ref rfl hpoint
    case waiting v => exact hrunning v.conn rfl hpoint
    case returned => trivial

theorem running_of_refused (hids : OwnIDs pm) (sweeping : List UInt32) {r : Nat} {d : Conn}
    (hlisted : (r, d) ∈ pm.listed) :
    Running ((pm.modifyConn r fun c => { c with state := .closed }).removeConnection d.id)
      sweeping r := by
  obtain ⟨-, -, hd⟩ := mem_listed.mp hlisted
  refine ⟨{ d with state := .closed }, ?_, .inr ⟨rfl, fun id hid => ?_⟩⟩
  · rw [removeConnection_conn, modifyConn_conn, if_pos rfl,
      show pm.conn r = some d from hd]
    rfl
  · rw [removeConnection_lookup] at hid
    split at hid
    · cases hid
    next hne =>
      obtain ⟨e, he, heid⟩ := hids id r hid
      have hsame : d = e := Option.some.inj (hd.symm.trans he)
      exact hne (hsame ▸ heid.symm)

theorem Inv.refuse (h : Inv s) {r : Nat} {d : Conn} (hlisted : (r, d) ∈ s.ports.listed)
    (hcreated : s.dial.isCreated = false) : Inv { s with
      ports := (s.ports.modifyConn r fun c => { c with state := .closed }).removeConnection d.id } := by
  by_cases hr : s.dial.conn = some r
  · have hmodify := kept_modifyConn s.ports r fun c => (⟨rfl, rfl⟩ : SameIdentity c
      { c with state := .closed })
    have hremove := kept_removeConnection (hmodify.ids h.ids) d.id
    refine ⟨hremove.ids (hmodify.ids h.ids), ?_⟩
    have hrefused := running_of_refused h.ids s.sweeping hlisted
    cases hdial : s.dial <;> rw [hdial] at hr hcreated
    case created => cases hcreated
    all_goals cases hr
    all_goals exact hrefused
  · have hmodified := h.modifyConn r (f := fun c => { c with state := .closed })
      (fun _ => ⟨rfl, rfl⟩) (fun hdial => absurd hdial hr) (.inr fun _ _ => rfl)
    refine hmodified.removeConnection (fun _ hj => hj) fun ref href c _ hholds hid => hr ?_
    have hentry := entry_of_listed h.ids hlisted
    have hmine : s.ports.connections.lookup c.id = some ref := hholds.entry
    rw [hid, hentry] at hmine
    rwa [Option.some.inj hmine]

theorem Inv.packet (h : Inv s) {pkt : Packet} (hcareful : Careful s (.packet pkt now)) :
    Inv (s.handleStreamPacket pkt now) := by
  unfold State.handleStreamPacket
  split
  · exact h
  next r hfind =>
    obtain ⟨d, hlisted⟩ := findConnection_listed hfind
    cases hkind : pkt.kind with
    | synAck seq =>
      refine h.modifyConn r (fun c => ?_) (fun _ c hlive => ?_) (.inl ⟨d, hlisted⟩)
      · split <;> exact ⟨rfl, rfl⟩
      · split
        · exact .inr (.inl rfl)
        · exact hlive
    | fin =>
      exact h.modifyConn r (fun c => ⟨rfl, rfl⟩) (fun _ c _ => .inr (.inr (.inr rfl)))
        (.inl ⟨d, hlisted⟩)
    | rst =>
      obtain ⟨-, -, hd⟩ := mem_listed.mp hlisted
      unfold State.removeConn
      simp only [modifyConn_conn, if_true, show s.ports.conn r = some d from hd,
        Option.map_some]
      exact h.refuse hlisted (hcareful hkind)

theorem Inv.closeConnection (h : Inv s) (r now : Nat) : Inv (s.closeConnection r now) := by
  refine h.modifyConn r (fun c => ?_) (fun _ c hlive => ?_) (.inr fun c hstate => ?_)
  · split <;> exact ⟨rfl, rfl⟩
  · split
    · exact .inr (.inr (.inl rfl))
    · exact hlive
  · rw [if_neg (by rw [hstate]; decide)]
    exact hstate

end Others

/-! ### The dial's own sections -/

@[simp] theorem emit_ports (s : State) (e : Effect) : (s.emit e).ports = s.ports := rfl
@[simp] theorem emit_sweeping (s : State) (e : Effect) : (s.emit e).sweeping = s.sweeping := rfl

@[simp] theorem emitIf_ports (s : State) (b : Bool) (e : Effect) :
    (s.emitIf b e).ports = s.ports := by
  unfold State.emitIf
  split <;> rfl

@[simp] theorem emitIf_sweeping (s : State) (b : Bool) (e : Effect) :
    (s.emitIf b e).sweeping = s.sweeping := by
  unfold State.emitIf
  split <;> rfl

theorem removeConn_ids (h : OwnIDs s.ports) (ref : Nat) : OwnIDs (s.removeConn ref).ports := by
  unfold State.removeConn
  split
  · exact h
  · exact (kept_removeConnection h _).ids h

theorem Inv.return_ (h : OwnIDs s.ports) (result : Except DialErr Nat) :
    Inv (s.return_ result) := ⟨h, trivial⟩

theorem Inv.begin (h : Inv s) (hdial : s.dial = .start) (cfg : Config) (a : Answers) :
    Inv (s.begin cfg a) := by
  obtain ⟨hheld, hunused⟩ : PortsHeld s.ports ∧ Unused s.ports s.sweeping := by
    have hpoint := h.point
    rwa [hdial] at hpoint
  unfold State.begin
  split_ifs
  · exact Inv.return_ h.ids _
  · exact Inv.return_ h.ids _
  · exact Inv.return_ h.ids _
  simp only [emitIf_ports, emit_ports]
  split
  · exact Inv.return_ (by simpa using h.ids) _
  next port ports halloc =>
    obtain ⟨hfree, hused, -, bitmap, next, rfl⟩ := allocEphemeralPort_some halloc
    refine ⟨h.ids, hused, fun e he hport => ?_, ?_⟩
    · cases hindex : ephBitIndex e.2.localPort with
      | none => simp [PortManager.portUsed, ← hport, hindex] at hused
      | some i => simp [← hport, (hheld e he i hindex).1] at hfree
    · rwa [emitIf_sweeping, emit_sweeping]

theorem holds_newConnection {sweeping : List UInt32} {port : UInt16} (hids : OwnIDs pm)
    (hpoint : PointInv pm sweeping (.allocated port)) (addr : Addr) (remotePort : UInt16)
    (now : Nat) : OwnIDs (pm.newConnection port addr remotePort now).2 ∧
      PointInv (pm.newConnection port addr remotePort now).2 sweeping
        (.created (pm.newConnection port addr remotePort now).1) := by
  obtain ⟨hused, hfree, -, hkept⟩ := hpoint
  have hstillUsed : (pm.newConnection port addr remotePort now).2.portUsed port = true :=
    newConnection_portUsed hused
  have hlookup : ∀ id, (pm.newConnection port addr remotePort now).2.connections.lookup id =
      if id = pm.nextConnID then some pm.objects.length else pm.connections.lookup id := fun id => by
    rw [newConnection_connections, GoMap.lookup_insert_ite]
  have hconn : ∀ ref c, pm.conn ref = some c →
      (pm.newConnection port addr remotePort now).2.conn ref = some c := fun ref c hc => by
    rw [newConnection_conn_of_some hc]
  have hnew : (pm.newConnection port addr remotePort now).2.conn pm.objects.length =
      some (pm.fresh port addr remotePort now) := newConnection_conn
  refine ⟨fun id ref hid => ?_, pm.fresh port addr remotePort now, hnew, ?_, hstillUsed, ?_, hkept⟩
  · rw [hlookup] at hid
    split at hid
    next hsame =>
      cases hid
      exact ⟨_, hnew, hsame.symm⟩
    · obtain ⟨c, hc, hcid⟩ := hids id ref hid
      exact ⟨c, hconn ref c hc, hcid⟩
  · exact (hlookup _).trans (if_pos rfl)
  · intro e he hport
    obtain ⟨id, hid, hc⟩ := mem_listed.mp he
    rw [hlookup] at hid
    split at hid
    · exact (Option.some.inj hid).symm
    · obtain ⟨c, hold, -⟩ := hids id e.1 hid
      have hsame : e.2 = c := Option.some.inj (hc.symm.trans (hconn e.1 c hold))
      rw [← hsame] at hold
      exact absurd hport (hfree e (mem_listed.mpr ⟨id, hid, hold⟩))

theorem Inv.open_ (h : Inv s) (hdial : s.dial = .created ref) : Inv { s with
      ports := s.ports.modifyConn ref fun c => { c with state := .synSent }
      dial := .opened ref } := by
  have hkept := kept_modifyConn s.ports ref fun c => (⟨rfl, rfl⟩ : SameIdentity c
    { c with state := .synSent })
  obtain ⟨c, hc, hholds⟩ : PointInv s.ports s.sweeping (.created ref) := hdial ▸ h.point
  refine ⟨hkept.ids h.ids, { c with state := .synSent }, ?_, .inl ⟨.inl rfl, ?_⟩⟩
  · rw [modifyConn_conn, if_pos rfl, hc]
    rfl
  · exact hkept.holds (c := c) (fun _ hid => hid) ⟨rfl, rfl⟩ hholds.entry hholds

theorem Inv.wait {s' : State} {v' : Vars} (h : Inv s) (hdial : s.dial = .waiting v)
    (hports : s'.ports = s.ports) (hsweeping : s'.sweeping = s.sweeping)
    (hdial' : s'.dial = .waiting v') (hconn : v'.conn = v.conn) : Inv s' := by
  have hpoint : Running s.ports s.sweeping v.conn := by
    have hpoint := h.point
    rwa [hdial] at hpoint
  refine ⟨hports ▸ h.ids, ?_⟩
  rw [hdial', hports, hsweeping]
  show Running s.ports s.sweeping v'.conn
  rwa [hconn]

theorem countRetry_conn (cfg : Config) (v : Vars) (a : Answers) (pending : Bool) :
    (State.countRetry cfg v a pending).1.conn = v.conn := by
  unfold State.countRetry
  dsimp only
  split <;> split <;> rfl

theorem Inv.timer (h : Inv s) (hdial : s.dial = .waiting v) (cfg : Config) (a : Answers) :
    Inv (s.timer cfg v a) := by
  unfold State.timer
  dsimp only
  split
  · exact h.wait hdial (emitIf_ports _ _ _) (emitIf_sweeping _ _ _) rfl rfl
  · split
    · refine Inv.return_ ?_ _
      rw [State.dropRelayFlip, emitIf_ports, emit_ports]
      exact removeConn_ids (by rw [emitIf_ports]; exact h.ids) _
    · refine h.wait hdial ?_ ?_ rfl (countRetry_conn cfg v a _)
      · simp only [emitIf_ports]
      · simp only [emitIf_sweeping]

theorem Inv.sendSYN (h : Inv s) (hdial : s.dial = .opened ref) (a : Answers) :
    Inv (s.sendSYN ref a) := by
  unfold State.sendSYN
  split
  · exact Inv.return_ (removeConn_ids h.ids ref) _
  · have hsent := h.modifyConn ref (f := fun c => { c with sendSeq := c.sendSeq + 1 })
      (fun _ => ⟨rfl, rfl⟩) (fun _ _ hlive => hlive) (.inr fun _ hstate => hstate)
    refine ⟨hsent.ids, ?_⟩
    have hpoint := hsent.point
    rwa [show ({ s with ports := _ } : State).dial = .opened ref from hdial] at hpoint

theorem Inv.poll (h : Inv s) : Inv (s.poll v) := by
  unfold State.poll
  split
  case h_4 => exact Inv.return_ (removeConn_ids h.ids _) _
  case h_5 => exact h
  all_goals exact Inv.return_ h.ids _

theorem Inv.dial (h : Inv s) (cfg : Config) (arm : Arm) (a : Answers) :
    Inv (s.dialConnectionLocked cfg arm a) := by
  unfold State.dialConnectionLocked
  cases hdial : s.dial with
  | start => exact h.begin hdial cfg a
  | allocated port =>
    have hpoint : PointInv s.ports s.sweeping (.allocated port) := hdial ▸ h.point
    obtain ⟨hids, hcreated⟩ := holds_newConnection h.ids hpoint s.dstAddr s.dstPort a.now
    exact ⟨hids, hcreated⟩
  | created ref => exact h.open_ hdial
  | opened ref => exact h.sendSYN hdial a
  | waiting v =>
    cases arm with
    | ctxDone =>
      refine Inv.return_ ?_ _
      rw [State.dropRelayFlip, emitIf_ports]
      exact removeConn_ids h.ids _
    | poll => exact h.poll
    | timer =>
      dsimp only
      split
      · exact h.timer hdial cfg a
      · exact h
  | returned result => exact h

theorem Inv.step (cfg : Config) {op : Op} (h : Inv s) (hcareful : Careful s op) :
    Inv (s.step cfg op) := by
  cases op with
  | dial arm a => exact h.dial cfg arm a
  | packet pkt now => exact h.packet hcareful
  | sweep now timeWaitDur => exact h.sweep hcareful
  | sweepRemove => exact h.sweepRemove
  | closeConnection ref now => exact h.closeConnection ref now

theorem Ready.inv (h : Ready s) : Inv s where
  ids := h.ids
  point := by
    rw [h.start]
    exact ⟨h.held, h.unused⟩

theorem Holds.inTable {sweeping : List UInt32} {c : Conn} (h : Holds pm sweeping ref c)
    (hc : pm.conn ref = some c) : InTable pm ref :=
  ⟨c, hc, h.entry, h.used⟩

theorem Inv.running (h : Inv s) (hdial : s.dial.conn = some ref)
    (hcreated : s.dial ≠ .created ref) : Running s.ports s.sweeping ref := by
  have hpoint := h.point
  cases hd : s.dial <;> rw [hd] at hdial hcreated hpoint
  all_goals cases hdial
  case created => exact absurd rfl hcreated
  all_goals exact hpoint

theorem Inv.inTable (h : Inv s) (hdial : s.dial.conn = some ref) {c : Conn}
    (hc : s.ports.conn ref = some c) (hopen : s.dial = .created ref ∨ c.state ≠ .closed) :
    ∃ sweeping, Holds s.ports sweeping ref c := by
  by_cases hcreated : s.dial = .created ref
  · have hpoint := h.point
    rw [hcreated] at hpoint
    obtain ⟨d, hd, hholds⟩ := hpoint
    cases hc.symm.trans hd
    exact ⟨s.sweeping, hholds⟩
  · obtain ⟨d, hd, hheld⟩ := h.running hdial hcreated
    cases hc.symm.trans hd
    obtain ⟨-, hholds⟩ | ⟨hstate, -⟩ := hheld
    · exact ⟨s.sweeping, hholds⟩
    · exact absurd hstate (hopen.resolve_left hcreated)

theorem poll_ok {r : Nat} (hdial : s.dial = .waiting v) (h : (s.poll v).dial = .returned (.ok r)) :
    r = v.conn ∧ s.poll v = s.return_ (.ok r) ∧ ∃ c, s.ports.conn r = some c ∧ Alive c := by
  unfold State.poll at h ⊢
  have hfound : ∀ st, (s.ports.conn v.conn).map Conn.state = some st →
      (st = .established ∨ st = .finWait ∨ st = .timeWait) →
      ∃ c, s.ports.conn v.conn = some c ∧ Alive c := by
    intro st hst hlive
    obtain ⟨c, hc, rfl⟩ := Option.map_eq_some_iff.mp hst
    exact ⟨c, hc, .inr hlive⟩
  split at h
  case h_5 => simp [hdial] at h
  all_goals cases h
  next hst => exact ⟨rfl, rfl, hfound _ hst (.inl rfl)⟩
  next hst => exact ⟨rfl, rfl, hfound _ hst (.inr (.inl rfl))⟩
  next hst => exact ⟨rfl, rfl, hfound _ hst (.inr (.inr rfl))⟩

theorem dial_ok {cfg : Config} {arm : Arm} {a : Answers} {r : Nat}
    (hrunning : ∀ result, s.dial ≠ .returned result)
    (h : (s.dialConnectionLocked cfg arm a).dial = .returned (.ok r)) :
    ∃ v, s.dial = .waiting v ∧ (s.poll v).dial = .returned (.ok r) ∧
      s.dialConnectionLocked cfg arm a = s.poll v := by
  unfold State.dialConnectionLocked at h ⊢
  cases hdial : s.dial <;> rw [hdial] at h
  case start =>
    dsimp only [State.begin] at h
    repeat' split at h
    all_goals cases h
  case allocated | created => cases h
  case opened =>
    dsimp only [State.sendSYN] at h
    split at h <;> cases h
  case waiting v =>
    cases arm with
    | ctxDone => cases h
    | poll => exact ⟨v, rfl, h, rfl⟩
    | timer =>
      dsimp only [State.timer] at h
      repeat' split at h
      all_goals first | cases h | (rw [hdial] at h; cases h)
  case returned result => exact absurd hdial (hrunning result)

/-- In a careful run the dial's connection stays in the table with its port until the dial
returns or the peer refuses it; a SYN-ACK completes the dial; and a connection that the
dial returns is in the table. -/
theorem dial_keeps_connection (cfg : Config) (s : State) (hs : Ready s) (ops : List Op)
    (hcareful : AllSteps (State.step cfg) Careful s ops) :
    let s' := ops.foldl (State.step cfg) s
    (∀ ref c, s'.dial.conn = some ref → s'.ports.conn ref = some c →
      (s'.dial = .created ref ∨ c.state ≠ .closed) → InTable s'.ports ref) ∧
    (∀ ref c seq now, s'.dial.conn = some ref → s'.ports.conn ref = some c → c.state = .synSent →
      let s'' := s'.step cfg (.packet ⟨.synAck seq, c.localPort, c.remoteAddr, c.remotePort⟩ now)
      (s''.ports.conn ref).map Conn.state = some .established ∧
      ∀ v a, s'.dial = .waiting v →
        (s''.step cfg (.dial .poll a)).dial = .returned (.ok ref)) ∧
    (∀ arm a ref, (∀ result, s'.dial ≠ .returned result) →
      (s'.step cfg (.dial arm a)).dial = .returned (.ok ref) →
      InTable (s'.step cfg (.dial arm a)).ports ref) := by
  have hinv : Inv (ops.foldl (State.step cfg) s) :=
    run_invariant Inv (fun _ _ h hok => h.step cfg hok) hs.inv hcareful
  generalize ops.foldl (State.step cfg) s = s' at hinv
  refine ⟨fun ref c hdial hc hopen => ?_, fun ref c seq now hdial hc hsyn => ?_,
    fun arm a ref hrunning hreturned => ?_⟩
  · obtain ⟨_, hholds⟩ := hinv.inTable hdial hc hopen
    exact hholds.inTable hc
  · obtain ⟨_, hholds⟩ := hinv.inTable hdial hc (.inr (by rw [hsyn]; decide))
    have hlisted : (ref, c) ∈ s'.ports.listed := mem_listed.mpr ⟨c.id, hholds.entry, hc⟩
    have hfind := findConnection_eq hlisted hholds.alone
    have hstate : ((s'.handleStreamPacket
        ⟨.synAck seq, c.localPort, c.remoteAddr, c.remotePort⟩ now).ports.conn ref).map Conn.state =
        some .established := by
      simp only [State.handleStreamPacket, hfind, modifyConn_conn, if_true, hc,
        Option.map_some, hsyn]
    refine ⟨hstate, fun v a hwaiting => ?_⟩
    have hdial' : (s'.handleStreamPacket
        ⟨.synAck seq, c.localPort, c.remoteAddr, c.remotePort⟩ now).dial = .waiting v := by
      simp only [State.handleStreamPacket, hfind, hwaiting]
    have hconn : v.conn = ref := by
      rw [hwaiting] at hdial
      exact Option.some.inj hdial
    simp only [State.step, State.dialConnectionLocked, hdial', State.poll, hconn, hstate,
      State.return_]
  · obtain ⟨v, hwaiting, hpoll, heq⟩ := dial_ok hrunning hreturned
    obtain ⟨hconn, hreturn, c, hc, hlive⟩ := poll_ok hwaiting hpoll
    have hdial : s'.dial.conn = some ref := by rw [hwaiting, hconn]; rfl
    have hopen : c.state ≠ .closed := by
      rcases hlive with h | h | h | h <;> (rw [h]; decide)
    obtain ⟨_, hholds⟩ := hinv.inTable hdial hc (.inr hopen)
    rw [show s'.step cfg (.dial arm a) = s'.return_ (.ok ref) from heq.trans hreturn]
    exact hholds.inTable hc

/-! ### Two dials -/

def noRelay : Config := ⟨false, false⟩

def idleDaemon : State where
  ports := ⟨[], ∅, Bitmap.empty, 1, portEphemeralMin⟩
  dial := .start
  dstAddr := ⟨0, 9⟩
  dstPort := 80
  sweeping := []
  effects := []

theorem idleDaemon_ready : Ready idleDaemon where
  start := rfl
  ids id ref h := by cases h
  held e he := by cases he
  unused := ⟨rfl, List.not_mem_nil⟩

/-- Ticks of the dial's timer, 250 ms apart from `start` on, and a poll after each. -/
def ticks (start count : Nat) (pending : Bool) : List Op :=
  (List.range count).flatMap fun n =>
    let a : Answers := { now := start + n * dialInitialRTO, keyPending := fun _ => pending }
    [.dial .timer a, .dial .poll a]

/-- The four sections before the loop, for a peer without a session key. -/
def opening : List Op := List.replicate 4 (.dial .poll { now := 0, keyPending := fun _ => true })

def synAck (now : Nat) : Op := .packet ⟨.synAck 7, portEphemeralMin, ⟨0, 9⟩, 80⟩ now

/-- The session key arrives after four seconds, just before a sweep. -/
def quickDial : List Op :=
  opening ++ ticks dialInitialRTO 15 true ++
    [.sweep (4 * second) (10 * second), .sweepRemove, synAck (4 * second)]

theorem quickDial_completes : AllSteps (State.step noRelay) Careful idleDaemon quickDial ∧
    (quickDial.foldl (State.step noRelay) idleDaemon).dial.conn = some 0 ∧
    InTable ((quickDial.foldl (State.step noRelay) idleDaemon).step noRelay
      (.dial .poll { now := 4 * second })).ports 0 := by
  have hkeeps := dial_keeps_connection noRelay idleDaemon idleDaemon_ready quickDial
    (by decide +kernel)
  exact ⟨by decide +kernel, by decide +kernel,
    hkeeps.2.2 .poll { now := 4 * second } 0 (by
      intro result hresult
      have hconn : (quickDial.foldl (State.step noRelay) idleDaemon).dial.conn = some 0 := by
        decide +kernel
      rw [hresult] at hconn
      cases hconn) (by decide +kernel)⟩

/-- The session key arrives after eight seconds, and a sweep runs after seven. -/
def slowDial : List Op :=
  opening ++ ticks dialInitialRTO 27 true ++ [.sweep (7 * second) (10 * second), .sweepRemove] ++
    ticks (7 * second) 4 true

/-- The sweep removes the connection of a dial that is still waiting for its key and frees
its port; the SYN-ACK that then arrives finds nothing, and the dial times out. -/
theorem sweep_reaps_waiting_dial :
    let s := slowDial.foldl (State.step noRelay) idleDaemon
    let answered := s.step noRelay (synAck (8 * second))
    Ready idleDaemon ∧ s.dial.conn = some 0 ∧
    s.ports.connections.lookup 1 = none ∧ s.ports.portUsed portEphemeralMin = false ∧
    (answered.ports.conn 0).map Conn.state = some .synSent ∧
    ((ticks (8 * second) 200 false).foldl (State.step noRelay) answered).dial =
      .returned (.error .dialTimeout) :=
  ⟨idleDaemon_ready, by decide +kernel, by decide +kernel, by decide +kernel, by decide +kernel,
    by decide +kernel⟩

end PilotProtocol.Dial
