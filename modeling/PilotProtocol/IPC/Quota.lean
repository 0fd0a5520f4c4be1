import PilotProtocol.Library.BigEndian
import PilotProtocol.Library.Run

/-! # The connection quota of an IPC client

The connections that the server tracks for one client, and the goroutines that track them
and let them go: the handlers of its dials and closes, the pushers of the connections
accepted on its ports, and the pushers of the data received. A step is one locked section or
one call that waits. A dial is held against the quota before it starts and tracked after it
has succeeded; an accepted connection is never held against the quota.
-/

namespace PilotProtocol.IPC

open Library

def maxConnsPerIPCClient : Nat := 4096

def ipcMaxInflightPerClient : Nat := 1024

def addrSize : Nat := 6

inductive DialAt
  /-- Past the quota check; the daemon dials. -/
  | dialing (dstAddr : Bytes) (dstPort : Nat)
  | dialed (id : UInt32)
  /-- The dial was not cancelled. -/
  | tracking (id : UInt32)
  | replying (id : UInt32)
  | replied (id : UInt32)
  /-- The connection has been closed and is to be untracked. -/
  | removing (id : UInt32)
  deriving DecidableEq

/-- A connection that an accept pusher has taken from its queue. -/
inductive AcceptAt
  | tracking (id : UInt32)
  | pushing (id : UInt32)
  deriving DecidableEq

inductive ClientReply
  | error (msg : String)
  | dialOK (id : UInt32)
  | closeOK (id : UInt32)
  deriving DecidableEq

inductive DialAnswer
  | failed (err : String)
  | connected (id : UInt32)
  /-- Whether the dial's context is cancelled. -/
  | cancelled (yes : Bool)
  /-- Whether the reply could be written. -/
  | written (yes : Bool)
  deriving DecidableEq

structure Client where
  /-- Exempt from the quota. -/
  whitelisted : Bool
  conns : List UInt32
  dials : List DialAt
  accepts : List AcceptAt
  /-- The connections whose data is pushed to the client. -/
  recvPushers : List UInt32
  replies : List ClientReply

namespace Client

inductive Input
  | dial (payload : Bytes)
  | dialNext (d : DialAt) (answer : DialAnswer)
  | close (payload : Bytes)
  /-- A pusher takes a connection from the queue of one of the client's ports. -/
  | accept (id : UInt32)
  | acceptNext (a : AcceptAt) (written : Bool)
  /-- The pusher of a connection's data ends. -/
  | recvEnd (id : UInt32)

def new (whitelisted : Bool) : Client := ⟨whitelisted, [], [], [], [], []⟩

variable (c : Client)

def trackConn (id : UInt32) : Client := { c with conns := c.conns ++ [id] }

def removeConn (id : UInt32) : Client := { c with conns := c.conns.erase id }

def connCount : Nat := c.conns.length

def reply (r : ClientReply) : Client := { c with replies := c.replies ++ [r] }

def quotaReached : Bool := !c.whitelisted && decide (maxConnsPerIPCClient ≤ c.connCount)

def handleDial (payload : Bytes) : Client :=
  if payload.length < addrSize + 2 then c.reply (.error "dial: missing address/port")
  else if c.quotaReached then
    c.reply (.error ("dial: per-client connection quota (" ++ toString maxConnsPerIPCClient ++
      ") reached"))
  else
    { c with
      dials := .dialing (payload.take addrSize) (getBE ((payload.drop addrSize).take 2)) :: c.dials }

def dialNext : DialAt → DialAnswer → Client
  | .dialing _ _, .failed err => c.reply (.error err)
  | .dialing _ _, .connected id => { c with dials := .dialed id :: c.dials }
  -- The connection is closed without ever being tracked.
  | .dialed _, .cancelled true => c
  | .dialed id, .cancelled false => { c with dials := .tracking id :: c.dials }
  | .tracking id, _ => { c.trackConn id with dials := .replying id :: c.dials }
  | .replying id, .written true => { c.reply (.dialOK id) with dials := .replied id :: c.dials }
  | .replying id, .written false => { c with dials := .removing id :: c.dials }
  | .replied id, .cancelled true => { c with dials := .removing id :: c.dials }
  | .replied id, .cancelled false => { c with recvPushers := id :: c.recvPushers }
  | .removing id, _ => c.removeConn id
  -- Another answer does not come there: the dial stays where it was.
  | d, _ => { c with dials := d :: c.dials }

def handleClose (payload : Bytes) : Client :=
  if payload.length < 4 then c.reply (.error "close: missing conn_id")
  else
    let connID := UInt32.ofNat (getBE (payload.take 4))
    (c.removeConn connID).reply (.closeOK connID)

/-- The next section of an accept pusher. It ends when it cannot write. -/
def acceptNext : AcceptAt → Bool → Client
  | .tracking id, _ => { c.trackConn id with accepts := .pushing id :: c.accepts }
  | .pushing id, true => { c with recvPushers := id :: c.recvPushers }
  | .pushing _, false => c

/-- The read loop waits while every dispatch slot is taken. -/
def slotFree : Bool := decide (c.dials.length < ipcMaxInflightPerClient)

def step : Input → Client
  | .dial payload => if c.slotFree then c.handleDial payload else c
  | .dialNext d answer =>
    if d ∈ c.dials then dialNext { c with dials := c.dials.erase d } d answer else c
  | .close payload => if c.slotFree then c.handleClose payload else c
  | .accept id => { c with accepts := .tracking id :: c.accepts }
  | .acceptNext a written =>
    if a ∈ c.accepts then acceptNext { c with accepts := c.accepts.erase a } a written else c
  | .recvEnd id =>
    if id ∈ c.recvPushers then
      { c.removeConn id with recvPushers := c.recvPushers.erase id }
    else c

/-! ## Places taken -/

/-- Whether a dial has passed the check and may still track a connection. -/
def untracked : DialAt → Bool
  | .dialing _ _ | .dialed _ | .tracking _ => true
  | .replying _ | .replied _ | .removing _ => false

/-- The tracked connections and those that the dials under way may add. -/
def taken : Nat := c.connCount + c.dials.countP untracked

/-- Whether a step takes a place: a dial that passes the check, or an accepted connection
that is tracked. -/
def takesPlace : Input → Bool
  | .dial payload =>
    c.slotFree && !decide (payload.length < addrSize + 2) && !c.quotaReached
  | .acceptNext (.tracking id) _ => decide (.tracking id ∈ c.accepts)
  | _ => false

def placeFree (i : Input) : Bool := !c.takesPlace i || decide (c.taken < maxConnsPerIPCClient)

variable {c : Client}

theorem connCount_le_taken (c : Client) : c.connCount ≤ c.taken := Nat.le_add_right _ _

theorem removeConn_taken (c : Client) (id : UInt32) : (c.removeConn id).taken ≤ c.taken := by
  have hle : (c.conns.erase id).length ≤ c.conns.length := List.length_erase_le
  simpa [taken, connCount, removeConn] using hle

theorem dialNext_taken (c : Client) (d : DialAt) (answer : DialAnswer) :
    (c.dialNext d answer).taken ≤ taken { c with dials := d :: c.dials } := by
  cases d with
  | dialing dstAddr dstPort =>
    cases answer <;> simp [dialNext, reply, taken, connCount, untracked, List.countP_cons]
  | dialed id =>
    cases answer with
    | cancelled yes => cases yes <;> simp [dialNext, taken, connCount, untracked, List.countP_cons]
    | _ => simp [dialNext, taken, connCount]
  | tracking id =>
    simp [dialNext, trackConn, taken, connCount, untracked, List.countP_cons]
    omega
  | replying id =>
    cases answer with
    | written yes => cases yes <;> simp [dialNext, reply, taken, connCount, untracked]
    | _ => simp [dialNext, taken, connCount]
  | replied id =>
    cases answer with
    | cancelled yes => cases yes <;> simp [dialNext, taken, connCount, untracked]
    | _ => simp [dialNext, taken, connCount]
  | removing id =>
    have hle := c.removeConn_taken id
    simpa [dialNext, taken, connCount, untracked] using hle

theorem step_taken (c : Client) (i : Input) :
    (c.step i).taken ≤ c.taken + if c.takesPlace i then 1 else 0 := by
  cases i with
  | dial payload =>
    unfold step takesPlace handleDial
    by_cases hslot : c.slotFree = true
    · by_cases hlen : payload.length < addrSize + 2
      · simp [hslot, hlen, reply, taken, connCount]
      · by_cases hquota : c.quotaReached = true
        · simp [hslot, hlen, hquota, reply, taken, connCount]
        · simp [hslot, hlen, hquota, taken, connCount, untracked, List.countP_cons]
          omega
    · simp [hslot]
  | dialNext d answer =>
    by_cases hd : d ∈ c.dials
    · have hperm : (d :: c.dials.erase d).Perm c.dials := (List.perm_cons_erase hd).symm
      have hnext := dialNext_taken { c with dials := c.dials.erase d } d answer
      have hcount : (d :: c.dials.erase d).countP untracked = c.dials.countP untracked :=
        hperm.countP_eq untracked
      have hsame : taken { c with dials := d :: c.dials.erase d } = c.taken := by
        simp only [taken, connCount, hcount]
      simpa [step, hd, takesPlace] using hnext.trans hsame.le
    · simp [step, hd]
  | close payload =>
    unfold step handleClose
    by_cases hslot : c.slotFree = true
    · by_cases hlen : payload.length < 4
      · simp [hslot, hlen, reply, taken, connCount]
      · have hle := c.removeConn_taken (UInt32.ofNat (getBE (payload.take 4)))
        simpa [hslot, hlen, reply, taken, connCount, takesPlace] using hle
    · simp [hslot]
  | accept id => simp [step, taken, connCount]
  | acceptNext a written =>
    by_cases ha : a ∈ c.accepts
    · cases a with
      | tracking id =>
        simp [step, ha, acceptNext, trackConn, taken, connCount, takesPlace]
        omega
      | pushing id => cases written <;> simp [step, ha, acceptNext, taken, connCount]
    · simp [step, ha]
  | recvEnd id =>
    by_cases hid : id ∈ c.recvPushers
    · have hle := c.removeConn_taken id
      simpa [step, hid, taken, connCount, takesPlace] using hle
    · simp [step, hid]

theorem step_taken_le {bound : Nat} {i : Input} (h : c.taken ≤ bound)
    (hroom : c.takesPlace i = true → c.taken < bound) : (c.step i).taken ≤ bound := by
  have hstep := c.step_taken i
  by_cases htakes : c.takesPlace i = true
  · have hlt := hroom htakes
    rw [if_pos htakes] at hstep
    omega
  · rw [if_neg htakes] at hstep
    omega

/-- While each dial that passes the check and each accepted connection finds a place free,
with the dials under way counted, no more connections are tracked than the quota allows. -/
theorem tracked_within_quota {inputs : List Input}
    (hok : AllSteps step (fun c i => c.placeFree i = true) (new false) inputs) :
    AllSteps step (fun c i => (c.step i).connCount ≤ maxConnsPerIPCClient) (new false) inputs := by
  have hstep : ∀ c i, taken c ≤ maxConnsPerIPCClient → c.placeFree i = true →
      (c.step i).taken ≤ maxConnsPerIPCClient := by
    intro c i h hfree
    apply step_taken_le h
    intro htakes
    simpa [placeFree, htakes] using hfree
  have hgood : ∀ c i, taken c ≤ maxConnsPerIPCClient → c.placeFree i = true →
      (c.step i).connCount ≤ maxConnsPerIPCClient := by
    intro c i h hfree
    exact (connCount_le_taken _).trans (hstep c i h hfree)
  have hstart : (new false).taken ≤ maxConnsPerIPCClient := by simp [new, taken, connCount]
  exact run_every_step hstep hgood hstart hok

/-- A dial to port 80 of an address of zeros, as it comes in and past the check. -/
def dialPayload : Bytes := [0, 0, 0, 0, 0, 0, 0, 80]

def pastCheck : DialAt := .dialing [0, 0, 0, 0, 0, 0] 80

def dialThrough (id : UInt32) : List Input :=
  [.dial dialPayload, .dialNext pastCheck (.connected id), .dialNext (.dialed id) (.cancelled false),
    .dialNext (.tracking id) (.cancelled false), .dialNext (.replying id) (.written true),
    .dialNext (.replied id) (.cancelled false)]

def acceptThrough (id : UInt32) : List Input :=
  [.accept id, .acceptNext (.tracking id) true, .acceptNext (.pushing id) true]

theorem dial_beside_accept :
    AllSteps step (fun c i => (c.step i).connCount ≤ maxConnsPerIPCClient) (new false)
      (dialThrough 1 ++ acceptThrough 2) ∧
    ((dialThrough 1 ++ acceptThrough 2).foldl step (new false)).conns = [1, 2] :=
  ⟨tracked_within_quota (by decide), by decide⟩

/-! ## How the quota is overrun -/

theorem acceptThrough_conns (c : Client) (id : UInt32) :
    ((acceptThrough id).foldl step c).conns = c.conns ++ [id] := by
  simp [acceptThrough, step, acceptNext, trackConn]

theorem acceptAll_conns (c : Client) (ids : List UInt32) :
    ((ids.flatMap acceptThrough).foldl step c).conns = c.conns ++ ids := by
  induction ids generalizing c with
  | nil => simp
  | cons id rest ih =>
    rw [List.flatMap_cons, List.foldl_append, ih, acceptThrough_conns, List.append_assoc]
    rfl

/-- No dial is under way, and the client is held to the quota. -/
def Settled (c : Client) : Prop := c.whitelisted = false ∧ c.dials = []

theorem handleDial_below (hlisted : c.whitelisted = false)
    (hcount : c.connCount < maxConnsPerIPCClient) :
    c.handleDial dialPayload = { c with dials := pastCheck :: c.dials } := by
  have hquota : c.quotaReached = false := by
    simp [quotaReached, hlisted, Nat.not_le.mpr hcount]
  have hlen : ¬ dialPayload.length < addrSize + 2 := by decide
  have hpast : DialAt.dialing (dialPayload.take addrSize)
      (getBE ((dialPayload.drop addrSize).take 2)) = pastCheck := by decide
  rw [handleDial, if_neg hlen, hquota, hpast]
  simp

theorem dialThrough_settled (id : UInt32) (h : c.Settled)
    (hcount : c.connCount < maxConnsPerIPCClient) : ((dialThrough id).foldl step c).Settled ∧
      ((dialThrough id).foldl step c).conns = c.conns ++ [id] := by
  have hslot : c.slotFree = true := by simp [slotFree, h.2, ipcMaxInflightPerClient]
  simp [dialThrough, Settled, step, hslot, handleDial_below h.1 hcount, h.1, h.2, dialNext,
    pastCheck, trackConn, reply]

theorem dialAll_settled (ids : List UInt32) (h : c.Settled)
    (hcount : c.connCount + ids.length ≤ maxConnsPerIPCClient) :
    ((ids.flatMap dialThrough).foldl step c).Settled ∧
      ((ids.flatMap dialThrough).foldl step c).conns = c.conns ++ ids := by
  induction ids generalizing c with
  | nil => simpa using h
  | cons id rest ih =>
    rw [List.length_cons] at hcount
    have hnext := dialThrough_settled id h (by omega)
    have hroom : ((dialThrough id).foldl step c).connCount + rest.length ≤
        maxConnsPerIPCClient := by
      rw [connCount, hnext.2, List.length_append, List.length_singleton]
      unfold connCount at hcount
      omega
    have hrest := ih hnext.1 hroom
    rw [List.flatMap_cons, List.foldl_append]
    exact ⟨hrest.1, by rw [hrest.2, hnext.2, List.append_assoc]; rfl⟩

def dialTwo (id id' : UInt32) : List Input :=
  [.dial dialPayload, .dial dialPayload, .dialNext pastCheck (.connected id),
    .dialNext pastCheck (.connected id'), .dialNext (.dialed id) (.cancelled false),
    .dialNext (.dialed id') (.cancelled false), .dialNext (.tracking id) (.cancelled false),
    .dialNext (.tracking id') (.cancelled false)]

theorem dialTwo_conns {id id' : UInt32} (hne : id ≠ id') (h : c.Settled)
    (hcount : c.connCount < maxConnsPerIPCClient) :
    ((dialTwo id id').foldl step c).conns = c.conns ++ [id, id'] := by
  have hfirst : c.step (.dial dialPayload) = { c with dials := [pastCheck] } := by
    simp [step, slotFree, h.2, ipcMaxInflightPerClient, handleDial_below h.1 hcount]
  -- Nothing is tracked yet, so the second dial meets the same count.
  have hsecond : step { c with dials := [pastCheck] } (.dial dialPayload) =
      { c with dials := [pastCheck, pastCheck] } := by
    have hbelow := handleDial_below (c := { c with dials := [pastCheck] }) h.1 hcount
    simp [step, slotFree, ipcMaxInflightPerClient, hbelow]
  simp only [dialTwo, List.foldl_cons, hfirst, hsecond]
  simp [step, dialNext, pastCheck, trackConn, hne, hne.symm]

def idsTo (n : Nat) : List UInt32 := (List.range n).map fun k => UInt32.ofNat (k + 1)

/-- Accepted connections alone overrun the quota, and so do two dials at once. -/
theorem quota_overrun : (((idsTo 4097).flatMap acceptThrough).foldl step (new false)).connCount =
      maxConnsPerIPCClient + 1 ∧
    (((idsTo 4095).flatMap dialThrough ++ dialTwo 4096 4097).foldl step (new false)).connCount =
      maxConnsPerIPCClient + 1 := by
  constructor
  · rw [connCount, acceptAll_conns]
    simp [new, idsTo, maxConnsPerIPCClient]
  · have hlen : (idsTo 4095).length = 4095 := by simp [idsTo]
    have hroom : (new false).connCount + (idsTo 4095).length ≤ maxConnsPerIPCClient := by
      rw [hlen]
      decide
    have hfirst := dialAll_settled (idsTo 4095) ⟨rfl, rfl⟩ hroom
    have hcount : (((idsTo 4095).flatMap dialThrough).foldl step (new false)).connCount = 4095 := by
      rw [connCount, hfirst.2, List.length_append, hlen]
      rfl
    have hbelow : (((idsTo 4095).flatMap dialThrough).foldl step (new false)).connCount <
        maxConnsPerIPCClient := by
      rw [hcount]
      decide
    rw [List.foldl_append, connCount, dialTwo_conns (by decide) hfirst.1 hbelow, List.length_append]
    rw [connCount] at hcount
    rw [hcount]
    rfl

end Client

end PilotProtocol.IPC
