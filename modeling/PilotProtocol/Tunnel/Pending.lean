import PilotProtocol.Library.Pool
import PilotProtocol.Tunnel.Authenticity

/-! # The pending queue

Calls of `SendTo` and key installs for one peer that run at the same time. A
`Task` is the program point of one of them, and a step is one locked section: a
lookup of the session, an append to the queue, an install, the taking of the
queue, and for each frame of the batch a second lookup and a write. The store is
reduced to the object installed for the peer, which every install makes ready and
nothing here removes.
-/

namespace PilotProtocol.Tunnel

open Library KeyExchange Envelope Routing

/-- A plaintext passed to `writeFrame`, sealed under the object `ref` while `current` was
installed. -/
structure Write where
  plaintext : Bytes
  ref : Nat
  current : Option Nat
  deriving DecidableEq

structure Slot where
  crypto : Option Nat
  /-- The number of objects derived so far. -/
  derived : Nat
  pending : List Bytes
  /-- The frames whose `SendTo` returned nil after it queued them. -/
  queued : List Bytes
  flushed : List Write
  direct : List Write
  deriving DecidableEq

inductive Task
  /-- `SendTo`: before the lookup, after a lookup that found no key, past the give-up check
  and about to append, or about to seal under the object found. -/
  | sendTo (data : Bytes)
  | looked (data : Bytes)
  | queueing (data : Bytes)
  | sealing (data : Bytes) (ref : Nat)
  /-- A key-exchange frame with a new X25519 key before its install, and its hook. -/
  | install
  | hook
  /-- A later frame with the same key: its hook runs, nothing is installed. -/
  | sameSession
  /-- `flushPending`: the queue taken, the loop under the session found, and a frame whose
  second lookup has found that session again. -/
  | taken (frames : List Bytes)
  | flushing (ref : Nat) (frames : List Bytes)
  | checked (ref : Nat) (frame : Bytes) (rest : List Bytes)
  | done
  deriving DecidableEq

/-- What a section reads from elsewhere: whether the peer is in its give-up cooldown, and
whether as many peers as allowed have a queue. -/
structure Answers where
  gaveUp : Bool
  tooMany : Bool

def appendPending (tooMany : Bool) (pending : List Bytes) (data : Bytes) :
    Except SendToErr Unit × List Bytes :=
  if pending.isEmpty && tooMany then (.error .tooManyPending, pending)
  else if maxPendingPerPeer ≤ pending.length then (.error .pendingDropped, pending)
  else (.ok (), pending ++ [data])

def Slot.take (s : Slot) : Slot × Task :=
  ({ s with pending := [] }, if s.pending.isEmpty then .done else .taken s.pending)

def Task.step (answers : Answers) (s : Slot) : Task → Slot × Task
  | .sendTo data =>
    match s.crypto with
    | some ref => (s, .sealing data ref)
    | none => (s, .looked data)
  | .looked data => (s, if answers.gaveUp then .done else .queueing data)
  | .queueing data =>
    match appendPending answers.tooMany s.pending data with
    | (.ok _, pending) => ({ s with pending, queued := s.queued ++ [data] }, .done)
    | (.error _, pending) => ({ s with pending }, .done)
  | .sealing data ref => ({ s with direct := s.direct ++ [⟨data, ref, s.crypto⟩] }, .done)
  | .install => ({ s with crypto := some s.derived, derived := s.derived + 1 }, .hook)
  | .hook => s.take
  | .sameSession => (s, if s.crypto.isSome then .hook else .sameSession)
  | .taken frames =>
    match s.crypto with
    | none => (s, .done)
    | some ref => (s, .flushing ref frames)
  | .flushing _ [] => (s, .done)
  | .flushing ref (frame :: rest) =>
    if s.crypto = some ref then (s, .checked ref frame rest) else (s, .done)
  | .checked ref frame rest =>
    ({ s with flushed := s.flushed ++ [⟨frame, ref, s.crypto⟩] }, .flushing ref rest)
  | .done => (s, .done)

/-! ## A task by itself

With no other task's section between its own, a task does what the function it stands for
does to the tunnel. -/

theorem append_result (tooMany : Bool) (pending : List Bytes) (data : Bytes) :
    (∃ e, appendPending tooMany pending data = (.error e, pending)) ∨
      appendPending tooMany pending data = (.ok (), pending ++ [data]) := by
  unfold appendPending
  split
  · exact .inl ⟨_, rfl⟩
  · split
    · exact .inl ⟨_, rfl⟩
    · exact .inr rfl

def alone (answers : Answers) : Nat → Slot × Task → Slot × Task
  | 0, s => s
  | n + 1, s => alone answers n (s.2.step answers s.1)

variable {s : Slot} {task : Task} (answers : Answers)

theorem sendTo_alone (data : Bytes) (h : s.crypto = none) : alone answers 3 (s, .sendTo data) =
      if answers.gaveUp then (s, .done) else Task.step answers s (.queueing data) := by
  obtain ⟨crypto, derived, pending, queued, flushed, direct⟩ := s
  subst h
  cases hg : answers.gaveUp <;> simp [alone, Task.step, hg]

namespace TunnelManager

/-- What the sections touch of the tunnel for `peer`, with nothing logged. -/
def slot (t : TunnelManager) (peer : NodeID) : Slot where
  crypto := (t.kx.env.getReady peer).map (·.ref)
  derived := t.kx.allocated
  pending := (t.pending.lookup peer).getD []
  queued := []
  flushed := []
  direct := []

theorem slot_of_core {t t' : TunnelManager} (h : t'.core = t.core) (peer : NodeID) :
    t'.slot peer = { t.slot peer with pending := (t'.pending.lookup peer).getD [] } := by
  have hcrypto (u : TunnelManager) : (u.kx.env.getReady peer).map (·.ref) =
      ((u.core.session peer).filter (·.ready)).map (·.ref) := by
    cases hget : u.kx.env.get peer with
    | none => simp [Store.getReady, core, hget]
    | some c => cases hr : c.ready <;> simp [Store.getReady, core, forgetSends, Option.filter, hget, hr]
  have hderived : t'.kx.allocated = t.kx.allocated := congrArg Core.allocated h
  simp only [slot, hcrypto, h, hderived]

def queues (t : TunnelManager) : GoMap NodeID (List Bytes) × GoMap NodeID Nat :=
  (t.pending, t.pendingSince)

variable (W : World) (now : Nat) (t : TunnelManager) (peer : NodeID) (addr : Option UDPAddr)
  (frame : Bytes)

@[simp] theorem writeFrame_queues : (t.writeFrame W now peer addr frame).2.queues = t.queues := by
  unfold writeFrame
  simp only
  split <;> rfl

@[simp] theorem takeKeyRequest_queues (authed : Bool) :
    (t.takeKeyRequest peer authed).2.queues = t.queues := by
  unfold takeKeyRequest
  split <;> rfl

theorem kxSendKeyExchange_queues : (t.kxSendKeyExchange W now peer).2.queues = t.queues := by
  unfold kxSendKeyExchange
  cases t.kx.buildUnauthFrame with
  | none => rfl
  | some unauthFrame =>
    simp only
    have hfirst := writeFrame_queues W now
      (t.takeKeyRequest peer (t.kx.buildAuthFrame W.P).isSome).2 peer (t.peerAddr peer)
      ((t.kx.buildAuthFrame W.P).getD unauthFrame)
    rw [takeKeyRequest_queues] at hfirst
    split
    next h => rw [h] at hfirst; exact hfirst
    next h =>
      rw [h] at hfirst
      show (ite _ _ _ : Bool × TunnelManager).2.queues = _
      split
      · rw [writeFrame_queues]; exact hfirst
      · exact hfirst

theorem startKeyExchange_queues : (t.startKeyExchange W now peer).queues = t.queues := by
  have hkx := kxSendKeyExchange_queues W now t peer
  unfold startKeyExchange sendKeyExchangeToNode
  simp only
  split
  · rfl
  · repeat' split
    all_goals exact hkx

theorem startKeyExchange_pending : (t.startKeyExchange W now peer).pending = t.pending :=
  congrArg Prod.fst (startKeyExchange_queues W now t peer)

/-- From `t` to `t'` these frames are handed to `writeFrame` for `peer`, in this order; the
ones whose write goes through are sent. -/
structure Writes (peer : NodeID) (frames : List Bytes) (t t' : TunnelManager) : Prop where
  count : t'.writes = t.writes + frames.length
  sent : ∃ new, t'.sent = t.sent ++ new ∧ (∀ s ∈ new, s.peer = peer) ∧
    (new.map Sent.frame).Sublist frames

theorem Writes.trans {peer : NodeID} {frames frames' : List Bytes} {t t' t'' : TunnelManager}
    (h : Writes peer frames t t') (h' : Writes peer frames' t' t'') :
    Writes peer (frames ++ frames') t t'' := by
  obtain ⟨new, hnew, hpeer, hsub⟩ := h.sent
  obtain ⟨new', hnew', hpeer', hsub'⟩ := h'.sent
  refine ⟨?_, new ++ new', ?_, ?_, ?_⟩
  · rw [h'.count, h.count, List.length_append, Nat.add_assoc]
  · rw [hnew', hnew, List.append_assoc]
  · exact List.forall_mem_append.mpr ⟨hpeer, hpeer'⟩
  · rw [List.map_append]
    exact hsub.append hsub'

theorem enqueue_append {t : TunnelManager} {peer : NodeID} (data : Bytes) (now : Nat)
    (hqueue : t.pending.lookup peer ≠ some []) :
    ((t.enqueue peer data now).1, ((t.enqueue peer data now).2.slot peer).pending) =
      appendPending (decide (maxPendingPeers ≤ t.pending.len)) (t.slot peer).pending data := by
  have hempty : (t.slot peer).pending.isEmpty = (t.pending.lookup peer).isNone := by
    cases hq : t.pending.lookup peer with
    | none => simp [slot, hq]
    | some frames =>
      have hne : frames ≠ [] := fun hnil => hqueue (by rw [hq, hnil])
      simp [slot, hq, hne]
  unfold enqueue appendPending
  rw [hempty, show (t.slot peer).pending = (t.pending.lookup peer).getD [] from rfl]
  simp only [Bool.and_eq_true, decide_eq_true_eq]
  split
  · rfl
  · split
    · rfl
    · simp [slot]

theorem sendEncrypted_alone {t : TunnelManager} {peer : NodeID} (data : Bytes)
    (hkey : t.kx.env.getReady peer = none) (hqueue : t.pending.lookup peer ≠ some []) :
    alone ⟨(t.startKeyExchange W now peer).kx.rk.peerInRekeyGaveUp peer now,
        decide (maxPendingPeers ≤ t.pending.len)⟩ 3 (t.slot peer, .sendTo data) =
      ({ (t.sendEncrypted W now addr peer data).2.slot peer with
          queued := if (t.sendEncrypted W now addr peer data).1.isOk then [data] else [] },
        .done) := by
  have hcrypto : (t.slot peer).crypto = none := by simp [slot, hkey]
  have hstarted : (t.startKeyExchange W now peer).slot peer = t.slot peer := by
    rw [slot_of_core (startKeyExchange_core W now t peer), startKeyExchange_pending]
    rfl
  have happend := enqueue_append (t := t.startKeyExchange W now peer) data now
    (by rwa [startKeyExchange_pending])
  rw [startKeyExchange_pending, hstarted] at happend
  rw [sendTo_alone _ data hcrypto]
  unfold sendEncrypted
  simp only [hkey]
  split
  · rw [hstarted]
    rfl
  · rw [slot_of_core (enqueue_core W _ peer data now), hstarted]
    simp only [Task.step, ← happend]
    cases ((t.startKeyExchange W now peer).enqueue peer data now).1 <;> rfl

theorem sendEncrypted_alone_start :
    let t := (Daemon.start toySetup 1 none).tunnels
    alone ⟨false, false⟩ 3 (t.slot 7, .sendTo [42]) =
      ({ (t.sendEncrypted toyWorld second none 7 [42]).2.slot 7 with queued := [[42]] }, .done) :=
  sendEncrypted_alone toyWorld second none (t := (Daemon.start toySetup 1 none).tunnels) [42] rfl (by decide)

end TunnelManager

/-! ## Tasks side by side -/

abbrev Tasks := Pool Slot Task

/-- Which task runs its next section, and what that section reads from elsewhere. -/
abbrev Turn := Nat × Answers

def Tasks.step (s : Tasks) (turn : Turn) : Tasks := Pool.step Task.step s turn

/-- Tasks that have not started, over a slot with nothing queued. -/
def Tasks.start (crypto : Option Nat) (derived : Nat) (tasks : List Task) : Tasks :=
  ⟨⟨crypto, derived, [], [], [], []⟩, tasks⟩

def Task.unstarted : Task → Bool
  | .sendTo _ | .install | .sameSession => true
  | _ => false

def Task.idle (task : Task) : Bool := task.unstarted || decide (task = .done)

/-- A `SendTo` between its lookup and its append, or a flush between its lookup and its
end. -/
def Task.exposed : Task → Bool
  | .looked _ | .queueing _ | .flushing _ _ | .checked _ _ _ => true
  | _ => false

def Tasks.Calm (s : Tasks) (turn : Turn) : Prop :=
  s.tasks[turn.1]? = some .install → ∀ task ∈ s.tasks, task.exposed = false

instance instDecidableCalm (s : Tasks) (turn : Turn) : Decidable (s.Calm turn) :=
  inferInstanceAs (Decidable (_ → _))

/-! ## What a section does -/

def Task.batch : Task → List Bytes
  | .taken frames | .flushing _ frames => frames
  | .checked _ frame rest => frame :: rest
  | _ => []

def Task.Fits (crypto : Option Nat) : Task → Prop
  | .looked _ | .queueing _ => crypto = none
  | .hook | .taken _ => crypto.isSome = true
  | .flushing ref _ | .checked ref _ _ => crypto = some ref
  | _ => True

/-- Where a queued frame can be: written, taken by `task`, or still in the queue. -/
def Slot.held (s : Slot) (task : Task) (frame : Bytes) : Nat :=
  (s.flushed.map Write.plaintext).count frame + task.batch.count frame + s.pending.count frame

def Slot.Current (s : Slot) : Prop := ∀ w ∈ s.flushed, w.current = some w.ref

theorem step_crypto (s : Slot) (h : task ≠ .install) :
    (task.step answers s).1.crypto = s.crypto := by
  fun_cases Task.step answers s task <;> first | rfl | exact absurd rfl h

theorem step_fits {answers : Answers} (h : task.Fits s.crypto) :
    (task.step answers s).2.Fits (task.step answers s).1.crypto := by
  cases task with
  | sendTo data | sameSession | taken frames =>
    cases hc : s.crypto <;> simp [Task.step, Task.Fits, hc]
  | looked data =>
    cases hg : answers.gaveUp <;> simp [Task.step, Task.Fits, hg, show s.crypto = none from h]
  | queueing data =>
    rcases append_result answers.tooMany s.pending data with ⟨e, ha⟩ | ha <;>
      simp [Task.step, Task.Fits, ha]
  | hook =>
    cases hp : s.pending <;>
      simp [Task.step, Slot.take, Task.Fits, hp, show s.crypto.isSome = true from h]
  | flushing ref frames => cases frames <;> simp_all [Task.step, Task.Fits]
  | checked ref frame rest => exact h
  | install => rfl
  | sealing data ref | done => trivial

theorem step_held (h : task.Fits s.crypto) (frame : Bytes) :
    (task.step answers s).1.queued.count frame + s.held task frame =
      s.queued.count frame + (task.step answers s).1.held (task.step answers s).2 frame := by
  cases task with
  | sendTo data | sameSession => cases hc : s.crypto <;> simp [Task.step, Slot.held, Task.batch, hc]
  | looked data => cases hg : answers.gaveUp <;> simp [Task.step, Slot.held, Task.batch, hg]
  | queueing data =>
    rcases append_result answers.tooMany s.pending data with ⟨e, ha⟩ | ha
    · simp [Task.step, Slot.held, Task.batch, ha]
    · simp only [Task.step, Slot.held, Task.batch, ha, List.count_append]
      omega
  | hook => cases hp : s.pending <;> simp [Task.step, Slot.take, Slot.held, Task.batch, hp]
  | taken frames =>
    -- `flushPending` returns with its batch when it finds no session; here there is one.
    cases hc : s.crypto with
    | none => simp [Task.Fits, hc] at h
    | some ref => simp [Task.step, Slot.held, Task.batch, hc]
  | flushing ref frames =>
    -- Nor does the second lookup find another session and give the rest up.
    have hc : s.crypto = some ref := h
    cases frames <;> simp [Task.step, Slot.held, Task.batch, hc]
  | checked ref next rest =>
    simp only [Task.step, Slot.held, Task.batch, List.map_append, List.map_cons, List.map_nil,
      List.count_append, List.count_cons, List.count_nil]
    omega
  | install | sealing data ref | done => rfl

theorem step_flushed (s : Slot) (task : Task) : (task.step answers s).1.flushed = s.flushed ∨
      ∃ ref frame rest, task = .checked ref frame rest := by
  fun_cases Task.step answers s task <;> first | exact .inl rfl | exact .inr ⟨_, _, _, rfl⟩

theorem step_current {answers : Answers} (h : task.Fits s.crypto) (hs : s.Current) :
    (task.step answers s).1.Current := by
  intro w hw
  rcases step_flushed answers s task with hsame | ⟨ref, frame, rest, rfl⟩
  · exact hs w (hsame ▸ hw)
  · have hc : s.crypto = some ref := h
    rcases List.mem_append.mp hw with hw | hw
    · exact hs w hw
    · rwa [List.mem_singleton.mp hw]

theorem step_pending {answers : Answers} (h : task.Fits s.crypto)
    (hp : (task.step answers s).1.pending ≠ []) :
    s.crypto = none ∨ s.pending ≠ [] ∧ task ≠ .hook := by
  cases task with
  | queueing data => exact .inl h
  | hook => exact absurd rfl hp
  | sendTo data | taken frames =>
    refine .inr ⟨fun hnil => hp ?_, nofun⟩
    cases hc : s.crypto <;> simp [Task.step, hc, hnil]
  | flushing ref frames =>
    have hc : s.crypto = some ref := h
    refine .inr ⟨fun hnil => hp ?_, nofun⟩
    cases frames <;> simp [Task.step, hc, hnil]
  | _ => exact .inr ⟨hp, nofun⟩

/-! ## Runs -/

/-- In a calm run every task's session is the installed one, frames wait only for a first
install or a hook that is about to take them, and no queued frame is missing or twice
there. -/
structure Tasks.Sound (s : Tasks) : Prop where
  fits : ∀ task ∈ s.tasks, task.Fits s.shared.crypto
  served : s.shared.pending ≠ [] → s.shared.crypto = none ∨ .hook ∈ s.tasks
  counted : ∀ frame, s.shared.queued.count frame =
    (s.shared.flushed.map Write.plaintext).count frame +
      (s.tasks.flatMap Task.batch).count frame + s.shared.pending.count frame
  current : s.shared.Current

theorem sound_start {tasks : List Task} (crypto : Option Nat) (derived : Nat)
    (h : ∀ task ∈ tasks, task.unstarted = true) : (Tasks.start crypto derived tasks).Sound where
  fits task ht := by
    have hu := h task ht
    cases task <;> trivial
  served hp := absurd rfl hp
  counted frame := by
    have hbatch : tasks.flatMap Task.batch = [] := by
      refine List.flatMap_eq_nil_iff.mpr fun task ht => ?_
      have hu := h task ht
      cases task <;> first | rfl | cases hu
    simp [Tasks.start, hbatch]
  current := nofun

/-- A section of another task leaves a task with a session that fits it, unless it is an
install and the task is exposed. -/
theorem fits_other {answers : Answers} {other : Task} (h : other.Fits s.crypto)
    (hcalm : task = .install → other.exposed = false) :
    other.Fits (task.step answers s).1.crypto := by
  by_cases hi : task = .install
  · have hexposed := hcalm hi
    subst hi
    cases other <;> trivial
  · rwa [step_crypto _ _ hi]

theorem sound_step {s : Tasks} {turn : Turn} (hcalm : s.Calm turn) (h : s.Sound) :
    (s.step turn).Sound := by
  rcases Pool.step_cases Task.step s turn with hsame | ⟨before, task, after, hsplit, ht, hstep⟩
  · rwa [Tasks.step, hsame]
  · have hmem : ∀ other, other ∈ before ∨ other ∈ after → other ∈ s.tasks := by
      intro other ho
      simp only [hsplit, List.mem_append, List.mem_cons]
      tauto
    have hfits : task.Fits s.shared.crypto := h.fits task (by simp [hsplit])
    rw [Tasks.step, hstep]
    refine ⟨?_, ?_, ?_, step_current hfits h.current⟩
    · intro other ho
      have hother : other = (task.step turn.2 s.shared).2 ∨ other ∈ before ∨ other ∈ after := by
        simp only [List.mem_append, List.mem_cons] at ho
        tauto
      rcases hother with rfl | hin
      · exact step_fits hfits
      · exact fits_other (h.fits other (hmem other hin)) fun hi =>
          hcalm (hi ▸ ht) other (hmem other hin)
    · intro hp
      by_cases hi : task = .install
      · subst hi
        exact .inr (by simp [Task.step])
      · rw [step_crypto _ _ hi]
        rcases step_pending hfits hp with hnone | ⟨hpending, hhook⟩
        · exact .inl hnone
        · refine (h.served hpending).imp_right fun hin => ?_
          simp only [hsplit, List.mem_append, List.mem_cons] at hin ⊢
          tauto
    · intro frame
      have hcounted := h.counted frame
      have hheld := step_held turn.2 hfits frame
      simp only [Slot.held] at hheld
      simp only [hsplit, List.flatMap_append, List.flatMap_cons, List.count_append] at hcounted ⊢
      omega

theorem Task.batch_of_idle (h : task.idle = true) : task.batch = [] := by
  cases task <;> first | rfl | simp [Task.idle, Task.unstarted] at h

/-- There is a session, and no task is between its sections. -/
def Tasks.Settled (s : Tasks) : Prop :=
  s.shared.crypto.isSome = true ∧ ∀ task ∈ s.tasks, task.idle = true

instance instDecidableSettled (s : Tasks) : Decidable s.Settled := inferInstanceAs (Decidable (_ ∧ _))

/-- No frame waits, and each frame that was queued has been written once, sealed under the
session installed at that moment. -/
def Slot.Drained (s : Slot) : Prop :=
  s.pending = [] ∧ (s.flushed.map Write.plaintext).Perm s.queued ∧
    ∀ w ∈ s.flushed, w.current = some w.ref

theorem Tasks.Sound.drained {s : Tasks} (h : s.Sound) (hs : s.Settled) : s.shared.Drained := by
  have hpending : s.shared.pending = [] := by
    by_contra hp
    rcases h.served hp with hnone | hhook
    · exact absurd hs.1 (by simp [hnone])
    · exact absurd (hs.2 _ hhook) (by decide)
  have hbatch : s.tasks.flatMap Task.batch = [] :=
    List.flatMap_eq_nil_iff.mpr fun task ht => Task.batch_of_idle (hs.2 task ht)
  refine ⟨hpending, List.perm_iff_count.mpr fun frame => ?_, h.current⟩
  have hcounted := h.counted frame
  simp only [hbatch, hpending, List.count_nil] at hcounted
  omega

/-- A run in which no install meets an exposed task has drained the queue in every settled
state it reaches. -/
theorem calm_queue_drains {tasks : List Task} (crypto : Option Nat) (derived : Nat)
    (hstart : ∀ task ∈ tasks, task.unstarted = true) (turns : List Turn)
    (hcalm : AllSteps Tasks.step Tasks.Calm (.start crypto derived tasks) turns)
    {reached : List Turn} (hreached : reached <+: turns)
    (hsettled : (reached.foldl Tasks.step (.start crypto derived tasks)).Settled) :
    (reached.foldl Tasks.step (.start crypto derived tasks)).shared.Drained :=
  (run_invariant Tasks.Sound (fun _ _ h hc => sound_step hc h)
    (sound_start crypto derived hstart) (hcalm.take hreached)).drained hsettled

/-- The run of tasks that start without a session, in turns that refuse no append. -/
def interleave (tasks : List Task) (turns : List Nat) : Tasks :=
  (turns.map fun task => ⟨task, ⟨false, false⟩⟩).foldl Tasks.step (.start none 0 tasks)

/-- Two frames queued before the first install, then a rekey and a third frame. -/
theorem rekeyed_queue_drains :
    (interleave [.sendTo [1], .sendTo [2], .install, .install, .sendTo [3]]
      [0, 1, 0, 1, 0, 1, 2, 2, 2, 2, 2, 2, 2, 2, 3, 3, 4, 4]).shared.queued = [[1], [2]] ∧
    (interleave [.sendTo [1], .sendTo [2], .install, .install, .sendTo [3]]
      [0, 1, 0, 1, 0, 1, 2, 2, 2, 2, 2, 2, 2, 2, 3, 3, 4, 4]).shared.Drained :=
  ⟨by decide, calm_queue_drains none 0 (by decide) _ (by decide) (List.prefix_refl _) (by decide)⟩

/-- An install between the lookup and the append strands the frame; one between two frames
of a flush makes it give up the second; one between the second lookup and the write leaves
the frame sealed under a session that has been replaced. -/
theorem install_loses_frames : ((interleave [.sendTo [1], .install] [0, 1, 1, 0, 0]).Settled ∧
      (interleave [.sendTo [1], .install] [0, 1, 1, 0, 0]).shared =
        { crypto := some 0, derived := 1, pending := [[1]], queued := [[1]],
          flushed := [], direct := [] }) ∧
    ((interleave [.sendTo [1], .sendTo [2], .install, .install]
        [0, 0, 0, 1, 1, 1, 2, 2, 2, 2, 2, 3, 3, 2]).Settled ∧
      (interleave [.sendTo [1], .sendTo [2], .install, .install]
        [0, 0, 0, 1, 1, 1, 2, 2, 2, 2, 2, 3, 3, 2]).shared =
        { crypto := some 1, derived := 2, pending := [], queued := [[1], [2]],
          flushed := [⟨[1], 0, some 0⟩], direct := [] }) ∧
    ((interleave [.sendTo [1], .install, .install] [0, 0, 0, 1, 1, 1, 1, 2, 1, 2, 1]).Settled ∧
      (interleave [.sendTo [1], .install, .install] [0, 0, 0, 1, 1, 1, 1, 2, 1, 2, 1]).shared =
        { crypto := some 1, derived := 2, pending := [], queued := [[1]],
          flushed := [⟨[1], 0, some 1⟩], direct := [] }) := by
  decide

end PilotProtocol.Tunnel
