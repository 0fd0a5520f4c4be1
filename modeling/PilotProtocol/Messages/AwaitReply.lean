import PilotProtocol.Library.Run
import PilotProtocol.Messages.InboxWatch

/-! # Waiting for a reply

`awaitReply` polls the inbox until a reply comes or the wait is over, while messages come
and go, IDs are added and a re-send runs beside it. A poll lists the inbox and then reads
one file after the other, so anything may happen between two reads. The system also notes
when a message was first read and how often the request was sent again.
-/

namespace PilotProtocol.Messages

open Library

structure ReplyWait where
  wait : Int
  resendAfter : Int
  /-- Whether there is a `resend`, and an `observe`. -/
  resend : Bool
  observe : Bool

structure ReplyOutcome where
  reply : Option Message
  resent : Bool
  resendErr : Bool
  replyConns : Nat
  waited : Int

/-- `resendCh`; a result is the acknowledgement's time, or an error. -/
inductive Resend
  | none
  | inFlight
  | done (ackAt : Option Int)
  deriving DecidableEq

/-- How the outcome came about: by a message that names our request, by one that names none
(with whether ours was tagged), or by the end of the wait. -/
inductive Taken
  | ours
  | untagged (tagged : Bool) (time : Int)
  | deadline (time : Int)
  deriving DecidableEq

inductive Phase
  /-- The request is being sent. -/
  | sending
  | polling
  /-- Entries that are left to read, with whether each is a directory. -/
  | scanning (rest : List (String × Bool)) (untagged : Option Message)
  /-- The poll gave no message. -/
  | checking
  | returned (how : Taken)
  | failed
  deriving DecidableEq

structure Awaiting where
  now : Int
  inbox : List InboxFile
  watch : Watch
  cfg : ReplyWait
  ackAt : Int
  deadline : Int
  resendCh : Resend
  lastObserve : Option Int
  out : ReplyOutcome
  phase : Phase
  /-- How often `resend` was started. -/
  resends : Nat
  /-- When each message was first read by a poll. -/
  firstRead : List (Message × Int)
  /-- The messages that were read while no ID was set. -/
  readUnset : List Message

namespace Awaiting

def start (peer : String) (now : Int) (inbox : List InboxFile) (listed echoed : Bool)
    (cfg : ReplyWait) : Awaiting where
  now := now
  inbox := inbox
  watch := .new peer now (if listed then some (inbox.map InboxFile.name) else none) echoed
  cfg := cfg
  ackAt := 0
  deadline := 0
  resendCh := .none
  lastObserve := none
  out := ⟨none, false, false, 0, 0⟩
  phase := .sending
  resends := 0
  firstRead := []
  readUnset := []

inductive Listing
  | entries (order : List (String × Bool))
  | notExist
  | error

inductive Input
  | tick (d : Nat)
  | arrive (name : String) (isDir : Bool) (body : Option Record)
  | delete (name : String)
  | addID (id : String)
  | markTagged
  /-- `awaitReply` is called. -/
  | begin (ackAt : Int)
  | list (listing : Listing)
  | read
  | settle
  | resendDone (ackAt : Option Int)
  | check (observed : Nat)

variable (s : Awaiting)

def file (name : String) : Option InboxFile := s.inbox.find? (·.name = name)

def returnReply (how : Taken) (reply : Option Message) : Awaiting :=
  { s with
    out := { s.out with reply := reply, waited := s.now - s.ackAt }
    phase := .returned how }

/-! ## A poll -/

/-- `sort.Slice` may put entries of one key in any order. -/
def sorted (order : List (String × Bool)) : Prop :=
  order.Pairwise fun a b => ¬ inboxNameKey b.1 < inboxNameKey a.1

instance instDecidableSorted (order : List (String × Bool)) : Decidable (sorted order) :=
  inferInstanceAs (Decidable (List.Pairwise _ _))

def list : Listing → Awaiting
  | .entries order =>
    if order.Perm (s.inbox.map fun f => (f.name, f.isDir)) ∧ sorted order then
      { s with phase := .scanning order none }
    else s
  | .notExist => if s.inbox = [] then { s with phase := .checking } else s
  | .error => { s with phase := .failed }

def noteRead (m : Message) : Awaiting :=
  if (s.firstRead.lookup m).isSome then s else { s with firstRead := (m, s.now) :: s.firstRead }

/-- The message of an entry, if the poll looks at it: the file may be gone by now. -/
def entryMessage (name : String) (isDir : Bool) : Option Message :=
  if isDir then none else (s.file name).bind s.watch.newMessage

def readEntry (name : String) (isDir : Bool) (rest : List (String × Bool))
    (untagged : Option Message) : Awaiting :=
  match s.entryMessage name isDir with
  | none => { s with phase := .scanning rest untagged }
  | some m =>
    match s.watch.classify m.record with
    | .ours => (s.noteRead m).returnReply .ours (some m)
    | .other =>
      { s.noteRead m with
        watch := { s.watch with peerEchoes := true }
        phase := .scanning rest untagged }
    | .untagged =>
      { s.noteRead m with
        readUnset := if m.record.replyTo = "" then s.readUnset else m :: s.readUnset
        phase := .scanning rest (untagged.or (some m)) }

def settle (untagged : Option Message) : Awaiting :=
  match s.watch.untaggedReply untagged s.now with
  | (some m, w) => { s with watch := w }.returnReply (.untagged s.watch.tagged s.now) (some m)
  | (none, w) => { s with watch := w, phase := .checking }

/-! ## After a poll without a reply -/

def observe (observed : Nat) : Awaiting :=
  if s.cfg.observe = true ∧ (s.lastObserve.all fun last => decide (second ≤ s.now - last)) = true then
    { s with
      lastObserve := some s.now
      out := { s.out with replyConns := max s.out.replyConns observed } }
  else s

def collect : Awaiting :=
  match s.resendCh with
  | .done none => { s with resendCh := .none, out := { s.out with resendErr := true } }
  | .done (some ackAt) =>
    { s with
      resendCh := .none
      out := { s.out with resendErr := false }
      deadline := max s.deadline (ackAt + s.cfg.wait.tdiv 2) }
  | _ => s

def startResend : Awaiting :=
  if s.out.resent = false ∧ s.cfg.resend = true ∧ 0 < s.cfg.resendAfter ∧
      s.cfg.resendAfter ≤ s.now - s.ackAt ∧ s.now < s.deadline ∧ s.watch.heldReply = none then
    { s with
      out := { s.out with resent := true }
      resendCh := .inFlight
      resends := s.resends + 1 }
  else s

def endWait : Awaiting :=
  if s.deadline < s.now ∧ s.resendCh = .none then
    s.returnReply (.deadline s.now) s.watch.heldReply
  else { s with phase := .polling }

def check (observed : Nat) : Awaiting := (s.observe observed).collect.startResend.endWait

def step : Input → Awaiting
  | .tick d => { s with now := s.now + d }
  | .arrive name isDir body =>
    if (s.file name).isSome then s
    else { s with inbox := s.inbox ++ [⟨name, isDir, s.now, body⟩] }
  | .delete name => { s with inbox := s.inbox.filter (·.name ≠ name) }
  | .addID id => { s with watch := s.watch.addID id }
  | .markTagged => { s with watch := s.watch.markTagged }
  | .begin ackAt =>
    match s.phase with
    | .sending =>
      { s with
        watch := { s.watch with holdFrom := ackAt }
        ackAt := ackAt
        deadline := ackAt + s.cfg.wait
        phase := .polling }
    | _ => s
  | .list listing =>
    match s.phase with
    | .polling => s.list listing
    | _ => s
  | .read =>
    match s.phase with
    | .scanning ((name, isDir) :: rest) untagged => s.readEntry name isDir rest untagged
    | _ => s
  | .settle =>
    match s.phase with
    | .scanning [] untagged => s.settle untagged
    | _ => s
  | .resendDone ackAt =>
    match s.resendCh with
    | .inFlight => { s with resendCh := .done ackAt }
    | _ => s
  | .check observed =>
    match s.phase with
    | .checking => s.check observed
    | _ => s

variable {s s' : Awaiting} {m : Message}

/-! ## Since the snapshot -/

/-- What holds since the snapshot was taken in `s₀`. -/
structure Since (s₀ s : Awaiting) : Prop where
  peer : s.watch.peer = s₀.watch.peer
  seen : s.watch.seen = s₀.watch.seen
  cutoff : s.watch.cutoff = s₀.watch.cutoff
  ids : s₀.watch.ids ⊆ s.watch.ids
  clock : s₀.now ≤ s.now
  arrived : ∀ f ∈ s.inbox, f ∈ s₀.inbox ∨ s₀.now ≤ f.modTime

theorem Since.refl (s : Awaiting) : Since s s :=
  ⟨rfl, rfl, rfl, List.Subset.refl _, Int.le_refl _, fun _ hf => .inl hf⟩

variable {s₀ : Awaiting}

theorem noteRead_eq (s : Awaiting) (m : Message) :
    ∃ reads, s.noteRead m = { s with firstRead := reads } := by
  unfold noteRead
  split
  · exact ⟨s.firstRead, rfl⟩
  · exact ⟨_, rfl⟩

theorem Since.readEntry (h : Since s₀ s) (name : String) (isDir : Bool)
    (rest : List (String × Bool)) (untagged : Option Message) :
    Since s₀ (s.readEntry name isDir rest untagged) := by
  unfold Awaiting.readEntry
  split
  · exact { h with }
  next m _ =>
    obtain ⟨reads, hreads⟩ := s.noteRead_eq m
    rw [hreads]
    split <;> exact { h with }

theorem Since.check (h : Since s₀ s) (observed : Nat) : Since s₀ (s.check observed) := by
  have hobserve : Since s₀ (s.observe observed) := by
    unfold Awaiting.observe
    split <;> exact { h with }
  have hcollect : Since s₀ (s.observe observed).collect := by
    unfold Awaiting.collect
    split <;> exact { hobserve with }
  have hresend : Since s₀ (s.observe observed).collect.startResend := by
    unfold Awaiting.startResend
    split <;> exact { hcollect with }
  unfold Awaiting.check Awaiting.endWait
  split <;> exact { hresend with }

theorem Since.settle (h : Since s₀ s) (untagged : Option Message) :
    Since s₀ (s.settle untagged) := by
  unfold Awaiting.settle
  cases untagged with
  | none => exact { h with }
  | some m =>
    rcases s.watch.untaggedReply_some m s.now with ⟨heq, -⟩ | ⟨r, since, heq, -, -⟩
    · rw [heq]
      exact { h with }
    · rw [heq]
      cases r <;> exact { h with }

theorem addID_eq (w : Watch) (id : String) : ∃ ids, w.addID id = { w with ids := ids } ∧ w.ids ⊆ ids := by
  unfold Watch.addID
  split
  · exact ⟨w.ids, rfl, List.Subset.refl _⟩
  · exact ⟨_, rfl, fun _ hid => List.mem_insert_of_mem hid⟩

theorem Since.step (h : Since s₀ s) (i : Input) : Since s₀ (s.step i) := by
  cases i <;> simp only [Awaiting.step]
  case tick d =>
    exact { h with clock := h.clock.trans (Int.le_add_of_nonneg_right (Int.natCast_nonneg d)) }
  case arrive name isDir body =>
    split
    · exact h
    · refine { h with arrived := fun f hf => ?_ }
      rcases List.mem_append.mp hf with hold | hnew
      · exact h.arrived f hold
      · rw [List.mem_singleton.mp hnew]
        exact .inr h.clock
  case delete name => exact { h with arrived := fun f hf => h.arrived f (List.mem_filter.mp hf).1 }
  case addID id =>
    obtain ⟨ids, heq, hids⟩ := addID_eq s.watch id
    rw [heq]
    exact { h with ids := fun _ hid => hids (h.ids hid) }
  case markTagged => exact { h with }
  case begin ackAt | resendDone ackAt =>
    split
    · exact { h with }
    · exact h
  case list listing =>
    split
    · cases listing with
      | entries order | notExist =>
        simp only [Awaiting.list]
        split <;> exact { h with }
      | error => exact { h with }
    · exact h
  case read =>
    split
    · exact h.readEntry _ _ _ _
    · exact h
  case settle =>
    split
    · exact h.settle _
    · exact h
  case check observed =>
    split
    · exact h.check observed
    · exact h

end Awaiting

end PilotProtocol.Messages
