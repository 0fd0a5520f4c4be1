import Mathlib.Algebra.Order.Ring.Int
import Mathlib.Data.List.Basic

/-! # Watching the inbox for a reply

`inboxWatch` finds the reply to one request among the messages that arrive after its
snapshot of the inbox. A message is a parsed record together with the name of its file; of
a record only what the watch reads is kept. Times are nanoseconds.
-/

namespace PilotProtocol.Messages

structure Record where
  sender : String
  replyTo : String
  /-- `received_at`, where it is a time. -/
  receivedAt : Option Int
  deriving DecidableEq

structure Message where
  file : String
  record : Record
  deriving DecidableEq

/-- A file of the inbox. It has no body if it cannot be read as a record. -/
structure InboxFile where
  name : String
  isDir : Bool
  modTime : Int
  body : Option Record
  deriving DecidableEq

def untaggedReplyGrace : Int := 750000000

def second : Int := 1000000000

/-- The sender is `from` in the source; the empty one stands for any. `echoedBefore` is
what the scan of the sender's earlier messages finds. -/
structure Watch where
  peer : String
  cutoff : Int
  seen : List String
  echoedBefore : Bool
  ids : List String
  tagged : Bool
  peerEchoes : Bool
  held : Option Message
  heldSince : Int
  holdFrom : Int

/-- `inboxNameKey`: the name from its first dash on, which sorts by time of arrival. -/
def inboxNameKey (name : String) : List Char :=
  let key := name.toList.dropWhile (· ≠ '-')
  if key = [] then name.toList else key

namespace Watch

def new (peer : String) (now : Int) (listing : Option (List String)) (echoed : Bool) : Watch where
  peer := peer
  cutoff := now - second
  seen := listing.getD []
  echoedBefore := listing.isSome && echoed
  ids := []
  tagged := false
  peerEchoes := false
  held := none
  heldSince := 0
  holdFrom := 0

def knownToEcho (w : Watch) : Bool := w.echoedBefore

def addID (w : Watch) (id : String) : Watch :=
  if id = "" then w else { w with ids := w.ids.insert id }

def markTagged (w : Watch) : Watch := { w with tagged := true }

inductive ReplyKind
  | untagged
  | ours
  | other

def classify (w : Watch) (r : Record) : ReplyKind :=
  if r.replyTo = "" then .untagged
  else if w.ids = [] then .untagged
  else if r.replyTo ∈ w.ids then .ours
  else .other

/-- The message of a file that a poll looks at: one that is new and from the peer. -/
def newMessage (w : Watch) (f : InboxFile) : Option Message :=
  if f.isDir = true ∨ f.name ∈ w.seen then none
  else if ¬ w.cutoff < f.modTime then none
  else
    match f.body with
    | none => none
    | some r => if w.peer ≠ "" ∧ r.sender ≠ w.peer then none else some ⟨f.name, r⟩

/-- From when a message is held that is first held at `now`. -/
def holdStart (w : Watch) (m : Message) (now : Int) : Int :=
  let since :=
    match m.record.receivedAt with
    | some received => if received < now then received else now
    | none => now
  if since < w.holdFrom then w.holdFrom else since

/-- Whether the oldest untagged message is taken now. The time from which a message is
held is set only if none was held before. -/
def untaggedReply (w : Watch) (msg : Option Message) (now : Int) : Option Message × Watch :=
  match msg with
  | none => (none, { w with held := none })
  | some m =>
    if !w.tagged || (!w.peerEchoes && !w.knownToEcho) then (some m, w)
    else
      let since := if w.held = none then w.holdStart m now else w.heldSince
      let w' := { w with held := some m, heldSince := since }
      if w.peerEchoes = true ∨ now - since < untaggedReplyGrace then (none, w') else (some m, w')

def heldReply (w : Watch) : Option Message :=
  if w.peerEchoes then none else w.held

/-! ## What the functions give -/

variable {w : Watch} {f : InboxFile} {m : Message} {now : Int}

theorem newMessage_eq_some (h : w.newMessage f = some m) :
    m.file = f.name ∧ m.file ∉ w.seen ∧ (w.peer = "" ∨ m.record.sender = w.peer) := by
  unfold newMessage at h
  repeat' split at h
  all_goals cases h
  next hnew _ _ _ _ hpeer =>
    refine ⟨rfl, fun hseen => hnew (.inr hseen), ?_⟩
    by_cases hany : w.peer = ""
    · exact .inl hany
    · exact .inr (not_not.mp fun hne => hpeer ⟨hany, hne⟩)

theorem mem_ids_of_ours {r : Record} (h : w.classify r = .ours) : r.replyTo ∈ w.ids := by
  unfold classify at h
  split_ifs at h with _ _ hid
  exact hid

theorem holdFrom_le_holdStart (w : Watch) (m : Message) (now : Int) :
    w.holdFrom ≤ w.holdStart m now := by
  unfold holdStart
  cases m.record.receivedAt <;> dsimp only <;> split_ifs <;> omega

theorem arrived_le_holdStart {read : Int} (hread : read ≤ now) :
    m.record.receivedAt.elim read (min read) ≤ w.holdStart m now := by
  unfold holdStart
  cases m.record.receivedAt with
  | none =>
    dsimp only [Option.elim_none]
    split_ifs <;> omega
  | some received =>
    dsimp only [Option.elim_some]
    split_ifs <;> omega

/-- What `untaggedReply` does with a message: it takes it at once, or holds it, and then
takes it after the grace period from a peer that has not named another request. -/
theorem untaggedReply_some (w : Watch) (m : Message) (now : Int) :
    (w.untaggedReply (some m) now = (some m, w) ∧
      (w.tagged = true → w.peerEchoes = false ∧ w.echoedBefore = false)) ∨
    ∃ r since, w.untaggedReply (some m) now = (r, { w with held := some m, heldSince := since }) ∧
      since = (if w.held = none then w.holdStart m now else w.heldSince) ∧
      (r = none ∨ r = some m ∧ w.peerEchoes = false ∧ untaggedReplyGrace ≤ now - since) := by
  unfold untaggedReply
  dsimp only
  split
  next hopen =>
    refine .inl ⟨rfl, fun htagged => ?_⟩
    simpa [htagged, knownToEcho] using hopen
  next =>
    refine .inr ?_
    generalize (if w.held = none then w.holdStart m now else w.heldSince) = since
    split
    · exact ⟨none, since, rfl, rfl, .inl rfl⟩
    next htake =>
      rw [not_or] at htake
      exact ⟨some m, since, rfl, rfl, .inr ⟨rfl, Bool.eq_false_iff.mpr htake.1, Int.not_lt.mp htake.2⟩⟩

end Watch

end PilotProtocol.Messages
