import PilotProtocol.Library.Run
import PilotProtocol.Stream.Endpoint

/-! # The states of a connection

Every place that writes a connection's state, as one step per critical section. The
creator's writes, the calls of `acceptFIN` and the last write of `CloseConnection` are
made some time after the decision to make them, so a step may come between. Where a
handler acts on a state it has read before, what it has read is an argument of the step.
-/

namespace PilotProtocol.Stream

open Library

inductive Creation
  | registered
  | synReceived
  | done
  deriving DecidableEq

structure Lifecycle where
  endpoint : Endpoint
  creation : Creation
  /-- The connection is in the table, so that packets find it. -/
  listed : Bool
  /-- The FINs of the calls of `acceptFIN` that have not written the state yet. -/
  accepting : List Seq
  /-- How many calls of `CloseConnection` have not made their last write yet. -/
  closing : Nat
  /-- Every FIN-ACK that `acceptFIN` has sent. -/
  finAcks : List Sent
  /-- The state has been another one than the CLOSED it starts with. -/
  left : Bool

namespace Lifecycle

def registered (now : Nat) : Lifecycle where
  endpoint := Endpoint.new now
  creation := .registered
  listed := true
  accepting := []
  closing := 0
  finAcks := []
  left := false

inductive Input
  /-- The dialer's write of SYN_SENT. -/
  | dial
  /-- The dialer counts the SYN it has sent. -/
  | synSent
  /-- The SYN handler's writes of SYN_RECEIVED and ESTABLISHED. -/
  | synReceived (seq : Seq)
  | synEstablished
  | synAck (pkt : StreamPacket)
  /-- The branch of a FIN up to `acceptFIN`. -/
  | fin (seq : Seq) (receiving : Bool) (now : Nat)
  /-- An ACK packet, whose user data may make a held FIN ready. -/
  | ack (pkt : StreamPacket) (established : Bool) (now accepted : Nat)
  /-- The hold timer's function up to `acceptFIN`. -/
  | expireHeldFIN (wasOpen : Bool) (finHoldIdle now : Nat)
  /-- The critical section of the `k`th pending call of `acceptFIN`. -/
  | acceptFIN (k now : Nat)
  | beginClose (stopping : Bool) (now : Nat)
  | finishClose (now : Nat)
  /-- A write of CLOSED: an RST, a SYN of a restarted peer, the zero-window limit, a full
  accept queue, shutdown. -/
  | abort
  | retransmitUnacked (now draw : Nat)
  | transmitSegment (data : Bytes) (now : Nat) (sendOk : Bool)
  | releaseHeldFIN (now : Nat)
  | removeConnection

/-- Registers a call of `acceptFIN`: the hold has ended and the receive buffer is closed. -/
def startAccept (s : Lifecycle) (finSeq : Seq) : Lifecycle :=
  { s with
    endpoint := s.endpoint.stopFINHold.closeRecvBuf
    accepting := s.accepting ++ [finSeq] }

def receiveFIN (s : Lifecycle) (seq : Seq) (receiving : Bool) (now : Nat) : Lifecycle :=
  if receiving && !s.endpoint.receiver.recvClosed && seqAfter seq s.endpoint.receiver.expectedSeq then
    { s with endpoint := (s.endpoint.holdFIN seq now).sendDelayedACK.1 }
  else s.startAccept seq

def receiveACK (s : Lifecycle) (pkt : StreamPacket) (established : Bool) (now accepted : Nat) :
    Lifecycle :=
  let acked := { s with endpoint := (s.endpoint.acknowledge pkt now).1 }
  match decodeSACK pkt.payload with
  | some blocks => { acked with endpoint := acked.endpoint.processSACK blocks }
  | none =>
    if pkt.payload.isEmpty || !established then acked
    else
      let delivered := { acked with endpoint := acked.endpoint.deliver pkt now accepted }
      if delivered.endpoint.finReady then
        { delivered with endpoint := delivered.endpoint.stopFINHold }.startAccept
          delivered.endpoint.finSeq
      else
        { delivered with
          endpoint := { delivered.endpoint with
            finHeard := if delivered.endpoint.finPending then now
              else delivered.endpoint.finHeard }.ackDelivery.1 }

def expire (s : Lifecycle) (wasOpen : Bool) (finHoldIdle now : Nat) : Lifecycle :=
  if !s.endpoint.finPending then s
  else if !wasOpen then { s with endpoint := s.endpoint.stopFINHold }
  else if now - s.endpoint.finHeard < finHoldIdle then s
  else s.startAccept s.endpoint.finSeq

def found (s : Lifecycle) (next : Lifecycle) : Lifecycle := if s.listed then next else s

def write (s : Lifecycle) : Input → Lifecycle
  | .dial =>
    if s.creation = .registered then
      { s with endpoint := s.endpoint.setState .synSent, creation := .done }
    else s
  | .synSent =>
    { s with
      endpoint := { s.endpoint with
        sender := { s.endpoint.sender with sendSeq := s.endpoint.sender.sendSeq + 1 } } }
  | .synReceived seq =>
    if s.creation = .registered then
      { s with
        endpoint := { s.endpoint.setState .synReceived with
          recvAck := seq + 1
          receiver := { s.endpoint.receiver with expectedSeq := seq + 1 } }
        creation := .synReceived }
    else s
  | .synEstablished =>
    if s.creation = .synReceived then
      { s with
        endpoint := { s.endpoint with
          sender := { s.endpoint.sender with
            sendSeq := s.endpoint.sender.sendSeq + 1
            state := .established } }
        creation := .done }
    else s
  | .synAck pkt => s.found { s with endpoint := (s.endpoint.handleSynAck pkt).1 }
  | .fin seq receiving now => s.found (s.receiveFIN seq receiving now)
  | .ack pkt established now accepted => s.found (s.receiveACK pkt established now accepted)
  | .expireHeldFIN wasOpen finHoldIdle now => s.expire wasOpen finHoldIdle now
  | .acceptFIN k now =>
    match s.accepting[k]? with
    | none => s
    | some finSeq =>
      let (endpoint, sent) := s.endpoint.enterTimeWait finSeq now
      { s with
        endpoint := endpoint
        accepting := s.accepting.eraseIdx k
        finAcks := s.finAcks ++ sent }
  | .beginClose stopping now =>
    { s with endpoint := (s.endpoint.beginClose stopping now).1, closing := s.closing + 1 }
  | .finishClose now =>
    if s.closing = 0 then s
    else { s with endpoint := s.endpoint.finishClose now, closing := s.closing - 1 }
  | .abort => { s with endpoint := s.endpoint.setState .closed }
  | .retransmitUnacked now draw =>
    { s with endpoint := (s.endpoint.retransmitUnacked now draw).1 }
  | .transmitSegment data now sendOk =>
    { s with endpoint := (s.endpoint.transmitSegment data now sendOk).1 }
  | .releaseHeldFIN now =>
    { s with endpoint := { s.endpoint with sender := (s.endpoint.sender.releaseHeldFIN now).1 } }
  | .removeConnection => { s with listed := false }

def step (s : Lifecycle) (i : Input) : Lifecycle :=
  { s.write i with left := s.left || decide ((s.write i).endpoint.state ≠ .closed) }

def Ended (s : Lifecycle) : Prop := s.endpoint.state = .timeWait ∨ s.endpoint.state = .closed

instance (s : Lifecycle) : Decidable s.Ended :=
  inferInstanceAs (Decidable (s.endpoint.state = .timeWait ∨ s.endpoint.state = .closed))

/-- The creator's writes find the state as the creator has left it, the last write of
`CloseConnection` does not find a connection that has ended, and `acceptFIN` does not find
a CLOSED one that has answered a FIN before. -/
def Orderly (s : Lifecycle) : Input → Prop
  | .dial | .synReceived _ => s.creation = .registered → s.left = false
  | .synEstablished => s.creation = .synReceived → s.endpoint.state = .synReceived
  | .finishClose _ => s.closing ≠ 0 → ¬ s.Ended
  | .acceptFIN _ _ => s.endpoint.state = .closed → s.finAcks = []
  | _ => True

instance (s : Lifecycle) (i : Input) : Decidable (s.Orderly i) := by
  cases i <;> dsimp only [Orderly] <;> infer_instance

/-! ## What one step writes -/

variable {i : Input} (s : Lifecycle)

theorem receiveFIN_quiet (seq : Seq) (receiving : Bool) (now : Nat) :
    (s.receiveFIN seq receiving now).endpoint.state = s.endpoint.state ∧
      (s.receiveFIN seq receiving now).finAcks = s.finAcks := by
  unfold receiveFIN
  split <;> exact ⟨rfl, rfl⟩

theorem receiveACK_quiet (pkt : StreamPacket) (established : Bool) (now accepted : Nat) :
    (s.receiveACK pkt established now accepted).endpoint.state = s.endpoint.state ∧
      (s.receiveACK pkt established now accepted).finAcks = s.finAcks := by
  have hacked := s.endpoint.acknowledge_state pkt now
  unfold receiveACK
  dsimp only
  split
  · exact ⟨hacked, rfl⟩
  split
  · exact ⟨hacked, rfl⟩
  split
  · exact ⟨hacked, rfl⟩
  · obtain ⟨_, _, _, _, heq, -⟩ := Endpoint.ackDelivery_eq
      { ((s.endpoint.acknowledge pkt now).1.deliver pkt now accepted) with
        finHeard := if ((s.endpoint.acknowledge pkt now).1.deliver pkt now accepted).finPending then now
          else ((s.endpoint.acknowledge pkt now).1.deliver pkt now accepted).finHeard }
    rw [heq]
    exact ⟨hacked, rfl⟩

theorem expire_quiet (wasOpen : Bool) (finHoldIdle now : Nat) :
    (s.expire wasOpen finHoldIdle now).endpoint.state = s.endpoint.state ∧
      (s.expire wasOpen finHoldIdle now).finAcks = s.finAcks := by
  unfold expire
  split_ifs <;> exact ⟨rfl, rfl⟩

theorem found_quiet {s next : Lifecycle}
    (h : next.endpoint.state = s.endpoint.state ∧ next.finAcks = s.finAcks) :
    (s.found next).endpoint.state = s.endpoint.state ∧ (s.found next).finAcks = s.finAcks := by
  unfold found
  split
  · exact h
  · exact ⟨rfl, rfl⟩

def Enlivens (s : Lifecycle) : Input → Prop
  | .dial | .synReceived _ => s.creation = .registered
  | .synEstablished => s.creation = .synReceived
  | .synAck _ => s.endpoint.state = .synSent
  | .finishClose _ => s.closing ≠ 0
  | _ => False

/-- The step is a call of `acceptFIN` that gets to write the state. -/
def Answers (s : Lifecycle) (i : Input) : Prop :=
  (∃ k now, i = .acceptFIN k now) ∧ (s.write i).endpoint.state = .timeWait ∧
    ∃ sent, (s.write i).finAcks = s.finAcks ++ sent ∧ sent.length ≤ 1 ∧
      (s.endpoint.state = .timeWait → sent = [])

/-- A step sends no FIN-ACK and leaves the state, closes the connection or writes a live
state; or it is the critical section of `acceptFIN`. -/
theorem write_cases (i : Input) :
    (s.write i).finAcks = s.finAcks ∧ ((s.write i).endpoint.state = s.endpoint.state ∨
      (s.write i).endpoint.state = .closed ∨ s.Enlivens i) ∨ s.Answers i := by
  cases i with
  | dial | synReceived seq =>
    simp only [write]
    split
    next hreg => exact .inl ⟨rfl, .inr (.inr hreg)⟩
    next => exact .inl ⟨rfl, .inl rfl⟩
  | synSent | transmitSegment data now sendOk | removeConnection => exact .inl ⟨rfl, .inl rfl⟩
  | synEstablished =>
    simp only [write]
    split
    next hsyn => exact .inl ⟨rfl, .inr (.inr hsyn)⟩
    next => exact .inl ⟨rfl, .inl rfl⟩
  | synAck pkt =>
    by_cases hsyn : s.endpoint.state = .synSent
    · refine .inl ⟨?_, .inr (.inr hsyn)⟩
      simp only [write, found]
      split <;> rfl
    · -- the handler looks at the state in the section that writes it
      simp only [write, found, Endpoint.handleSynAck, if_pos hsyn]
      split <;> exact .inl ⟨rfl, .inl rfl⟩
  | fin seq receiving now =>
    obtain ⟨hstate, hacks⟩ := found_quiet (s.receiveFIN_quiet seq receiving now)
    exact .inl ⟨hacks, .inl hstate⟩
  | ack pkt established now accepted =>
    obtain ⟨hstate, hacks⟩ := found_quiet (s.receiveACK_quiet pkt established now accepted)
    exact .inl ⟨hacks, .inl hstate⟩
  | expireHeldFIN wasOpen finHoldIdle now =>
    obtain ⟨hstate, hacks⟩ := s.expire_quiet wasOpen finHoldIdle now
    exact .inl ⟨hacks, .inl hstate⟩
  | acceptFIN k now =>
    cases hk : s.accepting[k]? with
    | none => exact .inl ⟨by simp only [write, hk], .inl (by simp only [write, hk])⟩
    | some finSeq =>
      refine .inr ⟨⟨k, now, rfl⟩, by simp only [write, hk]; rfl,
        (s.endpoint.enterTimeWait finSeq now).2, by simp only [write, hk], ?_, fun htime => ?_⟩
      · simp only [Endpoint.enterTimeWait]
        split <;> simp
      · simp only [Endpoint.enterTimeWait, if_pos htime]
  | beginClose stopping now => exact .inl ⟨rfl, .inl (s.endpoint.beginClose_state stopping now)⟩
  | finishClose now =>
    simp only [write]
    split
    next => exact .inl ⟨rfl, .inl rfl⟩
    next hclosing => exact .inl ⟨rfl, .inr (.inr hclosing)⟩
  | abort => exact .inl ⟨rfl, .inr (.inl rfl)⟩
  | retransmitUnacked now draw =>
    rcases (s.endpoint.sender.retransmitUnacked_timesOut now draw).state with hstate | hstate
    · exact .inl ⟨rfl, .inl hstate⟩
    · exact .inl ⟨rfl, .inr (.inl hstate)⟩
  | releaseHeldFIN now =>
    exact .inl ⟨rfl, .inl (Endpoint.releaseHeldFIN_state s.endpoint.sender now)⟩

/-! ## Runs -/

theorem not_enlivens {s : Lifecycle} (horderly : s.Orderly i) (hleft : s.left = true)
    (h : s.Ended) : ¬ s.Enlivens i := by
  intro hlive
  cases i with
  | dial | synReceived seq => exact absurd (horderly hlive) (by simp [hleft])
  | synEstablished => rcases h with h | h <;> exact (nomatch h.symm.trans (horderly hlive))
  | synAck pkt => rcases h with h | h <;> exact (nomatch h.symm.trans hlive)
  | finishClose now => exact horderly hlive h
  | _ => exact hlive

theorem step_ended {s : Lifecycle} (horderly : s.Orderly i) (hleft : s.left = true) (h : s.Ended) :
    (s.step i).left = true ∧ (s.step i).Ended := by
  refine ⟨by simp [step, hleft], ?_⟩
  rcases s.write_cases i with ⟨-, hstate | hstate | hlive⟩ | hanswer
  · unfold Ended
    rwa [show (s.step i).endpoint.state = s.endpoint.state from hstate]
  · exact .inr hstate
  · exact absurd hlive (not_enlivens horderly hleft h)
  · exact .inl hanswer.2.1

/-- At most one FIN-ACK has gone out, and none before the connection ended. -/
structure Inv (s : Lifecycle) : Prop where
  once : s.finAcks.length ≤ 1
  answered : s.finAcks ≠ [] → s.left = true ∧ s.Ended

theorem step_inv {s : Lifecycle} (h : s.Inv) (horderly : s.Orderly i) : (s.step i).Inv := by
  rcases s.write_cases i with ⟨hacks, -⟩ | ⟨⟨k, now, rfl⟩, htime, sent, hacks, hone, hsilent⟩
  · have hsame : (s.step i).finAcks = s.finAcks := hacks
    refine ⟨hsame ▸ h.once, fun hne => ?_⟩
    obtain ⟨hleft, hended⟩ := h.answered (hsame ▸ hne)
    exact step_ended horderly hleft hended
  · have hended : (s.step (.acceptFIN k now)).left = true ∧ (s.step (.acceptFIN k now)).Ended :=
      ⟨by simp [step, htime], .inl htime⟩
    refine ⟨?_, fun _ => hended⟩
    -- a FIN-ACK after the first would need TIME_WAIT or CLOSED, where none is sent
    have hnone : s.finAcks ≠ [] → sent = [] := by
      intro hne
      rcases (h.answered hne).2 with hstate | hstate
      · exact hsilent hstate
      · exact absurd (horderly hstate) hne
    show ((s.write (.acceptFIN k now)).finAcks).length ≤ 1
    rw [hacks]
    by_cases hempty : s.finAcks = []
    · rwa [hempty]
    · rw [hnone hempty, List.append_nil]
      exact h.once

/-- In every orderly run of a connection, once it has left its initial state and reached
TIME_WAIT or CLOSED it stays there, and at most one FIN-ACK is sent for it. -/
theorem ended_final (now : Nat) {inputs : List Input}
    (horderly : AllSteps step Orderly (registered now) inputs) :
    (∀ first second : List Input, first ++ second = inputs →
      (first.foldl step (registered now)).left = true →
      (first.foldl step (registered now)).Ended → (inputs.foldl step (registered now)).Ended) ∧
    (inputs.foldl step (registered now)).finAcks.length ≤ 1 := by
  constructor
  · rintro first second rfl hleft hended
    obtain ⟨-, hrest⟩ := allSteps_append.mp horderly
    rw [List.foldl_append]
    exact (run_invariant (fun s => s.left = true ∧ s.Ended)
      (fun s i h hi => step_ended hi h.1 h.2) ⟨hleft, hended⟩ hrest).2
  · have hinv := run_invariant Inv (fun _ _ h hi => step_inv h hi)
      (s := registered now) ⟨by simp [registered], by simp [registered]⟩ horderly
    exact hinv.once

/-- A dialled connection whose peer closes it: handshake, FIN, FIN-ACK. -/
def peerCloses : List Input :=
  [.dial, .synSent, .synAck ⟨true, true, false, false, 0, 1, 512, []⟩, .fin 1 true 1,
    .acceptFIN 0 1]

def finAgain : List Input := [.fin 1 false 3, .acceptFIN 0 3]

def applicationCloses : List Input := [.beginClose false 2, .finishClose 2]

theorem repeated_fin_answered_once : ((peerCloses ++ finAgain).foldl step (registered 0)).Ended ∧
    ((peerCloses ++ finAgain).foldl step (registered 0)).finAcks.length ≤ 1 :=
  have horderly : AllSteps step Orderly (registered 0) (peerCloses ++ finAgain) := by decide
  ⟨(ended_final 0 horderly).1 peerCloses finAgain rfl (by decide) (by decide),
    (ended_final 0 horderly).2⟩

/-- The application closes the connection after the peer has: it is in FIN_WAIT again, and
the peer's next FIN is answered with a second FIN-ACK. -/
theorem close_after_fin_revives : (peerCloses.foldl step (registered 0)).left = true ∧
    (peerCloses.foldl step (registered 0)).endpoint.state = .timeWait ∧
    ((peerCloses ++ applicationCloses).foldl step (registered 0)).endpoint.state = .finWait ∧
    ((peerCloses ++ applicationCloses ++ finAgain).foldl step (registered 0)).finAcks =
      [.finAck 1 2, .finAck 1 2] := by
  decide

end Lifecycle

end PilotProtocol.Stream
