import PilotProtocol.Stream.AckRange
import PilotProtocol.Stream.Flushers

/-! # The send window

A writer sends a segment only after it has found the window open; the flusher of a held
remainder does not look. Each short write behind an unacknowledged short segment leaves a
remainder with a flusher of its own, so with the window shut the flushers may send one segment
after another. As long as a write begins only when nothing is held, and a short one only while
the window is open, a flusher sends at most one segment past the window.
-/

namespace PilotProtocol.Stream

open Library

def maxSegmentsOutstanding : Nat := maxOOOBuf

namespace Connection

variable {c : Connection} {peerRecvWin : Int}

/-- `peerRecvWin` is -1 before the peer has advertised a window. -/
def effectiveWindow (c : Connection) (peerRecvWin : Int) : Int :=
  let win := if c.congWin ≤ 0 then (initialCongWin : Int) else c.congWin
  if 0 ≤ peerRecvWin ∧ peerRecvWin < win then peerRecvWin else win

def windowAvailable (c : Connection) (peerRecvWin : Int) : Bool :=
  let bytes := ((c.unacked.filter fun e => !e.sacked || c.fastRecovery).map (·.data.length)).sum
  if c.effectiveWindow peerRecvWin ≤ bytes then false
  else if 0 ≤ peerRecvWin ∧ peerRecvWin / sendSegmentSize ≤ c.unacked.length then false
  else decide (c.unacked.length < maxSegmentsOutstanding)

theorem windowAvailable_length (h : c.windowAvailable peerRecvWin = true) :
    c.unacked.length < maxSegmentsOutstanding := by
  unfold windowAvailable at h
  dsimp only at h
  split at h
  · cases h
  split at h
  · cases h
  · exact of_decide_eq_true h

theorem windowAvailable_zero (c : Connection) : c.windowAvailable 0 = false := by
  unfold windowAvailable
  dsimp only
  split
  · rfl
  split
  · rfl
  next hroom => exact absurd ⟨Int.le_refl 0, Int.natCast_nonneg _⟩ hroom

end Connection

namespace Sending

variable {s s' : Sending} {i : Input}

/-! ## The queue -/

theorem length_of_segments {entries entries' : List RetxEntry}
    (h : entries'.map RetxEntry.segment = entries.map RetxEntry.segment) :
    entries'.length = entries.length := by
  have hlength := congrArg List.length h
  rwa [List.length_map, List.length_map] at hlength

theorem Acts.unacked (h : Acts s i s') (hopen : i.onOpen = true) :
    s'.conn.unacked.length ≤ s.conn.unacked.length + (s.sends i).length := by
  cases h with
  | trackFailed h | trackTail h | trackFull h | trackFlusher h | trackCloser h | immediateTrack h =>
    simp [Sending.track, Connection.trackSend, Sending.sends, h, Writer.reserved,
      Holder.reserved, Point.reserved]
  | processAck =>
    show (s.conn.processAck _ _ _).1.unacked.length ≤ s.conn.unacked.length
    rcases s.conn.processAck_restamps _ _ _ with ⟨-, h⟩ | ⟨-, h⟩
    · exact (length_of_segments (segments_of_marked h.queue)).le
    · rw [length_of_segments (segments_of_marked h.queue)]
      exact List.length_filter_le _ _
  | processSACK => exact (length_of_segments (s.conn.processSACK_segments _)).le
  | retransmitUnacked => exact (length_of_segments (s.conn.retransmitUnacked_segments _ _)).le
  | giveUp | immediateGiveUp | closerFIN | sendFIN => cases hopen
  | _ => exact Nat.le_add_right _ _

end Sending

/-! ## Runs -/

/-- The goroutines that send on an open connection, the peer's window, and what the code does
not record. -/
structure Windowed where
  sys : Sending
  peerRecvWin : Int
  /-- The writer with a segment in hand has found the window open. -/
  checked : Bool
  /-- How many remainders flushers have sent since the window was last open. -/
  past : Nat
  /-- How many segments were sent since the peer's window is zero. -/
  zeroSent : Nat

namespace Windowed

inductive Input
  | send (i : Sending.Input) (h : i.onOpen = true)
  /-- A writer looks whether the window is open. -/
  | windowAvailable
  /-- A packet with the peer's window. -/
  | update (window : UInt16)

variable {w : Windowed} {i : Sending.Input}

def available (w : Windowed) : Bool := w.sys.conn.windowAvailable w.peerRecvWin

/-- Only a writer that has found the window open goes on. -/
def answered (checked : Bool) : Sending.Input → Sending.Input
  | .reserve _ => .reserve checked
  | .immediateReserve _ => .immediateReserve checked
  | i => i

/-- The segments that a flusher sends with the window shut. -/
def sentPast (w : Windowed) (i : Sending.Input) : Nat :=
  if w.sys.holder.isFlusher && !w.available then (w.sys.sends i).length else 0

def advance (w : Windowed) (i : Sending.Input) : Windowed :=
  { w with
    sys := w.sys.step i
    checked := w.checked && (w.sys.sends i).isEmpty
    past := w.past + w.sentPast i
    zeroSent := if w.peerRecvWin = 0 then w.zeroSent + (w.sys.sends i).length else w.zeroSent }

/-- An open window ends the count of what was sent past it. -/
def settle (w : Windowed) : Windowed := { w with past := if w.available then 0 else w.past }

def advertise (w : Windowed) (window : UInt16) : Windowed :=
  { w with
    peerRecvWin := window.toNat * sendSegmentSize
    zeroSent := if window = 0 then w.zeroSent else 0 }

def step (w : Windowed) : Input → Windowed
  | .send i _ => (w.advance (answered w.checked i)).settle
  | .windowAvailable =>
    if w.sys.hands.atWindow && !w.sys.hands.numbered then { w with checked := w.available } else w
  | .update window => (w.advertise window).settle

def begins : Input → Option Bytes
  | .send (.lockWrite data) _ => some data
  | _ => none

/-- With Nagle's algorithm a write begins only when nothing is held or being sent, and one that
is shorter than a segment only while the window is open. -/
def Careful (w : Windowed) (i : Input) : Prop :=
  ∀ data ∈ begins i, w.sys.noDelay = false →
    w.sys.nagleBuf = [] ∧ w.sys.holder = .none ∧
      (data.length < sendSegmentSize → w.available = true)

instance instDecidableCareful (w : Windowed) (i : Input) : Decidable (w.Careful i) :=
  inferInstanceAs (Decidable (∀ data ∈ begins i, _ → _))

structure Inv (w : Windowed) : Prop where
  calm : w.sys.hands.Calm
  mode : ∀ b, w.sys.writer.mode = some b → b = w.sys.noDelay
  immediate : w.sys.noDelay = true → w.sys.holder = .none ∧ w.sys.flushers = []
  checked : w.checked = true → w.sys.hands.atWindow = true
  numbered : w.sys.hands.numbered = true → w.checked = true
  room : w.checked = true →
    w.sys.conn.unacked.length < maxSegmentsOutstanding ∧ w.past = 0 ∧ w.zeroSent = 0
  bound : w.sys.conn.unacked.length ≤ maxSegmentsOutstanding + w.past
  past : w.past ≤ 1
  zeroSent : w.zeroSent ≤ 1
  shut : 0 < w.past → w.available = false
  zero : 0 < w.zeroSent → w.peerRecvWin = 0
  spent : 0 < w.past ∨ 0 < w.zeroSent → w.sys.hands.Spent

theorem onOpen_answered (checked : Bool) (h : i.onOpen = true) : (answered checked i).onOpen = true := by
  cases i <;> exact h

theorem Inv.unavailable (h : w.Inv) (hspent : 0 < w.past ∨ 0 < w.zeroSent) : w.available = false := by
  rcases hspent with hpast | hzero
  · exact h.shut hpast
  · unfold available
    rw [h.zero hzero]
    exact w.sys.conn.windowAvailable_zero

/-- A writer sends a segment only after it has found the window open; a flusher does so with
the window shut only if nothing was sent past it before. -/
theorem Inv.sends (h : w.Inv) (hsends : w.sys.sends i ≠ []) :
    w.checked = true ∨ w.sys.holder.isFlusher = true ∧ w.past = 0 ∧ w.zeroSent = 0 := by
  cases i with
  | track now sendOk =>
    have hreserved : w.sys.holder.reserved ≠ [] := hsends
    cases hp : w.sys.holder with
    | none =>
      rw [hp] at hreserved
      exact absurd rfl hreserved
    | writer force p =>
      refine .inl (h.numbered ?_)
      rw [hp] at hreserved
      unfold Hands.numbered
      rw [Sending.hands_holder, hp]
      cases p with
      | tracking seq seg tail => rfl
      | _ => exact absurd rfl hreserved
    | flusher force p =>
      refine .inr ⟨rfl, ?_⟩
      by_contra hsent
      have hawake := (h.spent (by omega)).awake
      rw [Sending.hands_holder, hp] at hawake
      cases hawake
    | closer rest p =>
      have hcloser := h.calm.noCloser
      rw [Sending.hands_holder, hp] at hcloser
      cases hcloser
  | immediateTrack now sendOk =>
    have hreserved : w.sys.writer.reserved ≠ [] := hsends
    refine .inl (h.numbered ?_)
    unfold Hands.numbered
    rw [Sending.hands_writer, Bool.or_eq_true]
    refine .inr ?_
    cases hlist : w.sys.writer.reserved with
    | nil => exact absurd hlist hreserved
    | cons p rest => rfl
  | _ => exact absurd rfl hsends

theorem sends_length (w : Windowed) (i : Sending.Input) : (w.sys.sends i).length ≤ 1 := by
  cases i with
  | track now sendOk =>
    show w.sys.holder.reserved.length ≤ 1
    unfold Holder.reserved Point.reserved
    repeat' split
    all_goals simp
  | immediateTrack now sendOk =>
    show w.sys.writer.reserved.length ≤ 1
    unfold Writer.reserved
    split
    all_goals simp
  | _ => exact Nat.zero_le _

theorem Inv.begins_free (h : w.Inv)
    (hcareful : ∀ data, i = .lockWrite data → w.sys.noDelay = false →
      w.sys.nagleBuf = [] ∧ w.sys.holder = .none) (data : Bytes) (hi : i = .lockWrite data) :
    w.sys.holder.isFlusher = false ∧ w.sys.flushers = [] ∧
      (w.sys.noDelay = false → w.sys.nagleBuf = []) := by
  cases hmode : w.sys.noDelay with
  | true =>
    obtain ⟨hholder, hflushers⟩ := h.immediate hmode
    rw [hholder]
    exact ⟨rfl, hflushers, nofun⟩
  | false =>
    obtain ⟨hbuf, hholder⟩ := hcareful data hi hmode
    refine ⟨by rw [hholder]; rfl, ?_, fun _ => hbuf⟩
    by_contra hne
    exact (h.calm.asleep hne).2.2 hbuf

theorem available_length (h : w.available = true) :
    w.sys.conn.unacked.length < maxSegmentsOutstanding :=
  Connection.windowAvailable_length h

theorem settle_past_le (w : Windowed) : w.settle.past ≤ w.past := by
  unfold settle
  split
  · exact Nat.zero_le _
  · exact le_rfl

theorem settle_bound (h : w.sys.conn.unacked.length ≤ maxSegmentsOutstanding + w.past) :
    w.settle.sys.conn.unacked.length ≤ maxSegmentsOutstanding + w.settle.past := by
  unfold settle
  split
  next havailable => exact (available_length havailable).le
  next => exact h

theorem settle_shut (h : 0 < w.settle.past) : w.settle.available = false := by
  unfold settle at h
  split at h
  · cases h
  next hshut => exact Bool.eq_false_iff.mpr hshut

theorem sentPast_le (w : Windowed) (i : Sending.Input) : w.sentPast i ≤ (w.sys.sends i).length := by
  unfold sentPast
  split
  · exact le_rfl
  · exact Nat.zero_le _

theorem advance_past_le (h : w.Inv) (hopen : i.onOpen = true) : w.past + w.sentPast i ≤ 1 ∧
      (w.sys.step i).conn.unacked.length ≤ maxSegmentsOutstanding + (w.past + w.sentPast i) := by
  have hunacked := (w.sys.step_acts i).unacked hopen
  have hone := w.sends_length i
  have hsent := w.sentPast_le i
  have hle := h.past
  have hbound := h.bound
  by_cases hnone : w.sys.sends i = []
  · rw [hnone, List.length_nil] at hunacked hsent
    omega
  · rcases h.sends hnone with hchecked | ⟨hflusher, hpast, -⟩
    · obtain ⟨hroom, hpast, -⟩ := h.room hchecked
      omega
    · cases havailable : w.available with
      | true =>
        have hroom := available_length havailable
        omega
      | false =>
        have hall : w.sentPast i = (w.sys.sends i).length := by
          unfold sentPast
          rw [hflusher, havailable]
          rfl
        omega

theorem advance_zeroSent (hnone : w.sys.sends i = []) : (w.advance i).zeroSent = w.zeroSent := by
  unfold advance
  rw [hnone]
  exact ite_self _

theorem advance_zeroSent_le (h : w.Inv) (i : Sending.Input) : (w.advance i).zeroSent ≤ 1 := by
  have hle := h.zeroSent
  have hone := w.sends_length i
  unfold advance
  dsimp only
  split
  · by_cases hnone : w.sys.sends i = []
    · rwa [hnone]
    · have hzero : w.zeroSent = 0 := by
        rcases h.sends hnone with hchecked | ⟨-, -, hzero⟩
        · exact (h.room hchecked).2.2
        · exact hzero
      omega
  · exact hle

theorem Inv.advance (h : w.Inv) (hopen : i.onOpen = true)
    (hwindow : i = .reserve true ∨ i = .immediateReserve true → w.checked = true)
    (hcareful : ∀ data, i = .lockWrite data → w.sys.noDelay = false →
      (w.sys.nagleBuf = [] ∧ w.sys.holder = .none) ∧
        (data.length < sendSegmentSize → w.available = true)) : (w.advance i).settle.Inv := by
  have hacts := w.sys.step_acts i
  have hfree := h.begins_free fun data hi hmode => (hcareful data hi hmode).1
  have hunacked := hacts.unacked hopen
  obtain ⟨hpast, hbound⟩ := advance_past_le h hopen
  have hsent := w.sentPast_le i
  have hsettled := settle_past_le (w.advance i)
  refine ⟨hacts.calm h.calm hopen hfree, Sending.mode_step h.mode i, fun hmode => ?_, fun hchecked => ?_,
    fun hnumbered => ?_, fun hchecked => ?_, settle_bound (w := w.advance i) hbound,
    hsettled.trans hpast,
    advance_zeroSent_le h i, settle_shut, fun hpositive => ?_, fun hspent => ?_⟩
  · have hmode' : w.sys.noDelay = true := (w.sys.step_effect i).noDelay.symm.trans hmode
    refine hacts.immediate hopen (fun hfalse => ?_) (h.immediate hmode')
    cases (h.mode false hfalse).trans hmode'
  · obtain ⟨hbefore, hnone⟩ := Bool.and_eq_true_iff.mp hchecked
    exact hacts.atWindow hopen (List.isEmpty_iff.mp hnone) (h.checked hbefore)
  · show (w.checked && (w.sys.sends i).isEmpty) = true
    rcases hacts.numbered h.calm hnumbered with ⟨hbefore, hnone⟩ | hreserve
    · rw [h.numbered hbefore, hnone]
      rfl
    · rw [hwindow hreserve]
      rcases hreserve with rfl | rfl <;> rfl
  · obtain ⟨hbefore, hnone⟩ := Bool.and_eq_true_iff.mp hchecked
    rw [List.isEmpty_iff] at hnone
    obtain ⟨hroom, hpastZero, hzero⟩ := h.room hbefore
    rw [hnone, List.length_nil] at hunacked hsent
    refine ⟨Nat.lt_of_le_of_lt hunacked hroom, ?_, ?_⟩
    · have hsum : (w.advance i).past = 0 := by
        show w.past + w.sentPast i = 0
        omega
      exact Nat.eq_zero_of_le_zero (hsum ▸ hsettled)
    · show (w.advance i).zeroSent = 0
      rw [advance_zeroSent hnone, hzero]
  · by_contra hne
    have hsame : (w.advance i).zeroSent = w.zeroSent := if_neg hne
    exact hne (h.zero (hsame ▸ hpositive))
  · by_cases hnone : w.sys.sends i = []
    · have hbefore : 0 < w.past ∨ 0 < w.zeroSent := by
        rw [hnone, List.length_nil] at hsent
        refine hspent.imp (fun hpositive => ?_) fun hpositive => ?_
        · have hsum : 0 < w.past + w.sentPast i := Nat.lt_of_lt_of_le hpositive hsettled
          omega
        · have hpositive' : 0 < (w.advance i).zeroSent := hpositive
          rwa [advance_zeroSent hnone] at hpositive'
      refine hacts.spent h.calm (h.spent hbefore) fun data hi hmode => ?_
      by_contra hshort
      have havailable := (hcareful data hi hmode).2 (Nat.lt_of_not_le hshort)
      simp [h.unavailable hbefore] at havailable
    · exact hacts.spends h.calm hnone

theorem Inv.look (h : w.Inv) (hwaits : w.sys.hands.atWindow = true)
    (hunnumbered : w.sys.hands.numbered = false) : Inv { w with checked := w.available } := by
  refine { h with checked := fun _ => hwaits, numbered := fun hnumbered => ?_, room := fun hopen => ?_ }
  · simp [hunnumbered] at hnumbered
  · have hspent : ¬ (0 < w.past ∨ 0 < w.zeroSent) := by
      intro hspent
      simp [h.unavailable hspent] at hopen
    have hpast : w.past = 0 := by omega
    have hzero : w.zeroSent = 0 := by omega
    exact ⟨available_length hopen, hpast, hzero⟩

theorem Inv.advertise (h : w.Inv) (window : UInt16) : (w.advertise window).settle.Inv := by
  have hpast : (w.advertise window).settle.past ≤ w.past := settle_past_le (w.advertise window)
  have hzero : (w.advertise window).zeroSent ≤ w.zeroSent := by
    unfold Windowed.advertise
    split
    · exact le_rfl
    · exact Nat.zero_le _
  refine ⟨h.calm, h.mode, h.immediate, h.checked, h.numbered, fun hchecked => ?_,
    settle_bound (w := w.advertise window) h.bound,
    hpast.trans h.past, hzero.trans h.zeroSent, settle_shut, fun hpositive => ?_, fun hspent => ?_⟩
  · obtain ⟨hroom, hpastZero, hzeroSent⟩ := h.room hchecked
    exact ⟨hroom, Nat.eq_zero_of_le_zero (hpastZero ▸ hpast),
      Nat.eq_zero_of_le_zero (hzeroSent ▸ hzero)⟩
  · have hpositive' : 0 < if window = 0 then w.zeroSent else 0 := hpositive
    split at hpositive'
    next hwindow =>
      rw [hwindow]
      rfl
    next => cases hpositive'
  · exact h.spent (hspent.imp (Nat.lt_of_lt_of_le · hpast) (Nat.lt_of_lt_of_le · hzero))

theorem step_inv (w : Windowed) (i : Input) (h : w.Inv) (hcareful : w.Careful i) : (w.step i).Inv := by
  cases i with
  | send i hopen =>
    refine h.advance (onOpen_answered w.checked hopen) (fun hreserve => ?_) fun data hi hmode => ?_
    · cases i with
      | reserve window =>
        rcases hreserve with hreserve | hreserve
        · exact Sending.Input.reserve.inj hreserve
        · cases hreserve
      | immediateReserve window =>
        rcases hreserve with hreserve | hreserve
        · cases hreserve
        · exact Sending.Input.immediateReserve.inj hreserve
      | _ => rcases hreserve with hreserve | hreserve <;> cases hreserve
    · cases i with
      | lockWrite data' =>
        cases hi
        obtain ⟨hbuf, hholder, hshort⟩ := hcareful data rfl hmode
        exact ⟨⟨hbuf, hholder⟩, hshort⟩
      | _ => cases hi
  | windowAvailable =>
    unfold step
    dsimp only
    split
    next hwaits =>
      obtain ⟨hat, hunnumbered⟩ := Bool.and_eq_true_iff.mp hwaits
      exact h.look hat ((Bool.not_eq_true' _).mp hunnumbered)
    next => exact h
  | update window => exact h.advertise window

def opened (noDelay : Bool) : Windowed := ⟨Sending.opened noDelay, -1, false, 0, 0⟩

theorem opened_inv (noDelay : Bool) : (opened noDelay).Inv where
  calm := ⟨rfl, rfl, nofun, nofun, nofun, Nat.zero_le 1, fun h => absurd rfl h, nofun⟩
  mode := nofun
  immediate := fun _ => ⟨rfl, rfl⟩
  checked := nofun
  numbered := nofun
  room := nofun
  bound := Nat.zero_le _
  past := Nat.zero_le 1
  zeroSent := Nat.zero_le 1
  shut := nofun
  zero := nofun
  spent := fun h => by rcases h with h | h <;> cases h

/-- In every run in which writes begin as they should, a segment is sent only by a writer that
has found the window open, while nothing else was sent, or by a flusher when nothing was sent
past the window since it was last open. At most one remainder is sent past the window, at most
one segment more than the limit is unacknowledged, and at most one segment is sent while the
peer's window is zero. -/
theorem window_respected (noDelay : Bool) (inputs : List Input)
    (hcareful : AllSteps step Careful (opened noDelay) inputs) :
    let w := inputs.foldl step (opened noDelay)
    (∀ i, w.sys.sends i ≠ [] →
      w.checked = true ∧ w.sys.conn.unacked.length < maxSegmentsOutstanding ∨
        w.sys.holder.isFlusher = true ∧ w.past = 0) ∧
    w.past ≤ 1 ∧
    w.sys.conn.unacked.length ≤ maxSegmentsOutstanding + 1 ∧
    w.zeroSent ≤ 1 := by
  have h := run_invariant Inv step_inv (opened_inv noDelay) hcareful
  refine ⟨fun i hsends => ?_, h.past, ?_, h.zeroSent⟩
  · rcases h.sends hsends with hchecked | ⟨hflusher, hpast, -⟩
    · exact .inl ⟨hchecked, (h.room hchecked).1⟩
    · exact .inr ⟨hflusher, hpast⟩
  · have hpast := h.past
    have hbound := h.bound
    omega

/-! ## Short writes behind a shut window -/

def on (steps : List Sending.Input) : List Input :=
  steps.filterMap fun i => if h : i.onOpen = true then some (.send i h) else none

def short : List Input := on [.enter [1], .lockWrite [1], .sendDataPiece, .lockSend, .look]

def shortSent : List Input :=
  short ++ .windowAvailable :: on [.reserve true, .track 5 true, .returned]

/-- The next is held, since the last is not acknowledged. -/
def shortHeld : List Input := short ++ on [.returned]

/-- `NagleTimeout` passes, and the flusher sends what is held. -/
def flushed : List Input := on [.wake false true, .look, .reserve false, .track 5 true]

/-- A remainder is held while the window is open and sent when it is shut. -/
def remainderSent : List Input := shortSent ++ shortHeld ++ [.update 0] ++ flushed

theorem one_remainder_past : (remainderSent.foldl step (opened false)).past = 1 ∧
    (remainderSent.foldl step (opened false)).zeroSent ≤ 1 := by
  have hcareful : AllSteps step Careful (opened false) remainderSent := by decide +kernel
  exact ⟨by decide +kernel, (window_respected false remainderSent hcareful).2.2.2⟩

/-- Nobody sends, a short segment is unacknowledged and the peer's window is zero. -/
structure Shut (w : Windowed) : Prop where
  established : w.sys.conn.state = .established
  noDelay : w.sys.noDelay = false
  nagleBuf : w.sys.nagleBuf = []
  tailFlusher : w.sys.tailFlusher = false
  queue : w.sys.queue = []
  writer : w.sys.writer = .none
  holder : w.sys.holder = .none
  flushers : w.sys.flushers = []
  holds : w.sys.conn.nagleHoldsTail = true
  peerRecvWin : w.peerRecvWin = 0

def remainderOut (w : Windowed) : Windowed :=
  { w with
    sys :=
      { w.sys with
        conn := { w.sys.conn with sendSeq := endSeq w.sys.conn.sendSeq [1] }.trackSend w.sys.conn.sendSeq [1] 5
        next := w.sys.next + 1
        tracked := w.sys.tracked + 1
        given := w.sys.given ++ [(w.sys.next, 1)] }
    checked := false
    past := w.past + 1
    zeroSent := w.zeroSent + 1 }

theorem Shut.round (h : w.Shut) : (shortHeld ++ flushed).foldl step w = w.remainderOut := by
  obtain ⟨⟨conn, noDelay, nagleBuf, tailFlusher, queue, writer, holder, flushers, closers, released,
    next, tracked, given, fins⟩, peerRecvWin, checked, past, zeroSent⟩ := w
  obtain ⟨hestablished, rfl, rfl, rfl, rfl, rfl, rfl, rfl, hholds, rfl⟩ := h
  dsimp only at hestablished hholds
  simp [shortHeld, short, flushed, on, Sending.Input.onOpen, step, advance, settle, answered, sentPast,
    available, remainderOut, Connection.windowAvailable_zero, hestablished, hholds,
    Sending.step, Sending.established, Sending.lockWrite, Sending.sendDataPiece, Sending.look,
    Sending.lookWriter, Sending.lookFlusher, Sending.endFlush, Sending.sends, Sending.returned,
    Sending.reserveNext, Sending.trackNext, Sending.reserve, Sending.track, Holder.reserved,
    Point.reserved, Holder.isFlusher, sendSegmentSize, nagleWritePiece, maxNagleBuf, maxSegmentSize]

theorem Shut.remainderOut (h : w.Shut) : w.remainderOut.Shut := by
  refine { h with holds := ?_ }
  have hany : w.sys.conn.unacked.any _ = true := h.holds
  show List.any (w.sys.conn.unacked ++ _) _ = true
  rw [List.any_append, hany, Bool.true_or]

theorem Shut.rounds (h : w.Shut) (n : Nat) :
    let w' := ((List.replicate n (shortHeld ++ flushed)).flatten).foldl step w
    w'.Shut ∧ w'.past = w.past + n ∧ w'.zeroSent = w.zeroSent + n ∧
      w'.sys.conn.unacked.length = w.sys.conn.unacked.length + n := by
  induction n generalizing w with
  | zero => exact ⟨h, rfl, rfl, rfl⟩
  | succ n ih =>
    have hlater := ih h.remainderOut
    have hqueue : w.remainderOut.sys.conn.unacked.length = w.sys.conn.unacked.length + 1 :=
      List.length_append
    rw [List.replicate_succ, List.flatten_cons, List.foldl_append, h.round]
    obtain ⟨hshut, hpast, hzero, hlength⟩ := hlater
    refine ⟨hshut, hpast.trans ?_, hzero.trans ?_, hlength.trans ?_⟩
    · show w.past + 1 + n = w.past + (n + 1)
      omega
    · show w.zeroSent + 1 + n = w.zeroSent + (n + 1)
      omega
    · omega

/-- The peer's window is zero behind a short segment. -/
def zeroWindow : Windowed := (shortSent ++ [Input.update 0]).foldl step (opened false)

theorem zeroWindow_shut : zeroWindow.Shut := by
  constructor <;> decide +kernel

/-- The program goes on with short writes: each is held and then sent by its flusher, with the
peer's window at zero all the time, until there are more segments than the peer keeps. -/
theorem remainders_past_window :
    let w := ((List.replicate 130 (shortHeld ++ flushed)).flatten).foldl step zeroWindow
    w.sys.conn.state = .established ∧ w.peerRecvWin = 0 ∧ w.past = 130 ∧ w.zeroSent = 130 ∧
      w.sys.conn.unacked.length = maxSegmentsOutstanding + 3 := by
  obtain ⟨hshut, hpast, hzero, hlength⟩ := zeroWindow_shut.rounds 130
  have hstart : zeroWindow.past = 0 ∧ zeroWindow.zeroSent = 0 ∧
      zeroWindow.sys.conn.unacked.length = 1 := by
    decide +kernel
  refine ⟨hshut.established, hshut.peerRecvWin, ?_, ?_, ?_⟩
  · rw [hpast, hstart.1]
  · rw [hzero, hstart.2.1]
  · rw [hlength, hstart.2.2]
    rfl

end Windowed

end PilotProtocol.Stream
