import PilotProtocol.Stream.Contents

/-! # Short writes and their flushers

A write shorter than a segment may leave its bytes in the buffer with a flusher. If the next
write begins only when nothing is held, there is at most one flusher, it comes from a write
that is over, and what it sends is what that write left.
-/

namespace PilotProtocol.Stream

open Library Writer

/-- Whether a write shorter than a segment is about to be buffered. -/
def Writer.takesShort : Writer → Bool
  | .piece _ tailNow => !tailNow
  | _ => false

/-- Whether the write is shorter than a segment and buffered. -/
def Writer.hasShort : Writer → Bool
  | .flush _ tailNow => !tailNow
  | .flushing _ tailNow => !tailNow
  | .flushed _ tailNow _ => !tailNow
  | _ => false

def Writer.flushes : Writer → Option Bool
  | .flushing _ tailNow => some tailNow
  | _ => Option.none

def Writer.over : Writer → Bool
  | .none => true
  | .flushed rest _ err => decide (rest = [] ∧ err = Option.none)
  | _ => false

namespace Writer

variable {w : Writer} {err : Option SendError}

@[simp, grind =] theorem endFlush_flushes : (w.endFlush err).flushes = Option.none := by
  cases w <;> rfl

@[simp, grind =] theorem endFlush_hasShort : (w.endFlush err).hasShort = w.hasShort := by
  cases w <;> rfl

@[simp, grind =] theorem endFlush_takesShort : (w.endFlush err).takesShort = w.takesShort := by
  cases w <;> rfl

theorem hasShort_of_flushes (h : w.flushes = some false) : w.hasShort = true := by
  cases w with
  | flushing rest tailNow =>
    cases h
    rfl
  | _ => cases h

theorem takesShort_of_flushes {tailNow : Bool} (h : w.flushes = some tailNow) : w.takesShort = false := by
  cases w with
  | flushing rest tailNow => rfl
  | _ => cases h

theorem over_of_flushes {tailNow : Bool} (h : w.flushes = some tailNow) : w.over = false := by
  cases w with
  | flushing rest tailNow => rfl
  | _ => cases h

theorem takesShort_of_over (h : w.over = true) : w.takesShort = false := by
  cases w with
  | piece rest tailNow => cases h
  | _ => rfl

theorem over_endFlush {tailNow : Bool} (h : w.flushes = some tailNow) (hrest : w.rest = some []) :
    (w.endFlush Option.none).over = true := by
  cases w with
  | flushing rest tailNow =>
    cases hrest
    rfl
  | _ => cases h

end Writer

def Holder.flushes : Holder → Option Bool
  | .writer force _ => some force
  | _ => Option.none

def Holder.isFlusher : Holder → Bool
  | .flusher _ _ => true
  | _ => false

def Holder.isCloser : Holder → Bool
  | .closer _ _ => true
  | _ => false

/-- Whether the goroutine with `SendMu` has taken a segment out of the buffer. -/
def Holder.hasTaken : Holder → Bool
  | .writer _ p => decide (p ≠ .top)
  | .flusher _ p => decide (p ≠ .top)
  | _ => false

/-- Whether the writer, without Nagle's algorithm, has a segment in hand. -/
def Writer.atWindow : Writer → Bool
  | .immediateWaiting _ _ => true
  | .immediateTracking _ _ _ => true
  | _ => false

@[simp, grind =] theorem Writer.endFlush_atWindow {w : Writer} {err : Option SendError} :
    (w.endFlush err).atWindow = w.atWindow := by
  cases w <;> rfl

def Holder.atWindow : Holder → Bool
  | .writer _ p => decide (p ≠ .top)
  | _ => false

/-- Where the bytes of the writes are, and who may move them. -/
structure Hands where
  writer : Writer
  holder : Holder
  nagleBuf : Bytes
  flushers : List Bool

def Hands.atWindow (h : Hands) : Bool := h.holder.atWindow || h.writer.atWindow

def Hands.numbered (h : Hands) : Bool :=
  h.holder.atWindow && !h.holder.reserved.isEmpty || !h.writer.reserved.isEmpty

namespace Hands

/-- A remainder and its flusher come from a write that is over: while the flusher sleeps the
remainder is the buffer, and once it has taken it the buffer is empty. -/
structure Calm (h : Hands) : Prop where
  noCloser : h.holder.isCloser = false
  flushes : h.holder.flushes = h.writer.flushes
  taken : h.holder.flushes = some false → h.holder.hasTaken = true → h.nagleBuf = []
  takesShort : h.writer.takesShort = true →
    h.nagleBuf = [] ∧ ∀ rest ∈ h.writer.rest, rest.length < sendSegmentSize
  hasShort : h.writer.hasShort = true → h.writer.rest = some [] ∧ h.nagleBuf.length < sendSegmentSize
  one : h.flushers.length ≤ 1
  asleep : h.flushers ≠ [] → h.writer.over = true ∧ h.holder.isFlusher = false ∧ h.nagleBuf ≠ []
  awake : h.holder.isFlusher = true → h.writer.over = true ∧ (h.nagleBuf = [] ↔ h.holder.hasTaken = true)

/-- Nothing is left that a flusher could send: none is there, and no short write is on its way
to the buffer. -/
structure Spent (h : Hands) : Prop where
  asleep : h.flushers = []
  awake : h.holder.isFlusher = false
  takesShort : h.writer.takesShort = false
  hasShort : h.writer.hasShort = true → h.nagleBuf = []

end Hands

namespace Sending

variable {s s' : Sending} {i : Input}

def hands (s : Sending) : Hands := ⟨s.writer, s.holder, s.nagleBuf, s.flushers⟩

@[simp] theorem hands_writer (s : Sending) : s.hands.writer = s.writer := rfl

@[simp] theorem hands_holder (s : Sending) : s.hands.holder = s.holder := rfl

@[simp] theorem hands_nagleBuf (s : Sending) : s.hands.nagleBuf = s.nagleBuf := rfl

@[simp] theorem hands_flushers (s : Sending) : s.hands.flushers = s.flushers := rfl

/-- The steps of a connection that stays open: nothing closes it or ends a wait. -/
def Input.onOpen : Input → Bool
  | .giveUp _ | .immediateGiveUp _ | .stopFlusher _ | .close | .closer _ _ _ | .releaseHeldFIN
  | .sendFIN _ _ | .setState _ => false
  | _ => true

theorem pieceSize_short {rest : Bytes} (h : rest.length < sendSegmentSize) :
    pieceSize rest = rest.length := by
  unfold pieceSize
  rw [if_neg]
  unfold nagleWritePiece
  omega

section

variable (h : Acts s i s') (hcalm : s.hands.Calm)
include h hcalm

theorem Acts.noCloser (hopen : i.onOpen = true) : s'.holder.isCloser = false := by
  have hcloser := hcalm.noCloser
  cases h with
  | _ => grind -linarith [hands, Input.onOpen, Holder.isCloser]

theorem Acts.flushes : s'.holder.flushes = s'.writer.flushes := by
  have hflushes := hcalm.flushes
  cases h with
  | _ => grind -linarith [hands, Holder.flushes, Writer.flushes]

theorem Acts.taken :
    s'.holder.flushes = some false → s'.holder.hasTaken = true → s'.nagleBuf = [] := by
  have hflushes := hcalm.flushes
  have htaken := hcalm.taken
  have hshort := hcalm.hasShort
  cases h with
  | _ =>
    grind -linarith [hands, Holder.flushes, Holder.hasTaken, Writer.flushes, hasShort_of_flushes]

theorem Acts.takesShort
    (hfree : ∀ data, i = .lockWrite data → s.noDelay = false → s.nagleBuf = []) :
    s'.writer.takesShort = true →
      s'.nagleBuf = [] ∧ ∀ rest ∈ s'.writer.rest, rest.length < sendSegmentSize := by
  have htakes := hcalm.takesShort
  have hshort := hcalm.hasShort
  cases h with
  | _ => grind -linarith [hands, Writer.takesShort, Writer.hasShort, Writer.rest]

theorem Acts.hasShort :
    s'.writer.hasShort = true → s'.writer.rest = some [] ∧ s'.nagleBuf.length < sendSegmentSize := by
  have hshort := hcalm.hasShort
  cases h with
  | @buffer rest tailNow hw =>
    intro htail
    have htakes : s.writer.takesShort = true := by
      rwa [hw]
    obtain ⟨hempty, hrest⟩ := hcalm.takesShort htakes
    have hlength : rest.length < sendSegmentSize := hrest rest (by rw [hands_writer, hw]; rfl)
    rw [pieceSize_short hlength, List.drop_length, List.take_length]
    refine ⟨rfl, ?_⟩
    rw [show s.nagleBuf = [] from hempty]
    exact hlength
  | _ => grind -linarith [hands, Writer.hasShort, Writer.rest]

theorem Acts.one : s'.flushers.length ≤ 1 := by
  have hone := hcalm.one
  have hasleep := hcalm.asleep
  have hflushes := hcalm.flushes
  cases h with
  | _ => grind -linarith [hands, Holder.flushes, Holder.isFlusher, over_of_flushes]

theorem Acts.asleep (hopen : i.onOpen = true)
    (hfree : ∀ data, i = .lockWrite data → s.flushers = []) : s'.flushers ≠ [] →
      s'.writer.over = true ∧ s'.holder.isFlusher = false ∧ s'.nagleBuf ≠ [] := by
  have hone := hcalm.one
  have hasleep := hcalm.asleep
  have hawake := hcalm.awake
  have hflushes := hcalm.flushes
  have hshort := hcalm.hasShort
  cases h with
  | @wake force timer hmem =>
    -- the flusher that wakes is the only one
    have hnone : s.flushers.erase force = [] := by
      apply List.eq_nil_of_length_eq_zero
      rw [List.length_erase_of_mem hmem]
      have hlength : s.flushers.length ≤ 1 := hone
      omega
    exact fun h => absurd hnone h
  | _ =>
    grind -linarith [hands, Input.onOpen, Holder.flushes, Holder.isFlusher, Holder.hasTaken, Writer.over,
      over_of_flushes, over_endFlush, hasShort_of_flushes]

theorem Acts.awake (hfree : ∀ data, i = .lockWrite data → s.holder.isFlusher = false) :
    s'.holder.isFlusher = true →
      s'.writer.over = true ∧ (s'.nagleBuf = [] ↔ s'.holder.hasTaken = true) := by
  have hasleep := hcalm.asleep
  have hawake := hcalm.awake
  cases h with
  | _ =>
    grind -linarith [hands, Holder.flushes, Holder.isFlusher, Holder.hasTaken, Writer.over, over_of_flushes]

theorem Acts.calm (hopen : i.onOpen = true) (hfree : ∀ data, i = .lockWrite data →
      s.holder.isFlusher = false ∧ s.flushers = [] ∧ (s.noDelay = false → s.nagleBuf = [])) :
    s'.hands.Calm where
  noCloser := h.noCloser hcalm hopen
  flushes := h.flushes hcalm
  taken := h.taken hcalm
  takesShort := h.takesShort hcalm fun data hi => (hfree data hi).2.2
  hasShort := h.hasShort hcalm
  one := h.one hcalm
  asleep := h.asleep hcalm hopen fun data hi => (hfree data hi).2.1
  awake := h.awake hcalm fun data hi => (hfree data hi).1

end

theorem Acts.writer_spends (hcalm : s.hands.Calm) {force : Bool} {seq : Seq} {seg : Bytes} {tail : Bool}
    (hp : s.holder = .writer force (.tracking seq seg tail)) :
    s.flushers = [] ∧ s.writer.takesShort = false ∧ (s.writer.hasShort = true → s.nagleBuf = []) := by
  have hflushes : s.writer.flushes = some force := by
    rw [← hands_writer, ← hcalm.flushes, hands_holder, hp]
    rfl
  refine ⟨?_, takesShort_of_flushes hflushes, fun hshort => ?_⟩
  · by_contra hne
    have hover := (hcalm.asleep hne).1
    rw [show s.hands.writer.over = false from over_of_flushes hflushes] at hover
    cases hover
  · have hforce : force = false := by
      cases hw : s.writer with
      | flushing rest tailNow =>
        rw [hw] at hflushes hshort
        cases hflushes
        exact (Bool.not_eq_true' _).mp hshort
      | _ =>
        rw [hw] at hflushes
        cases hflushes
    rw [hforce] at hp
    exact hcalm.taken (by rw [hands_holder, hp]; rfl) (by rw [hands_holder, hp]; rfl)

theorem Acts.spends (h : Acts s i s') (hcalm : s.hands.Calm) (hsends : s.sends i ≠ []) : s'.hands.Spent := by
  cases h with
  | stay hnone => exact absurd hnone.sends hsends
  | trackFailed hp | trackTail hp =>
    obtain ⟨hasleep, htakes, hhas⟩ := writer_spends hcalm hp
    exact ⟨hasleep, rfl, by simpa using htakes, by simpa [track] using hhas⟩
  | trackFull hp =>
    obtain ⟨hasleep, htakes, hhas⟩ := writer_spends hcalm hp
    exact ⟨hasleep, rfl, htakes, hhas⟩
  | trackFlusher hp =>
    have hflusher : s.hands.holder.isFlusher = true := by
      rw [hands_holder, hp]
      rfl
    obtain ⟨hover, htaken⟩ := hcalm.awake hflusher
    have hempty : s.nagleBuf = [] := htaken.mpr (by rw [hands_holder, hp]; rfl)
    refine ⟨?_, rfl, ?_, fun _ => hempty⟩
    · by_contra hne
      have hfalse := (hcalm.asleep hne).2.1
      rw [hflusher] at hfalse
      cases hfalse
    · exact takesShort_of_over hover
  | trackCloser hp =>
    have hcloser := hcalm.noCloser
    rw [hands_holder, hp] at hcloser
    cases hcloser
  | @immediateTrack seq seg rest now sendOk hw =>
    have hover : s.hands.writer.over = false := by
      rw [hands_writer, hw]
      rfl
    refine ⟨?_, ?_, ?_, ?_⟩
    · by_contra hne
      have htrue := (hcalm.asleep hne).1
      rw [hover] at htrue
      cases htrue
    · rw [← Bool.not_eq_true]
      intro hflusher
      have htrue := (hcalm.awake hflusher).1
      rw [hover] at htrue
      cases htrue
    · cases sendOk <;> rfl
    · cases sendOk <;> nofun
  | _ => exact absurd rfl hsends

theorem Acts.spent (h : Acts s i s') (hcalm : s.hands.Calm) (hspent : s.hands.Spent)
    (hlong : ∀ data, i = .lockWrite data → s.noDelay = false → sendSegmentSize ≤ data.length) :
    s'.hands.Spent := by
  obtain ⟨hasleep, hawake, htakes, hhas⟩ := hspent
  cases h with
  | @lockWrite data hw hqueued hestablished =>
    cases hmode : s.noDelay with
    | true => exact ⟨hasleep, hawake, by simp [Writer.takesShort], by simp [Writer.hasShort]⟩
    | false =>
      have hdata := hlong data rfl hmode
      exact ⟨hasleep, hawake, by simp [Writer.takesShort, hdata], by simp [Writer.hasShort]⟩
  | buffer hw =>
    rw [hands_writer, hw] at htakes
    refine ⟨hasleep, hawake, rfl, fun hshort => ?_⟩
    cases hshort.symm.trans htakes
  | @lockSend rest tailNow hw hfree =>
    refine ⟨hasleep, rfl, rfl, fun hshort => hhas ?_⟩
    rwa [hands_writer, hw]
  | @returned rest tailNow err w hw hnext =>
    rw [hands_writer, hw] at hhas
    rcases hnext with ⟨rfl, -⟩ | ⟨-, ⟨-, rfl⟩ | ⟨-, hmore, rfl⟩⟩
    · exact ⟨hasleep, hawake, rfl, nofun⟩
    · exact ⟨hasleep, hawake, rfl, hhas⟩
    · refine ⟨hasleep, hawake, ?_, nofun⟩
      rw [← Bool.not_eq_true]
      intro hshort
      have hrest := (hcalm.hasShort (by rw [hands_writer, hw]; exact hshort)).1
      rw [hands_writer, hw] at hrest
      cases hrest
      exact hmore rfl
  | wake hmem =>
    rw [show s.flushers = [] from hasleep] at hmem
    cases hmem
  | stopFlusher => exact ⟨by rw [show s.flushers = [] from hasleep]; rfl, hawake, htakes, hhas⟩
  | takeFull hp =>
    exact ⟨hasleep, rfl, htakes, fun hshort => by simp [show s.nagleBuf = [] from hhas hshort]⟩
  | hold hp hshort hne =>
    have hflushes : s.writer.flushes = some false := by
      rw [← hands_writer, ← hcalm.flushes, hands_holder, hp]
      rfl
    exact absurd (hhas (hasShort_of_flushes hflushes)) hne
  | flusherDone hp | flusherHolds hp | flusherTakes hp | reserveFlusher hp =>
    rw [hands_holder, hp] at hawake
    cases hawake
  | immediateNext hw hnext =>
    rcases hnext with ⟨rfl, -⟩ | ⟨-, rfl⟩ <;> exact ⟨hasleep, hawake, rfl, nofun⟩
  | @immediateTrack seq seg rest now sendOk hw =>
    cases sendOk with
    | true | false => exact ⟨hasleep, hawake, rfl, nofun⟩
  | takeTail hp | takeAll hp => exact ⟨hasleep, rfl, htakes, fun _ => rfl⟩
  | drained | giveUp | trackFailed | trackTail =>
    exact ⟨hasleep, rfl, by simpa using htakes, by simpa [track] using hhas⟩
  | bufFull | immediateReserve | immediateGiveUp => exact ⟨hasleep, hawake, rfl, nofun⟩
  | closerDone | closerTakes | reserveWriter | reserveCloser | trackFull | trackFlusher | trackCloser =>
    exact ⟨hasleep, rfl, htakes, hhas⟩
  | _ => exact ⟨hasleep, hawake, htakes, hhas⟩

/-! ## Writers at the window -/

theorem alone (h : s.hands.Calm) : s.writer.reserved = [] ∨ s.holder.reserved = [] := by
  cases hp : s.holder with
  | none => exact .inr rfl
  | closer rest p =>
    have hcloser := h.noCloser
    rw [hands_holder, hp] at hcloser
    cases hcloser
  | writer force p =>
    have hflushes := h.flushes
    rw [hands_holder, hp, hands_writer] at hflushes
    refine .inl ?_
    cases hw : s.writer with
    | immediateTracking seq seg rest =>
      rw [hw] at hflushes
      cases hflushes
    | _ => rfl
  | flusher force p =>
    have hover := (h.awake (by rw [hands_holder, hp]; rfl)).1
    rw [hands_writer] at hover
    refine .inl ?_
    cases hw : s.writer with
    | immediateTracking seq seg rest =>
      rw [hw] at hover
      cases hover
    | _ => rfl

theorem Acts.atWindow (h : Acts s i s') (hopen : i.onOpen = true) (hsends : s.sends i = [])
    (hwriter : s.hands.atWindow = true) : s'.hands.atWindow = true := by
  cases h with
  | _ =>
    grind -linarith [hands, Hands.atWindow, sends, Input.onOpen, Holder.atWindow, Holder.reserved,
      Point.reserved, Writer.atWindow, Writer.reserved]

theorem Acts.numbered (h : Acts s i s') (hcalm : s.hands.Calm) (hnumbered : s'.hands.numbered = true) :
    s.hands.numbered = true ∧ s.sends i = [] ∨ i = .reserve true ∨ i = .immediateReserve true := by
  have halone := alone hcalm
  cases h with
  | stay hidle => exact .inl ⟨hnumbered, hidle.sends⟩
  | _ =>
    grind -linarith [hands, Hands.numbered, sends, Holder.atWindow, Holder.reserved, Point.reserved,
      Writer.reserved]

theorem Acts.immediate (h : Acts s i s') (hopen : i.onOpen = true) (hmode : s.writer.mode ≠ some false)
    (hnone : s.holder = .none ∧ s.flushers = []) : s'.holder = .none ∧ s'.flushers = [] := by
  cases h with
  | _ => grind -linarith [hands, Input.onOpen, Writer.mode]

end Sending

end PilotProtocol.Stream
