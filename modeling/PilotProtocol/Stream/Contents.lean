import PilotProtocol.Stream.SendStep

/-! # What the stream holds

Each write is taken from its caller byte by byte, in the order in which the callers get
`WriteMu`. What has been given numbers, what the goroutine with `SendMu` has in its hand and
what is buffered are together what has been taken, in that order, as long as no segment is
dropped: that only happens to a writer that waits for the window when `RetxStop` closes.
-/

namespace PilotProtocol.Stream

open Library

/-- A write, with how much of it has been taken into the stream. -/
structure Write where
  data : Bytes
  taken : Nat
  deriving DecidableEq

namespace Write

def part (w : Write) : Bytes := w.data.take w.taken

def rest (w : Write) : Bytes := w.data.drop w.taken

def advance (w : Write) (n : Nat) : Write := { w with taken := w.taken + n }

theorem rest_advance (w : Write) (n : Nat) : (w.advance n).rest = w.rest.drop n := by
  unfold rest advance
  rw [List.drop_drop]

theorem part_advance (w : Write) (n : Nat) : (w.advance n).part = w.part ++ w.rest.take n := by
  exact List.take_add

end Write

def Writer.rest : Writer → Option Bytes
  | .none => Option.none
  | .piece rest _ => some rest
  | .flush rest _ => some rest
  | .flushing rest _ => some rest
  | .flushed rest _ _ => some rest
  | .immediate rest => some rest
  | .immediateWaiting seg rest => some (seg ++ rest)
  | .immediateTracking _ _ rest => some rest

def Writer.mode : Writer → Option Bool
  | .none => Option.none
  | .piece _ _ | .flush _ _ | .flushing _ _ | .flushed _ _ _ => some false
  | .immediate _ | .immediateWaiting _ _ | .immediateTracking _ _ _ => some true

@[simp, grind =] theorem Writer.endFlush_rest {w : Writer} {err : Option SendError} :
    (w.endFlush err).rest = w.rest := by
  cases w <;> rfl

theorem Writer.endFlush_mode {w : Writer} {err : Option SendError} :
    (w.endFlush err).mode = w.mode := by
  cases w <;> rfl

namespace Sending

variable {s s' : Sending} {i : Input}

/-! ## The writer's step -/

/-- What is left of the write in progress after a step, and how it is sent. -/
structure Writes (s : Sending) (i : Input) (s' : Sending) : Prop where
  rest : s'.writer.rest =
    match s.begins i with
    | some data => if s.established then some data else none
    | none => if (s.result i).isSome then none else s.writer.rest.map (·.drop (s.taken i).length)
  mode : s'.writer.mode = none ∨ s'.writer.mode = s.writer.mode ∨ s'.writer.mode = some s.noDelay

theorem Acts.writes (h : Acts s i s') : Writes s i s' := by
  cases h with
  | stay hidle =>
    refine ⟨?_, .inr (.inl rfl)⟩
    rw [hidle.begins, hidle.result, hidle.taken]
    simp
  | lockWrite hw hqueued hopen =>
    constructor <;> cases hmode : s.noDelay <;> simp [begins, Writer.rest, Writer.mode, *]
  | returned hw hnext =>
    rcases hnext with ⟨rfl, hresult⟩ | ⟨hresult, ⟨-, rfl⟩ | ⟨-, -, rfl⟩⟩ <;>
      constructor <;> simp [begins, taken, Writer.rest, Writer.mode, *]
  | immediateNext hw hnext =>
    rcases hnext with ⟨rfl, rfl⟩ | ⟨hmore, rfl⟩ <;>
      constructor <;> simp [begins, result, taken, Writer.rest, Writer.mode, *]
  | @immediateTrack _ _ _ _ sendOk hw =>
    cases sendOk <;> constructor <;> simp [begins, result, taken, Writer.rest, Writer.mode, *]
  | drained | hold | giveUp | trackFailed | trackTail =>
    constructor <;> simp [begins, result, taken, Writer.endFlush_mode]
  | _ =>
    constructor <;> simp [begins, result, taken, reserve, track, Sending.sendFIN, setConn,
      Writer.rest, Writer.mode, *]

theorem step_writes (s : Sending) (i : Input) : Writes s i (s.step i) := (s.step_acts i).writes

theorem mode_step (h : ∀ b, s.writer.mode = some b → b = s.noDelay) (i : Input) (b : Bool)
    (hb : (s.step i).writer.mode = some b) : b = (s.step i).noDelay := by
  rw [(s.step_effect i).noDelay]
  rcases (s.step_writes i).mode with hnone | hsame | hmode
  · rw [hnone] at hb
    cases hb
  · exact h b (hsame.symm.trans hb)
  · rw [hmode] at hb
    cases hb
    rfl

/-! ## What the steps take -/

theorem begins_writer {data : Bytes} (h : s.begins i = some data) :
    s.writer = .none ∧ s.taken i = [] := by
  unfold begins at h
  split at h
  · split at h
    next hnone => exact ⟨hnone, rfl⟩
    next => cases h
  · cases h

theorem taken_none (h : s.writer.rest = none) : s.taken i = [] := by
  have hwriter : s.writer = .none := by
    cases hw : s.writer with
    | none => rfl
    | _ =>
      rw [hw] at h
      cases h
  unfold taken
  split
  · rw [hwriter]
  · rw [hwriter]
  · rfl

theorem taken_take {rest : Bytes} (h : s.writer.rest = some rest) (i : Input) :
    rest.take (s.taken i).length = s.taken i := by
  unfold taken
  split
  · split
    next hw =>
      rw [hw] at h
      cases h
      split
      · rfl
      · rw [List.length_take]
        exact List.take_eq_take_min.symm
    next => rfl
  · split
    next hw =>
      rw [hw] at h
      cases h
      split
      · exact List.take_left
      · rfl
    next => rfl
  · rfl

inductive Returns (s : Sending) : Input → Result → Prop
  | bufFull {rest : Bytes} {tailNow : Bool} (h : s.writer = .piece rest tailNow)
      (hfull : maxNagleBuf < s.nagleBuf.length + pieceSize rest) :
      Returns s .sendDataPiece (.failed s.established)
  | aborted {rest : Bytes} {tailNow : Bool} (h : s.writer = .flushed rest tailNow (some .connClosed)) :
      Returns s .returned (.failed s.established)
  | closed (hclosed : s.established = false) : Returns s .returned (.failed false)
  | flushed {tailNow : Bool} (h : s.writer = .flushed [] tailNow none) : Returns s .returned .ok
  | immediateDone (h : s.writer = .immediate []) : Returns s .immediateNext .ok
  | immediateGiveUp {seg rest : Bytes} {probed : Bool} (h : s.writer = .immediateWaiting seg rest) :
      Returns s (.immediateGiveUp probed) (.failed (s.established && !probed))
  | immediateFailed {now : Nat} : Returns s (.immediateTrack now false) (.failed s.established)

theorem result_returns {r : Result} (h : s.result i = some r) : s.Returns i r := by
  unfold result at h
  repeat' split at h
  all_goals cases h
  next hw hfull => exact .bufFull hw hfull
  next hw => exact .aborted hw
  next hclosed => exact .closed (Bool.eq_false_iff.mpr hclosed)
  next hw hempty => exact .flushed (hempty ▸ hw)
  next hclosed => exact .closed (Bool.eq_false_iff.mpr hclosed)
  next hw hempty => exact .immediateDone (hempty ▸ hw)
  next hw => exact .immediateGiveUp hw
  next hfailed =>
    rw [Bool.not_eq_true] at hfailed
    rw [hfailed]
    exact .immediateFailed

theorem result_ok (h : s.result i = some .ok) : s.writer.rest = some [] ∧ s.taken i = [] := by
  cases result_returns h with
  | flushed hw | immediateDone hw =>
    rw [hw]
    exact ⟨rfl, rfl⟩

theorem taken_immediate (hmode : s.writer.mode ≠ some false)
    (hi : ∀ window, i ≠ .immediateReserve window) : s.taken i = [] := by
  unfold taken
  split
  · split
    next hw =>
      rw [hw] at hmode
      exact absurd rfl hmode
    next => rfl
  next window => exact absurd rfl (hi window)
  · rfl

theorem giveUp_closed {force tail : Bool} {seg : Bytes} (h : s.holder = .writer force (.waiting seg tail)) :
    (s.step (.giveUp true)).established = false := by
  unfold step
  rw [h]
  dsimp only
  rw [endFlush_eq]
  rfl

theorem dropped_established (h : (s.step i).established = true) (hi : i ≠ .giveUp false) :
    s.dropped i = [] := by
  unfold dropped
  split
  next probed =>
    cases probed with
    | false => exact absurd rfl hi
    | true =>
      split
      next hw => simp [giveUp_closed hw] at h
      next => rfl
  next => rfl

theorem result_failed_true (h : s.result i = some (.failed true)) : s.established = true ∧
      ((∃ rest tailNow, s.writer = .piece rest tailNow ∧
          maxNagleBuf < s.nagleBuf.length + pieceSize rest ∧ s.taken i = []) ∨
        (∃ rest tailNow, s.writer = .flushed rest tailNow (some .connClosed)) ∨
        i = .immediateGiveUp false ∨ ∃ now, i = .immediateTrack now false) := by
  generalize hr : Result.failed true = r at h
  cases result_returns h with
  | bufFull hw hfull =>
    injection hr with hopen
    refine ⟨hopen.symm, .inl ⟨_, _, hw, hfull, ?_⟩⟩
    simp only [taken, hw, if_pos hfull]
  | aborted hw =>
    injection hr with hopen
    exact ⟨hopen.symm, .inr (.inl ⟨_, _, hw⟩)⟩
  | closed | flushed | immediateDone => cases hr
  | immediateGiveUp =>
    injection hr with hopen
    obtain ⟨hestablished, hprobed⟩ := Bool.and_eq_true_iff.mp hopen.symm
    rw [Bool.not_eq_true'] at hprobed
    rw [hprobed]
    exact ⟨hestablished, .inr (.inr (.inl rfl))⟩
  | immediateFailed =>
    injection hr with hopen
    exact ⟨hopen.symm, .inr (.inr (.inr ⟨_, rfl⟩))⟩

theorem closed_step (h : s.established = false) (i : Input) : (s.step i).established = false := by
  rw [← Bool.not_eq_true] at h ⊢
  exact fun hopen => h ((s.step_tracks i).established hopen)

theorem result_failed_false (h : s.result i = some (.failed false)) :
    (s.step i).established = false := by
  generalize hr : Result.failed false = r at h
  cases result_returns h with
  | bufFull | aborted | immediateFailed =>
    injection hr with hclosed
    exact closed_step hclosed.symm _
  | closed hclosed => exact closed_step hclosed _
  | flushed | immediateDone => cases hr
  | @immediateGiveUp _ _ probed hw =>
    cases probed with
    | true =>
      unfold step
      rw [hw]
      rfl
    | false =>
      injection hr with hclosed
      rw [Bool.not_false, Bool.and_true] at hclosed
      exact closed_step hclosed.symm _

/-- The data segments that the step gives numbers, with these. -/
def labelled (s : Sending) (i : Input) : List (Seq × Bytes) :=
  (s.numbered i).map fun seg => (s.conn.sendSeq, seg)

theorem Acts.holder_reserved (h : Acts s i s') (hmode : s.writer.mode ≠ some true) :
    s.sends i ++ s'.holder.reserved = s.holder.reserved ++ s.labelled i := by
  cases h with
  | stay hidle => simp [labelled, hidle.numbered, hidle.sends]
  | immediateReserve hw | immediateTrack hw =>
    rw [hw] at hmode
    exact absurd rfl hmode
  | _ =>
    simp [sends, labelled, numbered, Sending.sendFIN, setConn, Holder.reserved, Point.reserved, *]

end Sending

end PilotProtocol.Stream
