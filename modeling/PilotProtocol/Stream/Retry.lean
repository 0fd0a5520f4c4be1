import PilotProtocol.Stream.Flushers
import PilotProtocol.Stream.Streaming

/-! # Failed writes

With Nagle's algorithm no write ends with an error while the connection is ESTABLISHED: a flush
that fails in the tunnel is tried again, and one that returns without an error leaves less than
a segment, so there is room for every piece. Without it the first tunnel error ends the write,
although the segment has its number and is sent again later.
-/

namespace PilotProtocol.Stream

open Library

/-- The flush of a writer is that of the write in progress; nothing is left behind its short
rest, and after a flush without an error there is less than a segment. -/
structure Hands.Drains (h : Hands) : Prop where
  flushing : ∀ force p, h.holder = .writer force p → ∃ rest tailNow, h.writer = .flushing rest tailNow
  waiting : ∀ force seg, h.holder = .writer force (.waiting seg true) → h.nagleBuf = []
  tracking : ∀ force seq seg, h.holder = .writer force (.tracking seq seg true) → h.nagleBuf = []
  flushed : ∀ rest tailNow, h.writer = .flushed rest tailNow none →
    h.nagleBuf.length < sendSegmentSize

/-- No segment is under way: there is no write, or it is about to buffer a piece. -/
def Writer.Resting : Writer → Prop
  | .none | .piece _ _ => True
  | _ => False

theorem Writer.endFlush_resting {err : Option SendError} {w : Writer} :
    (w.endFlush err).Resting ↔ w.Resting := by
  cases w <;> simp [endFlush, Resting]

theorem Writer.endFlush_eq_flushed {err err' : Option SendError} {w : Writer} {rest : Bytes}
    {tailNow : Bool} : w.endFlush err = .flushed rest tailNow err' ↔
      w = .flushing rest tailNow ∧ err = err' ∨ w = .flushed rest tailNow err' := by
  cases w <;> simp [endFlush, and_assoc]

namespace Sending

variable {s : Sending} {i : Input} {s' : Sending} {rest : Bytes} {tailNow : Bool}

theorem Acts.drains (h : Acts s i s') (hdrains : s.hands.Drains) : s'.hands.Drains := by
  obtain ⟨hflushing, hwaiting, htracking, hflushed⟩ := hdrains
  cases h with
  | _ => constructor <;> grind -linarith [hands, Writer.endFlush_eq_flushed, sendSegmentSize]

/-- Where no flush is under way afterwards: none was before, or one has ended. -/
theorem Acts.resting (h : Acts s i s') (hdrains : s.hands.Drains)
    (hrest : s'.hands.writer.Resting) :
    s.writer.Resting ∧ s'.hands.nagleBuf.length ≤ s.nagleBuf.length ∨
      s'.hands.nagleBuf.length < sendSegmentSize ∨
      s.writer.mode = some true ∧ s'.hands.nagleBuf = s.nagleBuf ∨
      ∃ rest tailNow err, i = .returned ∧ s.writer = .flushed rest tailNow (some err) := by
  cases h with
  | @returned rest tailNow err w hwriter hw =>
    cases err with
    | none => exact .inr (.inl (hdrains.flushed rest tailNow hwriter))
    | some err => exact .inr (.inr (.inr ⟨rest, tailNow, err, rfl, hwriter⟩))
  | _ => grind -linarith [hands, Writer.Resting, Writer.endFlush_resting, Writer.mode]

theorem Acts.aborted (h : Acts s i s') (hw : s'.hands.writer = .flushed rest tailNow (some .connClosed)) :
    s.writer = .flushed rest tailNow (some .connClosed) ∨
      ∃ probed force seg tail, i = .giveUp probed ∧ s.holder = .writer force (.waiting seg tail) := by
  cases h with
  | _ => grind -linarith [hands, Writer.endFlush_eq_flushed]

end Sending

namespace Streaming

variable {t : Streaming}

def sendFails : Input → Bool
  | .send (.immediateTrack _ sendOk) => !sendOk
  | _ => false

/-- Without Nagle's algorithm no send fails while the connection is ESTABLISHED. -/
def Careful (t : Streaming) (i : Input) : Prop := t.sys.established = true → sendFails i = false

instance instDecidableCareful (t : Streaming) (i : Input) : Decidable (t.Careful i) :=
  inferInstanceAs (Decidable (_ → _))

/-- Which errors the writes have returned, and why no later one returns another. -/
structure Retriable (t : Streaming) : Prop where
  drains : t.sys.hands.Drains
  resting : t.sys.established = true → t.sys.writer.Resting → t.sys.nagleBuf.length < sendSegmentSize
  aborted : ∀ rest tailNow, t.sys.writer = .flushed rest tailNow (some .connClosed) →
    t.sys.established = false
  failed : ∀ e ∈ t.ended, e.2 ≠ .failed true
  closed : t.sys.established = true → ∀ e ∈ t.ended, e.2 ≠ .failed false

theorem Retriable.resting_advance (h : t.Retriable) (hinv : t.Inv) (i : Sending.Input)
    (hopen : (t.sys.step i).established = true) (hrest : (t.sys.step i).writer.Resting) :
    (t.sys.step i).nagleBuf.length < sendSegmentSize := by
  have hbefore := (t.sys.step_tracks i).established hopen
  rcases (t.sys.step_acts i).resting h.drains hrest with
    ⟨hsame, hle⟩ | hshort | ⟨hmode, heq⟩ | ⟨rest, tailNow, err, rfl, hwriter⟩
  · exact Nat.lt_of_le_of_lt hle (h.resting hbefore hsame)
  · exact hshort
  · have hempty : t.sys.nagleBuf = [] :=
      (List.append_eq_nil_iff.mp (hinv.unbuffered (hinv.mode true hmode).symm)).2
    have hnil : (t.sys.step i).nagleBuf = [] := heq.trans hempty
    rw [hnil]
    decide
  · -- the flush is tried again after an error of the tunnel, and else the connection is closed
    simp only [Sending.step, hwriter] at hrest
    cases err with
    | connClosed => simp [h.aborted rest tailNow hwriter] at hbefore
    | tunnel =>
      rw [Sending.returned, if_pos hbefore] at hrest
      exact hrest.elim

section

variable {i : Sending.Input} (h : t.Retriable) (hinv : t.Inv) (hstop : endsByStop i = true → t.stopped = true)
include h hinv hstop

theorem Retriable.aborted_advance (rest : Bytes) (tailNow : Bool)
    (hwriter : (t.sys.step i).writer = .flushed rest tailNow (some .connClosed)) :
    (t.sys.step i).established = false := by
  rcases (t.sys.step_acts i).aborted hwriter with hsame | ⟨probed, force, seg, tail, rfl, hp⟩
  · exact Sending.closed_step (h.aborted rest tailNow hsame) i
  · cases probed with
    | true => exact Sending.giveUp_closed hp
    | false => exact Sending.closed_step (hinv.stopped (hstop rfl)) _

theorem Retriable.failed_finishes (hcareful : t.Careful (.send i))
    {e : Write × Result} (he : t.finishes i = some e) : e.2 ≠ .failed true := by
  intro hfailed
  rcases finishes_cases he with ⟨-, hfalse⟩ | ⟨hr, -⟩
  · simp [hfailed] at hfalse
  rw [hfailed] at hr
  obtain ⟨hopen, hcase⟩ := Sending.result_failed_true hr
  rcases hcase with ⟨rest, tailNow, hwriter, hfull, -⟩ | ⟨rest, tailNow, hwriter⟩ | rfl | ⟨now, rfl⟩
  · -- less than a segment and a piece fit into the buffer
    have hshort : t.sys.nagleBuf.length < sendSegmentSize :=
      h.resting hopen (by rw [hwriter]; trivial)
    have hpiece : Sending.pieceSize rest ≤ nagleWritePiece := by
      unfold Sending.pieceSize
      split <;> omega
    unfold maxNagleBuf maxSegmentSize at hfull
    unfold nagleWritePiece sendSegmentSize at hpiece
    unfold sendSegmentSize at hshort
    omega
  · have hclosed := h.aborted rest tailNow hwriter
    simp [hopen] at hclosed
  · have hclosed := hinv.stopped (hstop rfl)
    simp [hopen] at hclosed
  · cases hcareful hopen

theorem Retriable.advance (hcareful : t.Careful (.send i)) : (t.advance i).Retriable := by
  refine ⟨(t.sys.step_acts i).drains h.drains, h.resting_advance hinv i, h.aborted_advance hinv hstop,
    fun e he => ?_, fun hopen e he hfalse => ?_⟩
  · rcases List.mem_append.mp he with hold | hnew
    · exact h.failed e hold
    · exact h.failed_finishes hinv hstop hcareful (Option.mem_toList.mp hnew)
  · have hbefore := (t.sys.step_tracks i).established hopen
    rcases List.mem_append.mp he with hold | hnew
    · exact h.closed hbefore e hold hfalse
    · rcases finishes_cases (Option.mem_toList.mp hnew) with ⟨hclosed, -⟩ | ⟨hr, -⟩
      · simp [hbefore] at hclosed
      · rw [hfalse] at hr
        have hopen' : (t.sys.step i).established = true := hopen
        simp [Sending.result_failed_false hr] at hopen'

end

theorem step_retriable (t : Streaming) (i : Input) (h : t.Inv ∧ t.Retriable) (hcareful : t.Careful i) :
    (t.step i).Inv ∧ (t.step i).Retriable := by
  refine ⟨step_inv t i h.1, ?_⟩
  rcases t.step_cases i with hsame | ⟨j, rfl, hstop, hstep⟩ | ⟨-, hstep⟩
  · rw [hsame]
    exact h.2
  · rw [hstep]
    exact h.2.advance h.1 hstop hcareful
  · rw [hstep]
    exact ⟨h.2.drains, h.2.resting, h.2.aborted, h.2.failed, h.2.closed⟩

theorem opened_retriable (noDelay : Bool) : (opened noDelay).Retriable :=
  ⟨⟨nofun, nofun, nofun, nofun⟩, fun _ _ => Nat.zero_lt_succ _, nofun, nofun, fun _ => nofun⟩

/-- What a write that is over has contributed, as its caller counts it. -/
def reported (e : Write × Result) : Bytes := if e.2 = .ok then e.1.data else []

/-- In every run in which no send fails on an ESTABLISHED connection without Nagle's algorithm,
no write ends with an error while the connection is ESTABLISHED; so as long as it is, the stream
is that of the writes that returned no error, each whole and once, and of the write in progress. -/
theorem failed_write_leaves_nothing (noDelay : Bool) (inputs : List Input)
    (hcareful : AllSteps step Careful (opened noDelay) inputs) :
    let t := inputs.foldl step (opened noDelay)
    (∀ e ∈ t.ended, e.2 ≠ .failed true) ∧
    (t.sys.established = true →
      (t.numbered.map Prod.snd).flatten ++ (t.sys.holder.hand ++ t.sys.nagleBuf) =
        t.ended.flatMap reported ++ t.current.toList.flatMap Write.part) := by
  have h := run_invariant (fun t : Streaming => t.Inv ∧ t.Retriable) step_retriable
    ⟨opened_inv noDelay, opened_retriable noDelay⟩ hcareful
  generalize inputs.foldl step (opened noDelay) = t at h ⊢
  obtain ⟨hinv, hretriable⟩ := h
  refine ⟨hretriable.failed, fun hopen => ?_⟩
  have hparts : t.ended.flatMap (fun e => e.1.part) = t.ended.flatMap reported := by
    apply List.flatMap_congr
    intro e he
    unfold reported
    cases hresult : e.2 with
    | ok => exact hinv.whole e he hresult
    | failed established =>
      cases established with
      | true => exact absurd hresult (hretriable.failed e he)
      | false => exact absurd hresult (hretriable.closed hopen e he)
  have hstream := hinv.stream hopen
  unfold contributed writes Sending.pending at hstream
  rw [hstream, List.flatMap_append, List.flatMap_map, hparts]

/-- The tunnel fails on a write with Nagle's algorithm: the flush is tried again. -/
def drainedWrite : List Input :=
  [.enter [7], .lockWrite [7], .sendDataPiece, .lockSend, .look, .reserve true, .track 5 false,
    .returned, .lockSend, .look, .returned].map .send

/-- The connection is reset under the next write, which ends with the error. -/
def resetWrite : List Input :=
  drainedWrite ++ [.processAck 2 true 6, .enter [8], .lockWrite [8], .sendDataPiece, .lockSend,
    .look, .reserve true, .setState .closed, .track 7 false, .returned].map .send

theorem drained_write_once :
    ((drainedWrite.foldl step (opened false)).numbered.map Prod.snd).flatten ++
      ((drainedWrite.foldl step (opened false)).sys.holder.hand ++
        (drainedWrite.foldl step (opened false)).sys.nagleBuf) = [7] ∧
    (∀ e ∈ (resetWrite.foldl step (opened false)).ended, e.2 ≠ .failed true) ∧
    (resetWrite.foldl step (opened false)).ended =
      [(⟨[7], 1⟩, .ok), (⟨[8], 1⟩, .failed false)] := by
  have hdrained : AllSteps step Careful (opened false) drainedWrite := by decide +kernel
  have hreset : AllSteps step Careful (opened false) resetWrite := by decide +kernel
  have hstream := (failed_write_leaves_nothing false drainedWrite hdrained).2 (by decide +kernel)
  exact ⟨hstream.trans (by decide +kernel), (failed_write_leaves_nothing false resetWrite hreset).1,
    by decide +kernel⟩

def immediateWrite (sendOk : Bool) : List Input :=
  [.enter [7], .lockWrite [7], .immediateNext, .immediateReserve true, .immediateTrack 5 sendOk,
    .immediateNext].map .send

/-- The tunnel fails: the write returns the error while the connection is ESTABLISHED, with its
byte numbered and in the queue; written again, the byte is in the stream twice. -/
theorem failed_byte_stays :
    ((immediateWrite false).foldl step (opened true)).sys.established = true ∧
    ((immediateWrite false).foldl step (opened true)).ended = [(⟨[7], 1⟩, .failed true)] ∧
    ((immediateWrite false).foldl step (opened true)).numbered = [(1, [7])] ∧
    ((immediateWrite false).foldl step (opened true)).sys.conn.unacked.map RetxEntry.data = [[7]] ∧
    ((immediateWrite false ++ immediateWrite true).foldl step (opened true)).numbered =
      [(1, [7]), (2, [7])] := by
  decide +kernel

end Streaming

end PilotProtocol.Stream
