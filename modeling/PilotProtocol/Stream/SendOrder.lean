import PilotProtocol.Library.Run
import PilotProtocol.Stream.Reassembly
import PilotProtocol.Stream.SendStep

/-! # The order of the retransmission queue

While no FIN's number is given out, at most one segment is between its reservation and the
queue, so the queue ends where the numbers given out end. Where a close reserves the FIN's
number with nothing being sent, and no writer passes its check before the close has set
FIN_WAIT, no number is given out after the FIN's.
-/

namespace PilotProtocol.Stream

open Library Closer

/-! ## Queues -/

/-- The entries lie one behind the other from `start` to `stop`, and none is empty. -/
def Laid : List RetxEntry → Nat → Nat → Prop
  | [], start, stop => start = stop
  | e :: rest, start, stop =>
    e.seq = wrap start ∧ 0 < e.data.length ∧ Laid rest (start + e.data.length) stop

variable {entries entries' : List RetxEntry} {start stop : Nat}

section

variable (h : Laid entries start stop)
include h

theorem Laid.le : start ≤ stop := by
  induction entries generalizing start with
  | nil => exact Nat.le_of_eq h
  | cons e rest ih => exact (Nat.le_add_right _ _).trans (ih h.2.2)

theorem Laid.span : start + (entries.map fun e => e.data.length).sum = stop := by
  induction entries generalizing start with
  | nil => exact h
  | cons e rest ih =>
    rw [List.map_cons, List.sum_cons, ← Nat.add_assoc]
    exact ih h.2.2

theorem Laid.append {e : RetxEntry} (hseq : e.seq = wrap stop)
    (hlen : 0 < e.data.length) : Laid (entries ++ [e]) start (stop + e.data.length) := by
  induction entries generalizing start with
  | nil =>
    cases h
    exact ⟨hseq, hlen, rfl⟩
  | cons e' rest ih => exact ⟨h.1, h.2.1, ih h.2.2⟩

theorem Laid.restamp (hsegments : entries'.map RetxEntry.segment = entries.map RetxEntry.segment) :
    Laid entries' start stop := by
  induction entries generalizing start entries' with
  | nil =>
    rw [List.map_nil, List.map_eq_nil_iff] at hsegments
    rwa [hsegments]
  | cons e rest ih =>
    cases entries' with
    | nil => cases hsegments
    | cons e' rest' =>
      rw [List.map_cons, List.map_cons, List.cons.injEq] at hsegments
      obtain ⟨hhead, htail⟩ := hsegments
      have hseq : e'.seq = e.seq := congrArg Prod.fst hhead
      have hdata : e'.data = e.data := congrArg (fun t => t.2.1) hhead
      refine ⟨hseq.trans h.1, hdata ▸ h.2.1, ?_⟩
      rw [hdata]
      exact ih h.2.2 htail

theorem Laid.sorted :
    ∃ positions : List Nat, positions.Pairwise (· < ·) ∧ (∀ p ∈ positions, start ≤ p) ∧
      entries.map RetxEntry.seq = positions.map wrap := by
  induction entries generalizing start with
  | nil => exact ⟨[], List.Pairwise.nil, nofun, rfl⟩
  | cons e rest ih =>
    obtain ⟨hseq, hlen, hrest⟩ := h
    obtain ⟨positions, hsorted, hfrom, hmap⟩ := ih hrest
    refine ⟨start :: positions, List.pairwise_cons.mpr ⟨fun p hp => ?_, hsorted⟩, ?_, ?_⟩
    · exact Nat.lt_of_lt_of_le (Nat.lt_add_of_pos_right hlen) (hfrom p hp)
    · intro p hp
      rcases List.mem_cons.mp hp with rfl | hp
      · exact le_rfl
      · exact (Nat.le_add_right _ _).trans (hfrom p hp)
    · rw [List.map_cons, List.map_cons, hseq, hmap]

end

theorem covers_laid {e : RetxEntry} (ack : Nat) (hseq : e.seq = wrap start)
    (hnear : Near ack (start + e.data.length)) :
    Connection.covers (wrap ack) e = decide (start + e.data.length ≤ ack) := by
  unfold Connection.covers RetxEntry.endSeq
  rw [hseq, endSeq_wrap, seqAfterOrEqual_wrap hnear]

theorem Laid.uncovered {ack : Nat} (h : Laid entries start stop) (hack : ack ≤ start)
    (hnear : stop < ack + 2 ^ 31) :
    entries.filter (fun e => !Connection.covers (wrap ack) e) = entries := by
  induction entries generalizing start with
  | nil => rfl
  | cons e rest ih =>
    obtain ⟨hseq, hlen, hrest⟩ := h
    have hle := hrest.le
    have hcovers := covers_laid ack hseq ⟨by omega, by omega⟩
    rw [decide_eq_false (by omega)] at hcovers
    rw [List.filter_cons_of_pos (by simp [hcovers]), ih hrest (by omega)]

theorem Laid.acked {ack : Nat} (h : Laid entries start stop) (hack : ack ≤ start + 2 ^ 31)
    (hnear : stop < ack + 2 ^ 31) :
    ∃ start', Laid (entries.filter fun e => !Connection.covers (wrap ack) e) start' stop := by
  induction entries generalizing start with
  | nil => exact ⟨start, h⟩
  | cons e rest ih =>
    have hall := h
    obtain ⟨hseq, hlen, hrest⟩ := h
    have hle := hrest.le
    have hcovers := covers_laid ack hseq ⟨by omega, by omega⟩
    by_cases hend : start + e.data.length ≤ ack
    · rw [decide_eq_true hend] at hcovers
      rw [List.filter_cons_of_neg (by simp [hcovers])]
      exact ih hrest (by omega)
    · rw [decide_eq_false hend] at hcovers
      rw [List.filter_cons_of_pos (by simp [hcovers]), hrest.uncovered (by omega) hnear]
      exact ⟨start, hall⟩

/-! ## What is reserved -/

def Point.Ok : Point → Prop
  | .top => True
  | .waiting seg _ => seg ≠ []
  | .tracking _ seg _ => seg ≠ []

def Holder.Ok : Holder → Prop
  | .none => True
  | .writer _ p => p.Ok
  | .flusher _ p => p.Ok
  | .closer _ p => p.Ok

/-- It has nothing to send but what is in the buffer. -/
def Holder.Quiet : Holder → Prop
  | .none => True
  | .flusher _ .top => True
  | .closer rest .top => rest = []
  | _ => False

/-- A write is sent in the way that `NoDelay` says, and no segment of it is empty. -/
def Writer.Ok (noDelay : Bool) : Writer → Prop
  | .none => True
  | .immediate _ => noDelay = true
  | .immediateWaiting seg _ => noDelay = true ∧ seg ≠ []
  | .immediateTracking _ seg _ => noDelay = true ∧ seg ≠ []
  | _ => noDelay = false

theorem Holder.Quiet.reserved {h : Holder} (hq : h.Quiet) : h.reserved = [] := by
  rcases h with _ | ⟨force, p⟩ | ⟨force, p⟩ | ⟨rest, p⟩
  · rfl
  · cases hq
  · cases p with
    | top => rfl
    | waiting seg tail | tracking seq seg tail => cases hq
  · cases p with
    | top => rfl
    | waiting seg tail | tracking seq seg tail => cases hq

theorem Writer.Ok.reserved {w : Writer} (h : w.Ok false) : w.reserved = [] := by
  cases w with
  | immediateTracking seq seg rest => cases h.1
  | _ => rfl

theorem Writer.Ok.segment_ne {w : Writer} {noDelay : Bool} {seq : Seq} {seg : Bytes}
    (h : w.Ok noDelay) (hseg : (seq, seg) ∈ w.reserved) : seg ≠ [] := by
  cases w with
  | immediateTracking seq seg rest =>
    cases List.mem_singleton.mp hseg
    exact h.2
  | _ => cases hseg

theorem Holder.Ok.segment_ne {p : Holder} {seq : Seq} {seg : Bytes} (h : p.Ok)
    (hseg : (seq, seg) ∈ p.reserved) : seg ≠ [] := by
  grind -linarith [Holder.Ok, Point.Ok, Holder.reserved, Point.reserved, cases Holder, cases Point]

theorem Writer.endFlush_ok {w : Writer} {noDelay : Bool} {err : Option SendError} :
    (w.endFlush err).Ok noDelay ↔ w.Ok noDelay := by
  cases w <;> rfl

namespace Sending

variable {s s' : Sending} {i : Input}

/-- The FINs whose number is reserved and that are not in the queue. -/
def finsOut (s : Sending) : List Seq :=
  s.conn.heldFIN.toList ++ (s.closers.filterMap fin ++ s.released)

/-! ## The invariant -/

structure Common (s : Sending) : Prop where
  sendSeq : s.conn.sendSeq = wrap s.next
  laid : ∃ start, Laid s.conn.unacked start s.tracked
  before : ∀ g ∈ s.given, g.1 + g.2 ≤ s.next ∧ ∀ f ∈ s.fins, g.1 + g.2 ≤ f

/-- At most one segment is reserved, and it is the next to be tracked. -/
def Pending (s : Sending) : Prop :=
  (s.reserved = [] ∧ s.next = s.tracked) ∨
    ∃ seg, s.reserved = [(wrap s.tracked, seg)] ∧ s.next = s.tracked + seg.length

structure Open (s : Sending) : Prop where
  fins : s.fins = []
  finsOut : s.finsOut = []
  writer : s.writer.Ok s.noDelay
  holder : s.holder.Ok
  immediate : s.noDelay = true → s.nagleBuf = [] ∧ s.holder.Quiet
  pending : s.Pending

/-- The FIN's number is the last one given out, and there is nothing left to send. -/
structure Shut (s : Sending) (f : Nat) : Prop where
  fins : s.fins = [f]
  next : s.next = f + 1
  writer : s.writer = .none
  nagleBuf : s.nagleBuf = []
  holder : s.holder.Quiet
  fin : (s.finsOut = [wrap f] ∧ s.tracked = f) ∨ (s.finsOut = [] ∧ s.tracked = f + 1)

structure Inv (s : Sending) : Prop where
  common : s.Common
  phase : s.Open ∨ ∃ f, s.Shut f

/-- A close reserves the FIN's number when no write is under way, nothing is buffered and
`SendMu` is free, and no number is reserved for a second FIN; until the close has set the
state, no writer finds the connection ESTABLISHED. An ACK is for a number that was given out,
and it and the queue go back less than half the sequence space. A held FIN is not given up. -/
def Careful (s : Sending) : Input → Prop
  | .lockWrite _ => s.fins ≠ [] → s.established = false
  | .closer (.reserving _) _ _ =>
    s.established = true →
      s.fins = [] ∧ s.writer = .none ∧ s.holder = .none ∧ s.nagleBuf = []
  | .processAck ack _ _ =>
    ∃ a, ack = wrap a ∧ a ≤ s.next ∧ s.next < a + 2 ^ 31 ∧
      s.next ≤ s.tracked - s.conn.flightSize + 2 ^ 31
  | .releaseHeldFIN =>
    s.conn.heldFIN ≠ none → s.conn.state ≠ .timeWait ∧ s.conn.state ≠ .closed
  | _ => True

instance instDecidableCareful (s : Sending) (i : Input) : Decidable (s.Careful i) := by
  cases i with
  | processAck ack pureACK now =>
    exact decidable_of_iff (∃ a < s.next + 1, ack = wrap a ∧ s.next < a + 2 ^ 31 ∧
      s.next ≤ s.tracked - s.conn.flightSize + 2 ^ 31)
      ⟨fun ⟨a, hle, hack, hrest⟩ => ⟨a, hack, Nat.le_of_lt_succ hle, hrest⟩,
        fun ⟨a, hack, hle, hrest⟩ => ⟨a, Nat.lt_succ_of_le hle, hack, hrest⟩⟩
  | closer c stopping now => cases c <;> dsimp only [Careful] <;> infer_instance
  | _ => dsimp only [Careful]; infer_instance

/-- Nothing has been sent. -/
structure Fresh (s : Sending) : Prop where
  sendSeq : s.conn.sendSeq = wrap s.next
  unacked : s.conn.unacked = []
  heldFIN : s.conn.heldFIN = none
  nagleBuf : s.nagleBuf = []
  writer : s.writer = .none
  holder : s.holder = .none
  closers : s.closers = []
  released : s.released = []
  tracked : s.tracked = s.next
  given : s.given = []
  fins : s.fins = []

theorem Fresh.inv (h : s.Fresh) : s.Inv where
  common := {
    sendSeq := h.sendSeq
    laid := ⟨s.tracked, by rw [h.unacked]; rfl⟩
    before := by simp [h.given] }
  phase := .inl {
    fins := h.fins
    finsOut := by simp [Sending.finsOut, h.heldFIN, h.closers, h.released]
    writer := by rw [h.writer]; trivial
    holder := by rw [h.holder]; trivial
    immediate := fun _ => ⟨h.nagleBuf, by rw [h.holder]; trivial⟩
    pending := .inl ⟨by simp [reserved, h.writer, h.holder, Writer.reserved, Holder.reserved],
      h.tracked.symm⟩ }

/-! ## Frames -/

/-- Nothing is given out, tracked or acknowledged. -/
structure Frame (s s' : Sending) : Prop where
  sendSeq : s'.conn.sendSeq = s.conn.sendSeq
  laid : ∀ start, Laid s.conn.unacked start s.tracked →
    ∃ start', Laid s'.conn.unacked start' s'.tracked
  next : s'.next = s.next
  tracked : s'.tracked = s.tracked
  given : s'.given = s.given
  fins : s'.fins = s.fins
  finsOut : s'.finsOut.Perm s.finsOut
  noDelay : s'.noDelay = s.noDelay

theorem Frame.refl (s : Sending) : Frame s s :=
  ⟨rfl, fun start hlaid => ⟨start, hlaid⟩, rfl, rfl, rfl, rfl, .refl _, rfl⟩

theorem Common.frame (h : s.Common) (hframe : Frame s s') : s'.Common where
  sendSeq := by rw [hframe.sendSeq, hframe.next, h.sendSeq]
  laid := by
    obtain ⟨start, hlaid⟩ := h.laid
    exact hframe.laid start hlaid
  before := by rw [hframe.given, hframe.next, hframe.fins]; exact h.before

theorem Open.frame (h : s.Open) (hframe : Frame s s') (hwriter : s'.writer.Ok s.noDelay)
    (hholder : s'.holder.Ok) (himmediate : s.noDelay = true → s'.nagleBuf = [] ∧ s'.holder.Quiet)
    (hreserved : s'.reserved = s.reserved) : s'.Open where
  fins := hframe.fins.trans h.fins
  finsOut := List.perm_nil.mp (h.finsOut ▸ hframe.finsOut)
  writer := hframe.noDelay ▸ hwriter
  holder := hholder
  immediate := fun hno => himmediate (hframe.noDelay ▸ hno)
  pending := by
    unfold Pending
    rw [hreserved, hframe.next, hframe.tracked]
    exact h.pending

theorem Shut.frame {f : Nat} (h : s.Shut f) (hframe : Frame s s') (hwriter : s'.writer = .none)
    (hbuf : s'.nagleBuf = []) (hholder : s'.holder.Quiet) : s'.Shut f where
  fins := hframe.fins.trans h.fins
  next := hframe.next.trans h.next
  writer := hwriter
  nagleBuf := hbuf
  holder := hholder
  fin := by
    rw [hframe.tracked]
    refine h.fin.imp (And.imp_left fun hout => ?_) (And.imp_left fun hout => ?_)
    · exact List.perm_singleton.mp (hout ▸ hframe.finsOut)
    · exact List.perm_nil.mp (hout ▸ hframe.finsOut)

theorem Inv.setConn (h : s.Inv) {c : Connection} (hseq : c.sendSeq = s.conn.sendSeq)
    (hheld : c.heldFIN = s.conn.heldFIN) (hlaid : ∀ start, Laid s.conn.unacked start s.tracked →
      ∃ start', Laid c.unacked start' s.tracked) : (s.setConn c).Inv := by
  have hout : (s.setConn c).finsOut = s.finsOut := by
    unfold Sending.finsOut Sending.setConn
    rw [hheld]
  have hframe : Frame s (s.setConn c) :=
    { Frame.refl s with sendSeq := hseq, laid := hlaid, finsOut := by rw [hout] }
  refine ⟨h.common.frame hframe, h.phase.imp (fun ho => ?_) fun ⟨f, hf⟩ => ⟨f, ?_⟩⟩
  · exact ho.frame hframe ho.writer ho.holder ho.immediate rfl
  · exact hf.frame hframe hf.writer hf.nagleBuf hf.holder

theorem Inv.frame (h : s.Inv) (hframe : Frame s s')
    (hopen : s.Open → s'.writer.Ok s.noDelay ∧ s'.holder.Ok ∧
      (s.noDelay = true → s'.nagleBuf = [] ∧ s'.holder.Quiet) ∧ s'.reserved = s.reserved)
    (hshut : ∀ f, s.Shut f → s'.writer = .none ∧ s'.nagleBuf = [] ∧ s'.holder.Quiet) : s'.Inv := by
  refine ⟨h.common.frame hframe, h.phase.imp (fun ho => ?_) fun ⟨f, hf⟩ => ⟨f, ?_⟩⟩
  · obtain ⟨hwriter, hholder, himmediate, hreserved⟩ := hopen ho
    exact ho.frame hframe hwriter hholder himmediate hreserved
  · obtain ⟨hwriter, hbuf, hholder⟩ := hshut f hf
    exact hf.frame hframe hwriter hbuf hholder

/-! ## Hands -/

theorem take_ne_nil {data : Bytes} {n : Nat} (hdata : data ≠ []) (hn : 0 < n) : data.take n ≠ [] := by
  cases data with
  | nil => exact absurd rfl hdata
  | cons b rest =>
    cases n with
    | zero => cases hn
    | succ n => exact List.cons_ne_nil _ _

theorem Acts.hands_open (h : Acts s i s') (ho : s.Open) : s'.writer.Ok s.noDelay ∧ s'.holder.Ok ∧
      (s.noDelay = true → s'.nagleBuf = [] ∧ s'.holder.Quiet) := by
  obtain ⟨-, -, hwriter, hholder, himmediate, -⟩ := ho
  have hpos : 0 < sendSegmentSize := by decide
  cases h with
  | _ => grind -linarith [Writer.Ok, Writer.endFlush_ok, Holder.Ok, Point.Ok, Holder.Quiet, take_ne_nil]

/-- No write begins after the FIN's number is given out. -/
theorem Acts.hands_shut {f : Nat} (h : Acts s i s') (hf : s.Shut f) (hok : s.Careful i) :
    s'.writer = .none ∧ s'.nagleBuf = [] ∧ s'.holder.Quiet := by
  obtain ⟨hfins, -, hwriter, hbuf, hholder, -⟩ := hf
  cases h with
  | _ => grind -linarith [Holder.Quiet, Careful]

/-! ## Transmission -/

theorem Open.idle (h : s.Open) (hreserved : s.reserved = []) : s.next = s.tracked := by
  rcases h.pending with ⟨-, hnext⟩ | ⟨seg, hseg, -⟩
  · exact hnext
  · simp [hreserved] at hseg

variable {w : Writer} {p : Holder} {seq : Seq} {seg : Bytes}

theorem Open.segment_ne (h : s.Open) (hseg : s.reserved = [(seq, seg)]) : seg ≠ [] := by
  have hmem : (seq, seg) ∈ s.reserved := by
    rw [hseg]
    exact .head _
  rcases List.mem_append.mp hmem with hwriter | hholder
  · exact h.writer.segment_ne hwriter
  · exact h.holder.segment_ne hholder

theorem Inv.reserve (h : s.Inv) (hopen : s.Open) (hidle : s.reserved = [])
    (hhands : w.Ok s.noDelay ∧ p.Ok ∧ (s.noDelay = true → s.nagleBuf = [] ∧ p.Quiet))
    (hreserved : w.reserved ++ p.reserved = [(s.conn.sendSeq, seg)]) :
    Inv { s.reserve seg with writer := w, holder := p } where
  common := {
    sendSeq := by
      show endSeq s.conn.sendSeq seg = wrap (s.next + seg.length)
      rw [h.common.sendSeq, endSeq_wrap]
    laid := h.common.laid
    before := by
      intro g hg
      refine ⟨?_, fun f hf => ?_⟩
      · rcases List.mem_append.mp hg with hg | hg
        · exact (h.common.before g hg).1.trans (Nat.le_add_right _ _)
        · rw [List.mem_singleton.mp hg]
          exact le_rfl
      · rw [show (s.reserve seg).fins = [] from hopen.fins] at hf
        cases hf }
  phase := .inl { hopen with
    writer := hhands.1
    holder := hhands.2.1
    immediate := hhands.2.2
    pending := .inr ⟨seg, by
      have hseq : s.conn.sendSeq = wrap s.tracked := by rw [h.common.sendSeq, hopen.idle hidle]
      rw [hseq] at hreserved
      exact ⟨hreserved, congrArg (· + seg.length) (hopen.idle hidle)⟩⟩ }

theorem Inv.track (h : s.Inv) {now : Nat} (hopen : s.Open) (hseg : s.reserved = [(seq, seg)])
    (hhands : w.Ok s.noDelay ∧ p.Ok ∧ (s.noDelay = true → s.nagleBuf = [] ∧ p.Quiet))
    (hreserved : w.reserved ++ p.reserved = []) :
    Inv { s.track seq seg now with writer := w, holder := p } := by
  have hpending : seq = wrap s.tracked ∧ s.next = s.tracked + seg.length := by
    rcases hopen.pending with ⟨hnone, -⟩ | ⟨seg', hseg', hnext⟩
    · rw [hseg] at hnone
      cases hnone
    · rw [hseg] at hseg'
      cases hseg'
      exact ⟨rfl, hnext⟩
  refine ⟨⟨h.common.sendSeq, ?_, h.common.before⟩, .inl ?_⟩
  · obtain ⟨start, hlaid⟩ := h.common.laid
    exact ⟨start, hlaid.append hpending.1 (List.length_pos_iff.mpr (hopen.segment_ne hseg))⟩
  · exact { hopen with
      writer := hhands.1
      holder := hhands.2.1
      immediate := hhands.2.2
      pending := .inl ⟨hreserved, hpending.2⟩ }

/-- A holder of `SendMu` with something to send means that no FIN's number is given out and
that the writer is not sending by itself. -/
theorem Inv.busy (h : s.Inv) (hp : s.holder = p) (hbusy : ¬ p.Quiet) :
    s.Open ∧ s.writer.reserved = [] ∧ s.reserved = p.reserved := by
  subst hp
  rcases h.phase with ho | ⟨f, hf⟩
  · have hwriter := ho.writer
    cases hno : s.noDelay with
    | false =>
      rw [hno] at hwriter
      refine ⟨ho, hwriter.reserved, ?_⟩
      rw [Sending.reserved, hwriter.reserved]
      rfl
    | true => exact absurd (ho.immediate hno).2 hbusy
  · exact absurd hf.holder hbusy

theorem Inv.immediate (h : s.Inv) (hw : s.writer = w) (hne : w ≠ .none)
    (hno : ∀ noDelay, w.Ok noDelay → noDelay = true) :
    s.Open ∧ s.reserved = w.reserved ∧ s.holder.reserved = [] := by
  subst hw
  rcases h.phase with ho | ⟨f, hf⟩
  · have hidle := (ho.immediate (hno _ ho.writer)).2.reserved
    refine ⟨ho, ?_, hidle⟩
    rw [Sending.reserved, hidle, List.append_nil]
  · exact absurd hf.writer hne

/-! ## Closers -/

theorem fin_erase {closers : List Closer} {c : Closer} (hc : c ∈ closers) :
    (closers.filterMap fin).Perm (c.fin.toList ++ (closers.erase c).filterMap fin) := by
  have hperm := (List.perm_cons_erase hc).filterMap fin
  cases hfin : c.fin with
  | none | some seq => simpa [hfin] using hperm

theorem finsOut_perm {closers : List Closer}
    (h : (closers.filterMap fin).Perm (s.closers.filterMap fin)) :
    (finsOut { s with closers := closers }).Perm s.finsOut :=
  (h.append_right _).append_left _

section

variable (h : s.Inv)
include h

theorem Inv.sendFIN (closers : List Closer) (released : List Seq) (now : Nat) (hout : s.finsOut.Perm
      (seq :: (s.conn.heldFIN.toList ++ (closers.filterMap fin ++ released)))) :
    Inv (Sending.sendFIN { s with closers := closers, released := released } seq now) := by
  rcases h.phase with ho | ⟨f, hf⟩
  · rw [ho.finsOut] at hout
    cases List.nil_perm.mp hout
  · rcases hf.fin with ⟨hone, htracked⟩ | ⟨hnone, -⟩
    · rw [hone] at hout
      have heq := List.perm_singleton.mp hout.symm
      rw [List.cons.injEq] at heq
      obtain ⟨start, hlaid⟩ := h.common.laid
      refine ⟨⟨h.common.sendSeq, ⟨start, ?_⟩, h.common.before⟩, .inr ⟨f, ?_⟩⟩
      · exact hlaid.append (by rw [htracked]; exact heq.1) Nat.one_pos
      · exact { hf with fin := .inr ⟨heq.2, congrArg (· + 1) htracked⟩ }
    · rw [hnone] at hout
      cases List.nil_perm.mp hout

theorem Inv.reserveFIN {hold : Bool} {closers : List Closer} (hfins : s.fins = [])
    (hwriter : s.writer = .none) (hholder : s.holder = .none) (hbuf : s.nagleBuf = [])
    (hclosers : closers.filterMap fin = if hold then [] else [s.conn.sendSeq]) : Inv { s with
      conn := { s.conn with
        sendSeq := s.conn.sendSeq + 1
        heldFIN := if hold then some s.conn.sendSeq else s.conn.heldFIN }
      next := s.next + 1
      fins := s.fins ++ [s.next]
      closers } := by
  have ho : s.Open := by
    rcases h.phase with ho | ⟨f, hf⟩
    · exact ho
    · simp [hf.fins] at hfins
  have htracked : s.tracked = s.next := by
    refine (ho.idle ?_).symm
    unfold reserved
    rw [hwriter, hholder]
    rfl
  have hout := ho.finsOut
  unfold Sending.finsOut at hout
  rw [List.append_eq_nil_iff, List.append_eq_nil_iff] at hout
  obtain ⟨hheld, -, hreleased⟩ := hout
  have hquiet : s.holder.Quiet := by rw [hholder]; trivial
  have hseq : s.conn.sendSeq + 1 = wrap (s.next + 1) := by
    rw [h.common.sendSeq]
    exact wrap_add s.next 1
  have hbefore : ∀ g ∈ s.given, g.1 + g.2 ≤ s.next + 1 ∧ ∀ f ∈ s.fins ++ [s.next], g.1 + g.2 ≤ f := by
    intro g hg
    have hle := (h.common.before g hg).1
    refine ⟨hle.trans (Nat.le_succ _), fun f hf => ?_⟩
    rw [hfins, List.nil_append, List.mem_singleton] at hf
    exact hf ▸ hle
  refine ⟨⟨hseq, h.common.laid, hbefore⟩, .inr ⟨s.next, ?_⟩⟩
  refine ⟨by rw [hfins]; rfl, rfl, hwriter, hbuf, hquiet, .inl ⟨?_, htracked⟩⟩
  unfold Sending.finsOut
  rw [hclosers, hreleased, h.common.sendSeq]
  cases hold with
  | true => rfl
  | false => simp [hheld]

/-! ## Acknowledgements and timeouts -/

theorem Inv.restamps {c : Connection} {pkts : List Packet}
    (hrestamps : Restamps s.conn c pkts) : (s.setConn c).Inv := by
  refine h.setConn hrestamps.sendSeq hrestamps.heldFIN fun start hlaid => ⟨start, ?_⟩
  exact hlaid.restamp (segments_of_marked hrestamps.queue)

theorem Inv.tracked_le : s.tracked ≤ s.next := by
  rcases h.phase with ho | ⟨f, hf⟩
  · rcases ho.pending with ⟨-, heq⟩ | ⟨seg, -, heq⟩
    · exact heq.ge
    · exact heq ▸ Nat.le_add_right _ _
  · rw [hf.next]
    rcases hf.fin with ⟨-, heq⟩ | ⟨-, heq⟩
    · exact heq ▸ Nat.le_succ _
    · exact heq.le

theorem Inv.processAck {ack : Seq} {pureACK : Bool} {now : Nat}
    (hok : s.Careful (.processAck ack pureACK now)) :
    (s.setConn (s.conn.processAck ack pureACK now).1).Inv := by
  rcases s.conn.processAck_restamps ack pureACK now with ⟨-, hsame⟩ | ⟨-, hcovered⟩
  · exact h.restamps hsame
  · obtain ⟨a, rfl, hack, hnear, hflight⟩ := hok
    refine h.setConn hcovered.sendSeq hcovered.heldFIN fun start hlaid => ?_
    have hspan := hlaid.span
    have htracked := h.tracked_le
    unfold Connection.flightSize at hflight
    have hpast : a ≤ start + 2 ^ 31 := by omega
    obtain ⟨start', hleft⟩ := hlaid.acked hpast (by omega)
    exact ⟨start', hleft.restamp (segments_of_marked hcovered.queue)⟩

theorem Inv.retransmitUnacked (now draw : Nat) :
    (s.setConn (s.conn.retransmitUnacked now draw).1).Inv := by
  have htimes := s.conn.retransmitUnacked_timesOut now draw
  refine h.setConn htimes.sendSeq htimes.heldFIN fun start hlaid => ⟨start, ?_⟩
  exact hlaid.restamp (s.conn.retransmitUnacked_segments now draw)

/-! ## Steps and runs -/

theorem Inv.acts_frame (hacts : Acts s i s') (hok : s.Careful i) (hframe : Frame s s')
    (hreserved : s'.reserved = s.reserved) : s'.Inv := by
  refine h.frame hframe (fun ho => ?_) fun f hf => hacts.hands_shut hf hok
  obtain ⟨hwriter, hholder, himmediate⟩ := hacts.hands_open ho
  exact ⟨hwriter, hholder, himmediate, hreserved⟩

theorem Inv.acts (hacts : Acts s i s') (hok : s.Careful i) : s'.Inv := by
  have hhands := hacts.hands_open
  have hmoved := h.acts_frame hacts hok
  cases hacts with
  | stay => exact h
  | reserveWriter hp | reserveFlusher hp | reserveCloser hp =>
    obtain ⟨ho, hwriter, hidle⟩ := h.busy hp fun hq => hq
    refine h.reserve ho hidle (hhands ho) ?_
    show s.writer.reserved ++ _ = _
    rw [hwriter]
    rfl
  | trackFailed hp | trackTail hp | trackFull hp | trackFlusher hp | trackCloser hp =>
    obtain ⟨ho, hwriter, hseg⟩ := h.busy hp fun hq => hq
    refine h.track ho hseg (hhands ho) ?_
    simp [Sending.track, hwriter, Holder.reserved, Point.reserved]
  | immediateReserve hw =>
    obtain ⟨ho, hreserved, hholder⟩ := h.immediate hw (by simp) fun _ hno => hno.1
    refine h.reserve ho hreserved (hhands ho) ?_
    show _ ++ s.holder.reserved = _
    rw [hholder]
    rfl
  | immediateTrack hw =>
    obtain ⟨ho, hreserved, hholder⟩ := h.immediate hw (by simp) fun _ hno => hno.1
    refine h.track ho hreserved (hhands ho) ?_
    show _ ++ s.holder.reserved = _
    rw [hholder]
    split <;> rfl
  | @reserveFIN hold _ _ hc hestablished =>
    obtain ⟨hfins, hwriter, hholder, hbuf⟩ := hok hestablished
    refine h.reserveFIN hfins hwriter hholder hbuf ?_
    have hnone : s.closers.filterMap fin = [] := by
      rcases h.phase with ho | ⟨f, hf⟩
      · exact (List.append_eq_nil_iff.mp (List.append_eq_nil_iff.mp ho.finsOut).2).1
      · cases hf.fins.symm.trans hfins
    have hrest := List.nil_perm.mp (hnone ▸ fin_erase hc)
    cases hold with
    | true => exact hrest
    | false => exact congrArg (s.conn.sendSeq :: ·) hrest
  | @closerFIN seq _ now hc =>
    refine h.sendFIN (.finishing :: s.closers.erase (.sendingFIN seq)) s.released now ?_
    have hout : (s.closers.filterMap fin ++ s.released).Perm
        (seq :: ((s.closers.erase (.sendingFIN seq)).filterMap fin ++ s.released)) :=
      (fin_erase hc).append_right _
    exact (hout.append_left _).trans List.perm_middle
  | @sendFIN seq now hmem =>
    refine h.sendFIN s.closers (s.released.erase seq) now ?_
    have hout := ((List.perm_cons_erase hmem).append_left (s.closers.filterMap fin)).trans
      List.perm_middle
    exact (hout.append_left _).trans List.perm_middle
  | releaseHeldFIN hheld hreleased =>
    obtain ⟨htime, hclosed⟩ := hok (by rw [hheld]; exact Option.some_ne_none _)
    rcases hreleased with htime' | hclosed' | rfl
    · exact absurd htime' htime
    · exact absurd hclosed' hclosed
    refine hmoved { Frame.refl s with finsOut := ?_ } rfl
    unfold Sending.finsOut
    rw [hheld]
    exact List.perm_middle
  | processAck => exact h.processAck hok
  | processSACK =>
    refine h.setConn rfl rfl fun start hlaid => ⟨start, ?_⟩
    exact hlaid.restamp (s.conn.processSACK_segments _)
  | retransmitUnacked => exact h.retransmitUnacked _ _
  | setState => exact h.setConn rfl rfl fun start hlaid => ⟨start, hlaid⟩
  | finishing hc =>
    refine hmoved { Frame.refl s with finsOut := ?_ } rfl
    exact finsOut_perm (fin_erase hc).symm
  | @giveUp _ _ probed _ hp =>
    refine hmoved ?_ ?_
    · cases probed <;> exact { Frame.refl s with }
    · simp [Sending.reserved, hp, Holder.reserved, Point.reserved]
  | @immediateGiveUp _ _ probed hw =>
    refine hmoved ?_ ?_
    · cases probed <;> exact { Frame.refl s with }
    · simp [Sending.reserved, hw, Writer.reserved]
  | closer hc hfin hfin' =>
    refine hmoved { Frame.refl s with finsOut := finsOut_perm ?_ } rfl
    have hperm := fin_erase hc
    rw [hfin] at hperm
    rw [List.filterMap_cons_none hfin']
    exact hperm.symm
  | takeAll hc hfree =>
    refine hmoved { Frame.refl s with finsOut := finsOut_perm (fin_erase hc).symm } ?_
    rw [Sending.reserved, Sending.reserved, hfree]
    rfl
  | _ =>
    refine hmoved { Frame.refl s with } ?_
    grind -linarith [Sending.reserved, Writer.reserved, Holder.reserved, Point.reserved]

theorem step_inv {i : Input} (hok : s.Careful i) : (s.step i).Inv := h.acts (s.step_acts i) hok

end

/-- No transmission is between reserving its number and tracking it. -/
def AtRest (s : Sending) : Prop := s.reserved = [] ∧ s.closers.filterMap fin = [] ∧ s.released = []

instance instDecidableAtRest (s : Sending) : Decidable s.AtRest :=
  inferInstanceAs (Decidable (_ ∧ _ ∧ _))

theorem Inv.atRest (h : s.Inv) (hrest : s.AtRest) :
    s.next = s.tracked + s.conn.heldFIN.toList.length := by
  obtain ⟨hreserved, hclosers, hreleased⟩ := hrest
  have hout : s.finsOut = s.conn.heldFIN.toList := by
    unfold Sending.finsOut
    rw [hclosers, hreleased, List.append_nil, List.append_nil]
  rw [← hout]
  rcases h.phase with ho | ⟨f, hf⟩
  · rw [ho.finsOut]
    exact ho.idle hreserved
  · rcases hf.fin with ⟨hone, htracked⟩ | ⟨hnone, htracked⟩
    · rw [hone, htracked]
      exact hf.next
    · rw [hnone, htracked]
      exact hf.next

/-- In every careful run no data is given a number at or after the FIN's; and in every state
at rest that it reaches, the queue's entries lie one behind the other, in the order of their
numbers, and end at `SendSeq`, less the number of a held FIN. -/
theorem fin_last_queue_ordered (hfresh : s.Fresh) {inputs : List Input}
    (hok : AllSteps step Careful s inputs) :
    (∀ g ∈ (inputs.foldl step s).given, ∀ f ∈ (inputs.foldl step s).fins, g.1 + g.2 ≤ f) ∧
    ((inputs.foldl step s).AtRest → ∃ (start stop : Nat) (positions : List Nat),
      Laid (inputs.foldl step s).conn.unacked start stop ∧
      (inputs.foldl step s).conn.unacked.map RetxEntry.seq = positions.map wrap ∧
      positions.Pairwise (· < ·) ∧ (inputs.foldl step s).conn.sendSeq =
        wrap (stop + (inputs.foldl step s).conn.heldFIN.toList.length)) := by
  have hinv := run_invariant Inv (fun _ _ h hi => step_inv h hi) hfresh.inv hok
  refine ⟨fun g hg => (hinv.common.before g hg).2, fun hrest => ?_⟩
  obtain ⟨start, hlaid⟩ := hinv.common.laid
  obtain ⟨positions, hsorted, -, hseqs⟩ := hlaid.sorted
  refine ⟨start, _, positions, hlaid, hseqs, hsorted, ?_⟩
  rw [hinv.common.sendSeq, hinv.atRest hrest]

/-! ## Runs -/

def established0 : Sending where
  conn := .new 0
  noDelay := false
  nagleBuf := []
  tailFlusher := false
  queue := []
  writer := .none
  holder := .none
  flushers := []
  closers := []
  released := []
  next := 0
  tracked := 0
  given := []
  fins := []

theorem established0_fresh : established0.Fresh := by constructor <;> rfl

def written : List Input := [.enter [1], .lockWrite [1], .sendDataPiece, .lockSend, .look]

def transmitted : List Input := [.reserve true, .track 0 true]

def closed (tries : Nat) : List Input :=
  [.close, .closer .entered false 0] ++ (List.range tries).map fun n => .closer (.trying n) false 0

def finHeld : List Input :=
  [.look, .closer .tailSent false 0, .closer (.reserving true) false 0, .closer .finishing false 0]

/-- The close goes on to the FIN with no data in the queue: it is sent at once. -/
def finSent (seq : Seq) : List Input :=
  [.closer .tailSent false 0, .closer (.reserving false) false 0, .closer (.sendingFIN seq) false 0,
    .closer .finishing false 0]

def writtenAndClosed : List Input := written ++ transmitted ++ [.returned] ++ closed 1 ++ finHeld

theorem held_fin_follows_data : ∃ (start stop : Nat) (positions : List Nat),
      Laid (writtenAndClosed.foldl step established0).conn.unacked start stop ∧
      (writtenAndClosed.foldl step established0).conn.unacked.map RetxEntry.seq =
        positions.map wrap ∧ positions.Pairwise (· < ·) ∧
      (writtenAndClosed.foldl step established0).conn.sendSeq =
        wrap (stop + (writtenAndClosed.foldl step established0).conn.heldFIN.toList.length) :=
  have hok : AllSteps step Careful established0 writtenAndClosed := by decide +kernel
  (fin_last_queue_ordered established0_fresh hok).2 (by decide +kernel)

/-- The close gives up on `SendMu` and sends its FIN while the writer waits for the window. -/
def finBeforeReserve : List Input := written ++ closed 21 ++ finSent 0 ++ transmitted

/-- The same while the writer has its number but has not tracked its segment. -/
def finBeforeTrack : List Input :=
  written ++ [.reserve true] ++ closed 21 ++ finSent 1 ++ [.track 0 true]

/-- In the first run the writer's segment gets the number after the FIN's; in the second the
queue is out of order. -/
theorem close_overtakes_writer : (finBeforeReserve.foldl step established0).AtRest ∧
    (finBeforeReserve.foldl step established0).fins = [0] ∧
    (finBeforeReserve.foldl step established0).given = [(1, 1)] ∧
    (finBeforeTrack.foldl step established0).AtRest ∧
    (finBeforeTrack.foldl step established0).conn.unacked.map RetxEntry.seq = [(1 : Seq), 0] := by
  decide +kernel

end Sending

end PilotProtocol.Stream
