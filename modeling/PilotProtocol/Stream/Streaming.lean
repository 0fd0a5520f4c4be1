import PilotProtocol.Stream.AckRange
import PilotProtocol.Stream.Contents

/-! # The stream of a connection's writes

A run of the goroutines together with what the code does not record: which segments were
numbered and handed to the tunnel, and how far each write came, in the order in which the
writes got `WriteMu`. As long as the connection is ESTABLISHED no byte that was taken from a
write is lost, moved or sent twice.
-/

namespace PilotProtocol.Stream

open Library Sending

structure Streaming where
  sys : Sending
  /-- `RetxStop` is closed. -/
  stopped : Bool
  /-- The data segments that were given numbers, in that order. -/
  numbered : List (Seq × Bytes)
  /-- The data segments that were handed to the tunnel, in that order. -/
  sent : List (Seq × Bytes)
  /-- The writes that are over, in the order in which they got `WriteMu`. -/
  ended : List (Write × Result)
  current : Option Write

namespace Streaming

inductive Input
  | send (i : Sending.Input)
  /-- Closes `RetxStop`; the callers have taken the connection out of ESTABLISHED. -/
  | removeConnection

def endsByStop : Sending.Input → Bool
  | .giveUp probed => !probed
  | .immediateGiveUp probed => !probed
  | _ => false

variable {t : Streaming}

/-- The writes that got `WriteMu`, in that order. -/
def writes (t : Streaming) : List Write := t.ended.map Prod.fst ++ t.current.toList

def contributed (t : Streaming) : Bytes := t.writes.flatMap Write.part

/-- The write in progress after the bytes that the step takes. -/
def worked (t : Streaming) (i : Sending.Input) : Option Write :=
  t.current.map (·.advance (t.sys.taken i).length)

def finishes (t : Streaming) (i : Sending.Input) : Option (Write × Result) :=
  match t.sys.begins i with
  | some data => if t.sys.established then none else some (⟨data, 0⟩, .failed false)
  | none => (t.sys.result i).bind fun r => (t.worked i).map fun w => (w, r)

def going (t : Streaming) (i : Sending.Input) : Option Write :=
  match t.sys.begins i with
  | some data => if t.sys.established then some ⟨data, 0⟩ else none
  | none => if (t.sys.result i).isSome then none else t.worked i

def advance (t : Streaming) (i : Sending.Input) : Streaming :=
  { t with
    sys := t.sys.step i
    numbered := t.numbered ++ t.sys.labelled i
    sent := t.sent ++ t.sys.sends i
    ended := t.ended ++ (t.finishes i).toList
    current := t.going i }

def step (t : Streaming) : Input → Streaming
  | .send i => if endsByStop i && !t.stopped then t else t.advance i
  | .removeConnection => if t.sys.established then t else { t with stopped := true }

/-! ## The invariant -/

/-- The state's records agree with what the goroutines have in hand. -/
structure Inv (t : Streaming) : Prop where
  stopped : t.stopped = true → t.sys.established = false
  rest : t.sys.writer.rest = t.current.map Write.rest
  mode : ∀ b, t.sys.writer.mode = some b → b = t.sys.noDelay
  unbuffered : t.sys.noDelay = true → t.sys.pending = []
  stream : t.sys.established = true →
    (t.numbered.map Prod.snd).flatten ++ t.sys.pending = t.contributed
  whole : ∀ e ∈ t.ended, e.2 = .ok → e.1.part = e.1.data
  sendSeq : t.sys.conn.sendSeq = wrap t.sys.next
  labels : t.numbered.map (fun p => (p.1, p.2.length)) = t.sys.given.map fun g => (wrap g.1, g.2)
  ordered : t.sys.given.Pairwise fun a b => a.1 + a.2 ≤ b.1
  before : ∀ g ∈ t.sys.given, g.1 + g.2 ≤ t.sys.next
  sent : t.sys.noDelay = false → t.sent ++ t.sys.holder.reserved = t.numbered
  reserved : ∀ p ∈ t.sys.reserved, p ∈ t.numbered
  queued : ∀ e ∈ t.sys.conn.unacked, e.isFIN = true ∨ (e.seq, e.data) ∈ t.numbered

variable {i : Sending.Input} (noDelay : Bool)

theorem writes_advance (h : t.sys.begins i = none) :
    (t.advance i).writes = t.ended.map Prod.fst ++ (t.worked i).toList := by
  unfold writes advance finishes going
  rw [h]
  cases t.sys.result i with
  | none => simp
  | some r => cases t.worked i <;> simp

theorem finishes_cases {e : Write × Result} (h : t.finishes i = some e) :
    (t.sys.established = false ∧ e.2 = .failed false) ∨
      (t.sys.result i = some e.2 ∧ t.worked i = some e.1) := by
  unfold finishes at h
  split at h
  · split at h
    next => cases h
    next hclosed =>
      cases h
      exact .inl ⟨Bool.eq_false_iff.mpr hclosed, rfl⟩
  · obtain ⟨r, hr, hmap⟩ := Option.bind_eq_some_iff.mp h
    obtain ⟨w, hw, heq⟩ := Option.map_eq_some_iff.mp hmap
    cases heq
    exact .inr ⟨hr, hw⟩

theorem Inv.idle (h : t.Inv) (hwriter : t.sys.writer = .none) : t.current = none := by
  have hrest := h.rest
  rw [hwriter] at hrest
  exact Option.map_eq_none_iff.mp hrest.symm

theorem contributed_advance (h : t.Inv) (i : Sending.Input) :
    (t.advance i).contributed = t.contributed ++ t.sys.taken i := by
  cases hbegins : t.sys.begins i with
  | some data =>
    obtain ⟨hwriter, htaken⟩ := begins_writer hbegins
    unfold contributed writes advance finishes going
    rw [hbegins, htaken, h.idle hwriter]
    cases t.sys.established <;> simp [Write.part]
  | none =>
    unfold contributed
    rw [writes_advance hbegins]
    unfold worked writes
    rw [List.flatMap_append, List.flatMap_append, List.append_assoc]
    cases hcurrent : t.current with
    | none =>
      have hrest := h.rest
      rw [hcurrent] at hrest
      rw [taken_none hrest]
      rfl
    | some w =>
      have hrest := h.rest
      rw [hcurrent] at hrest
      have htake := taken_take hrest i
      simp only [Option.map_some, Option.toList_some, List.flatMap_singleton]
      rw [Write.part_advance, htake]

theorem rest_going (h : t.Inv) (i : Sending.Input) :
    (t.sys.step i).writer.rest = (t.going i).map Write.rest := by
  rw [(t.sys.step_writes i).rest]
  unfold going
  cases t.sys.begins i with
  | some data => cases t.sys.established <;> rfl
  | none =>
    cases t.sys.result i with
    | some r => rfl
    | none =>
      show t.sys.writer.rest.map _ = (t.worked i).map Write.rest
      unfold worked
      rw [h.rest, Option.map_map, Option.map_map]
      congr 1
      funext w
      exact (w.rest_advance _).symm

theorem Inv.not_buffering (h : t.Inv) (hmode : t.sys.noDelay = true) :
    t.sys.writer.mode ≠ some false := by
  intro hbuffering
  have hfalse := h.mode false hbuffering
  simp [hmode] at hfalse

theorem Inv.unbuffered_step (h : t.Inv) (i : Sending.Input)
    (hmode : (t.sys.step i).noDelay = true) : (t.sys.step i).pending = [] := by
  have heffect := t.sys.step_effect i
  rw [heffect.noDelay] at hmode
  by_cases hreserve : ∃ window, i = .immediateReserve window
  · obtain ⟨window, hi⟩ := hreserve
    rw [(heffect.immediate window hi).1]
    exact h.unbuffered hmode
  · have hi : ∀ window, i ≠ .immediateReserve window := fun window hi => hreserve ⟨window, hi⟩
    have hbytes := heffect.buffered hi
    rw [h.unbuffered hmode, taken_immediate (h.not_buffering hmode) hi] at hbytes
    simp only [List.append_nil, List.nil_eq, List.append_eq_nil_iff] at hbytes
    exact hbytes.2.2

theorem labelled_bytes (s : Sending) (i : Sending.Input) :
    ((s.labelled i).map Prod.snd).flatten = (s.numbered i).flatten := by
  unfold Sending.labelled
  rw [List.map_map]
  congr 1
  exact List.map_id _

theorem Inv.moved (h : t.Inv) (hstop : endsByStop i = true → t.stopped = true)
    (hopen : (t.sys.step i).established = true) :
    (t.sys.numbered i).flatten ++ (t.sys.step i).pending = t.sys.pending ++ t.sys.taken i := by
  have heffect := t.sys.step_effect i
  have hbefore := (t.sys.step_tracks i).established hopen
  by_cases hreserve : ∃ window, i = .immediateReserve window
  · obtain ⟨window, hi⟩ := hreserve
    obtain ⟨hpending, hbytes⟩ := heffect.immediate window hi
    have hempty : t.sys.taken i = [] ∨ t.sys.pending = [] := by
      cases hmode : t.sys.noDelay with
      | true => exact .inr (h.unbuffered hmode)
      | false =>
        refine .inl ?_
        rw [hi]
        unfold Sending.taken
        dsimp only
        split
        next hw =>
          have himmediate := h.mode true (by rw [hw]; rfl)
          simp [hmode] at himmediate
        next => rfl
    rw [hpending, hbytes]
    rcases hempty with hnone | hnone
    · rw [hnone, List.nil_append, List.append_nil]
    · rw [hnone, List.nil_append, List.append_nil]
  · have hi : ∀ window, i ≠ .immediateReserve window := fun window hi => hreserve ⟨window, hi⟩
    have hkept : t.sys.dropped i = [] := by
      refine dropped_established hopen fun hgiveUp => ?_
      have hstopped := hstop (by rw [hgiveUp]; rfl)
      have hclosed := h.stopped hstopped
      simp [hbefore] at hclosed
    rw [heffect.buffered hi, hkept, List.nil_append]

theorem Inv.whole_advance (h : t.Inv) (i : Sending.Input) :
    ∀ e ∈ (t.advance i).ended, e.2 = .ok → e.1.part = e.1.data := by
  intro e he hok
  rcases List.mem_append.mp he with hold | hnew
  · exact h.whole e hold hok
  · rcases finishes_cases (Option.mem_toList.mp hnew) with ⟨-, hfailed⟩ | ⟨hr, hw⟩
    · simp [hfailed] at hok
    · rw [hok] at hr
      obtain ⟨hrest, htaken⟩ := result_ok hr
      rw [h.rest] at hrest
      obtain ⟨v, hv, hvrest⟩ := Option.map_eq_some_iff.mp hrest
      unfold worked at hw
      rw [hv, htaken] at hw
      rw [← Option.some.inj hw]
      have hdrop : v.data.drop v.taken = [] := hvrest
      exact List.take_of_length_le (List.drop_eq_nil_iff.mp hdrop)

theorem Inv.stream_advance (h : t.Inv) (hstop : endsByStop i = true → t.stopped = true)
    (hopen : (t.sys.step i).established = true) :
    ((t.advance i).numbered.map Prod.snd).flatten ++ (t.sys.step i).pending =
      (t.advance i).contributed := by
  rw [contributed_advance h i, ← h.stream ((t.sys.step_tracks i).established hopen)]
  show ((t.numbered ++ t.sys.labelled i).map Prod.snd).flatten ++ (t.sys.step i).pending = _
  rw [List.map_append, List.flatten_append, labelled_bytes, List.append_assoc, List.append_assoc,
    h.moved hstop hopen]

theorem Inv.sendSeq_advance (h : t.Inv) (i : Sending.Input) :
    (t.sys.step i).conn.sendSeq = wrap (t.sys.step i).next := by
  have heffect := t.sys.step_effect i
  rw [heffect.sendSeq, heffect.next]
  rcases t.sys.sizes_cases i with hnone | ⟨n, hsize⟩
  · rw [hnone]
    exact h.sendSeq
  · rw [hsize]
    rw [h.sendSeq]
    exact wrap_add _ _

theorem Inv.labels_advance (h : t.Inv) (i : Sending.Input) :
    (t.advance i).numbered.map (fun p => (p.1, p.2.length)) =
      (t.sys.step i).given.map fun g => (wrap g.1, g.2) := by
  show (t.numbered ++ t.sys.labelled i).map _ = (t.sys.step i).given.map _
  rw [(t.sys.step_effect i).given, List.map_append, List.map_append, h.labels]
  unfold Sending.labelled
  rw [List.map_map, List.map_map, h.sendSeq]
  rfl

theorem Inv.ordered_advance (h : t.Inv) (i : Sending.Input) :
    (t.sys.step i).given.Pairwise fun a b => a.1 + a.2 ≤ b.1 := by
  rw [(t.sys.step_effect i).given, List.pairwise_append]
  refine ⟨h.ordered, ?_, ?_⟩
  · rcases t.sys.numbered_cases i with hnone | ⟨seg, hseg⟩
    · rw [hnone]
      exact .nil
    · rw [hseg]
      exact List.pairwise_singleton _ _
  · intro a ha b hb
    obtain ⟨seg, -, rfl⟩ := List.mem_map.mp hb
    exact h.before a ha

theorem Inv.before_advance (h : t.Inv) (i : Sending.Input) :
    ∀ g ∈ (t.sys.step i).given, g.1 + g.2 ≤ (t.sys.step i).next := by
  have heffect := t.sys.step_effect i
  intro g hg
  rw [heffect.given] at hg
  rw [heffect.next]
  rcases List.mem_append.mp hg with hold | hnew
  · have hbefore := h.before g hold
    rcases t.sys.sizes_cases i with hnone | ⟨n, hsize⟩
    · rwa [hnone]
    · rw [hsize]
      exact hbefore.trans (Nat.le_add_right _ _)
  · obtain ⟨seg, hseg, rfl⟩ := List.mem_map.mp hnew
    rcases t.sys.numbered_cases i with hnone | ⟨seg', hone⟩
    · simp [hnone] at hseg
    · rw [hone, List.mem_singleton] at hseg
      rw [sizes_numbered hone, hseg]
      exact le_rfl

theorem Inv.sent_advance (h : t.Inv) (i : Sending.Input) (hmode : (t.sys.step i).noDelay = false) :
    (t.advance i).sent ++ (t.sys.step i).holder.reserved = (t.advance i).numbered := by
  rw [(t.sys.step_effect i).noDelay] at hmode
  have hreserved := (t.sys.step_acts i).holder_reserved fun himmediate => ?_
  · show (t.sent ++ t.sys.sends i) ++ (t.sys.step i).holder.reserved = t.numbered ++ t.sys.labelled i
    rw [← h.sent hmode, List.append_assoc, List.append_assoc]
    exact congrArg (t.sent ++ ·) hreserved
  · have htrue := h.mode true himmediate
    simp [hmode] at htrue

theorem Inv.queued_advance (h : t.Inv) (i : Sending.Input) :
    ∀ e ∈ (t.sys.step i).conn.unacked, e.isFIN = true ∨ (e.seq, e.data) ∈ (t.advance i).numbered := by
  intro e' he'
  rcases (t.sys.step_tracks i).entries e' he' with ⟨e, he, hsame⟩ | hfin | hreserved
  · obtain ⟨hseq, hdata, hfin⟩ := hsame
    rw [hseq, hdata, hfin]
    exact (h.queued e he).imp_right (List.mem_append_left _)
  · exact .inl hfin
  · exact .inr (List.mem_append_left _ (h.reserved _ hreserved))

theorem Inv.reserved_advance (h : t.Inv) (i : Sending.Input) :
    ∀ p ∈ (t.sys.step i).reserved, p ∈ (t.advance i).numbered := by
  intro p hp
  rcases (t.sys.step_tracks i).reserved p hp with hold | ⟨hseq, hseg⟩
  · exact List.mem_append_left _ (h.reserved p hold)
  · exact List.mem_append_right _ (List.mem_map.mpr ⟨p.2, hseg, by rw [← hseq]⟩)

theorem Inv.advance (h : t.Inv) (hstop : endsByStop i = true → t.stopped = true) :
    (t.advance i).Inv where
  stopped hstopped := closed_step (h.stopped hstopped) i
  rest := rest_going h i
  mode := mode_step h.mode i
  unbuffered := h.unbuffered_step i
  stream := h.stream_advance hstop
  whole := h.whole_advance i
  sendSeq := h.sendSeq_advance i
  labels := h.labels_advance i
  ordered := h.ordered_advance i
  before := h.before_advance i
  sent := h.sent_advance i
  reserved := h.reserved_advance i
  queued := h.queued_advance i

theorem step_cases (t : Streaming) (i : Input) : t.step i = t ∨
      (∃ j, i = .send j ∧ (endsByStop j = true → t.stopped = true) ∧ t.step i = t.advance j) ∨
      (t.sys.established = false ∧ t.step i = { t with stopped := true }) := by
  cases i with
  | send j =>
    unfold step
    dsimp only
    split
    next => exact .inl rfl
    next hpast =>
      refine .inr (.inl ⟨j, rfl, fun hends => ?_, rfl⟩)
      rwa [hends, Bool.true_and, Bool.not_eq_true, Bool.not_eq_false'] at hpast
  | removeConnection =>
    unfold step
    dsimp only
    split
    next => exact .inl rfl
    next hclosed => exact .inr (.inr ⟨Bool.eq_false_iff.mpr hclosed, rfl⟩)

theorem step_inv (t : Streaming) (i : Input) (h : t.Inv) : (t.step i).Inv := by
  rcases t.step_cases i with hsame | ⟨j, -, hstop, hstep⟩ | ⟨hclosed, hstep⟩
  · rwa [hsame]
  · rw [hstep]
    exact h.advance hstop
  · rw [hstep]
    exact { h with stopped := fun _ => hclosed }

/-! ## Whole and in order -/

def opened (noDelay : Bool) : Streaming where
  sys := Sending.opened noDelay
  stopped := false
  numbered := []
  sent := []
  ended := []
  current := none

theorem opened_inv : (opened noDelay).Inv :=
  ⟨nofun, rfl, nofun, fun _ => rfl, fun _ => rfl, nofun, rfl, rfl, .nil, nofun, fun _ => rfl,
    nofun, nofun⟩

theorem reached_inv (inputs : List Input) : (inputs.foldl step (opened noDelay)).Inv :=
  run_invariant_all Inv step_inv inputs (opened_inv noDelay)

theorem step_noDelay (t : Streaming) (i : Input) : (t.step i).sys.noDelay = t.sys.noDelay := by
  rcases t.step_cases i with hsame | ⟨j, -, -, hstep⟩ | ⟨-, hstep⟩
  · rw [hsame]
  · rw [hstep]
    exact (t.sys.step_effect j).noDelay
  · rw [hstep]

theorem reached_noDelay (inputs : List Input) :
    (inputs.foldl step (opened noDelay)).sys.noDelay = noDelay :=
  run_invariant_all (fun t => t.sys.noDelay = noDelay) (fun t i h => (step_noDelay t i).trans h) inputs rfl

/-- With Nagle's algorithm, as long as the connection is ESTABLISHED, the payloads handed to the
tunnel, in the order of their numbers, then the bytes that the goroutine with `SendMu` has taken
out of the buffer and not handed on, then the buffer, are what the writes have contributed, in
the order in which they got `WriteMu`. A write that returned no error contributed all of its
bytes. -/
theorem writes_whole_in_order (inputs : List Input) :
    let t := inputs.foldl step (opened false)
    (t.sys.established = true →
      (t.sent.map Prod.snd).flatten ++ ((t.sys.holder.reserved.map Prod.snd).flatten ++
        t.sys.holder.hand) ++ t.sys.nagleBuf = t.writes.flatMap Write.part) ∧
    (∀ e ∈ t.ended, e.2 = .ok → e.1.part = e.1.data) ∧
    (t.sent ++ t.sys.holder.reserved).map (fun p => (p.1, p.2.length)) =
      t.sys.given.map (fun g => (wrap g.1, g.2)) ∧
    (t.sys.given.Pairwise fun a b => a.1 + a.2 ≤ b.1) ∧
    ∀ e ∈ t.sys.conn.unacked, e.isFIN = true ∨ (e.seq, e.data) ∈ t.sent ++ t.sys.holder.reserved := by
  have h := reached_inv false inputs
  have hmode := reached_noDelay false inputs
  refine ⟨fun hopen => ?_, h.whole, ?_, h.ordered, ?_⟩
  · have hstream := h.stream hopen
    rw [← h.sent hmode, List.map_append, List.flatten_append] at hstream
    unfold contributed Sending.pending at hstream
    rw [← hstream]
    simp only [List.append_assoc]
  · rw [h.sent hmode]
    exact h.labels
  · rw [h.sent hmode]
    exact h.queued

def waiting : Streaming := (Sending.written.map Input.send).foldl step (opened false)

/-- The byte is in the writer's hand then: neither sent nor buffered. -/
theorem byte_in_hand : waiting.sys.established = true ∧ waiting.writes.flatMap Write.part = [1] ∧
    (waiting.sent.map Prod.snd).flatten ++ waiting.sys.nagleBuf = [] := by
  decide +kernel

end Streaming

end PilotProtocol.Stream
