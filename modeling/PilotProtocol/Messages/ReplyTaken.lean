import PilotProtocol.Messages.AwaitReply

/-! # Which reply is taken

A message that is held is a candidate, and its hold began after it arrived and after the
request was acknowledged, as long as no other message takes a held one's place. The time
from which a message is held is not set again for the second one, so without this a
message can be taken as soon as it is seen.
-/

namespace PilotProtocol.Messages

open Library

/-- A message that may be taken: not in the snapshot, and from the peer. -/
def Watch.Eligible (w : Watch) (m : Message) : Prop :=
  m.file ∉ w.seen ∧ (w.peer = "" ∨ m.record.sender = w.peer)

namespace Awaiting

variable {s s' : Awaiting} {m : Message}

/-- When a message arrived: by its own time or when a poll first read it, whichever is
earlier. -/
def arrival (s : Awaiting) (m : Message) : Option Int :=
  (s.firstRead.lookup m).map fun t => m.record.receivedAt.elim t (min t)

/-- It names no request, or was read before there was an ID to compare with. -/
def Untagged (s : Awaiting) (m : Message) : Prop := m.record.replyTo = "" ∨ m ∈ s.readUnset

structure Candidate (s : Awaiting) (m : Message) : Prop where
  eligible : s.watch.Eligible m
  untagged : s.Untagged m
  read : ∃ t, s.firstRead.lookup m = some t

structure HeldOk (s : Awaiting) (m : Message) : Prop where
  candidate : s.Candidate m
  afterAck : s.watch.holdFrom ≤ s.watch.heldSince
  arrived : ∃ a, s.arrival m = some a ∧ a ≤ s.watch.heldSince

def TakenOk (s : Awaiting) (m : Message) : Taken → Prop
  | .ours => m.record.replyTo ∈ s.watch.ids
  | .untagged tagged time =>
    s.Untagged m ∧
      (tagged = true → s.watch.peerEchoes = false ∧
        (s.watch.echoedBefore = true → ∃ a, s.arrival m = some a ∧
          untaggedReplyGrace ≤ time - a ∧ untaggedReplyGrace ≤ time - s.ackAt))
  | .deadline time =>
    s.Untagged m ∧ s.watch.peerEchoes = false ∧ s.ackAt + s.cfg.wait ≤ s.deadline ∧ s.deadline < time

def PhaseOk (s : Awaiting) : Phase → Prop
  | .scanning _ untagged => ∀ m, untagged = some m → s.Candidate m
  | .returned how => ∀ m, s.out.reply = some m → s.watch.Eligible m ∧ s.TakenOk m how
  | _ => True

structure Inv (s : Awaiting) : Prop where
  resends : s.resends = s.out.resent.toNat
  reads : ∀ m t, s.firstRead.lookup m = some t → t ≤ s.now
  begun : s.phase ≠ .sending → s.watch.holdFrom = s.ackAt ∧ s.ackAt + s.cfg.wait ≤ s.deadline
  idle : s.phase = .sending → s.watch.held = none
  held : ∀ m, s.watch.held = some m → s.HeldOk m
  phase : s.PhaseOk s.phase

/-- The oldest untagged message of a poll that has read everything. -/
def oldest (s : Awaiting) : Option Message :=
  match s.phase with
  | .scanning [] untagged => untagged
  | _ => none

/-- The message at the end of a poll is the held one, or it arrived before the hold began. -/
def Steady (s : Awaiting) : Input → Prop
  | .settle => ∀ held ∈ s.watch.held, ∀ m ∈ s.oldest,
      held = m ∨ ∃ a ∈ s.arrival m, a ≤ s.watch.heldSince
  | _ => True

instance instDecidableSteady (s : Awaiting) (i : Input) : Decidable (s.Steady i) := by
  cases i <;> dsimp only [Steady] <;> infer_instance

/-! ## Steps that leave the hold alone -/

structure Grows (s s' : Awaiting) : Prop where
  seen : s'.watch.seen = s.watch.seen
  peer : s'.watch.peer = s.watch.peer
  ids : s.watch.ids ⊆ s'.watch.ids
  readUnset : s.readUnset ⊆ s'.readUnset
  firstRead : ∀ m t, s.firstRead.lookup m = some t → s'.firstRead.lookup m = some t

theorem Grows.refl (s : Awaiting) : Grows s s :=
  ⟨rfl, rfl, List.Subset.refl _, List.Subset.refl _, fun _ _ h => h⟩

theorem Eligible.grows (h : s.watch.Eligible m) (hg : Grows s s') : s'.watch.Eligible m := by
  unfold Watch.Eligible
  rwa [hg.seen, hg.peer]

theorem Untagged.grows (h : s.Untagged m) (hg : Grows s s') : s'.Untagged m :=
  h.imp_right fun hread => hg.readUnset hread

theorem arrival_grows {a : Int} (h : s.arrival m = some a) (hg : Grows s s') :
    s'.arrival m = some a := by
  unfold arrival at h ⊢
  obtain ⟨t, hread, ha⟩ := Option.map_eq_some_iff.mp h
  rw [hg.firstRead m t hread, Option.map_some, ha]

theorem Candidate.grows (h : s.Candidate m) (hg : Grows s s') : s'.Candidate m where
  eligible := Eligible.grows h.eligible hg
  untagged := h.untagged.grows hg
  read := by
    obtain ⟨t, hread⟩ := h.read
    exact ⟨t, hg.firstRead m t hread⟩

/-- What a step keeps that does not touch the hold. -/
structure Kept (s s' : Awaiting) : Prop extends Grows s s' where
  held : s'.watch.held = s.watch.held
  heldSince : s'.watch.heldSince = s.watch.heldSince
  holdFrom : s'.watch.holdFrom = s.watch.holdFrom
  ackAt : s'.ackAt = s.ackAt
  cfg : s'.cfg = s.cfg
  deadline : s.deadline ≤ s'.deadline
  resends : s.resends = s.out.resent.toNat → s'.resends = s'.out.resent.toNat
  reads : (∀ m t, s.firstRead.lookup m = some t → t ≤ s.now) →
    ∀ m t, s'.firstRead.lookup m = some t → t ≤ s'.now
  sending : s'.phase = .sending ↔ s.phase = .sending

theorem Kept.refl (s : Awaiting) : Kept s s :=
  { Grows.refl s with
    held := rfl, heldSince := rfl, holdFrom := rfl, ackAt := rfl, cfg := rfl
    deadline := Int.le_refl _, resends := id, reads := id, sending := Iff.rfl }

theorem HeldOk.kept (h : s.HeldOk m) (hk : Kept s s') : s'.HeldOk m where
  candidate := h.candidate.grows hk.toGrows
  afterAck := by rw [hk.holdFrom, hk.heldSince]; exact h.afterAck
  arrived := by
    obtain ⟨a, ha, hle⟩ := h.arrived
    exact ⟨a, arrival_grows ha hk.toGrows, by rw [hk.heldSince]; exact hle⟩

theorem Inv.kept (h : s.Inv) (hk : Kept s s') (hphase : s'.PhaseOk s'.phase) : s'.Inv where
  resends := hk.resends h.resends
  reads := hk.reads h.reads
  begun hne := by
    obtain ⟨hfrom, hwait⟩ := h.begun fun heq => hne (hk.sending.mpr heq)
    rw [hk.holdFrom, hk.ackAt, hk.cfg]
    exact ⟨hfrom, hwait.trans hk.deadline⟩
  idle heq := hk.held.trans (h.idle (hk.sending.mp heq))
  held m hheld := (h.held m (hk.held ▸ hheld)).kept hk
  phase := hphase

theorem PhaseOk.env {p : Phase} (h : s.PhaseOk p) (hk : Kept s s') (hout : s'.out.reply = s.out.reply)
    (hechoes : s'.watch.peerEchoes = s.watch.peerEchoes)
    (hechoed : s'.watch.echoedBefore = s.watch.echoedBefore)
    (hdeadline : s'.deadline = s.deadline) : s'.PhaseOk p := by
  cases p with
  | scanning rest untagged => exact fun m hm => (h m hm).grows hk.toGrows
  | returned how =>
    intro m hm
    obtain ⟨helig, htaken⟩ := h m (hout ▸ hm)
    refine ⟨Eligible.grows helig hk.toGrows, ?_⟩
    cases how with
    | ours => exact hk.ids htaken
    | untagged tagged time =>
      refine ⟨htaken.1.grows hk.toGrows, fun htagged => ?_⟩
      rw [hechoes, hechoed, hk.ackAt]
      refine ⟨(htaken.2 htagged).1, fun hknown => ?_⟩
      obtain ⟨a, ha, hgrace⟩ := (htaken.2 htagged).2 hknown
      exact ⟨a, arrival_grows ha hk.toGrows, hgrace⟩
    | deadline time =>
      obtain ⟨huntagged, hnone, hlate⟩ := htaken
      unfold TakenOk
      rw [hechoes, hk.ackAt, hk.cfg, hdeadline]
      exact ⟨huntagged.grows hk.toGrows, hnone, hlate⟩
  | _ => trivial

/-! ## Polls -/

theorem noteRead_spec (s : Awaiting) (m : Message) :
    ∃ reads, s.noteRead m = { s with firstRead := reads } ∧ (∃ t, reads.lookup m = some t) ∧
      (∀ m' t, s.firstRead.lookup m' = some t → reads.lookup m' = some t) ∧
      ((∀ m' t, s.firstRead.lookup m' = some t → t ≤ s.now) →
        ∀ m' t, reads.lookup m' = some t → t ≤ s.now) := by
  unfold noteRead
  cases hread : s.firstRead.lookup m with
  | some t => exact ⟨s.firstRead, rfl, ⟨t, hread⟩, fun _ _ h => h, fun h => h⟩
  | none =>
    refine ⟨(m, s.now) :: s.firstRead, rfl, ⟨s.now, by simp⟩, fun m' t h => ?_, fun h m' t h' => ?_⟩
    · have hne : m' ≠ m := by
        rintro rfl
        rw [hread] at h
        cases h
      rwa [List.lookup_cons, beq_false_of_ne hne]
    · by_cases heq : m' = m
      · subst heq
        rw [List.lookup_cons_self] at h'
        cases h'
        exact Int.le_refl _
      · rw [List.lookup_cons, beq_false_of_ne heq] at h'
        exact h m' t h'

variable {name : String} {isDir : Bool} {rest : List (String × Bool)} {untagged : Option Message}
  {f : InboxFile} {r : Record}

theorem entryMessage_eligible (h : s.entryMessage name isDir = some m) : s.watch.Eligible m := by
  unfold entryMessage at h
  split at h
  · cases h
  · obtain ⟨f, -, hf⟩ := Option.bind_eq_some_iff.mp h
    exact (Watch.newMessage_eq_some hf).2

section

variable (h : s.Inv)
include h

theorem Inv.candidate (hphase : s.phase = .scanning rest untagged) :
    ∀ m, untagged = some m → s.Candidate m := by
  have hok := h.phase
  rwa [hphase] at hok

theorem Inv.readEntry (hphase : s.phase = .scanning ((name, isDir) :: rest) untagged) :
    (s.readEntry name isDir rest untagged).Inv := by
  have hcandidate := h.candidate hphase
  have hne : s.phase ≠ .sending := by rw [hphase]; exact nofun
  unfold Awaiting.readEntry
  split
  next =>
    have hk : Kept s { s with phase := .scanning rest untagged } :=
      { Kept.refl s with sending := ⟨nofun, fun heq => absurd heq hne⟩ }
    exact h.kept hk fun m hm => (hcandidate m hm).grows hk.toGrows
  next m hm =>
    have helig := entryMessage_eligible hm
    obtain ⟨reads, hnote, hread, hreads, hle⟩ := s.noteRead_spec m
    rw [hnote]
    -- whatever the kind, only the reads, the echo flag and the phase change
    have hkept : ∀ (echoes : Bool) (unset : List Message) (out : ReplyOutcome) (p : Phase),
        s.readUnset ⊆ unset → out.resent = s.out.resent → p ≠ .sending →
        Kept s { s with firstRead := reads, watch := { s.watch with peerEchoes := echoes },
                        readUnset := unset, out := out, phase := p } := by
      intro echoes unset out p hunset hresent hp
      exact { Kept.refl s with
        readUnset := hunset, firstRead := hreads, reads := hle
        resends := fun hr => by rw [hresent]; exact hr
        sending := ⟨fun heq => absurd heq hp, fun heq => absurd heq hne⟩ }
    split
    next hours =>
      refine h.kept (hkept s.watch.peerEchoes s.readUnset _ _ (List.Subset.refl _) rfl
        nofun) fun m' hm' => ?_
      cases hm'
      exact ⟨helig, Watch.mem_ids_of_ours hours⟩
    next =>
      have hk := hkept true s.readUnset s.out (.scanning rest untagged) (List.Subset.refl _) rfl
        nofun
      exact h.kept hk fun m' hm' => (hcandidate m' hm').grows hk.toGrows
    next huntagged =>
      have hsubset : s.readUnset ⊆
          (if m.record.replyTo = "" then s.readUnset else m :: s.readUnset) := by
        split
        · exact List.Subset.refl _
        · exact List.subset_cons_self _ _
      have hk := hkept s.watch.peerEchoes _ s.out (.scanning rest (untagged.or (some m))) hsubset rfl
        nofun
      refine h.kept hk fun m' hm' => ?_
      cases untagged with
      | some a => exact (hcandidate m' hm').grows hk.toGrows
      | none =>
        cases hm'
        refine ⟨helig, ?_, hread⟩
        by_cases hnone : m.record.replyTo = ""
        · exact .inl hnone
        · exact .inr (by rw [if_neg hnone]; exact .head _)

theorem Inv.since (hm : s.Candidate m) (hsteady : ∀ held, s.watch.held = some held →
      held = m ∨ ∃ a, s.arrival m = some a ∧ a ≤ s.watch.heldSince) {since : Int}
    (hsince : since = if s.watch.held = none then s.watch.holdStart m s.now else s.watch.heldSince) :
    s.watch.holdFrom ≤ since ∧ ∃ a, s.arrival m = some a ∧ a ≤ since := by
  cases hheld : s.watch.held with
  | none =>
    rw [if_pos hheld] at hsince
    obtain ⟨t, hread⟩ := hm.read
    rw [hsince]
    refine ⟨s.watch.holdFrom_le_holdStart m s.now, _, ?_, Watch.arrived_le_holdStart (h.reads m t hread)⟩
    unfold arrival
    rw [hread, Option.map_some]
  | some held =>
    rw [if_neg (by rw [hheld]; exact Option.some_ne_none held)] at hsince
    rw [hsince]
    have hok := h.held held hheld
    refine ⟨hok.afterAck, ?_⟩
    rcases hsteady held hheld with rfl | hearly
    · exact hok.arrived
    · exact hearly

theorem Inv.settle (hphase : s.phase = .scanning [] untagged)
    (hsteady : s.Steady .settle) : (s.settle untagged).Inv := by
  have hne : s.phase ≠ .sending := by rw [hphase]; exact nofun
  have hcandidate := h.candidate hphase
  unfold Awaiting.settle
  cases untagged with
  | none =>
    exact ⟨h.resends, h.reads, fun _ => h.begun hne, nofun,
      nofun, trivial⟩
  | some m =>
    have hm := hcandidate m rfl
    have hearly : ∀ held, s.watch.held = some held →
        held = m ∨ ∃ a, s.arrival m = some a ∧ a ≤ s.watch.heldSince := by
      intro held hheld
      have holdest : s.oldest = some m := by
        unfold oldest
        rw [hphase]
      exact hsteady held hheld m holdest
    rcases s.watch.untaggedReply_some m s.now with ⟨heq, hopen⟩ | ⟨r, since, heq, hsince, hr⟩
    · rw [heq]
      refine ⟨h.resends, h.reads, fun _ => h.begun hne, nofun, ?_, ?_⟩
      · intro m' hm'
        obtain ⟨hm', hack, harrived⟩ := h.held m' hm'
        exact ⟨hm'.grows { Grows.refl s with }, hack, harrived⟩
      · intro m' hm'
        cases hm'
        refine ⟨hm.eligible, hm.untagged, fun htagged => ?_⟩
        obtain ⟨hechoes, hechoed⟩ := hopen htagged
        exact ⟨hechoes, fun hknown => absurd (hechoed.symm.trans hknown) Bool.false_ne_true⟩
    · obtain ⟨hfrom, a, ha, hle⟩ := h.since hm hearly hsince
      have hheld : ∀ p out m', some m = some m' →
          HeldOk { s with watch := { s.watch with held := some m, heldSince := since },
                          phase := p, out := out } m' := by
        rintro p out m' ⟨⟩
        exact ⟨hm.grows { Grows.refl s with }, hfrom, a, ha, hle⟩
      rw [heq]
      rcases hr with rfl | ⟨rfl, hechoes, hgrace⟩
      · exact ⟨h.resends, h.reads, fun _ => h.begun hne, nofun, hheld _ _, trivial⟩
      · refine ⟨h.resends, h.reads, fun _ => h.begun hne, nofun, hheld _ _, ?_⟩
        intro m' hm'
        cases hm'
        refine ⟨hm.eligible, hm.untagged, fun _ => ⟨hechoes, fun _ => ⟨a, ha, by omega, ?_⟩⟩⟩
        have hack := (h.begun hne).1
        show untaggedReplyGrace ≤ s.now - s.ackAt
        omega

/-! ## After a poll -/

theorem Inv.checking (hk : Kept s s') (hphase : s'.phase = .checking) : s'.Inv := by
  refine h.kept hk ?_
  rw [hphase]
  trivial

theorem Inv.observe (hphase : s.phase = .checking) (observed : Nat) :
    (s.observe observed).Inv ∧ (s.observe observed).phase = .checking := by
  unfold Awaiting.observe
  split
  · exact ⟨h.checking { Kept.refl s with } hphase, hphase⟩
  · exact ⟨h, hphase⟩

theorem Inv.collect (hphase : s.phase = .checking) :
    s.collect.Inv ∧ s.collect.phase = .checking := by
  unfold Awaiting.collect
  split
  · exact ⟨h.checking { Kept.refl s with } hphase, hphase⟩
  · exact ⟨h.checking { Kept.refl s with deadline := le_max_left _ _ } hphase, hphase⟩
  · exact ⟨h, hphase⟩

theorem Inv.startResend (hphase : s.phase = .checking) :
    s.startResend.Inv ∧ s.startResend.phase = .checking := by
  unfold Awaiting.startResend
  split
  next hstart =>
    refine ⟨h.checking { Kept.refl s with resends := ?_ } hphase, hphase⟩
    intro hresends
    rw [hresends, hstart.1]
    rfl
  next => exact ⟨h, hphase⟩

theorem Inv.endWait (hphase : s.phase = .checking) : s.endWait.Inv := by
  have hne : s.phase ≠ .sending := by rw [hphase]; exact nofun
  have hsending : ∀ p : Phase, p ≠ .sending → (p = .sending ↔ s.phase = .sending) :=
    fun p hp => ⟨fun heq => absurd heq hp, fun heq => absurd heq hne⟩
  unfold Awaiting.endWait
  split
  next hlate =>
    refine h.kept { Kept.refl s with
      sending := hsending _ fun heq => (nomatch heq) } fun m hm => ?_
    have hreply : s.watch.heldReply = some m := hm
    unfold Watch.heldReply at hreply
    split at hreply
    · cases hreply
    next hechoes =>
      have hok := (h.held m hreply).candidate
      exact ⟨hok.eligible, hok.untagged, Bool.eq_false_iff.mpr hechoes, (h.begun hne).2, hlate.1⟩
  next =>
    exact h.kept { Kept.refl s with
      sending := hsending _ fun heq => (nomatch heq) } trivial

theorem Inv.check (hphase : s.phase = .checking) (observed : Nat) : (s.check observed).Inv := by
  obtain ⟨hobserve, hphase₁⟩ := h.observe hphase observed
  obtain ⟨hcollect, hphase₂⟩ := hobserve.collect hphase₁
  obtain ⟨hresend, hphase₃⟩ := hcollect.startResend hphase₂
  exact hresend.endWait hphase₃

/-! ## Steps and runs -/

theorem Inv.around {now : Int} {inbox : List InboxFile} {resendCh : Resend}
    (hnow : s.now ≤ now) : Inv { s with now := now, inbox := inbox, resendCh := resendCh } :=
  have hk : Kept s { s with now := now, inbox := inbox, resendCh := resendCh } :=
    { Kept.refl s with reads := fun hreads m t hread => (hreads m t hread).trans hnow }
  h.kept hk (h.phase.env hk rfl rfl rfl rfl)

theorem Inv.register {ids : List String} {tagged : Bool} (hids : s.watch.ids ⊆ ids) :
    Inv { s with watch := { s.watch with ids := ids, tagged := tagged } } :=
  have hk : Kept s { s with watch := { s.watch with ids := ids, tagged := tagged } } :=
    { Kept.refl s with ids := hids }
  h.kept hk (h.phase.env hk rfl rfl rfl rfl)

theorem Inv.begin (hphase : s.phase = .sending) (ackAt : Int) : Inv { s with
      watch := { s.watch with holdFrom := ackAt }, ackAt := ackAt
      deadline := ackAt + s.cfg.wait, phase := .polling } where
  resends := h.resends
  reads := h.reads
  begun _ := ⟨rfl, Int.le_refl _⟩
  idle := nofun
  held m hm := by
    have hnone := h.idle hphase
    simp [show s.watch.held = some m from hm] at hnone
  phase := trivial

theorem Inv.list (hphase : s.phase = .polling) (listing : Listing) : (s.list listing).Inv := by
  have hmove : ∀ p : Phase, p ≠ .sending → PhaseOk { s with phase := p } p → Inv { s with phase := p } := by
    intro p hp hok
    refine h.kept { Kept.refl s with sending := ?_ } hok
    rw [hphase]
    exact ⟨fun heq => absurd heq hp, Phase.noConfusion⟩
  cases listing with
  | entries order =>
    simp only [Awaiting.list]
    split
    · exact hmove _ Phase.noConfusion fun m hm => absurd hm (Option.some_ne_none m).symm
    · exact h
  | notExist =>
    simp only [Awaiting.list]
    split
    · exact hmove _ Phase.noConfusion trivial
    · exact h
  | error => exact hmove _ Phase.noConfusion trivial

theorem step_inv {i : Input} (hsteady : s.Steady i) : (s.step i).Inv := by
  cases i <;> simp only [step]
  case tick d => exact h.around (Int.le_add_of_nonneg_right (Int.natCast_nonneg d))
  case arrive name isDir body =>
    split
    · exact h
    · exact h.around (Int.le_refl _)
  case delete name => exact h.around (Int.le_refl _)
  case addID id =>
    obtain ⟨ids, heq, hids⟩ := addID_eq s.watch id
    rw [heq]
    exact h.register hids
  case markTagged => exact h.register (List.Subset.refl _)
  case begin ackAt =>
    split
    next hphase => exact h.begin hphase ackAt
    next => exact h
  case list listing =>
    split
    next hphase => exact h.list hphase listing
    next => exact h
  case read =>
    split
    next hphase => exact h.readEntry hphase
    next => exact h
  case settle =>
    split
    next hphase => exact h.settle hphase hsteady
    next => exact h
  case resendDone ackAt =>
    split
    · exact h.around (Int.le_refl _)
    · exact h
  case check observed =>
    split
    next hphase => exact h.check hphase observed
    next => exact h

end

theorem start_inv (peer : String) (now : Int) (inbox : List InboxFile) (listed echoed : Bool)
    (cfg : ReplyWait) : (start peer now inbox listed echoed cfg).Inv where
  resends := rfl
  reads := nofun
  begun hne := absurd rfl hne
  idle _ := rfl
  held := nofun
  phase := trivial

/-! ## A message that names our request -/

/-- A new message from the peer that names one of our requests. -/
structure NamesOurs (w : Watch) (f : InboxFile) (r : Record) : Prop where
  file : f.isDir = false
  unseen : f.name ∉ w.seen
  recent : w.cutoff < f.modTime
  body : f.body = some r
  peer : w.peer = "" ∨ r.sender = w.peer
  names : r.replyTo ≠ ""
  ours : r.replyTo ∈ w.ids

/-- The poll has returned a message that names our request. -/
def TookOurs (s : Awaiting) : Prop :=
  s.phase = .returned .ours ∧ ∃ m, s.out.reply = some m ∧ m.record.replyTo ∈ s.watch.ids

theorem NamesOurs.since (h : NamesOurs s.watch f r) (hsince : Since s s') :
    NamesOurs s'.watch f r where
  file := h.file
  unseen := hsince.seen ▸ h.unseen
  recent := hsince.cutoff ▸ h.recent
  body := h.body
  peer := hsince.peer ▸ h.peer
  names := h.names
  ours := hsince.ids h.ours

theorem TookOurs.step (h : s.TookOurs) (i : Input) : (s.step i).TookOurs := by
  obtain ⟨hphase, m, hreply, hm⟩ := h
  have hids := ((Since.refl s).step i).ids hm
  suffices hsame : (s.step i).phase = s.phase ∧ (s.step i).out.reply = s.out.reply from
    ⟨hsame.1.trans hphase, m, hsame.2.trans hreply, hids⟩
  cases i with
  | arrive name isDir body | resendDone ackAt =>
    simp only [Awaiting.step]
    split <;> exact ⟨rfl, rfl⟩
  | _ => simp only [Awaiting.step, hphase, and_self]

def tagged : List Input := [.addID "id", .markTagged, .begin 0]

def poll (name : String) : List Input := [.list (.entries [(name, false)]), .read, .settle]

def untaggedRecord : Record := ⟨"peer", "", none⟩

def arrives (name : String) : List Input := [.arrive name false (some untaggedRecord)]

/-- A message that names no request is held at its first poll. -/
def held : List Input := tagged ++ arrives "TEXT-1" ++ poll "TEXT-1" ++ [.check 0, .tick 700000000]

end Awaiting

end PilotProtocol.Messages
