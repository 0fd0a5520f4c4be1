import PilotProtocol.Routing.Calls

/-! # Silence before a move to the relay

`MaybeFlipBlackhole` measures a peer's silence on timestamps it has read, and counts the miss
under a lock that it takes later. Under the lock it checks again that the peer is not on the
relay, but not that the peer is still silent: a frame that comes between the two is not seen.
-/

namespace PilotProtocol.Routing

open Library KeyExchange

/-- The sends that found the peer silent since the last frame decrypted from it. -/
def silentSends (node : NodeID) : List Event → Nat
  | [] => 0
  | .decrypted q _ :: rest => if q = node then 0 else silentSends node rest
  | .silent q :: rest => (if q = node then 1 else 0) + silentSends node rest
  | .enteredRelay _ :: rest => silentSends node rest

namespace System

variable {s : System}

/-- What the call has read still stands: no frame has been decrypted from the peer since, and
its silence counts from the same time. -/
def stands (s : System) (look : Look) : Bool :=
  decide (look.heard = heard s.log look.node) && decide (s.m.silentSince look.node = some look.since)

/-- The condition on a step: what a call has read stands when it takes the lock. -/
def unheard (s : System) : Input → Bool
  | .flip look => !s.looks.contains look || s.stands look
  | _ => true

/-- If a call moves the peer to the relay, the peer's last direct receipt, or the first send to
it, is too long ago, and enough sends since the last frame from the peer have found that. -/
def FlipsAfterSilence (s : System) (i : Input) : Prop :=
  ∀ look, i = .flip look → look ∈ s.looks → (s.m.flipBlackhole look.node).2.1 = true →
    (∃ since, s.m.silentSince look.node = some since ∧
      directBlackholeThreshold < s.now - since) ∧
    blackholeMissesRequired ≤ silentSends look.node s.log

def misses (m : Manager) (node : NodeID) : Nat := (m.blackholeMissCount.lookup node).getD 0

/-- The calls in flight that have heard of every frame from the peer. -/
def freshLooks (s : System) (node : NodeID) : Nat :=
  s.looks.countP fun look => look.node = node && look.heard = heard s.log node

structure Silence (s : System) : Prop where
  measured : ∀ look ∈ s.looks, directBlackholeThreshold < s.now - look.since
  past : ∀ look ∈ s.looks, look.heard ≤ heard s.log look.node
  /-- Each miss that is counted, or may be, is a send that found the peer silent. -/
  counted : ∀ node, misses s.m node + s.freshLooks node ≤ silentSends node s.log

theorem initial_silence (began : Nat) : (initial began).Silence where
  measured := nofun
  past := nofun
  counted := fun _ => le_rfl

theorem silentTooLong_eq_some {m : Manager} {node : NodeID} {now since : Nat}
    (h : m.silentTooLong node now = some since) : directBlackholeThreshold < now - since := by
  unfold Manager.silentTooLong at h
  split at h
  · cases h
  · rw [Option.filter_eq_some_iff] at h
    exact of_decide_eq_true h.2

/-! ## One step -/

theorem Silence.look (h : s.Silence) {node : NodeID} {since : Nat}
    (hlook : s.m.silentTooLong node s.now = some since) : Silence { s with
      looks := ⟨node, since, heard s.log node⟩ :: s.looks
      log := .silent node :: s.log } := by
  have hheard (q : NodeID) : heard (.silent node :: s.log) q = heard s.log q := by
    simp [heard]
  constructor
  · intro look hmem
    rcases List.mem_cons.mp hmem with rfl | hmem
    · exact silentTooLong_eq_some hlook
    · exact h.measured look hmem
  · intro look hmem
    rcases List.mem_cons.mp hmem with rfl | hmem
    · exact le_rfl
    · exact h.past look hmem
  · intro q
    have hcounted := h.counted q
    unfold freshLooks at hcounted ⊢
    simp only [hheard, List.countP_cons, silentSends]
    by_cases hq : node = q
    · simp only [hq, decide_true, Bool.and_self, if_true]
      omega
    · simp only [hq, decide_false, Bool.false_and, Bool.false_eq_true, if_false]
      omega

theorem Silence.frame (h : s.Silence) (node : NodeID) (addr : UDPAddr) :
    (s.call (.clearRelayOnDirect node addr)).Silence := by
  have hlog : (s.call (.clearRelayOnDirect node addr)).log =
      .decrypted node (!s.m.isFromBeacon (some addr)) :: s.log := by
    unfold call
    rw [Call.events_of_frame]
    rfl
  have hheard (q : NodeID) : heard (s.call (.clearRelayOnDirect node addr)).log q =
      heard s.log q + if node = q then 1 else 0 := by
    rw [hlog]
    cases s.m.isFromBeacon (some addr) <;> simp [heard, List.countP_cons]
  constructor
  · exact h.measured
  · intro look hmem
    have hle := h.past look hmem
    rw [hheard]
    omega
  · intro q
    have hcounted := h.counted q
    have hmisses : misses (s.m.call (.clearRelayOnDirect node addr)) q =
        if q = node then 0 else misses s.m q := by
      unfold misses
      rw [(Manager.called _ _).misses]
      rw [GoMap.lookup_insert_ite]
      split <;> rfl
    have hfresh : (s.call (.clearRelayOnDirect node addr)).freshLooks q ≤
        if q = node then 0 else s.freshLooks q := by
      unfold freshLooks
      rw [hheard]
      by_cases heq : q = node
      · rw [if_pos heq, if_pos heq.symm, Nat.le_zero, List.countP_eq_zero]
        intro look hmem
        have hle := h.past look hmem
        simp only [Bool.and_eq_true, decide_eq_true_eq, not_and]
        rintro rfl
        omega
      · rw [if_neg heq, if_neg (Ne.symm heq)]
        exact le_rfl
    show misses (s.m.call (.clearRelayOnDirect node addr)) q + _ ≤ _
    rw [hlog, silentSends, hmisses]
    split at hfresh
    next heq =>
      rw [if_pos heq, if_pos heq.symm]
      omega
    next hne =>
      rw [if_neg hne, if_neg (Ne.symm hne)]
      omega

theorem misses_call_le {c : Call} (h : ∀ node, c ≠ .flipBlackhole node) (q : NodeID) :
    misses (s.m.call c) q ≤ misses s.m q := by
  unfold misses
  rw [(Manager.called _ _).misses]
  cases c with
  | clearRelayOnDirect node addr =>
    rw [GoMap.lookup_insert_ite]
    split
    · exact Nat.zero_le _
    · exact le_rfl
  | removePeer node =>
    rw [GoMap.lookup_erase_ite]
    split
    · exact Nat.zero_le _
    · exact le_rfl
  | flipBlackhole node => exact absurd rfl (h node)
  | _ => exact le_rfl

theorem log_of_no_frame {c : Call} (h : ∀ node addr, c ≠ .clearRelayOnDirect node addr) (q : NodeID) :
    heard (s.call c).log q = heard s.log q ∧ silentSends q (s.call c).log = silentSends q s.log := by
  unfold call
  rw [Call.events_of_no_frame s.m h]
  split
  · exact ⟨by simp [heard], rfl⟩
  · exact ⟨rfl, rfl⟩

theorem Silence.call {c : Call} (h : s.Silence) (hflip : ∀ node, c ≠ .flipBlackhole node) :
    (s.call c).Silence := by
  by_cases hframe : ∃ node addr, c = .clearRelayOnDirect node addr
  · obtain ⟨node, addr, rfl⟩ := hframe
    exact h.frame node addr
  · have hother : ∀ node addr, c ≠ .clearRelayOnDirect node addr :=
      fun node addr heq => hframe ⟨node, addr, heq⟩
    constructor
    · exact h.measured
    · intro look hmem
      rw [(log_of_no_frame hother look.node).1]
      exact h.past look hmem
    · intro q
      have hcounted := h.counted q
      have hmisses := misses_call_le (s := s) hflip q
      unfold freshLooks at hcounted ⊢
      rw [(log_of_no_frame hother q).1, (log_of_no_frame hother q).2]
      show misses (s.m.call c) q + s.looks.countP _ ≤ _
      omega

theorem misses_flip_le (m : Manager) (node q : NodeID) :
    misses (m.call (.flipBlackhole node)) q ≤ misses m q + if q = node then 1 else 0 := by
  unfold misses Manager.call Manager.flipBlackhole
  dsimp only
  split
  · exact Nat.le_add_right _ _
  · split
    · rw [GoMap.lookup_insert_ite]
      split
      · exact Nat.zero_le _
      · exact le_rfl
    · rw [GoMap.lookup_insert_ite]
      split
      next heq =>
        rw [heq]
        exact le_rfl
      next => exact le_rfl

theorem Silence.flip {look : Look} (h : s.Silence) (hmem : look ∈ s.looks)
    (hstands : s.stands look = true) :
    Silence { s.call (.flipBlackhole look.node) with looks := s.looks.erase look } := by
  have hother : ∀ node addr, Call.flipBlackhole look.node ≠ .clearRelayOnDirect node addr :=
    fun _ _ => nofun
  constructor
  · intro l hl
    exact h.measured l (List.mem_of_mem_erase hl)
  · intro l hl
    rw [(log_of_no_frame hother l.node).1]
    exact h.past l (List.mem_of_mem_erase hl)
  · intro q
    have hcounted := h.counted q
    have hmisses := misses_flip_le s.m look.node q
    unfold freshLooks at hcounted ⊢
    rw [(log_of_no_frame hother q).1, (log_of_no_frame hother q).2, List.countP_erase]
    show misses (s.m.call (.flipBlackhole look.node)) q + _ ≤ _
    by_cases hq : q = look.node
    · subst hq
      have hheard : look.heard = heard s.log look.node :=
        of_decide_eq_true (Bool.and_eq_true_iff.mp hstands).1
      have hpos : 0 < s.looks.countP fun l =>
          decide (l.node = look.node) && decide (l.heard = heard s.log look.node) :=
        List.countP_pos_iff.mpr ⟨look, hmem, by simp [hheard]⟩
      rw [if_pos rfl] at hmisses
      rw [if_pos ⟨hmem, by simp [hheard]⟩]
      omega
    · rw [if_neg hq] at hmisses
      omega

theorem Silence.step {i : Input} (h : s.Silence) (hok : s.unheard i = true) : (s.step i).Silence := by
  rcases s.step_cases i with ⟨c, hstep, hi⟩ | ⟨node, since, -, hlook, hstep⟩ | ⟨now, addr, hnow, hstep⟩
  · rcases hi with ⟨-, hflip, hlooks⟩ | ⟨look, hmem, rfl, rfl, hlooks⟩
    · rw [hstep, hlooks]
      exact h.call hflip
    · rw [hstep, hlooks]
      apply h.flip hmem
      simpa [unheard, hmem] using hok
  · rw [hstep]
    exact h.look hlook
  · rw [hstep]
    refine ⟨fun look hmem => ?_, h.past, h.counted⟩
    have hmeasured := h.measured look hmem
    dsimp only
    omega

theorem Silence.flips {i : Input} (h : s.Silence) (hok : s.unheard i = true) :
    s.FlipsAfterSilence i := by
  rintro look rfl hmem hflipped
  have hstands : s.stands look = true := by simpa [unheard, hmem] using hok
  obtain ⟨hheard, hsince⟩ := Bool.and_eq_true_iff.mp hstands
  refine ⟨⟨look.since, of_decide_eq_true hsince, h.measured look hmem⟩, ?_⟩
  have hcounted := h.counted look.node
  have hfresh : 0 < s.freshLooks look.node :=
    List.countP_pos_iff.mpr ⟨look, hmem, by simp [of_decide_eq_true hheard]⟩
  have hmisses : blackholeMissesRequired ≤ misses s.m look.node + 1 := by
    unfold Manager.flipBlackhole at hflipped
    dsimp only at hflipped
    split at hflipped
    · cases hflipped
    · split at hflipped
      · assumption
      · cases hflipped
  omega

/-! ## Runs -/

/-- In a run in which what a call of `MaybeFlipBlackhole` has read stands when it takes the
lock, a peer is moved to the relay only while it is silent for too long and after enough sends
have found it so since the last frame from it. -/
theorem flip_after_silence {began : Nat} {inputs : List Input}
    (hok : AllSteps step (fun s i => s.unheard i = true) (initial began) inputs) :
    AllSteps step FlipsAfterSilence (initial began) inputs :=
  run_every_step (fun _ _ h hok => h.step hok) (fun _ _ h hok => h.flips hok)
    (initial_silence began) hok

def sentTo : List Input :=
  [.setBeaconAddr (some ⟨1, 1⟩), .call (.recordOutboundSend 7 0), .advance (9 * second)]

def seen : Look := ⟨7, 0, 0⟩

def threeLooks : List Input := [.look 7, .look 7, .look 7]

theorem silent_peer_flipped : AllSteps step FlipsAfterSilence (initial 0)
        (sentTo ++ threeLooks ++ [.flip seen, .flip seen, .flip seen]) ∧
      ((initial 0).run (sentTo ++ threeLooks ++
        [.flip seen, .flip seen, .flip seen])).m.isRelayPinned 7 = true :=
  ⟨flip_after_silence (by decide), by decide⟩

/-- Three calls have found the peer silent, then a direct frame from it has been decrypted and
its receipt recorded, then two of the calls have gone on. -/
def heardFrom : List Input :=
  sentTo ++ threeLooks ++
    [.call (.clearRelayOnDirect 7 ⟨2, 2⟩), .call (.recordDirectRecv 7 (9 * second)), .flip seen, .flip seen]

/-- The third call pins the peer to the relay at the very time of its last receipt. -/
theorem flip_after_receipt : (¬ ∀ inputs, AllSteps step FlipsAfterSilence (initial 0) inputs) ∧
      seen ∈ (heardFrom.foldl step (initial 0)).looks ∧
      ((heardFrom.foldl step (initial 0)).m.flipBlackhole 7).2.1 = true ∧
      (heardFrom.foldl step (initial 0)).m.lastDirectRecv.lookup 7 =
        some (heardFrom.foldl step (initial 0)).now ∧
      silentSends 7 (heardFrom.foldl step (initial 0)).log = 0 := by
  have hmem : seen ∈ (heardFrom.foldl step (initial 0)).looks := by decide
  have hflip : ((heardFrom.foldl step (initial 0)).m.flipBlackhole 7).2.1 = true := by decide
  have hsends : silentSends 7 (heardFrom.foldl step (initial 0)).log = 0 := by decide
  refine ⟨fun h => ?_, hmem, hflip, by decide, hsends⟩
  have hlast := (allSteps_append.mp (h (heardFrom ++ [.flip seen]))).2.1 seen rfl hmem hflip
  have hmisses : blackholeMissesRequired ≤ silentSends 7 (heardFrom.foldl step (initial 0)).log :=
    hlast.2
  cases hmisses

end System

end PilotProtocol.Routing
