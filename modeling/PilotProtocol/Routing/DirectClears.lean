import PilotProtocol.Routing.Calls

/-! # Leaving the relay

A peer is to leave the relay after enough direct frames in a row. The count of direct frames
is kept by `ClearRelayOnDirect` alone: a frame from the beacon does not interrupt it, and it
is not started anew when the peer goes back to the relay. So what it says of the last frames
is true as long as neither happens while a count has begun.
-/

namespace PilotProtocol.Routing

open Library KeyExchange

/-- The frames decrypted from the peer and its moves to the relay, newest first. -/
def peerEvents (log : List Event) (node : NodeID) : List Event :=
  log.filter fun e => e.node = node && e != .silent node

namespace Manager

def clears (m : Manager) (node : NodeID) : Nat := (m.directClearCount.lookup node).getD 0

/-- A call that would interrupt a row of direct frames, by a frame from the beacon or by a
move to the relay, finds that none has been counted. -/
def undisturbed (m : Manager) (c : Call) : Bool :=
  decide (m.clears c.node = 0) ||
    match c with
    | .clearRelayOnDirect node addr => !(m.isFromBeacon (some addr) && m.isRelayPeer node)
    | _ => m.isRelayPeer c.node || !(m.call c).isRelayPeer c.node

end Manager

namespace System

variable {s : System}

/-- The frames that count are the latest ones, since the peer moved to the relay. -/
def InARow (s : System) : Prop :=
  ∀ node, s.m.isRelayPeer node = true →
    List.replicate (s.m.clears node) (.decrypted node true) <+: peerEvents s.log node

def undisturbed (s : System) : Input → Bool
  | .call c => s.m.undisturbed c
  | .flip look => s.m.undisturbed (.flipBlackhole look.node)
  | _ => true

/-- If a decrypted frame takes a peer off the relay, the peer is not pinned, and the latest
frames, as many as it takes, came by the direct path after its last move to the relay. -/
def LeavesRelayInARow (s : System) (i : Input) : Prop :=
  ∀ node addr, i = .call (.clearRelayOnDirect node addr) →
    s.m.isRelayPeer node = true → (s.step i).m.isRelayPeer node = false →
    s.m.isRelayPinned node = false ∧
      (peerEvents (s.step i).log node).take directClearsRequired =
        List.replicate directClearsRequired (.decrypted node true)

theorem replicate_prefix_of_le {α : Type*} {j k : Nat} {a : α} {l : List α}
    (h : List.replicate k a <+: l) (hle : j ≤ k) : List.replicate j a <+: l := by
  have hsplit : List.replicate k a = List.replicate j a ++ List.replicate (k - j) a := by
    rw [List.replicate_append_replicate]
    congr 1
    omega
  rw [hsplit] at h
  exact (List.prefix_append _ _).trans h

theorem peerEvents_call_ne {c : Call} {q : NodeID} (h : q ≠ c.node) (m : Manager)
    (log : List Event) : peerEvents (c.events m ++ log) q = peerEvents log q := by
  have hnew : peerEvents (c.events m) q = [] := by
    apply List.filter_eq_nil_iff.mpr
    intro e he
    simp [Call.events_node he, h.symm]
  unfold peerEvents at hnew ⊢
  rw [List.filter_append, hnew, List.nil_append]

theorem peerEvents_call (m : Manager) {c : Call} (h : ∀ node addr, c ≠ .clearRelayOnDirect node addr)
    (log : List Event) : peerEvents (c.events m ++ log) c.node =
      if !m.isRelayPeer c.node && (m.call c).isRelayPeer c.node then
        .enteredRelay c.node :: peerEvents log c.node
      else peerEvents log c.node := by
  rw [Call.events_of_no_frame m h]
  split <;> simp [peerEvents, Event.node]

theorem peerEvents_frame (m : Manager) (node : NodeID) (addr : UDPAddr) (log : List Event) :
    peerEvents ((Call.clearRelayOnDirect node addr).events m ++ log) node =
      .decrypted node (!m.isFromBeacon (some addr)) :: peerEvents log node := by
  rw [Call.events_of_frame]
  simp [peerEvents, Event.node]

/-! ## One step -/

theorem InARow.frame {node : NodeID} {addr : UDPAddr} (h : s.InARow)
    (hok : s.m.undisturbed (.clearRelayOnDirect node addr) = true)
    (hrelay : s.m.isRelayPeer node = true) :
    List.replicate ((s.call (.clearRelayOnDirect node addr)).m.clears node) (.decrypted node true) <+:
      peerEvents (s.call (.clearRelayOnDirect node addr)).log node := by
  unfold call Manager.clears Manager.call
  rw [peerEvents_frame]
  cases hbeacon : s.m.isFromBeacon (some addr) with
  | true =>
    have hzero : s.m.clears node = 0 := by
      rcases Bool.or_eq_true_iff.mp hok with hzero | hother
      · exact of_decide_eq_true hzero
      · simp [hbeacon, hrelay] at hother
    rcases s.m.clearRelayOnDirect_cases node addr with
      ⟨-, hdirect, -⟩ | ⟨-, -, hcount | ⟨hdirect, -⟩⟩
    · simp [hbeacon] at hdirect
    · rw [hcount]
      unfold Manager.clears at hzero
      rw [hzero]
      exact List.nil_prefix
    · simp [hbeacon] at hdirect
  | false =>
    have hmore : List.replicate (s.m.clears node + 1) (Event.decrypted node true) <+:
        .decrypted node (!false) :: peerEvents s.log node :=
      List.cons_prefix_cons.mpr ⟨rfl, h node hrelay⟩
    apply replicate_prefix_of_le hmore
    rcases s.m.clearRelayOnDirect_cases node addr with
      ⟨-, -, -, -, -, -, hcount⟩ | ⟨-, -, hcount | ⟨-, hcount⟩⟩
    · rw [hcount, AList.lookup_insert]
      exact Nat.zero_le _
    · rw [hcount]
      exact Nat.le_succ _
    · rw [hcount, AList.lookup_insert]
      exact le_rfl

theorem clears_call_ne {c : Call} {q : NodeID} (h : q ≠ c.node) :
    (s.m.call c).clears q = s.m.clears q := by
  unfold Manager.clears
  rw [(Manager.called _ _).clears]
  cases c with
  | clearRelayOnDirect node addr =>
    have hq : q ≠ node := h
    rcases s.m.clearRelayOnDirect_cases node addr with
      ⟨-, -, -, -, -, -, hcount⟩ | ⟨-, -, hcount | ⟨-, hcount⟩⟩
    · simp [hcount, AList.lookup_insert_ne hq]
    · simp [hcount]
    · simp [hcount, AList.lookup_insert_ne hq]
  | removePeer node =>
    have hq : q ≠ node := h
    simp [AList.lookup_erase_ne hq]
  | _ => rfl

theorem clears_call {c : Call} (h : ∀ node addr, c ≠ .clearRelayOnDirect node addr) :
    (s.m.call c).clears c.node = s.m.clears c.node ∨ (s.m.call c).clears c.node = 0 := by
  unfold Manager.clears
  rw [(Manager.called _ _).clears]
  cases c with
  | clearRelayOnDirect node addr => exact absurd rfl (h node addr)
  | removePeer node =>
    refine .inr ?_
    simp [Call.node]
  | _ => exact .inl rfl

theorem InARow.call {c : Call} (h : s.InARow) (hok : s.m.undisturbed c = true) :
    (s.call c).InARow := by
  intro q hrelay
  by_cases hq : q = c.node
  · subst hq
    by_cases hframe : ∃ node addr, c = .clearRelayOnDirect node addr
    · obtain ⟨node, addr, rfl⟩ := hframe
      exact h.frame hok (s.m.isRelayPeer_of_clearRelayOnDirect hrelay)
    · have hother : ∀ node addr, c ≠ .clearRelayOnDirect node addr :=
        fun node addr heq => hframe ⟨node, addr, heq⟩
      have hafter : (s.m.call c).isRelayPeer c.node = true := hrelay
      unfold System.call
      dsimp only
      rw [peerEvents_call s.m hother]
      cases hwas : s.m.isRelayPeer c.node with
      | true =>
        apply replicate_prefix_of_le (h c.node hwas)
        rcases clears_call (s := s) hother with heq | heq <;> omega
      | false =>
        -- A peer that enters has no frames counted.
        have hzero : s.m.clears c.node = 0 := by
          cases c with
          | clearRelayOnDirect node addr => exact absurd rfl (hother node addr)
          | _ =>
            rcases Bool.or_eq_true_iff.mp hok with hzero | hstays
            · exact of_decide_eq_true hzero
            · simp [hwas, hafter] at hstays
        have hnone : (s.m.call c).clears c.node = 0 := by
          rcases clears_call (s := s) hother with heq | heq <;> omega
        rw [hnone]
        exact List.nil_prefix
  · have hwas : s.m.isRelayPeer q = true := (Manager.call_isRelayPeer_ne hq).symm.trans hrelay
    unfold System.call
    rw [peerEvents_call_ne hq, clears_call_ne hq]
    exact h q hwas

theorem InARow.step {i : Input} (h : s.InARow) (hok : s.undisturbed i = true) : (s.step i).InARow := by
  rcases s.step_cases i with ⟨c, hstep, hi⟩ | ⟨node, since, -, -, hstep⟩ | ⟨now, addr, -, hstep⟩
  · have hcall : s.m.undisturbed c = true := by
      rcases hi with ⟨rfl, -, -⟩ | ⟨look, -, rfl, rfl, -⟩
      · exact hok
      · exact hok
    rw [hstep]
    exact h.call hcall
  · rw [hstep]
    intro q hrelay
    have hlog : peerEvents (.silent node :: s.log) q = peerEvents s.log q := by
      by_cases hq : node = q <;> simp [peerEvents, Event.node, hq]
    rw [hlog]
    exact h q hrelay
  · rwa [hstep]

theorem InARow.leaves (h : s.InARow) {i : Input} (hok : s.undisturbed i = true) :
    s.LeavesRelayInARow i := by
  rintro node addr rfl hrelay hleft
  have hlog : (s.step (.call (.clearRelayOnDirect node addr))).log =
      (Call.clearRelayOnDirect node addr).events s.m ++ s.log := rfl
  have hpeers : (s.m.clearRelayOnDirect node (some addr)).isRelayPeer node = false := hleft
  rcases s.m.clearRelayOnDirect_cases node addr with
    ⟨-, hdirect, -, hpinned, hclears, -, -⟩ | ⟨-, hsame, -⟩
  · refine ⟨hpinned, ?_⟩
    rw [hlog, peerEvents_frame, hdirect]
    have hmore : List.replicate (s.m.clears node + 1) (Event.decrypted node true) <+:
        .decrypted node (!false) :: peerEvents s.log node :=
      List.cons_prefix_cons.mpr ⟨rfl, h node hrelay⟩
    have htake := List.prefix_iff_eq_take.mp (replicate_prefix_of_le hmore hclears)
    exact htake.symm
  · unfold Manager.isRelayPeer at hpeers hrelay
    simp [hsame, hrelay] at hpeers

/-! ## Runs -/

theorem initial_inARow (began : Nat) : (initial began).InARow := by
  intro node hrelay
  cases hrelay

/-- In a run in which no frame from the beacon and no move to the relay comes while direct
frames have been counted, a peer leaves the relay only after the direct frames it takes, in a
row and since it last moved to the relay, and only if it is not pinned. -/
theorem leaving_relay_takes_direct_row {began : Nat} {inputs : List Input}
    (hok : AllSteps step (fun s i => s.undisturbed i = true) (initial began) inputs) :
    AllSteps step LeavesRelayInARow (initial began) inputs :=
  run_every_step (fun _ _ h hok => h.step hok) (fun _ _ h hok => h.leaves hok)
    (initial_inARow began) hok

def onRelay : List Input := [.setBeaconAddr (some ⟨1, 1⟩), .call (.setRelayPeer 7 true)]

def directFrame : Input := .call (.clearRelayOnDirect 7 ⟨2, 2⟩)

def beaconFrame : Input := .call (.clearRelayOnDirect 7 ⟨1, 1⟩)

theorem three_direct_frames_leave :
    AllSteps step LeavesRelayInARow (initial 0) (onRelay ++ [directFrame, directFrame, directFrame]) ∧
      ((initial 0).run (onRelay ++ [directFrame, directFrame])).m.isRelayPeer 7 = true ∧
      ((initial 0).run (onRelay ++ [directFrame, directFrame, directFrame])).m.isRelayPeer 7 = false :=
  ⟨leaving_relay_takes_direct_row (by decide), by decide, by decide⟩

/-- Two direct frames, one from the beacon and one direct frame take the peer off the relay; so
does one direct frame after the peer has left the relay and come back. -/
theorem row_interrupted : (¬ ∀ inputs, AllSteps step LeavesRelayInARow (initial 0) inputs) ∧
      (∀ between ∈ [[beaconFrame], [.call (.setRelayPeer 7 false), .call (.setRelayPeer 7 true)]],
        ((initial 0).run (onRelay ++ [directFrame, directFrame] ++ between)).m.isRelayPeer 7 = true ∧
        ((initial 0).run (onRelay ++ [directFrame, directFrame] ++ between ++
          [directFrame])).m.isRelayPeer 7 = false) := by
  refine ⟨fun h => ?_, ?_⟩
  · have hall := h (onRelay ++ [directFrame, directFrame, beaconFrame] ++ [directFrame])
    have hlast := (allSteps_append.mp hall).2.1 7 ⟨2, 2⟩ rfl (by decide) (by decide)
    exact absurd hlast.2 (by decide)
  · intro between hmem
    simp only [List.mem_cons, List.not_mem_nil, or_false] at hmem
    rcases hmem with rfl | rfl <;> decide

end System

end PilotProtocol.Routing
