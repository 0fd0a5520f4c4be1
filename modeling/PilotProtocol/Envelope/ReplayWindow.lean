import Mathlib.Data.List.MinMax
import PilotProtocol.Envelope.Overlap

/-! # The replay window is exact

On a fresh `Crypto` a counter is refused because it was accepted before or because it lies
a whole window below the largest one accepted, and for no other reason. Calls of
`DecryptFrame` that overlap commit one after the other, so at most one of them takes a
counter.
-/

namespace PilotProtocol.KeyExchange

open Library

/-- A `Crypto` with the counters that `CheckAndRecordNonce` has returned true for. -/
structure ReplayLog where
  crypto : Crypto
  accepted : List Nat

namespace ReplayLog

def step (l : ReplayLog) (counter : Nat) : ReplayLog :=
  let (ok, c) := l.crypto.checkAndRecordNonce counter
  ⟨c, if ok then counter :: l.accepted else l.accepted⟩

def largest (l : ReplayLog) : Nat := l.accepted.foldr max 0

theorem checkAndRecordNonce_refused {c : Crypto} {counter : Nat}
    (h : c.wouldAcceptNonce counter = false) : (c.checkAndRecordNonce counter).2 = c := by
  unfold Crypto.wouldAcceptNonce at h
  unfold Crypto.checkAndRecordNonce
  split at h
  · cases h
  split at h
  · cases h
  next hmax hgt =>
    rw [if_neg hmax, if_neg hgt]
    split
    · rfl
    next hnear =>
      rw [if_neg hnear, Bool.not_eq_false'] at h
      rw [if_pos h]

def Inv (l : ReplayLog) : Prop := l.crypto.window.Exact (· ∈ l.accepted)

theorem Inv.largest_eq {l : ReplayLog} (h : l.Inv) : l.largest = l.crypto.maxRecvNonce := by
  apply Nat.le_antisymm
  · exact List.max_le_of_forall_le l.accepted l.crypto.maxRecvNonce h.le_max
  · rcases h.max with hzero | hmem
    · exact Nat.le_trans (Nat.le_of_eq hzero) (Nat.zero_le _)
    · exact List.le_max_of_le hmem le_rfl

theorem Inv.step {l : ReplayLog} (h : l.Inv) {counter : Nat} (hpos : 0 < counter) :
    (l.step counter).Inv := by
  have hfst := l.crypto.checkAndRecordNonce_fst counter
  unfold ReplayLog.step Inv
  dsimp only
  cases haccept : l.crypto.wouldAcceptNonce counter with
  | false =>
    rw [haccept] at hfst
    rwa [hfst, checkAndRecordNonce_refused haccept]
  | true =>
    have hwindow := Crypto.window_checkAndRecordNonce haccept
    have hnext := Window.Exact.record h hpos haccept
    rw [haccept] at hfst
    rw [hfst, hwindow]
    refine ⟨?_, ?_, ?_, ?_, hnext.unused⟩
    · exact fun n hn => hnext.pos n (List.mem_cons.mp hn).symm
    · exact fun n hn => hnext.le_max n (List.mem_cons.mp hn).symm
    · exact hnext.max.imp id fun hm => List.mem_cons.mpr hm.symm
    · intro n hn hle hnear
      rw [hnext.seen n hn hle hnear, if_pos rfl, List.mem_cons]
      exact or_comm

theorem Inv.answer {l : ReplayLog} (h : l.Inv) {counter : Nat} (hpos : 0 < counter) :
    (l.crypto.checkAndRecordNonce counter).1 = true ↔
      counter ∉ l.accepted ∧ ¬ counter + replayWindowSize ≤ l.largest := by
  rw [l.crypto.checkAndRecordNonce_fst counter, h.largest_eq, Nat.not_le]
  exact h.wouldAccept_iff hpos

end ReplayLog

end PilotProtocol.KeyExchange

namespace PilotProtocol.Envelope

open Library KeyExchange

/-! ## Calls that overlap -/

/-- The call has recorded, or returned with success, the counter `k` of node `p`. -/
def Call.Took (p : NodeID) (k : Nat) : Call → Prop
  | .committed f _ ok _ => ok = true ∧ f.peer = p ∧ f.counter = k
  | .done result => result.err = none ∧ result.peerNodeID = p ∧ result.counter = k
  | _ => False

/-- Every window remembers what the calls took, and no two calls took the same. -/
structure TakenOnce (o : Overlap) : Prop where
  windows : ∀ p c, o.store.get p = some c → c.window.Remembers fun k => ∃ i, (o.calls i).Took p k
  stored : ∀ p k i, (o.calls i).Took p k → ∃ c, o.store.get p = some c
  once : ∀ p k i j, k ≠ 0 → (o.calls i).Took p k → (o.calls j).Took p k → i = j

theorem TakenOnce.idle {o : Overlap} (h : TakenOnce o) {i : Nat} {store : Store} {call : Call}
    (hstore : ∀ p, (store.get p).map Crypto.window = (o.store.get p).map Crypto.window)
    (hcall : ∀ p k, call.Took p k → (o.calls i).Took p k) :
    TakenOnce ⟨store, Function.update o.calls i call⟩ := by
  have htook : ∀ p k j, (Function.update o.calls i call j).Took p k → (o.calls j).Took p k := by
    intro p k j hj
    by_cases hji : j = i
    · subst hji
      rw [Function.update_self] at hj
      exact hcall p k hj
    · rwa [Function.update_of_ne hji] at hj
  refine ⟨fun p c hc => ?_, fun p k j hj => ?_, fun p k j j' hk hj hj' => ?_⟩
  · have hmap := hstore p
    rw [show store.get p = some c from hc, Option.map_some] at hmap
    obtain ⟨d, hd, hwindow⟩ := Option.map_eq_some_iff.mp hmap.symm
    have hremembers := h.windows p d hd
    rw [hwindow] at hremembers
    exact fun k ⟨j, hj⟩ hzero => hremembers k ⟨j, htook p k j hj⟩ hzero
  · obtain ⟨c, hc⟩ := h.stored p k j (htook p k j hj)
    have hmap := hstore p
    rw [hc, Option.map_some] at hmap
    obtain ⟨d, hd, -⟩ := Option.map_eq_some_iff.mp hmap
    exact ⟨d, hd⟩
  · exact h.once p k j j' hk (htook p k j hj) (htook p k j' hj')

theorem TakenOnce.commit {o : Overlap} (h : TakenOnce o) {i : Nat} {f : SecureFrame} {c : Crypto}
    (hget : o.store.get f.peer = some c) (haccept : c.wouldAcceptNonce f.counter = true)
    {plaintext : Bytes} {maxN : Nat} (hbefore : ∀ p k, ¬ (o.calls i).Took p k) :
    TakenOnce ⟨o.store.install f.peer (c.checkAndRecordNonce f.counter).2,
      Function.update o.calls i (.committed f plaintext true maxN)⟩ := by
  have hremembers := h.windows f.peer c hget
  -- a counter taken before would be refused
  have hnew : ∀ j, f.counter ≠ 0 → ¬ (o.calls j).Took f.peer f.counter := by
    intro j hzero hj
    have hrefused := Window.refuses_of_remembers hremembers ⟨j, hj⟩ hzero
    simp [show c.window.wouldAccept f.counter = true from haccept] at hrefused
  have htook : ∀ p k j, (Function.update o.calls i (.committed f plaintext true maxN) j).Took p k →
      (o.calls j).Took p k ∨ (j = i ∧ p = f.peer ∧ k = f.counter) := by
    intro p k j hj
    by_cases hji : j = i
    · subst hji
      rw [Function.update_self] at hj
      exact .inr ⟨rfl, hj.2.1.symm, hj.2.2.symm⟩
    · rw [Function.update_of_ne hji] at hj
      exact .inl hj
  refine ⟨fun p d hd => ?_, fun p k j hj => ?_, fun p k j j' hk hj hj' => ?_⟩
  · unfold Store.get Store.install at hd
    rw [GoMap.lookup_insert_ite] at hd
    split at hd
    next hp =>
      cases hd
      have hrecorded := Window.remembers_record hremembers haccept
      rw [Crypto.window_checkAndRecordNonce haccept]
      intro k ⟨j, hj⟩ hzero
      refine hrecorded k ?_ hzero
      rcases htook p k j hj with hold | ⟨-, -, hk⟩
      · exact .inl ⟨j, hp ▸ hold⟩
      · exact .inr hk
    next hp =>
      intro k ⟨j, hj⟩ hzero
      rcases htook p k j hj with hold | ⟨-, hpeer, -⟩
      · exact h.windows p d hd k ⟨j, hold⟩ hzero
      · exact absurd hpeer hp
  · unfold Store.get Store.install
    rw [GoMap.lookup_insert_ite]
    split
    · exact ⟨_, rfl⟩
    next hp =>
      rcases htook p k j hj with hold | ⟨-, hpeer, -⟩
      · exact h.stored p k j hold
      · exact absurd hpeer hp
  · rcases htook p k j hj with hold | ⟨rfl, hp, hc⟩
    · rcases htook p k j' hj' with hold' | ⟨rfl, hp, hc⟩
      · exact h.once p k j j' hk hold hold'
      · subst hp hc
        exact absurd hold (hnew j hk)
    · rcases htook p k j' hj' with hold' | ⟨rfl, -, -⟩
      · subst hp hc
        exact absurd hold' (hnew j' hk)
      · rfl

theorem window_countReject (c : Crypto) (counter maxN : Nat) :
    (countReject c counter maxN).window = c.window := by
  unfold countReject
  split <;> rfl

theorem windows_install {s : Store} {q : NodeID} {c d : Crypto} (hget : s.get q = some c)
    (hwindow : d.window = c.window) (p : NodeID) :
    ((s.install q d).get p).map Crypto.window = (s.get p).map Crypto.window := by
  unfold Store.install Store.get
  rw [GoMap.lookup_insert_ite]
  split
  next hp =>
    rw [hp, Option.map_some, hwindow]
    unfold Store.get at hget
    rw [hget, Option.map_some]
  · rfl

theorem TakenOnce.step {P : Primitives} {frames : Nat → Bytes} {o : Overlap} (h : TakenOnce o)
    (i : Nat) : TakenOnce (o.step P frames i) := by
  unfold Overlap.step Call.step
  cases hcall : o.calls i with
  | start =>
    cases parseSecure (frames i) with
    | none => exact h.idle (fun _ => rfl) fun p k hk => nomatch hk.1
    | some f =>
      dsimp only
      cases o.store.getReady f.peer with
      | none => exact h.idle (fun _ => rfl) fun p k hk => nomatch hk.1
      | some c => exact h.idle (fun _ => rfl) fun p k hk => hk.elim
  | found f =>
    dsimp only
    cases o.store.get f.peer <;> exact h.idle (fun _ => rfl) fun p k hk => hk.elim
  | checked f accept maxN =>
    have hbefore : ∀ p k, ¬ (o.calls i).Took p k := fun p k hk => by
      rwa [hcall] at hk
    dsimp only
    cases hget : o.store.get f.peer with
    | none => exact h.idle (fun _ => rfl) fun p k hk => hk.elim
    | some c =>
      dsimp only
      unfold finishCheck
      cases openWith P c f with
      | none =>
        have hnoted : (noteOpen P o.store c f).get f.peer = some c := by rw [noteOpen_get, hget]
        refine h.idle (fun p => ?_) fun p k hk => nomatch hk.1
        rw [windows_install (d := countFailure c) hnoted rfl, noteOpen_get]
      | some plaintext =>
        dsimp only
        split
        · have hfst := c.checkAndRecordNonce_fst f.counter
          cases haccept : c.wouldAcceptNonce f.counter <;> rw [haccept] at hfst <;> rw [hfst]
          case true => exact h.commit hget haccept hbefore
          case false =>
            rw [ReplayLog.checkAndRecordNonce_refused haccept]
            exact h.idle (windows_install hget rfl) fun p k hk => nomatch hk.1
        · exact h.idle (windows_install hget (window_countReject c f.counter maxN))
            fun p k hk => nomatch hk.1
  | committed f plaintext ok maxN =>
    dsimp only
    cases hget : o.store.get f.peer with
    | none => exact h.idle (fun _ => rfl) fun p k hk => by rw [hcall]; exact hk
    | some c =>
      cases ok with
      | true =>
        refine h.idle (windows_install (d := resetFaults c) hget rfl) fun p k hk => ?_
        rw [hcall]
        exact ⟨rfl, hk.2⟩
      | false =>
        exact h.idle (windows_install hget (window_countReject c f.counter maxN))
          fun p k hk => nomatch hk.1
  | done result => exact h.idle (fun _ => rfl) fun p k hk => by rw [hcall]; exact hk

theorem takenOnce_run (P : Primitives) (frames : Nat → Bytes) (s : Store) (schedule : List Nat) :
    TakenOnce (schedule.foldl (Overlap.step P frames) ⟨s, fun _ => .start⟩) := by
  apply run_invariant_all TakenOnce fun o i h => h.step i
  exact ⟨fun p c _ k ⟨i, hi⟩ => hi.elim, fun p k i hi => hi.elim, fun p k i j _ hi => hi.elim⟩

/-- A fresh `Crypto` accepts a counter exactly if it is new and less than a window below the
largest accepted one, and the check without the record says the same; of the calls that
overlap in any way at most one returns a counter without error. -/
theorem replay_window_exact : (∀ (c : Crypto), c.maxRecvNonce = 0 → c.replayBitmap = Bitmap.empty →
      ∀ (before : List Nat), (∀ k ∈ before, 1 ≤ k) → ∀ counter, 1 ≤ counter →
        let l := before.foldl ReplayLog.step ⟨c, []⟩
        ((l.crypto.checkAndRecordNonce counter).1 = true ↔
          counter ∉ l.accepted ∧ ¬ counter + replayWindowSize ≤ l.largest) ∧
        l.crypto.wouldAcceptNonce counter = (l.crypto.checkAndRecordNonce counter).1) ∧
    (∀ (P : Primitives) (s : Store) (frames : Nat → Bytes) (schedule : List Nat) (i j : Nat)
      (ri rj : DecryptResult),
      let o := schedule.foldl (Overlap.step P frames) ⟨s, fun _ => .start⟩
      o.calls i = .done ri → o.calls j = .done rj → ri.err = none → rj.err = none →
        ri.peerNodeID = rj.peerNodeID → ri.counter = rj.counter → 1 ≤ ri.counter → i = j) := by
  constructor
  · intro c hmax hbitmap before hbefore counter hpos
    have hempty : (⟨c, []⟩ : ReplayLog).Inv := by
      have hexact := Window.exact_empty (w := c.window) hmax fun k => by
        rw [Crypto.window, hbitmap]
        exact Bitmap.has_empty k
      exact ⟨by simp, by simp, .inl hmax, fun n hn hle => absurd hle (by
        rw [show c.window.max = 0 from hmax]; omega), hexact.unused⟩
    have hsteps := allSteps_of_inputs ReplayLog.step ⟨c, []⟩ hbefore
    have hinv := run_invariant ReplayLog.Inv (fun l k h hk => h.step hk) hempty hsteps
    exact ⟨hinv.answer hpos, (Crypto.checkAndRecordNonce_fst _ counter).symm⟩
  · intro P s frames schedule i j ri rj o hi hj herri herrj hpeer hcounter hpos
    have honce := (takenOnce_run P frames s schedule).once ri.peerNodeID ri.counter i j (by omega)
    apply honce
    · rw [hi]
      exact ⟨herri, rfl, rfl⟩
    · rw [hj]
      exact ⟨herrj, hpeer.symm, hcounter.symm⟩

def unusedSession : Crypto :=
  ⟨0, [], 0, [0, 0, 0, 0], 0, Bitmap.empty, true, true, [], 0, 0, 0, 0, []⟩

/-- Two calls on the same frame, section by section in turn. -/
def twoCalls : Overlap :=
  [0, 1, 0, 1, 0, 1, 0, 1].foldl
    (Overlap.step zeroTag fun _ => frameOf 5 (List.replicate 16 0 ++ [42])) ⟨sessionStore, fun _ => .start⟩

theorem window_edge_and_two_calls :
    (([5, 300].foldl ReplayLog.step ⟨unusedSession, []⟩).crypto.checkAndRecordNonce 45).1 = true ∧
    ¬ (([5, 300].foldl ReplayLog.step ⟨unusedSession, []⟩).crypto.checkAndRecordNonce 44).1 = true ∧
    ∃ r, twoCalls.calls 0 = .done r ∧ r.err = none ∧ r.counter = 5 ∧
      ¬ ∃ r', twoCalls.calls 1 = .done r' ∧ r'.err = none ∧ r.peerNodeID = r'.peerNodeID ∧
        r.counter = r'.counter := by
  have hbefore : ∀ k ∈ [5, 300], 1 ≤ k := by decide
  have hanswer := fun counter hpos =>
    (replay_window_exact.1 unusedSession rfl rfl [5, 300] hbefore counter hpos).1
  refine ⟨(hanswer 45 (by decide)).mpr (by decide +kernel), ?_, ?_⟩
  · decide +kernel
  · refine ⟨_, rfl, rfl, rfl, fun ⟨r', hdone, herr, hpeer, hcounter⟩ => ?_⟩
    have hsame := replay_window_exact.2 zeroTag sessionStore _ _ 0 1 _ r' rfl hdone rfl herr hpeer hcounter
      (by decide)
    cases hsame

end PilotProtocol.Envelope
