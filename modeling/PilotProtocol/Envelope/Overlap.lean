import PilotProtocol.Envelope.Interference

/-! # Overlapping calls

Calls of `DecryptFrame` that run at the same time interleave at the locks of the
source. A `Call` is the program point of one of them: after the lookup it holds
a pointer to the peer's `Crypto`, which no call ever removes from the store.
-/

namespace PilotProtocol.Envelope

open Library KeyExchange

inductive Call
  | start
  | found (f : SecureFrame)
  | checked (f : SecureFrame) (accept : Bool) (maxN : Nat)
  | committed (f : SecureFrame) (plaintext : Bytes) (ok : Bool) (maxN : Nat)
  | done (result : DecryptResult)

/-- The locked section after the AEAD opening, which itself takes no lock. -/
def finishCheck (P : Primitives) (s : Store) (f : SecureFrame) (accept : Bool) (maxN : Nat)
    (c : Crypto) : Store × Call :=
  match openWith P c f with
  | none => ((noteOpen P s c f).install f.peer (countFailure c), .done (aeadResult f maxN))
  | some plaintext =>
    if accept then
      let (ok, c') := c.checkAndRecordNonce f.counter
      (s.install f.peer c', .committed f plaintext ok c'.maxRecvNonce)
    else (s.install f.peer (countReject c f.counter maxN), .done (rejectResult f maxN))

def finishCommit (s : Store) (f : SecureFrame) (plaintext : Bytes) (ok : Bool) (maxN : Nat)
    (c : Crypto) : Store × Call :=
  if ok then (s.install f.peer (resetFaults c), .done (okResult f plaintext maxN))
  else (s.install f.peer (countReject c f.counter maxN), .done (rejectResult f maxN))

/-- One locked section of a call on `data`. -/
def Call.step (P : Primitives) (data : Bytes) (s : Store) : Call → Store × Call
  | .start =>
    match parseSecure data with
    | none => (s, .done tooShortResult)
    | some f =>
      match s.getReady f.peer with
      | none => (s, .done (noKeyResult f))
      | some _ => (s, .found f)
  | .found f =>
    match s.get f.peer with
    | none => (s, .found f)
    | some c => (s, .checked f (c.wouldAcceptNonce f.counter) c.maxRecvNonce)
  | .checked f accept maxN =>
    match s.get f.peer with
    | none => (s, .checked f accept maxN)
    | some c => finishCheck P s f accept maxN c
  | .committed f plaintext ok maxN =>
    match s.get f.peer with
    | none => (s, .committed f plaintext ok maxN)
    | some c => finishCommit s f plaintext ok maxN c
  | .done result => (s, .done result)

theorem step_iterate_four (P : Primitives) (s : Store) (data : Bytes) :
    (fun x : Store × Call => x.2.step P data x.1)^[4] (s, .start) =
      ((decryptFrame P s data).2, .done (decryptFrame P s data).1) := by
  cases hparse : parseSecure data with
  | none =>
    rw [decryptFrame_tooShort hparse]
    simp [Call.step, hparse]
  | some f =>
    cases hs : s.getReady f.peer with
    | none =>
      rw [decryptFrame_noKey hparse hs]
      simp [Call.step, hparse, hs]
    | some c =>
      have hget := (Store.getReady_eq_some.mp hs).1
      rw [decryptFrame_keyed hparse hs]
      simp only [Function.iterate_succ, Function.iterate_zero, Function.comp_apply, id_eq,
        Call.step, hparse, hs, hget]
      rcases decryptWith_cases P c f with ⟨ho, hd⟩ | ⟨pt, ho, ha, hd⟩ | ⟨pt, ho, ha, hd⟩
      · simp [finishCheck, ho, hd]
      · have hok := (c.checkAndRecordNonce_fst f.counter).trans ha
        simp [finishCheck, finishCommit, ho, hd, ha, hok, noteOpen, Store.install, Store.get,
          AList.insert_insert]
      · simp [finishCheck, ho, hd, ha, noteOpen]

/-! ## One section in two stores -/

variable {s t : Store} {P : Primitives}

theorem Agree.get_none (h : Agree s t) {p : NodeID} (hs : s.get p = none) : t.get p = none := by
  have hp := h.crypto p
  rw [hs, Option.map_none] at hp
  exact Option.map_eq_none_iff.mp hp.symm

theorem Agree.get_some (h : Agree s t) {p : NodeID} {c : Crypto} (hs : s.get p = some c) :
    ∃ n, t.get p = some { c with decryptFailCount := n } := by
  have hp := h.crypto p
  rw [hs, Option.map_some] at hp
  obtain ⟨d, hd, heq⟩ := Option.map_eq_some_iff.mp hp.symm
  obtain ⟨n, rfl⟩ := forgetFails_eq_iff.mp heq.symm
  exact ⟨n, hd⟩

theorem finishCheck_agree (h : Agree s t) (f : SecureFrame) (accept : Bool) (maxN : Nat)
    (c : Crypto) (n : Nat) : (finishCheck P s f accept maxN c).2 =
      (finishCheck P t f accept maxN { c with decryptFailCount := n }).2 ∧
    Agree (finishCheck P s f accept maxN c).1
      (finishCheck P t f accept maxN { c with decryptFailCount := n }).1 := by
  have hopen : openWith P { c with decryptFailCount := n } f = openWith P c f := rfl
  unfold finishCheck
  rw [hopen, checkAndRecordNonce_fails c n]
  cases openWith P c f with
  | none => exact ⟨rfl, (agree_noteOpen h c f n).install f.peer rfl⟩
  | some plaintext =>
    simp only
    split
    · exact ⟨rfl, h.install f.peer rfl⟩
    · exact ⟨rfl, h.install f.peer (countReject_forgetFails c n f.counter maxN).symm⟩

theorem finishCommit_agree (h : Agree s t) (f : SecureFrame) (plaintext : Bytes) (ok : Bool)
    (maxN : Nat) (c : Crypto) (n : Nat) : (finishCommit s f plaintext ok maxN c).2 =
      (finishCommit t f plaintext ok maxN { c with decryptFailCount := n }).2 ∧
    Agree (finishCommit s f plaintext ok maxN c).1
      (finishCommit t f plaintext ok maxN { c with decryptFailCount := n }).1 := by
  unfold finishCommit
  split
  · exact ⟨rfl, h.install f.peer rfl⟩
  · exact ⟨rfl, h.install f.peer (countReject_forgetFails c n f.counter maxN).symm⟩

theorem step_agree (h : Agree s t) (data : Bytes) (call : Call) :
    (call.step P data s).2 = (call.step P data t).2 ∧
    Agree (call.step P data s).1 (call.step P data t).1 := by
  unfold Call.step
  cases call with
  | start =>
    cases parseSecure data with
    | none => exact ⟨rfl, h⟩
    | some f =>
      cases hs : s.getReady f.peer with
      | none => simpa [hs, h.getReady_none hs] using h
      | some c =>
        obtain ⟨n, ht⟩ := h.getReady_some hs
        simpa [hs, ht] using h
  | found f =>
    cases hs : s.get f.peer with
    | none => simpa [hs, h.get_none hs] using h
    | some c =>
      obtain ⟨n, ht⟩ := h.get_some hs
      have haccept : { c with decryptFailCount := n }.wouldAcceptNonce f.counter =
          c.wouldAcceptNonce f.counter := rfl
      simpa [hs, ht, haccept] using h
  | checked f accept maxN =>
    cases hs : s.get f.peer with
    | none => simpa [hs, h.get_none hs] using h
    | some c =>
      obtain ⟨n, ht⟩ := h.get_some hs
      simp only [hs, ht]
      exact finishCheck_agree h f accept maxN c n
  | committed f plaintext ok maxN =>
    cases hs : s.get f.peer with
    | none => simpa [hs, h.get_none hs] using h
    | some c =>
      obtain ⟨n, ht⟩ := h.get_some hs
      simp only [hs, ht]
      exact finishCommit_agree h f plaintext ok maxN c n
  | done result => exact ⟨rfl, h⟩

/-! ## Schedules -/

structure Overlap where
  store : Store
  calls : Nat → Call

/-- The scheduled call runs its next section; `frames i` is the frame of call `i`. -/
def Overlap.step (P : Primitives) (frames : Nat → Bytes) (o : Overlap) (i : Nat) : Overlap :=
  let (store, call) := (o.calls i).step P (frames i) o.store
  ⟨store, Function.update o.calls i call⟩

/-- The program points of a call whose frame does not open: it never commits, and what
it has parsed is its own frame. -/
def Call.Fruitless (s : Store) (data : Bytes) : Call → Prop
  | .start | .done _ => True
  | .found f | .checked f _ _ => parseSecure data = some f ∧ (keyOf s f.peer).isSome = true
  | .committed _ _ _ _ => False

theorem Call.Fruitless.of_keyOf {data : Bytes} {call : Call} (h : call.Fruitless s data)
    (hkeys : ∀ p, keyOf t p = keyOf s p) : call.Fruitless t data := by
  cases call with
  | start | done result => trivial
  | found f | checked f accept maxN => exact ⟨h.1, by rw [hkeys]; exact h.2⟩
  | committed f plaintext ok maxN => exact h

theorem step_keyOf (P : Primitives) (data : Bytes) (s : Store) (call : Call) (q : NodeID) :
    keyOf (call.step P data s).1 q = keyOf s q := by
  unfold Call.step
  cases call with
  | start =>
    cases parseSecure data with
    | none => rfl
    | some f => cases hs : s.getReady f.peer <;> simp [hs]
  | found f => cases hs : s.get f.peer <;> simp [hs]
  | checked f accept maxN =>
    cases hs : s.get f.peer with
    | none => simp [hs]
    | some c =>
      simp only [hs, finishCheck]
      cases openWith P c f with
      | none =>
        have hs' : (noteOpen P s c f).get f.peer = some c := by rw [noteOpen_get, hs]
        simp only [keyOf_install (d := countFailure c) hs' rfl, keyOf_noteOpen]
      | some plaintext =>
        simp only
        split
        · exact keyOf_install hs (c.checkAndRecordNonce_head f.counter) q
        · exact keyOf_install hs (countReject_head c f.counter maxN) q
  | committed f plaintext ok maxN =>
    cases hs : s.get f.peer with
    | none => simp [hs]
    | some c =>
      simp only [hs, finishCommit]
      split
      · exact keyOf_install (d := resetFaults c) hs rfl q
      · exact keyOf_install hs (countReject_head c f.counter maxN) q
  | done result => rfl

theorem step_junk {data : Bytes} {call : Call} (hjunk : Junk P s data) (hf : call.Fruitless s data)
    (h : Agree s t) : Agree (call.step P data s).1 t ∧ (call.step P data s).2.Fruitless s data := by
  unfold Call.step
  cases call with
  | start =>
    cases hparse : parseSecure data with
    | none => exact ⟨h, trivial⟩
    | some f =>
      cases hs : s.getReady f.peer with
      | none => simpa [hs] using ⟨h, trivial⟩
      | some c =>
        have hkey : (keyOf s f.peer).isSome = true := by simp [keyOf, hs]
        simpa [hs] using ⟨h, hparse, hkey⟩
  | found f => cases hs : s.get f.peer <;> simpa [hs] using ⟨h, hf⟩
  | checked f accept maxN =>
    cases hs : s.get f.peer with
    | none => simpa [hs] using ⟨h, hf⟩
    | some c =>
      have hready : s.getReady f.peer = some c := by
        obtain ⟨key, hkey⟩ := Option.isSome_iff_exists.mp hf.2
        obtain ⟨d, hd, -⟩ := Option.map_eq_some_iff.mp hkey
        rw [hd, ← (Store.getReady_eq_some.mp hd).1, hs]
      have hopen := hjunk f c hf.1 hready
      simp only [hs, finishCheck, hopen]
      refine ⟨(agree_noteOpen_left h c f).install_left (c := c) ?_ rfl, trivial⟩
      rw [noteOpen_get, hs]
  | committed f plaintext ok maxN => exact hf.elim
  | done result => exact ⟨h, trivial⟩

structure SameCalls (initial : Store) (frames : Nat → Bytes) (junk : Nat → Bool)
    (a b : Overlap) : Prop where
  store : Agree a.store b.store
  keys : ∀ p, keyOf a.store p = keyOf initial p
  calls : ∀ i, junk i = false → a.calls i = b.calls i
  fruitless : ∀ i, junk i = true → (a.calls i).Fruitless initial (frames i)

theorem sameCalls_run {frames : Nat → Bytes} {junk : Nat → Bool}
    (hjunk : ∀ i, junk i = true → Junk P s (frames i)) (schedule : List Nat) :
    SameCalls s frames junk (schedule.foldl (Overlap.step P frames) ⟨s, fun _ => .start⟩)
      ((schedule.filter fun i => !junk i).foldl (Overlap.step P frames) ⟨s, fun _ => .start⟩) := by
  refine run_purge (fun _ => True) (SameCalls s frames junk) ?_ ?_ (fun _ _ => trivial)
    ⟨.refl s, fun _ => rfl, fun _ _ => rfl, fun _ _ => trivial⟩
  · intro a b i _ hi h
    have hinit : ∀ p, keyOf s p = keyOf a.store p := fun p => (h.keys p).symm
    obtain ⟨hstore, hnext⟩ := step_junk ((hjunk i hi).of_keyOf h.keys)
      ((h.fruitless i hi).of_keyOf h.keys) h.store
    refine ⟨hstore, fun p => (step_keyOf P _ _ _ p).trans (h.keys p), ?_, ?_⟩
    · intro j hj
      have hne : j ≠ i := fun hji => by simp [hji, hi] at hj
      exact (Function.update_of_ne hne _ _).trans (h.calls j hj)
    · intro j hj
      by_cases hji : j = i
      · subst hji
        simp only [Overlap.step, Function.update_self]
        exact hnext.of_keyOf hinit
      · simp only [Overlap.step, Function.update_of_ne hji]
        exact h.fruitless j hj
  · intro a b i hi h
    obtain ⟨hcall, hstore⟩ := step_agree (P := P) h.store (frames i) (a.calls i)
    simp only [Overlap.step, ← h.calls i hi]
    refine ⟨hstore, fun p => (step_keyOf P _ _ _ p).trans (h.keys p), ?_, ?_⟩
    · intro j hj
      by_cases hji : j = i
      · subst hji
        simp only [Function.update_self, hcall]
      · simp only [Function.update_of_ne hji, h.calls j hj]
    · intro j hj
      have hne : j ≠ i := fun hji => by simp [hji, hi] at hj
      simp only [Function.update_of_ne hne]
      exact h.fruitless j hj

/-- Extra frames that do not open, anywhere in a run and also in calls that overlap the
others, leave the answers to the other frames and the replay state as they are without
them. -/
theorem junkFrames_leave_no_trace (P : Primitives) (s : Store) :
    (∀ arrivals : List Arrival, (∀ i ∈ arrivals, i.extra = true → Junk P s i.data) →
      (arrivals.foldl (Answers.step P) ⟨[], s⟩).results =
        ((arrivals.filter fun i => !i.extra).foldl (Answers.step P) ⟨[], s⟩).results ∧
      Agree (arrivals.foldl (Answers.step P) ⟨[], s⟩).store
        ((arrivals.filter fun i => !i.extra).foldl (Answers.step P) ⟨[], s⟩).store) ∧
    (∀ (frames : Nat → Bytes) (junk : Nat → Bool),
      (∀ i, junk i = true → Junk P s (frames i)) → ∀ schedule : List Nat, (∀ i, junk i = false →
        (schedule.foldl (Overlap.step P frames) ⟨s, fun _ => .start⟩).calls i =
          ((schedule.filter fun i => !junk i).foldl (Overlap.step P frames)
            ⟨s, fun _ => .start⟩).calls i) ∧
      Agree (schedule.foldl (Overlap.step P frames) ⟨s, fun _ => .start⟩).store
        ((schedule.filter fun i => !junk i).foldl (Overlap.step P frames)
          ⟨s, fun _ => .start⟩).store) := by
  refine ⟨fun arrivals hjunk => ?_, fun frames junk hjunk schedule => ?_⟩
  · have hsame := sameAnswers_run hjunk
    exact ⟨hsame.results, hsame.store⟩
  · have hsame := sameCalls_run hjunk schedule
    exact ⟨hsame.calls, hsame.store⟩

/-- A toy AEAD whose tag is sixteen zero bytes before the plaintext. -/
def zeroTag : Primitives where
  aeadSeal _ _ plaintext _ := List.replicate 16 0 ++ plaintext
  aeadOpen _ _ ciphertext _ :=
    if ciphertext.take 16 = List.replicate 16 0 then some (ciphertext.drop 16) else none
  x25519Public := id
  ecdh _ peer := some peer
  hmacSHA256 _ message := message
  ed25519Public := id
  sign _ message := message
  verify _ message signature := message == signature

def sessionStore : Store where
  crypto := (∅ : GoMap NodeID Crypto).insert 7
    ⟨0, [], 0, [0, 0, 0, 0], 0, Bitmap.empty, true, true, [], 0, 0, 0, 0, []⟩
  localNodeID := 1
  encryptOK := 0
  encryptFail := 0

def frameOf (counter : Nat) (body : Bytes) : Bytes :=
  nodeBytes 7 ++ [0, 0, 0, 0] ++ putBE 8 counter ++ body

/-- A genuine frame, a forged one with a high counter, and the genuine one again. -/
def forgedBetween : List Arrival :=
  [⟨frameOf 5 (List.replicate 16 0 ++ [42]), false⟩, ⟨frameOf 1000 (List.replicate 16 1), true⟩,
    ⟨frameOf 5 (List.replicate 16 0 ++ [42]), false⟩]

theorem forgedBetween_leaves_no_trace :
    (forgedBetween.foldl (Answers.step zeroTag) ⟨[], sessionStore⟩).results.map (·.err) =
      [none, some .replay] ∧
    (forgedBetween.foldl (Answers.step zeroTag) ⟨[], sessionStore⟩).results =
      ((forgedBetween.filter fun i => !i.extra).foldl (Answers.step zeroTag)
        ⟨[], sessionStore⟩).results := by
  refine ⟨by decide, ((junkFrames_leave_no_trace zeroTag sessionStore).1 forgedBetween ?_).1⟩
  intro i hi hextra f c hparse _
  simp only [forgedBetween, List.mem_cons, List.not_mem_nil, or_false] at hi
  rcases hi with rfl | rfl | rfl
  · cases hextra
  · have hforged : parseSecure (frameOf 1000 (List.replicate 16 1)) =
        some ⟨7, [0, 0, 0, 0] ++ putBE 8 1000, List.replicate 16 1⟩ := by decide
    rw [hforged, Option.some.injEq] at hparse
    subst hparse
    simp [openWith, zeroTag]
  · cases hextra

end PilotProtocol.Envelope
