import PilotProtocol.Envelope.Frame
import PilotProtocol.Library.Run

/-! # Junk frames leave no trace

A frame that does not open under the key installed for the node it names moves
`DecryptFailCount` and the failure statistics and nothing else. Two stores that
agree on everything but these answer every frame alike, so frames that do not
open can be taken out of a run, or put into one, without a change to what the
other frames do. The second half runs calls that overlap, one locked section at
a time.
-/

namespace PilotProtocol.Envelope

open Library KeyExchange

/-! ## Stores that agree but for failures -/

def forgetFails (c : Crypto) : Crypto := { c with decryptFailCount := 0 }

/-- Equal but for `DecryptFailCount` and the count of failed frames. -/
structure Agree (s t : Store) : Prop where
  crypto : ∀ p, (s.get p).map forgetFails = (t.get p).map forgetFails
  localNodeID : s.localNodeID = t.localNodeID
  encryptOK : s.encryptOK = t.encryptOK

theorem Agree.refl (s : Store) : Agree s s := ⟨fun _ => rfl, rfl, rfl⟩

variable {s t : Store} {c d : Crypto} {p : NodeID} {P : Primitives}

theorem forgetFails_eq_iff :
    forgetFails c = forgetFails d ↔ ∃ n, d = { c with decryptFailCount := n } := by
  constructor
  · intro h
    refine ⟨d.decryptFailCount, ?_⟩
    cases c
    cases d
    simp_all [forgetFails]
  · rintro ⟨n, rfl⟩
    rfl

section

variable (h : Agree s t)
include h

theorem Agree.getReady_none (hs : s.getReady p = none) : t.getReady p = none := by
  have hp := h.crypto p
  unfold Store.getReady at hs ⊢
  cases ht : t.get p with
  | none => rfl
  | some d =>
    rw [ht] at hp
    obtain ⟨c, hc, heq⟩ := Option.map_eq_some_iff.mp hp
    obtain ⟨n, rfl⟩ := forgetFails_eq_iff.mp heq
    simpa [hc] using hs

theorem Agree.getReady_some (hs : s.getReady p = some c) :
    ∃ n, t.getReady p = some { c with decryptFailCount := n } := by
  obtain ⟨hget, hready⟩ := Store.getReady_eq_some.mp hs
  have hp := h.crypto p
  rw [hget, Option.map_some] at hp
  obtain ⟨d, hd, heq⟩ := Option.map_eq_some_iff.mp hp.symm
  obtain ⟨n, rfl⟩ := forgetFails_eq_iff.mp heq.symm
  exact ⟨n, Store.getReady_eq_some.mpr ⟨hd, hready⟩⟩

theorem Agree.install (p : NodeID) (hc : forgetFails c = forgetFails d) :
    Agree (s.install p c) (t.install p d) where
  crypto := by
    intro q
    rw [Store.get_install, Store.get_install]
    by_cases hq : q = p
    · simp [hq, hc]
    · simp [hq, h.crypto q]
  localNodeID := h.localNodeID
  encryptOK := h.encryptOK

theorem Agree.install_left (hs : s.get p = some c)
    (hc : forgetFails d = forgetFails c) : Agree (s.install p d) t where
  crypto := by
    intro q
    rw [Store.get_install]
    by_cases hq : q = p
    · subst hq
      have hp := h.crypto q
      rw [hs, Option.map_some, ← hc] at hp
      simpa using hp
    · simp [hq, h.crypto q]
  localNodeID := h.localNodeID
  encryptOK := h.encryptOK

theorem agree_noteOpen (c : Crypto) (f : SecureFrame) (n : Nat) :
    Agree (noteOpen P s c f) (noteOpen P t { c with decryptFailCount := n } f) := by
  have hopen : openWith P { c with decryptFailCount := n } f = openWith P c f := rfl
  unfold noteOpen
  rw [hopen]
  split
  · exact ⟨h.crypto, h.localNodeID, h.encryptOK⟩
  · exact h

theorem agree_noteOpen_left (c : Crypto) (f : SecureFrame) : Agree (noteOpen P s c f) t := by
  unfold noteOpen
  split
  · exact ⟨h.crypto, h.localNodeID, h.encryptOK⟩
  · exact h

end

/-! ## One call -/

theorem countReject_forgetFails (c : Crypto) (n counter maxN : Nat) :
    forgetFails (countReject { c with decryptFailCount := n } counter maxN) =
      forgetFails (countReject c counter maxN) := by
  unfold countReject
  split <;> rfl

theorem checkAndRecordNonce_fails (c : Crypto) (n counter : Nat) :
    { c with decryptFailCount := n }.checkAndRecordNonce counter =
      ((c.checkAndRecordNonce counter).1,
        { (c.checkAndRecordNonce counter).2 with decryptFailCount := n }) := by
  unfold Crypto.checkAndRecordNonce
  split
  · rfl
  split
  · rfl
  split
  · rfl
  split <;> rfl

theorem decryptWith_fails (P : Primitives) (c : Crypto) (f : SecureFrame) (n : Nat) :
    (decryptWith P { c with decryptFailCount := n } f).1 = (decryptWith P c f).1 ∧
    forgetFails (decryptWith P { c with decryptFailCount := n } f).2 =
      forgetFails (decryptWith P c f).2 := by
  have hopen : openWith P { c with decryptFailCount := n } f = openWith P c f := rfl
  have haccept : { c with decryptFailCount := n }.wouldAcceptNonce f.counter =
      c.wouldAcceptNonce f.counter := rfl
  unfold decryptWith
  rw [hopen, haccept, checkAndRecordNonce_fails]
  cases openWith P c f with
  | none => exact ⟨rfl, rfl⟩
  | some plaintext =>
    simp only
    split
    · split
      · exact ⟨rfl, rfl⟩
      · exact ⟨rfl, countReject_forgetFails _ _ _ _⟩
    · exact ⟨rfl, countReject_forgetFails _ _ _ _⟩

theorem decryptFrame_agree (P : Primitives) (h : Agree s t) (data : Bytes) :
    (decryptFrame P s data).1 = (decryptFrame P t data).1 ∧
    Agree (decryptFrame P s data).2 (decryptFrame P t data).2 := by
  cases hparse : parseSecure data with
  | none =>
    rw [decryptFrame_tooShort hparse, decryptFrame_tooShort hparse]
    exact ⟨rfl, h⟩
  | some f =>
    cases hs : s.getReady f.peer with
    | none =>
      rw [decryptFrame_noKey hparse hs, decryptFrame_noKey hparse (h.getReady_none hs)]
      exact ⟨rfl, h⟩
    | some c =>
      obtain ⟨n, ht⟩ := h.getReady_some hs
      obtain ⟨hresult, hcrypto⟩ := decryptWith_fails P c f n
      rw [decryptFrame_keyed hparse hs, decryptFrame_keyed hparse ht]
      exact ⟨hresult.symm, (agree_noteOpen h c f n).install f.peer hcrypto.symm⟩

/-! ## Frames that do not open -/

/-- The frame opens under no ready key installed for the node it names. -/
def Junk (P : Primitives) (s : Store) (data : Bytes) : Prop :=
  ∀ f c, parseSecure data = some f → s.getReady f.peer = some c → openWith P c f = none

def keyOf (s : Store) (p : NodeID) : Option Bytes := (s.getReady p).map (·.key)

theorem Junk.of_keyOf {data : Bytes} (h : Junk P s data) (hkeys : ∀ p, keyOf t p = keyOf s p) :
    Junk P t data := by
  intro f c hparse hready
  have hkey := hkeys f.peer
  unfold keyOf at hkey
  rw [hready, Option.map_some] at hkey
  obtain ⟨d, hd, heq⟩ := Option.map_eq_some_iff.mp hkey.symm
  have hopen := h f d hparse hd
  unfold openWith at hopen ⊢
  rwa [← heq]

theorem keyOf_of_head {q : NodeID} (h : (t.get q).map Crypto.head = (s.get q).map Crypto.head) :
    keyOf t q = keyOf s q := by
  unfold keyOf Store.getReady
  cases hs : s.get q with
  | none =>
    rw [hs, Option.map_none, Option.map_eq_none_iff] at h
    rw [h]
  | some c =>
    rw [hs, Option.map_some] at h
    obtain ⟨d, hd, heq⟩ := Option.map_eq_some_iff.mp h
    have hkey : d.key = c.key := congrArg CryptoHead.key heq
    have hready : d.ready = c.ready := congrArg CryptoHead.ready heq
    rw [hd]
    simp only [Option.filter, hready]
    split <;> simp [hkey]

theorem keyOf_install (hs : s.get p = some c) (hd : d.head = c.head) (q : NodeID) :
    keyOf (s.install p d) q = keyOf s q :=
  keyOf_of_head (Store.install_head hs hd q)

@[simp] theorem keyOf_noteOpen (P : Primitives) (s : Store) (c : Crypto) (f : SecureFrame)
    (q : NodeID) : keyOf (noteOpen P s c f) q = keyOf s q := by
  simp [keyOf, Store.getReady]

theorem decryptFrame_keyOf (P : Primitives) (s : Store) (data : Bytes) (q : NodeID) :
    keyOf (decryptFrame P s data).2 q = keyOf s q :=
  keyOf_of_head (decryptFrame_head P s data q)

theorem decryptFrame_junk {data : Bytes} (hjunk : Junk P s data) (h : Agree s t) :
    Agree (decryptFrame P s data).2 t := by
  cases hparse : parseSecure data with
  | none => rwa [decryptFrame_tooShort hparse]
  | some f =>
    cases hs : s.getReady f.peer with
    | none => rwa [decryptFrame_noKey hparse hs]
    | some c =>
      have hopen := hjunk f c hparse hs
      have hget := (Store.getReady_eq_some.mp hs).1
      have hfail : (decryptWith P c f).2 = countFailure c := by
        unfold decryptWith
        rw [hopen]
      rw [decryptFrame_keyed hparse hs, hfail]
      apply (agree_noteOpen_left h c f).install_left (c := c)
      · rw [noteOpen_get, hget]
      · rfl

/-! ## Runs of whole calls -/

/-- A frame of a run, marked when it is one of the extra ones. -/
structure Arrival where
  data : Bytes
  extra : Bool

/-- The answers to the frames that are not extra, and the store. -/
structure Answers where
  results : List DecryptResult
  store : Store

def Answers.step (P : Primitives) (a : Answers) (i : Arrival) : Answers :=
  let (result, store) := decryptFrame P a.store i.data
  ⟨if i.extra then a.results else a.results ++ [result], store⟩

structure SameAnswers (initial : Store) (a b : Answers) : Prop where
  results : a.results = b.results
  store : Agree a.store b.store
  keys : ∀ p, keyOf a.store p = keyOf initial p

theorem sameAnswers_run {arrivals : List Arrival}
    (hjunk : ∀ i ∈ arrivals, i.extra = true → Junk P s i.data) :
    SameAnswers s (arrivals.foldl (Answers.step P) ⟨[], s⟩)
      ((arrivals.filter fun i => !i.extra).foldl (Answers.step P) ⟨[], s⟩) := by
  refine run_purge (fun i => i.extra = true → Junk P s i.data) (SameAnswers s) ?_ ?_ hjunk
    ⟨rfl, .refl s, fun _ => rfl⟩
  · intro a b i hok hextra h
    have hi := (hok hextra).of_keyOf h.keys
    refine ⟨?_, decryptFrame_junk hi h.store, ?_⟩
    · simp only [Answers.step, hextra, if_true, h.results]
    · intro p
      exact (decryptFrame_keyOf P a.store i.data p).trans (h.keys p)
  · intro a b i hextra h
    obtain ⟨hresult, hstore⟩ := decryptFrame_agree P h.store i.data
    refine ⟨?_, hstore, ?_⟩
    · simp only [Answers.step, hextra, h.results, hresult]
    · intro p
      exact (decryptFrame_keyOf P a.store i.data p).trans (h.keys p)

end PilotProtocol.Envelope
