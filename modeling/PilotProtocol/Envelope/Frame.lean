import PilotProtocol.KeyExchange.Store

/-! # AEAD framing

`decryptFrame` is cut at the locks of the source: look up the key, ask the
replay window without changing it, open the frame, then count a failure, reject
or commit, and after a commit reset the fault counters. The pieces are
definitions of their own, so that overlapping calls run the same code.
-/

namespace PilotProtocol.Envelope

open Library KeyExchange

inductive DecryptErr
  | noKey
  | replay
  | outsideWindow
  | aead
  | tooShort
  deriving DecidableEq

structure DecryptResult where
  plaintext : Option Bytes
  peerNodeID : NodeID
  counter : Nat
  err : Option DecryptErr
  maxRecvNonce : Nat
  deriving DecidableEq

def tunnelMagicSecure : Bytes := [0x50, 0x49, 0x4C, 0x53]

/-! ## Sealing -/

variable (P : Primitives) (c : Crypto)

/-- The frame, and the `Crypto` with its send counter advanced. -/
def encryptWith (localNodeID : NodeID) (c : Crypto) (plaintext : Bytes) : Bytes × Crypto :=
  let counter := (c.nonce + 1) % 2 ^ 64
  let nonce := c.noncePrefix ++ putBE 8 counter
  let sealed := P.aeadSeal c.key nonce plaintext (nodeBytes localNodeID)
  (tunnelMagicSecure ++ nodeBytes localNodeID ++ nonce ++ sealed, { c with nonce := counter })

/-! ## Opening -/

structure SecureFrame where
  peer : NodeID
  nonce : Bytes
  ciphertext : Bytes
  deriving DecidableEq

def minSecureFrame : Nat := 4 + 12 + 16

def parseSecure (data : Bytes) : Option SecureFrame :=
  if data.length < minSecureFrame then none
  else some ⟨readNode data, (data.drop 4).take 12, data.drop 16⟩

def SecureFrame.counter (f : SecureFrame) : Nat := getBE (f.nonce.drop 4)

/-- AEAD opening under the sender's node ID as additional data. -/
def openWith (f : SecureFrame) : Option Bytes :=
  P.aeadOpen c.key f.nonce f.ciphertext (nodeBytes f.peer)

def resetFaults : Crypto :=
  { c with decryptFailCount := 0, outsideWindowCount := 0, replayCount := 0 }

def countFailure : Crypto := { c with decryptFailCount := c.decryptFailCount + 1 }

def isOutside (counter maxN : Nat) : Bool :=
  decide (counter < maxN) && decide (replayWindowSize ≤ maxN - counter)

def countReject (counter maxN : Nat) : Crypto :=
  if isOutside counter maxN then { c with outsideWindowCount := c.outsideWindowCount + 1 }
  else { c with replayCount := c.replayCount + 1 }

def rejectErr (counter maxN : Nat) : DecryptErr :=
  if isOutside counter maxN then .outsideWindow else .replay

def rejectResult (f : SecureFrame) (maxN : Nat) : DecryptResult :=
  ⟨none, f.peer, f.counter, some (rejectErr f.counter maxN), maxN⟩

def aeadResult (f : SecureFrame) (maxN : Nat) : DecryptResult :=
  ⟨none, f.peer, f.counter, some .aead, maxN⟩

def okResult (f : SecureFrame) (plaintext : Bytes) (maxN : Nat) : DecryptResult :=
  ⟨some plaintext, f.peer, f.counter, none, maxN⟩

/-- The part of `DecryptFrame` after the lookup, on the peer's `Crypto`. -/
def decryptWith (f : SecureFrame) : DecryptResult × Crypto :=
  let accept := c.wouldAcceptNonce f.counter
  let maxN := c.maxRecvNonce
  match openWith P c f with
  | none => (aeadResult f maxN, countFailure c)
  | some plaintext =>
    if accept then
      let (committed, c') := c.checkAndRecordNonce f.counter
      let maxN' := c'.maxRecvNonce
      if committed then (okResult f plaintext maxN', resetFaults c')
      else (rejectResult f maxN', countReject c' f.counter maxN')
    else (rejectResult f maxN, countReject c f.counter maxN)

def tooShortResult : DecryptResult := ⟨none, 0, 0, some .tooShort, 0⟩

def noKeyResult (f : SecureFrame) : DecryptResult := ⟨none, f.peer, 0, some .noKey, 0⟩

/-- The failure statistics after a frame was opened under `c`. -/
def noteOpen (s : Store) (c : Crypto) (f : SecureFrame) : Store :=
  if (openWith P c f).isNone then { s with encryptFail := s.encryptFail + 1 } else s

def decryptFrame (s : Store) (data : Bytes) : DecryptResult × Store :=
  match parseSecure data with
  | none => (tooShortResult, s)
  | some f =>
    match s.getReady f.peer with
    | none => (noKeyResult f, s)
    | some c =>
      let (result, c') := decryptWith P c f
      (result, (noteOpen P s c f).install f.peer c')

/-! ## What a call does -/

variable {s : Store} {data : Bytes} (P : Primitives) (c : Crypto) (f : SecureFrame)

theorem decryptFrame_tooShort {P : Primitives} (h : parseSecure data = none) :
    decryptFrame P s data = (tooShortResult, s) := by
  unfold decryptFrame
  rw [h]

theorem decryptFrame_noKey {P : Primitives} {f : SecureFrame} (h : parseSecure data = some f)
    (hkey : s.getReady f.peer = none) : decryptFrame P s data = (noKeyResult f, s) := by
  unfold decryptFrame
  simp only [h, hkey]

theorem decryptFrame_keyed {P : Primitives} {f : SecureFrame} {c : Crypto}
    (h : parseSecure data = some f) (hkey : s.getReady f.peer = some c) : decryptFrame P s data =
      ((decryptWith P c f).1, (noteOpen P s c f).install f.peer (decryptWith P c f).2) := by
  unfold decryptFrame
  simp only [h, hkey]

theorem noteOpen_localNodeID (s : Store) (c : Crypto) (f : SecureFrame) :
    (noteOpen P s c f).localNodeID = s.localNodeID := by
  unfold noteOpen
  split <;> rfl

@[simp] theorem noteOpen_get (s : Store) (c : Crypto) (f : SecureFrame) (p : NodeID) :
    (noteOpen P s c f).get p = s.get p := by
  unfold noteOpen
  split <;> rfl

/-- The three outcomes on a ready `Crypto`: the frame does not open; it opens and its
counter is new; it opens and its counter is rejected. -/
theorem decryptWith_cases :
    (openWith P c f = none ∧ decryptWith P c f = (aeadResult f c.maxRecvNonce, countFailure c)) ∨
    (∃ plaintext, openWith P c f = some plaintext ∧ c.wouldAcceptNonce f.counter = true ∧
      decryptWith P c f = (okResult f plaintext (c.checkAndRecordNonce f.counter).2.maxRecvNonce,
          resetFaults (c.checkAndRecordNonce f.counter).2)) ∨
    (∃ plaintext, openWith P c f = some plaintext ∧ c.wouldAcceptNonce f.counter = false ∧
      decryptWith P c f =
        (rejectResult f c.maxRecvNonce, countReject c f.counter c.maxRecvNonce)) := by
  unfold decryptWith
  cases hopen : openWith P c f with
  | none => exact .inl ⟨rfl, rfl⟩
  | some plaintext =>
    right
    cases haccept : c.wouldAcceptNonce f.counter with
    | true =>
      have hcommitted : (c.checkAndRecordNonce f.counter).1 = true :=
        (c.checkAndRecordNonce_fst f.counter).trans haccept
      left
      refine ⟨plaintext, rfl, rfl, ?_⟩
      simp only [if_true, hcommitted]
    | false =>
      right
      exact ⟨plaintext, rfl, rfl, by simp⟩

@[simp] theorem countReject_head (counter maxN : Nat) :
    (countReject c counter maxN).head = c.head := by
  unfold countReject
  split <;> rfl

theorem decryptWith_peer : (decryptWith P c f).1.peerNodeID = f.peer := by
  obtain ⟨_, hwith⟩ | ⟨_, _, _, hwith⟩ | ⟨_, _, _, hwith⟩ := decryptWith_cases P c f <;>
    rw [hwith] <;> rfl

theorem decryptWith_head : (decryptWith P c f).2.head = c.head := by
  obtain ⟨_, hwith⟩ | ⟨_, _, _, hwith⟩ | ⟨_, _, _, hwith⟩ := decryptWith_cases P c f
  · rw [hwith]
    rfl
  · rw [hwith]
    exact c.checkAndRecordNonce_head f.counter
  · rw [hwith]
    exact countReject_head c f.counter c.maxRecvNonce

theorem decryptFrame_accepted {P : Primitives} (herr : (decryptFrame P s data).1.err = none) :
    ∃ f c plaintext, parseSecure data = some f ∧ s.get f.peer = some c ∧ c.ready = true ∧
      openWith P c f = some plaintext ∧ c.wouldAcceptNonce f.counter = true ∧
      decryptFrame P s data = (okResult f plaintext (c.checkAndRecordNonce f.counter).2.maxRecvNonce,
        (noteOpen P s c f).install f.peer (resetFaults (c.checkAndRecordNonce f.counter).2)) := by
  cases hparse : parseSecure data with
  | none =>
    rw [decryptFrame_tooShort hparse] at herr
    cases herr
  | some f =>
    cases hready : s.getReady f.peer with
    | none =>
      rw [decryptFrame_noKey hparse hready] at herr
      cases herr
    | some c =>
      obtain ⟨hget, hr⟩ := Store.getReady_eq_some.mp hready
      rw [decryptFrame_keyed hparse hready] at herr ⊢
      obtain ⟨_, hwith⟩ | ⟨plaintext, hopen, haccept, hwith⟩ | ⟨_, _, _, hwith⟩ :=
        decryptWith_cases P c f
      · rw [hwith] at herr
        cases herr
      · refine ⟨f, c, plaintext, rfl, hget, hr, hopen, haccept, ?_⟩
        rw [hwith]
      · rw [hwith] at herr
        cases herr

theorem decryptFrame_localNodeID (s : Store) (data : Bytes) :
    (decryptFrame P s data).2.localNodeID = s.localNodeID := by
  unfold decryptFrame
  split
  · rfl
  · split
    · rfl
    · simp only [Store.install, noteOpen]
      split <;> rfl

theorem decryptFrame_head (s : Store) (data : Bytes) (q : NodeID) :
    ((decryptFrame P s data).2.get q).map Crypto.head = (s.get q).map Crypto.head := by
  cases hparse : parseSecure data with
  | none => rw [decryptFrame_tooShort hparse]
  | some f =>
    cases hready : s.getReady f.peer with
    | none => rw [decryptFrame_noKey hparse hready]
    | some c =>
      have hget : (noteOpen P s c f).get f.peer = some c := by
        rw [noteOpen_get, (Store.getReady_eq_some.mp hready).1]
      rw [decryptFrame_keyed hparse hready]
      refine (Store.install_head hget (decryptWith_head P c f) q).trans ?_
      rw [noteOpen_get]

end PilotProtocol.Envelope
