import PilotProtocol.Library.BigEndian
import PilotProtocol.Library.Bitmap
import PilotProtocol.Library.SlidingWindow

/-! # Per-peer key state

A `Crypto` is one installed session key with its send counter, its replay
window and its fault counters. The cryptographic functions are parameters; a
key is whatever the derivation yields. Counters are unsigned 64-bit numbers,
times are nanoseconds since the zero time.
-/

namespace PilotProtocol.KeyExchange

open Library

abbrev NodeID := UInt32

def nodeBytes (node : NodeID) : Bytes := putBE 4 node.toNat

def readNode (data : Bytes) : NodeID := UInt32.ofNat (getBE (data.take 4))

@[simp] theorem length_nodeBytes (node : NodeID) : (nodeBytes node).length = 4 := length_putBE 4 _

theorem readNode_nodeBytes (node : NodeID) (rest : Bytes) : readNode (nodeBytes node ++ rest) = node := by
  have htake : (nodeBytes node ++ rest).take 4 = nodeBytes node := by
    rw [← length_nodeBytes node, List.take_left]
  have hlt : node.toNat < 256 ^ 4 := node.toNat_lt
  rw [readNode, htake, nodeBytes, getBE_putBE, Nat.mod_eq_of_lt hlt, UInt32.ofNat_toNat]

structure Primitives where
  /-- AEAD sealing and opening: key, nonce, text, additional data. -/
  aeadSeal : Bytes → Bytes → Bytes → Bytes → Bytes
  aeadOpen : Bytes → Bytes → Bytes → Bytes → Option Bytes
  /-- X25519: the public key of a private one, and the shared secret with a peer's
  public key, `none` for a malformed or low-order key. -/
  x25519Public : Bytes → Bytes
  ecdh : Bytes → Bytes → Option Bytes
  hmacSHA256 : Bytes → Bytes → Bytes
  /-- Ed25519: public key, signature, verification of a message. -/
  ed25519Public : Bytes → Bytes
  sign : Bytes → Bytes → Bytes
  verify : Bytes → Bytes → Bytes → Bool

def second : Nat := 1000000000

def replayWindowSize : Nat := 256
def salvageMaxEntries : Nat := 4
def salvageMaxAge : Nat := 5 * second
def decryptFailDropThreshold : Nat := 5
def outsideWindowDropThreshold : Nat := 5
def outsideWindowDropGrace : Nat := 1 * second
def replayDropThreshold : Nat := 5
def replayDropGrace : Nat := 1 * second
def agedCryptoFastDropAge : Nat := 60 * second
def decryptFailDropGrace : Nat := 3 * second

structure SalvageEntry where
  plaintext : Bytes
  sentAt : Nat
  deriving DecidableEq

structure Crypto where
  /-- The identity of the object: two pointers are equal when their `ref`s are. -/
  ref : Nat
  /-- The AES key behind `AEAD`. -/
  key : Bytes
  nonce : Nat
  noncePrefix : Bytes
  maxRecvNonce : Nat
  replayBitmap : Bitmap 4
  ready : Bool
  authenticated : Bool
  peerX25519Key : Bytes
  decryptFailCount : Nat
  outsideWindowCount : Nat
  replayCount : Nat
  createdAt : Nat
  salvage : List SalvageEntry

/-- What never changes about an installed key. -/
structure CryptoHead where
  ref : Nat
  key : Bytes
  ready : Bool
  authenticated : Bool
  peerX25519Key : Bytes
  createdAt : Nat
  deriving DecidableEq

namespace Crypto

def head (c : Crypto) : CryptoHead :=
  ⟨c.ref, c.key, c.ready, c.authenticated, c.peerX25519Key, c.createdAt⟩

instance : NeZero (64 * 4) := ⟨by decide⟩

/-! ## The replay window -/

def replayBit (counter : Nat) : Fin (64 * 4) := Fin.ofNat (64 * 4) counter

def setReplayBit (c : Crypto) (counter : Nat) : Crypto :=
  { c with replayBitmap := c.replayBitmap.set (replayBit counter) }

/-- Clears the positions that a window moved up to `counter` newly covers. -/
def clearShifted (counter shift : Nat) (bitmap : Bitmap 4) : Bitmap 4 :=
  (List.range shift).foldl (fun b s => b.clear (replayBit (counter - s))) bitmap

def checkAndRecordNonce (c : Crypto) (counter : Nat) : Bool × Crypto :=
  if c.maxRecvNonce = 0 then
    (true, { c with maxRecvNonce := counter }.setReplayBit counter)
  else if c.maxRecvNonce < counter then
    let shift := counter - c.maxRecvNonce
    let bitmap := if replayWindowSize ≤ shift then Bitmap.empty
      else clearShifted counter shift c.replayBitmap
    (true, { c with maxRecvNonce := counter, replayBitmap := bitmap }.setReplayBit counter)
  else if replayWindowSize ≤ c.maxRecvNonce - counter then (false, c)
  else if c.replayBitmap.has (replayBit counter) then (false, c)
  else (true, c.setReplayBit counter)

def wouldAcceptNonce (c : Crypto) (counter : Nat) : Bool :=
  if c.maxRecvNonce = 0 then true
  else if c.maxRecvNonce < counter then true
  else if replayWindowSize ≤ c.maxRecvNonce - counter then false
  else !c.replayBitmap.has (replayBit counter)

def window (c : Crypto) : Window (64 * 4) := ⟨c.maxRecvNonce, c.replayBitmap.has⟩

theorem has_clearShifted (counter shift : Nat) (bitmap : Bitmap 4) (i : Fin (64 * 4)) :
    (clearShifted counter shift bitmap).has i =
      (!(List.range shift).any (fun s => replayBit (counter - s) == i) && bitmap.has i) := by
  unfold clearShifted
  induction List.range shift generalizing bitmap with
  | nil => simp
  | cons s rest ih =>
    rw [List.foldl_cons, ih, Bitmap.has_clear, List.any_cons]
    by_cases h : i = replayBit (counter - s)
    · subst h
      simp
    · have hne : (replayBit (counter - s) == i) = false := beq_false_of_ne (Ne.symm h)
      rw [decide_eq_false h, hne]
      simp

theorem checkAndRecordNonce_fst (c : Crypto) (counter : Nat) :
    (c.checkAndRecordNonce counter).1 = c.wouldAcceptNonce counter := by
  unfold checkAndRecordNonce wouldAcceptNonce
  split
  · rfl
  split
  · rfl
  split
  · rfl
  split
  next h => rw [h, Bool.not_true]
  next h => rw [Bool.eq_false_iff.mpr h, Bool.not_false]

theorem checkAndRecordNonce_head (c : Crypto) (counter : Nat) :
    (c.checkAndRecordNonce counter).2.head = c.head := by
  unfold checkAndRecordNonce
  split
  · rfl
  split
  · rfl
  split
  · rfl
  split <;> rfl

theorem window_checkAndRecordNonce {c : Crypto} {counter : Nat}
    (h : c.wouldAcceptNonce counter = true) :
    (c.checkAndRecordNonce counter).2.window = c.window.record counter := by
  unfold wouldAcceptNonce at h
  unfold checkAndRecordNonce Window.record
  by_cases hmax : c.maxRecvNonce = 0
  · have hmax' : c.window.max = 0 := hmax
    rw [if_pos hmax, if_pos hmax']
    refine Window.ext rfl (funext fun i => ?_)
    exact Bitmap.has_set _ _ _
  have hmax' : ¬ c.window.max = 0 := hmax
  rw [if_neg hmax, if_neg hmax']
  rw [if_neg hmax] at h
  by_cases hgt : c.maxRecvNonce < counter
  · have hgt' : c.window.max < counter := hgt
    rw [if_pos hgt, if_pos hgt']
    refine Window.ext rfl (funext fun i => (Bitmap.has_set _ _ _).trans ?_)
    congr 1
    by_cases hfar : replayWindowSize ≤ counter - c.maxRecvNonce
    · have hfar' : 64 * 4 ≤ counter - c.window.max := hfar
      rw [decide_eq_true hfar', Bool.true_or, Bool.not_true, Bool.false_and, if_pos hfar]
      exact Bitmap.has_empty i
    · have hfar' : ¬ 64 * 4 ≤ counter - c.window.max := hfar
      rw [decide_eq_false hfar', Bool.false_or, if_neg hfar]
      exact has_clearShifted _ _ _ i
  · have hgt' : ¬ c.window.max < counter := hgt
    rw [if_neg hgt] at h
    rw [if_neg hgt, if_neg hgt']
    by_cases hold : replayWindowSize ≤ c.maxRecvNonce - counter
    · simp [if_pos hold] at h
    · rw [if_neg hold, Bool.not_eq_true'] at h
      rw [if_neg hold, if_neg (Bool.eq_false_iff.mp h)]
      refine Window.ext rfl (funext fun i => ?_)
      exact Bitmap.has_set _ _ _

end Crypto

end PilotProtocol.KeyExchange
