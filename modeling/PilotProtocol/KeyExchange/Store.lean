import PilotProtocol.KeyExchange.Crypto
import PilotProtocol.Library.GoMap

/-! # The key-state registry

The store maps node IDs to installed `Crypto`s. A pointer comparison of the
source compares references; an operation on an installed `Crypto` writes it
back under its node ID.
-/

namespace PilotProtocol.KeyExchange

open Library

def maxCryptoPeers : Nat := 16384

structure Store where
  crypto : GoMap NodeID Crypto
  localNodeID : NodeID
  encryptOK : Nat
  encryptFail : Nat

namespace Store

variable (s : Store) (peer : NodeID) (c : Crypto) (now : Nat)

def install : Store := { s with crypto := s.crypto.insert peer c }

def get : Option Crypto := s.crypto.lookup peer

def has : Bool := (s.get peer).isSome

/-- The entry if its handshake is complete: neither nil nor `!Ready`. -/
def getReady : Option Crypto := (s.get peer).filter (·.ready)

def drop : Store := { s with crypto := s.crypto.erase peer }

def isCurrent (ref : Nat) : Bool :=
  match s.get peer with
  | none => false
  | some c => c.ref == ref

def compareAndDrop (expected : Nat) : Bool × Store :=
  if s.isCurrent peer expected then (true, s.drop peer) else (false, s)

def len : Nat := GoMap.len s.crypto

/-! ## The drop gates -/

def shouldDropOnDecryptFail : Bool :=
  if c.decryptFailCount < decryptFailDropThreshold then false
  else if now - c.createdAt < decryptFailDropGrace then false
  else s.isCurrent peer c.ref

/-- The gate shared by the two window rejections: below the fast-drop age both a count
and a minimum age are required, above it a single rejection is enough. -/
def shouldDropOnRejections (rejections threshold grace : Nat) (s : Store) (peer : NodeID)
    (c : Crypto) (now : Nat) : Bool :=
  if rejections = 0 then false
  else if now - c.createdAt < agedCryptoFastDropAge ∧
      (rejections < threshold ∨ now - c.createdAt < grace) then false
  else s.isCurrent peer c.ref

def shouldDropOnOutsideWindow : Bool :=
  shouldDropOnRejections c.outsideWindowCount outsideWindowDropThreshold outsideWindowDropGrace
    s peer c now

def shouldDropOnReplay : Bool :=
  shouldDropOnRejections c.replayCount replayDropThreshold replayDropGrace s peer c now

/-! ## The salvage ring -/

/-- Trims aged entries from the head, keeps the ring below its bound, appends. -/
def recordSalvage (plaintext : Bytes) (now : Nat) : Crypto :=
  let live := c.salvage.dropWhile fun e => decide (e.sentAt + salvageMaxAge < now)
  let room := if salvageMaxEntries ≤ live.length then live.drop 1 else live
  { c with salvage := room ++ [⟨plaintext, now⟩] }

def liveSalvage : List SalvageEntry :=
  c.salvage.filter fun e => !decide (e.sentAt + salvageMaxAge < now)

/-! ## Lookups after an operation -/

theorem get_install (s : Store) (peer q : NodeID) (c : Crypto) :
    (s.install peer c).get q = if q = peer then some c else s.get q :=
  GoMap.lookup_insert_ite s.crypto peer q c

theorem install_head {s : Store} {peer : NodeID} {c d : Crypto} (hs : s.get peer = some c)
    (hd : d.head = c.head) (q : NodeID) :
    ((s.install peer d).get q).map Crypto.head = (s.get q).map Crypto.head := by
  rw [get_install]
  by_cases hq : q = peer
  · subst hq
    rw [if_pos rfl, hs, Option.map_some, Option.map_some, hd]
  · rw [if_neg hq]

theorem getReady_eq_some {s : Store} {peer : NodeID} {c : Crypto} :
    s.getReady peer = some c ↔ s.get peer = some c ∧ c.ready = true :=
  Option.filter_eq_some_iff

theorem get_drop (s : Store) (peer q : NodeID) :
    (s.drop peer).get q = if q = peer then none else s.get q :=
  GoMap.lookup_erase_ite s.crypto peer q

end Store

end PilotProtocol.KeyExchange
