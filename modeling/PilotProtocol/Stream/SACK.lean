import Mathlib.Data.List.Sort
import PilotProtocol.Stream.Reassembly

/-! # Selective acknowledgement

The receiver describes its reorder buffer by at most four blocks, which travel in the
payload of an ACK packet behind a magic word. Nothing but these bytes tells such a
payload from user data.
-/

namespace PilotProtocol.Stream

open Library

def sackMagic : Bytes := [83, 65, 67, 75]

def maxSACKBlocks : Nat := 4

def putSACKBlock (b : SACKBlock) : Bytes := putBE 4 b.left.toNat ++ putBE 4 b.right.toNat

def encodeSACK (blocks : List SACKBlock) : Bytes :=
  if blocks.isEmpty then []
  else
    let n := min blocks.length maxSACKBlocks
    sackMagic ++ UInt8.ofNat n :: (blocks.take n).flatMap putSACKBlock

def uint32At (data : Bytes) (off : Nat) : UInt32 := UInt32.ofNat (getBE ((data.drop off).take 4))

/-- The `n` blocks that `data` starts with. -/
def getSACKBlocks (data : Bytes) (n : Nat) : List SACKBlock :=
  (List.range n).map fun i => ⟨uint32At data (i * 8), uint32At data (i * 8 + 4)⟩

/-- `none` if the payload is not SACK data. -/
def decodeSACK (data : Bytes) : Option (List SACKBlock) :=
  if data.length < 5 ∨ data.take 4 ≠ sackMagic then none
  else
    let n := (data.getD 4 0).toNat
    if n = 0 ∨ maxSACKBlocks < n ∨ data.length < 5 + n * 8 then none
    else some (getSACKBlocks (data.drop 5) n)

namespace Receiver

/-- Extends the current block while segments continue or overlap it, and starts a new one
at a gap. -/
def mergeBlocks (cur : SACKBlock) : List RecvSegment → List SACKBlock
  | [] => [cur]
  | seg :: rest =>
    if seqAfterOrEqual cur.right seg.seq then
      mergeBlocks (if seqAfter seg.endSeq cur.right then { cur with right := seg.endSeq } else cur)
        rest
    else cur :: mergeBlocks ⟨seg.seq, seg.endSeq⟩ rest

def notAfter (a b : RecvSegment) : Prop := seqAfter a.seq b.seq = false

instance : DecidableRel notAfter := fun a b => inferInstanceAs (Decidable (seqAfter a.seq b.seq = false))

/-- The blocks of the reorder buffer, at most the four highest. -/
def sackBlocks (r : Receiver) : List SACKBlock :=
  match r.oooBuf.insertionSort notAfter with
  | [] => []
  | first :: rest =>
    let blocks := mergeBlocks ⟨first.seq, first.endSeq⟩ rest
    blocks.drop (blocks.length - maxSACKBlocks)

end Receiver

/-! ## The encoding -/

@[simp] theorem length_putSACKBlock (b : SACKBlock) : (putSACKBlock b).length = 8 := by
  simp [putSACKBlock]

theorem ofNat_getBE_putBE (x : UInt32) : UInt32.ofNat (getBE (putBE 4 x.toNat)) = x := by
  have hlt := x.toNat_lt
  rw [getBE_putBE, Nat.mod_eq_of_lt (by omega), UInt32.ofNat_toNat]

theorem uint32At_append_left {front rest : Bytes} (off : Nat) :
    uint32At (front ++ rest) (front.length + off) = uint32At rest off := by
  rw [uint32At, List.drop_length_add_append, uint32At]

theorem uint32At_left (b : SACKBlock) (rest : Bytes) :
    uint32At (putSACKBlock b ++ rest) 0 = b.left := by
  rw [uint32At, List.drop_zero, putSACKBlock, List.append_assoc, List.take_left' (by simp),
    ofNat_getBE_putBE]

theorem uint32At_right (b : SACKBlock) (rest : Bytes) :
    uint32At (putSACKBlock b ++ rest) 4 = b.right := by
  rw [uint32At, putSACKBlock, List.append_assoc, List.drop_left' (by simp),
    List.take_left' (by simp), ofNat_getBE_putBE]

theorem getSACKBlocks_flatMap (blocks : List SACKBlock) :
    getSACKBlocks (blocks.flatMap putSACKBlock) blocks.length = blocks := by
  induction blocks with
  | nil => rfl
  | cons b rest ih =>
    have hshift : ∀ off, uint32At (putSACKBlock b ++ rest.flatMap putSACKBlock) (8 + off) =
        uint32At (rest.flatMap putSACKBlock) off := by
      intro off
      exact uint32At_append_left off
    rw [List.flatMap_cons, getSACKBlocks, List.length_cons, List.range_succ_eq_map, List.map_cons,
      List.map_map]
    congr 1
    · rw [Nat.zero_mul, Nat.zero_add, uint32At_left, uint32At_right]
    · refine Eq.trans (List.map_congr_left fun i _ => ?_) ih
      simp only [Function.comp_apply, Nat.succ_eq_add_one, Nat.add_mul, Nat.one_mul]
      rw [Nat.add_comm (i * 8) 8, hshift, Nat.add_assoc, hshift]

theorem decodeSACK_encodeSACK {blocks : List SACKBlock} (hne : blocks ≠ [])
    (hlen : blocks.length ≤ maxSACKBlocks) : decodeSACK (encodeSACK blocks) = some blocks := by
  have hpos : 0 < blocks.length := List.length_pos_of_ne_nil hne
  have hmax : maxSACKBlocks = 4 := rfl
  have hcount : (UInt8.ofNat blocks.length).toNat = blocks.length := by
    exact Nat.mod_eq_of_lt (by omega)
  have hbytes : (blocks.flatMap putSACKBlock).length = blocks.length * 8 := by
    simp [List.length_flatMap]
  have henc : encodeSACK blocks =
      sackMagic ++ UInt8.ofNat blocks.length :: blocks.flatMap putSACKBlock := by
    simp only [encodeSACK, List.isEmpty_iff, if_neg hne, Nat.min_eq_left hlen, List.take_length]
  have hlength : (encodeSACK blocks).length = 5 + blocks.length * 8 := by
    rw [henc, List.length_append, List.length_cons, hbytes]
    simp only [sackMagic, List.length_cons, List.length_nil]
    omega
  have hmagic : (encodeSACK blocks).take 4 = sackMagic := by
    rw [henc]
    exact List.take_left' rfl
  have hbyte : (encodeSACK blocks).getD 4 0 = UInt8.ofNat blocks.length := by
    rw [henc]
    rfl
  have hdrop : (encodeSACK blocks).drop 5 = blocks.flatMap putSACKBlock := by
    rw [henc]
    rfl
  rw [decodeSACK, if_neg (by rw [hlength, hmagic]; simp)]
  simp only [hbyte, hcount, hlength, hdrop]
  rw [if_neg (by omega), getSACKBlocks_flatMap]

end PilotProtocol.Stream
