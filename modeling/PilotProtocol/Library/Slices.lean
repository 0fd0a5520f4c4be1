import Mathlib.Data.List.Basic

/-! # Slice expressions

`b[lo:hi]` ends the goroutine if its bounds are not in order or past the end. A bound past
the length counts as past the end here, whatever the capacity behind it.
-/

namespace PilotProtocol.Library

inductive Panic
  | sliceBounds
  deriving DecidableEq

variable {α : Type*}

def slice (l : List α) (lo hi : Nat) : Except Panic (List α) :=
  if lo ≤ hi ∧ hi ≤ l.length then .ok ((l.take hi).drop lo) else .error .sliceBounds

def sliceFrom (l : List α) (lo : Nat) : Except Panic (List α) := slice l lo l.length

theorem slice_ok {l : List α} {lo hi : Nat} (horder : lo ≤ hi) (hend : hi ≤ l.length) :
    slice l lo hi = .ok ((l.take hi).drop lo) := if_pos ⟨horder, hend⟩

theorem slice_error {l : List α} {lo hi : Nat} (horder : hi < lo) :
    slice l lo hi = .error .sliceBounds := if_neg fun h => absurd h.1 (Nat.not_le_of_lt horder)

theorem sliceFrom_ok {l : List α} {lo : Nat} (hend : lo ≤ l.length) :
    sliceFrom l lo = .ok (l.drop lo) := by
  unfold sliceFrom
  rw [slice_ok hend (Nat.le_refl _), List.take_length]

theorem take_drop_middle (lo : Nat) {before middle after : List α} {hi : Nat}
    (hlo : before.length = lo) (hhi : lo + middle.length = hi) :
    ((before ++ middle ++ after).take hi).drop lo = middle := by
  have htake : (before ++ middle ++ after).take hi = before ++ middle := by
    apply List.take_left'
    rw [List.length_append]
    omega
  rw [htake, List.drop_left' hlo]

end PilotProtocol.Library
