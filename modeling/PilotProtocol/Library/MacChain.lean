import Mathlib.Data.List.Induction

/-! # Chained authentication tags

Each tag of a chain is computed from a record and the tag before it. With an
injective tag function the last tag and the number of records fix the records.
-/

namespace PilotProtocol.Library

variable {α τ : Type*}

/-- The tag after all of `records`, the first of them chained to `start`. -/
def chainTag (tag : α → τ → τ) (start : τ) (records : List α) : τ :=
  records.foldl (fun previous record => tag record previous) start

@[simp] theorem chainTag_concat (tag : α → τ → τ) (start : τ) (records : List α) (record : α) :
    chainTag tag start (records ++ [record]) = tag record (chainTag tag start records) := by
  rw [chainTag, List.foldl_append]
  rfl

theorem chainTag_injective {tag : α → τ → τ}
    (hinj : ∀ a b s t, tag a s = tag b t → a = b ∧ s = t) {start : τ} {xs ys : List α}
    (hlength : xs.length = ys.length) (h : chainTag tag start xs = chainTag tag start ys) :
    xs = ys := by
  induction xs using List.reverseRecOn generalizing ys with
  | nil => exact (List.length_eq_zero_iff.mp hlength.symm).symm
  | append_singleton xs x ih =>
    cases ys using List.reverseRecOn with
    | nil => simp at hlength
    | append_singleton ys y =>
      rw [chainTag_concat, chainTag_concat] at h
      obtain ⟨hxy, hbefore⟩ := hinj _ _ _ _ h
      have hshorter : xs.length = ys.length := by
        simpa only [List.length_append, List.length_singleton, Nat.add_right_cancel_iff]
          using hlength
      rw [ih hshorter hbefore, hxy]

end PilotProtocol.Library
