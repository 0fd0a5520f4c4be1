import Mathlib.Order.Lattice
import Mathlib.Order.MinMax
import Mathlib.Data.List.Pairwise

/-! # Merging half-open intervals

`merge` walks intervals that are sorted by their left ends and joins each one to the current
interval if the two overlap or abut. What comes out lies apart and covers the same points.
-/

namespace PilotProtocol.Library.Intervals

variable {α : Type} [LinearOrder α] {cur : α × α} {intervals : List (α × α)} {x : α}

/-- Joins to the current interval what touches it, and starts a new one at a gap. -/
def merge (cur : α × α) : List (α × α) → List (α × α)
  | [] => [cur]
  | next :: rest =>
    if next.1 ≤ cur.2 then merge (cur.1, max cur.2 next.2) rest else cur :: merge next rest

def Covered (intervals : List (α × α)) (x : α) : Prop := ∃ i ∈ intervals, i.1 ≤ x ∧ x < i.2

@[simp] theorem covered_cons (i : α × α) :
    Covered (i :: intervals) x ↔ (i.1 ≤ x ∧ x < i.2) ∨ Covered intervals x := by
  simp [Covered]

theorem covered_map {β : Type} (range : β → α × α) (items : List β) :
    Covered (items.map range) x ↔ ∃ b ∈ items, (range b).1 ≤ x ∧ x < (range b).2 := by
  simp [Covered]

theorem le_left_of_mem_merge {lo : α} (hcur : lo ≤ cur.1) (hall : ∀ i ∈ intervals, lo ≤ i.1) :
    ∀ i ∈ merge cur intervals, lo ≤ i.1 := by
  induction intervals generalizing cur with
  | nil => simpa [merge] using hcur
  | cons next rest ih =>
    have hrest : ∀ i ∈ rest, lo ≤ i.1 := fun i hi => hall i (.tail _ hi)
    unfold merge
    split
    · exact ih hcur hrest
    · intro i hi
      rcases List.mem_cons.mp hi with rfl | hi
      · exact hcur
      · exact ih (hall next (.head _)) hrest i hi

theorem left_lt_right_of_mem_merge (hcur : cur.1 < cur.2) (hall : ∀ i ∈ intervals, i.1 < i.2) :
    ∀ i ∈ merge cur intervals, i.1 < i.2 := by
  induction intervals generalizing cur with
  | nil => simpa [merge] using hcur
  | cons next rest ih =>
    have hrest : ∀ i ∈ rest, i.1 < i.2 := fun i hi => hall i (.tail _ hi)
    unfold merge
    split
    · exact ih (lt_of_lt_of_le hcur (le_max_left _ _)) hrest
    · intro i hi
      rcases List.mem_cons.mp hi with rfl | hi
      · exact hcur
      · exact ih (hall next (.head _)) hrest i hi

theorem merge_apart (hsorted : intervals.Pairwise fun i j => i.1 ≤ j.1) :
    (merge cur intervals).Pairwise fun i j => i.2 < j.1 := by
  induction intervals generalizing cur with
  | nil => exact List.pairwise_singleton _ _
  | cons next rest ih =>
    obtain ⟨hfirst, hrest⟩ := List.pairwise_cons.mp hsorted
    unfold merge
    split
    · exact ih hrest
    next hgap =>
      rw [List.pairwise_cons]
      refine ⟨fun j hj => ?_, ih hrest⟩
      exact lt_of_lt_of_le (not_le.mp hgap) (le_left_of_mem_merge (le_refl next.1) hfirst j hj)

theorem join_iff {next : α × α} (hle : cur.1 ≤ next.1) (htouch : next.1 ≤ cur.2) :
    cur.1 ≤ x ∧ x < max cur.2 next.2 ↔ (cur.1 ≤ x ∧ x < cur.2) ∨ (next.1 ≤ x ∧ x < next.2) := by
  rw [lt_max_iff]
  constructor
  · rintro ⟨hlo, hcur | hnext⟩
    · exact .inl ⟨hlo, hcur⟩
    · rcases lt_or_ge x cur.2 with hin | hout
      · exact .inl ⟨hlo, hin⟩
      · exact .inr ⟨htouch.trans hout, hnext⟩
  · rintro (⟨hlo, hcur⟩ | ⟨hlo, hnext⟩)
    · exact ⟨hlo, .inl hcur⟩
    · exact ⟨hle.trans hlo, .inr hnext⟩

theorem covered_merge (hcur : ∀ i ∈ intervals, cur.1 ≤ i.1)
    (hsorted : intervals.Pairwise fun i j => i.1 ≤ j.1) :
    Covered (merge cur intervals) x ↔ Covered (cur :: intervals) x := by
  induction intervals generalizing cur with
  | nil => exact Iff.rfl
  | cons next rest ih =>
    obtain ⟨hfirst, hrest⟩ := List.pairwise_cons.mp hsorted
    have hcurrest : ∀ i ∈ rest, cur.1 ≤ i.1 := fun i hi => hcur i (.tail _ hi)
    unfold merge
    split
    next htouch =>
      rw [@ih (cur.1, max cur.2 next.2) hcurrest hrest, covered_cons, covered_cons, covered_cons,
        ← or_assoc]
      exact or_congr_left (join_iff (hcur next (.head _)) htouch)
    next => rw [covered_cons, ih hfirst hrest, covered_cons cur]

end PilotProtocol.Library.Intervals
