import Mathlib.Data.List.Nodup
import PilotProtocol.Library.Run

/-! # Tasks on a shared state

A pool is a state and the program points of the tasks that run on it; a turn lets
one task run its next section. What the sections of one task need and what the
sections of the others leave alone is shown task by task, and the rules below turn
it into invariants of every interleaving.
-/

namespace PilotProtocol.Library

structure Pool (σ τ : Type*) where
  shared : σ
  tasks : List τ

namespace Pool

variable {σ τ α β : Type*}

/-- The section of the task at position `turn.1`, with `turn.2` for what it reads from
outside. -/
def step (act : α → σ → τ → σ × τ) (p : Pool σ τ) (turn : Nat × α) : Pool σ τ :=
  match p.tasks[turn.1]? with
  | none => p
  | some task =>
    ⟨(act turn.2 p.shared task).1, p.tasks.set turn.1 (act turn.2 p.shared task).2⟩

theorem step_cases (act : α → σ → τ → σ × τ) (p : Pool σ τ) (turn : Nat × α) :
    step act p turn = p ∨ ∃ before task after, p.tasks = before ++ task :: after ∧
      p.tasks[turn.1]? = some task ∧ step act p turn = ⟨(act turn.2 p.shared task).1,
        before ++ (act turn.2 p.shared task).2 :: after⟩ := by
  unfold step
  cases ht : p.tasks[turn.1]? with
  | none => exact .inl rfl
  | some task =>
    obtain ⟨hlt, hget⟩ := List.getElem?_eq_some_iff.mp ht
    obtain ⟨before, after, hsplit, -, hset⟩ : ∃ before after,
        p.tasks = before ++ p.tasks[turn.1] :: after ∧ before.length = turn.1 ∧
        p.tasks.set turn.1 (act turn.2 p.shared task).2 =
          before ++ (act turn.2 p.shared task).2 :: after := List.exists_of_set hlt
    exact .inr ⟨before, task, after, hget ▸ hsplit, rfl, by simp only [hset]⟩

/-! ## Invariants -/

/-- The state keeps `Inv`, and each task is where `Fits` allows it to be. -/
structure Holds (Inv : σ → Prop) (Fits : σ → τ → Prop) (p : Pool σ τ) : Prop where
  shared : Inv p.shared
  tasks : ∀ task ∈ p.tasks, Fits p.shared task

variable {act : α → σ → τ → σ × τ} {Inv : σ → Prop} {Fits : σ → τ → Prop}

/-- A section keeps the invariant and its own task's condition, and does not disturb the
condition of another task. -/
theorem Holds.step (hown : ∀ a s task, Inv s → Fits s task →
      Inv (act a s task).1 ∧ Fits (act a s task).1 (act a s task).2)
    (hother : ∀ a s task other, Inv s → Fits s task → Fits s other → Fits (act a s task).1 other)
    {p : Pool σ τ} (h : p.Holds Inv Fits) (turn : Nat × α) : (step act p turn).Holds Inv Fits := by
  rcases step_cases act p turn with hsame | ⟨before, task, after, hsplit, -, hstep⟩
  · rwa [hsame]
  · have hfits : Fits p.shared task := h.tasks task (by simp [hsplit])
    obtain ⟨hinv, hnext⟩ := hown turn.2 p.shared task h.shared hfits
    rw [hstep]
    refine ⟨hinv, fun other hin => ?_⟩
    rcases List.mem_append.mp hin with hin | hin
    · exact hother _ _ _ _ h.shared hfits (h.tasks other (by simp [hsplit, hin]))
    · rcases List.mem_cons.mp hin with rfl | hin
      · exact hnext
      · exact hother _ _ _ _ h.shared hfits (h.tasks other (by simp [hsplit, hin]))

/-! ## Accounting -/

variable [BEq β] [LawfulBEq β] {owns : τ → List β} {ledger total : σ → List β}

/-- What the tasks own and what is in the ledger add up to `total`. -/
def Balanced (owns : τ → List β) (ledger total : σ → List β) (p : Pool σ τ) : Prop :=
  ∀ b, (p.tasks.flatMap owns).count b + (ledger p.shared).count b = (total p.shared).count b

omit [LawfulBEq β] in
theorem Balanced.step (hmove : ∀ a s task b, Inv s → Fits s task →
      (owns (act a s task).2).count b + (ledger (act a s task).1).count b + (total s).count b =
        (owns task).count b + (ledger s).count b + (total (act a s task).1).count b)
    {p : Pool σ τ} (hp : p.Holds Inv Fits) (h : p.Balanced owns ledger total) (turn : Nat × α) :
    (step act p turn).Balanced owns ledger total := by
  rcases step_cases act p turn with hsame | ⟨before, task, after, hsplit, -, hstep⟩
  · rwa [hsame]
  · intro b
    have hfits : Fits p.shared task := hp.tasks task (by simp [hsplit])
    have hmoved := hmove turn.2 p.shared task b hp.shared hfits
    have hbefore := h b
    rw [hsplit] at hbefore
    rw [hstep]
    simp only [List.flatMap_append, List.flatMap_cons, List.count_append] at hbefore ⊢
    omega

theorem Balanced.ledger_nodup {p : Pool σ τ} (h : p.Balanced owns ledger total)
    (htotal : (total p.shared).Nodup) : (ledger p.shared).Nodup := by
  rw [List.nodup_iff_count_le_one] at htotal ⊢
  intro b
  have hbalance := h b
  have honce := htotal b
  omega

end Pool

end PilotProtocol.Library
