import PilotProtocol.Library.Run
import PilotProtocol.Library.TokenBucket
import Mathlib.Data.List.Count
import Mathlib.Logic.Function.Basic

/-! # Limiters that refill in whole tokens

A limiter keeps a bucket for each source. A call adds the whole tokens that the time since
the bucket's fill is worth, moves the fill time to the call if there were any, and takes one.
So a part of a token is lost where a whole one is added, and between calls a token is missing
where a part is kept. A table of such buckets may refuse a new source for want of room and may
drop buckets that a call would fill up; neither lets more through, and dropping changes no
answer.
-/

namespace PilotProtocol.Library

/-- `rate` tokens in `unit` ticks of the clock, with at most `cap` saved up. -/
structure RateLimit where
  cap : Nat
  rate : Nat
  unit : Nat
  cap_pos : 0 < cap
  unit_pos : 0 < unit

namespace RateLimit

variable (L : RateLimit)

def gained (elapsed : Nat) : Nat := elapsed * L.rate / L.unit

def refill (b : TokenBucket) (now : Nat) : TokenBucket :=
  if 0 < L.gained (now - b.fill) then ⟨min (b.tokens + L.gained (now - b.fill)) L.cap, now⟩ else b

def take (b : TokenBucket) (now : Nat) : Bool × TokenBucket :=
  let filled := L.refill b now
  if 0 < filled.tokens then (true, { filled with tokens := filled.tokens - 1 }) else (false, filled)

def call : Option TokenBucket → Nat → Bool × TokenBucket
  | none, now => (true, ⟨L.cap - 1, now⟩)
  | some b, now => L.take b now

structure Held (b : TokenBucket) (now : Nat) : Prop where
  below : b.tokens < L.cap
  past : b.fill ≤ now

def Stale (b : TokenBucket) (now : Nat) : Prop := L.cap ≤ L.gained (now - b.fill)

/-- What a source can get until `stop`. -/
def credit (stop now : Nat) : Option TokenBucket → Nat
  | none => L.cap + L.gained (stop - now)
  | some b => b.tokens + L.gained (stop - b.fill)

/-- What may happen to a source's bucket, and the answer if the source has called. -/
inductive Moved (now : Nat) : Option TokenBucket → Option Bool → Option TokenBucket → Prop
  | kept (slot : Option TokenBucket) : Moved now slot none slot
  | dropped (b : TokenBucket) (h : L.Stale b now) : Moved now (some b) none none
  | answered (slot : Option TokenBucket) :
    Moved now slot (some (L.call slot now).1) (some (L.call slot now).2)
  | refused : Moved now none (some false) none

variable {L} {b : TokenBucket} {slot slot' : Option TokenBucket} {answer : Option Bool} {now stop : Nat}

theorem gained_mono {e e' : Nat} (h : e ≤ e') : L.gained e ≤ L.gained e' :=
  Nat.div_le_div_right (Nat.mul_le_mul_right _ h)

theorem gained_add_le (hfill : b.fill ≤ now) (hstop : now ≤ stop) :
    L.gained (now - b.fill) + L.gained (stop - now) ≤ L.gained (stop - b.fill) := by
  have hsplit : stop - b.fill = now - b.fill + (stop - now) := by omega
  rw [hsplit]
  unfold gained
  rw [Nat.add_mul]
  exact Nat.div_add_div_le_add_div

theorem gained_le_of_part (h : L.gained (now - b.fill) = 0) (stop : Nat) :
    L.gained (stop - b.fill) ≤ L.gained (stop - now) + 1 := by
  unfold gained at h ⊢
  have hpart := (Nat.div_eq_zero_iff.mp h).resolve_left L.unit_pos.ne'
  have hsplit : stop - b.fill ≤ stop - now + (now - b.fill) := by omega
  have hscaled := Nat.mul_le_mul_right L.rate hsplit
  rw [Nat.add_mul] at hscaled
  rw [← Nat.add_div_right _ L.unit_pos]
  apply Nat.div_le_div_right
  omega

theorem refill_cases (L : RateLimit) (b : TokenBucket) (now : Nat) :
    L.refill b now = ⟨min (b.tokens + L.gained (now - b.fill)) L.cap, now⟩ ∨
    (L.gained (now - b.fill) = 0 ∧ L.refill b now = b) := by
  unfold refill
  split
  next => exact .inl rfl
  next h => exact .inr ⟨Nat.eq_zero_of_not_pos h, rfl⟩

theorem refill_bounds (h : L.Held b now) :
    (L.refill b now).tokens ≤ L.cap ∧ (L.refill b now).fill ≤ now := by
  rcases refill_cases L b now with heq | ⟨-, heq⟩
  · rw [heq]
    exact ⟨Nat.min_le_right _ _, le_rfl⟩
  · rw [heq]
    exact ⟨h.below.le, h.past⟩

/-- A call costs the source what it gets. -/
theorem credit_take (b : TokenBucket) (now stop : Nat) :
    (L.take b now).1.toNat + L.credit stop now (some (L.take b now).2) =
      L.credit stop now (some (L.refill b now)) := by
  unfold take
  dsimp only
  split
  · simp only [credit, Bool.toNat_true]
    omega
  · simp [credit]

section

variable (h : ∀ b, slot = some b → L.Held b now)
include h

theorem credit_call_le (hstop : now ≤ stop) :
    (L.call slot now).1.toNat + L.credit stop now (some (L.call slot now).2) ≤
      L.credit stop now slot := by
  cases slot with
  | none =>
    have hcap := L.cap_pos
    simp only [call, credit, Bool.toNat_true]
    omega
  | some b =>
    simp only [call, credit_take]
    rcases refill_cases L b now with heq | ⟨-, heq⟩
    · have hsum := gained_add_le (L := L) (h b rfl).past hstop
      simp only [heq, credit]
      omega
    · rw [heq]

/-- Whatever a source has saved, a call leaves it no more than a full bucket does. -/
theorem credit_call_le_full (stop : Nat) :
    (L.call slot now).1.toNat + L.credit stop now (some (L.call slot now).2) ≤
      L.cap + L.gained (stop - now) := by
  cases slot with
  | none =>
    have hcap := L.cap_pos
    simp only [call, credit, Bool.toNat_true]
    omega
  | some b =>
    simp only [call, credit_take]
    rcases refill_cases L b now with heq | ⟨hpart, heq⟩
    · simp only [heq, credit]
      omega
    · have hbelow := (h b rfl).below
      have hone := gained_le_of_part hpart stop
      simp only [heq, credit]
      omega

theorem call_held : L.Held (L.call slot now).2 now := by
  have hcap := L.cap_pos
  cases slot with
  | none => exact ⟨Nat.sub_lt hcap Nat.one_pos, le_rfl⟩
  | some b =>
    obtain ⟨htokens, hfill⟩ := refill_bounds (h b rfl)
    simp only [call, take]
    split
    all_goals
      refine ⟨?_, hfill⟩
      dsimp only
      omega

end

theorem call_stale (hstale : L.Stale b now) : L.call (some b) now = L.call none now := by
  have hcap := L.cap_pos
  unfold Stale at hstale
  have hfull : L.refill b now = ⟨L.cap, now⟩ := by
    unfold refill
    rw [if_pos (by omega), min_eq_right (by omega)]
  simp only [call, take, hfull, if_pos hcap]

namespace Moved

section

variable (h : ∀ b, slot = some b → L.Held b now) (hmoved : L.Moved now slot answer slot')
include h hmoved

theorem held : ∀ b, slot' = some b → L.Held b now := by
  cases hmoved with
  | kept => exact h
  | dropped | refused => exact nofun
  | answered =>
    intro b hb
    cases hb
    exact call_held h

theorem credit_le (hstop : now ≤ stop) :
    (answer.getD false).toNat + L.credit stop now slot' ≤ L.credit stop now slot := by
  cases hmoved with
  | kept | refused => simp
  | answered => exact credit_call_le h hstop
  | dropped b hstale =>
    have hsum := gained_add_le (L := L) (h b rfl).past hstop
    unfold Stale at hstale
    simp only [credit, Option.getD_none, Bool.toNat_false]
    omega

theorem credit_le_full (hanswer : answer = some true) (stop : Nat) :
    1 + L.credit stop now slot' ≤ L.cap + L.gained (stop - now) := by
  cases hmoved with
  | kept | dropped | refused => cases hanswer
  | answered =>
    have hle := credit_call_le_full h stop
    rwa [Option.some.inj hanswer] at hle

end

end Moved

end RateLimit

/-! ## Tables of buckets -/

structure Limiter (σ A K : Type*) where
  source : A → K
  bucket : σ → K → Option TokenBucket
  call : σ → A → Nat → Bool × σ
  prune : σ → Nat → σ

namespace Limiter

variable {σ A K : Type*} [DecidableEq K]

/-- A call concerns the bucket of its source; other buckets are kept, or dropped when they are
stale. -/
structure Limits (I : Limiter σ A K) (L : RateLimit) : Prop where
  call : ∀ s a now k, L.Moved now (I.bucket s k)
    (if I.source a = k then some (I.call s a now).1 else none) (I.bucket (I.call s a now).2 k)
  prune : ∀ s now k, L.Moved now (I.bucket s k) none (I.bucket (I.prune s now) k)

inductive Input (A : Type*)
  | advance (d : Nat)
  | call (a : A)
  | prune

/-- A limiter with its clock and the calls it has answered. -/
structure Metered (σ A : Type*) where
  limiter : σ
  now : Nat
  log : List (A × Nat × Bool)

def step (I : Limiter σ A K) (m : Metered σ A) : Input A → Metered σ A
  | .advance d => { m with now := m.now + d }
  | .call a =>
    let (answer, limiter) := I.call m.limiter a m.now
    { m with limiter, log := (a, m.now, answer) :: m.log }
  | .prune => { m with limiter := I.prune m.limiter m.now }

def run (I : Limiter σ A K) (s : σ) (began : Nat) (inputs : List (Input A)) : Metered σ A :=
  inputs.foldl (step I) ⟨s, began, []⟩

/-- The calls of `k` admitted from `start` to `stop`, both included. -/
def admitted (I : Limiter σ A K) (k : K) (start stop : Nat) (m : Metered σ A) : Nat :=
  m.log.countP fun c => decide (I.source c.1 = k ∧ start ≤ c.2.1 ∧ c.2.1 ≤ stop) && c.2.2

/-- The step is not a call that is refused because its source has no bucket. -/
def HasRoom (I : Limiter σ A K) (m : Metered σ A) : Input A → Prop
  | .call a => I.bucket m.limiter (I.source a) = none → (I.call m.limiter a m.now).1 = true
  | _ => True

instance instDecidableHasRoom (I : Limiter σ A K) (m : Metered σ A) (i : Input A) :
    Decidable (I.HasRoom m i) := by
  cases i <;> dsimp only [HasRoom] <;> infer_instance

variable {I : Limiter σ A K} {L : RateLimit} {m : Metered σ A} {k : K} {start : Nat}

/-- The time passes, or the source's bucket moves and its answer is logged. -/
theorem step_cases (hI : I.Limits L) (m : Metered σ A) (i : Input A) (k : K) (start stop : Nat) :
    (I.bucket (I.step m i).limiter k = I.bucket m.limiter k ∧ m.now ≤ (I.step m i).now ∧
      I.admitted k start stop (I.step m i) = I.admitted k start stop m) ∨
    ∃ answer, L.Moved m.now (I.bucket m.limiter k) answer (I.bucket (I.step m i).limiter k) ∧
      (I.step m i).now = m.now ∧ I.admitted k start stop (I.step m i) = I.admitted k start stop m +
        if start ≤ m.now ∧ m.now ≤ stop then (answer.getD false).toNat else 0 := by
  cases i with
  | advance d => exact .inl ⟨rfl, Nat.le_add_right _ _, rfl⟩
  | prune => exact .inr ⟨none, hI.prune _ _ _, rfl, by simp [admitted, step]⟩
  | call a =>
    refine .inr ⟨_, hI.call m.limiter a m.now k, rfl, ?_⟩
    simp only [admitted, step, List.countP_cons]
    by_cases hk : I.source a = k
    · cases (I.call m.limiter a m.now).1 <;> simp [hk]
    · simp [hk]

/-! ### The rate is kept -/

def Sound (I : Limiter σ A K) (L : RateLimit) (m : Metered σ A) : Prop :=
  ∀ k b, I.bucket m.limiter k = some b → L.Held b m.now

theorem step_sound (hI : I.Limits L) (h : I.Sound L m) (i : Input A) : I.Sound L (I.step m i) := by
  intro k b hb
  rcases step_cases hI m i k 0 0 with ⟨hslot, hnow, -⟩ | ⟨_, hmoved, hnow, -⟩
  · have hheld := h k b (hslot ▸ hb)
    exact ⟨hheld.below, hheld.past.trans hnow⟩
  · rw [hnow]
    exact hmoved.held (h k) b hb

/-- Once a call of the stretch is admitted, the rest of the bound covers what the source can
still get in it. -/
structure Bounded (I : Limiter σ A K) (L : RateLimit) (k : K) (start T : Nat) (m : Metered σ A) :
    Prop where
  sound : I.Sound L m
  count : I.admitted k start (start + T) m ≤ L.cap + L.gained T
  covered : m.now ≤ start + T → I.admitted k start (start + T) m = 0 ∨
    I.admitted k start (start + T) m + L.credit (start + T) m.now (I.bucket m.limiter k) ≤
      L.cap + L.gained T

theorem credit_anti (slot : Option TokenBucket) (stop : Nat) {now later : Nat} (h : now ≤ later) :
    L.credit stop later slot ≤ L.credit stop now slot := by
  cases slot with
  | none => exact Nat.add_le_add_left (RateLimit.gained_mono (Nat.sub_le_sub_left h _)) _
  | some b => exact le_rfl

theorem step_bounded {T : Nat} (hI : I.Limits L) (h : I.Bounded L k start T m) (i : Input A) :
    I.Bounded L k start T (I.step m i) := by
  have hsound := step_sound hI h.sound i
  rcases step_cases hI m i k start (start + T) with
    ⟨hslot, hnow, hcount⟩ | ⟨answer, hmoved, hnow, hcount⟩
  · refine ⟨hsound, hcount ▸ h.count, fun hstop => ?_⟩
    rw [hcount, hslot]
    have hcredit := credit_anti (L := L) (I.bucket m.limiter k) (start + T) hnow
    rcases h.covered (hnow.trans hstop) with hzero | hle
    · exact .inl hzero
    · exact .inr (by omega)
  · have hcovered : m.now ≤ start + T → I.admitted k start (start + T) (I.step m i) = 0 ∨
        I.admitted k start (start + T) (I.step m i) +
          L.credit (start + T) m.now (I.bucket (I.step m i).limiter k) ≤ L.cap + L.gained T := by
      intro hstop
      have hcredit := hmoved.credit_le (h.sound k) hstop
      rcases h.covered hstop with hzero | hle
      · -- the first call of the stretch that is admitted
        by_cases hfirst : start ≤ m.now ∧ answer = some true
        · have hfull := hmoved.credit_le_full (h.sound k) hfirst.2 (start + T)
          have hrest : L.gained (start + T - m.now) ≤ L.gained T := RateLimit.gained_mono (by omega)
          rw [if_pos ⟨hfirst.1, hstop⟩, hfirst.2] at hcount
          simp only [Option.getD_some, Bool.toNat_true] at hcount
          exact .inr (by omega)
        · refine .inl ?_
          rw [hcount, hzero]
          by_cases hstart : start ≤ m.now
          · have hno : answer.getD false = false := by
              rcases answer with _ | _ | _
              · rfl
              · rfl
              · exact absurd ⟨hstart, rfl⟩ hfirst
            simp [hno]
          · rw [if_neg fun h => hstart h.1]
      · refine .inr ?_
        split at hcount <;> omega
    refine ⟨hsound, ?_, hnow ▸ hcovered⟩
    by_cases hstop : m.now ≤ start + T
    · rcases hcovered hstop with hzero | hle <;> omega
    · rw [if_neg fun h => hstop h.2] at hcount
      exact hcount ▸ h.count

/-- In every stretch at most the cap and what the rate gives in it is admitted of a source, and
no bucket holds more than the cap. -/
theorem run_bounded (hI : I.Limits L) {s : σ} (hempty : ∀ k, I.bucket s k = none) (began : Nat)
    (inputs : List (Input A)) (k : K) :
    (∀ b, I.bucket (I.run s began inputs).limiter k = some b → b.tokens ≤ L.cap) ∧
    ∀ start T, I.admitted k start (start + T) (I.run s began inputs) ≤ L.cap + L.gained T := by
  have hbounded (start T : Nat) : I.Bounded L k start T (I.run s began inputs) := by
    refine run_invariant_all (I.Bounded L k start T) (fun _ i h => step_bounded hI h i) inputs ?_
    refine ⟨fun k b hb => ?_, Nat.zero_le _, fun _ => .inl rfl⟩
    simp [show I.bucket _ k = none from hempty k] at hb
  exact ⟨fun b hb => ((hbounded 0 0).sound k b hb).below.le, fun start T => (hbounded start T).count⟩

/-! ### Dropping stale buckets changes no answer -/

/-- The bucket of the unbounded limiter is the table's, or the table dropped it when stale. -/
def SameSlot (L : RateLimit) (now : Nat) (slot slot' : Option TokenBucket) : Prop :=
  slot = slot' ∨ (slot = none ∧ ∃ b, slot' = some b ∧ L.Stale b now)

theorem SameSlot.call {now : Nat} {slot slot' : Option TokenBucket} (h : SameSlot L now slot slot') :
    L.call slot' now = L.call slot now := by
  rcases h with rfl | ⟨rfl, b, rfl, hstale⟩
  · rfl
  · exact RateLimit.call_stale hstale

end Limiter

end PilotProtocol.Library
