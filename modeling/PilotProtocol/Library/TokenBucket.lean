import Mathlib.Algebra.Order.Ring.Nat
import Mathlib.Data.Nat.Basic

/-! # Token buckets

A bucket gains a token in each period, up to a burst, and is brought up to date only when
it is used. A refill that leaves it below the burst keeps the part of a period that has
passed; one that fills it up starts the period anew. What a bucket can still give until
some time, its credit, is what it holds and what the periods until then add.
-/

namespace PilotProtocol.Library

structure TokenBucket where
  tokens : Nat
  /-- Up to when the tokens have been added. -/
  fill : Nat

namespace TokenBucket

variable {period : Nat} {b : TokenBucket} {now stop : Nat}

def refill (burst period : Nat) (b : TokenBucket) (now : Nat) : TokenBucket :=
  let n := (now - b.fill) / period
  if n = 0 then b
  else if burst ≤ b.tokens + n then ⟨burst, now⟩
  else ⟨b.tokens + n, b.fill + n * period⟩

def credit (period : Nat) (b : TokenBucket) (stop : Nat) : Nat := b.tokens + (stop - b.fill) / period

theorem periods_add (hperiod : 0 < period) (hfill : b.fill ≤ now) (hstop : now ≤ stop) :
    (stop - b.fill) / period = (now - b.fill) / period +
      (stop - (b.fill + (now - b.fill) / period * period)) / period := by
  have hpast := Nat.div_mul_le_self (now - b.fill) period
  have hsplit : stop - b.fill = stop - (b.fill + (now - b.fill) / period * period) +
      (now - b.fill) / period * period := by omega
  rw [hsplit, Nat.add_mul_div_right _ _ hperiod, Nat.add_comm]

theorem refill_cases (burst : Nat) (hperiod : 0 < period) (hfill : b.fill ≤ now) :
    (refill burst period b now = ⟨burst, now⟩ ∧ burst ≤ b.tokens + (now - b.fill) / period) ∨
    (refill burst period b now =
        ⟨b.tokens + (now - b.fill) / period, b.fill + (now - b.fill) / period * period⟩ ∧
      (b.tokens ≤ burst → b.tokens + (now - b.fill) / period ≤ burst) ∧
      b.fill + (now - b.fill) / period * period ≤ now ∧
      now < b.fill + (now - b.fill) / period * period + period) := by
  have hpast := Nat.div_mul_le_self (now - b.fill) period
  have hnext := Nat.lt_div_mul_add hperiod (a := now - b.fill)
  unfold refill
  dsimp only
  split
  next hzero =>
    rw [hzero] at hpast hnext ⊢
    exact .inr ⟨by simp, fun h => h, by omega, by omega⟩
  next =>
    split
    next hfull => exact .inl ⟨rfl, hfull⟩
    next hroom => exact .inr ⟨rfl, fun _ => by omega, by omega, by omega⟩

theorem refill_tokens_le {burst : Nat} (hperiod : 0 < period) (hfill : b.fill ≤ now) (h : b.tokens ≤ burst) :
    (refill burst period b now).tokens ≤ burst := by
  rcases refill_cases burst hperiod hfill with ⟨heq, -⟩ | ⟨heq, hle, -, -⟩
  · rw [heq]
  · rw [heq]
    exact hle h

theorem refill_fill_le (burst : Nat) (hperiod : 0 < period) (hfill : b.fill ≤ now) :
    (refill burst period b now).fill ≤ now := by
  rcases refill_cases burst hperiod hfill with ⟨heq, -⟩ | ⟨heq, -, hle, -⟩
  · rw [heq]
  · rwa [heq]

theorem credit_refill_le (burst : Nat) (hperiod : 0 < period) (hfill : b.fill ≤ now) (hstop : now ≤ stop) :
    credit period (refill burst period b now) stop ≤ credit period b stop := by
  have hadd := periods_add hperiod hfill hstop
  unfold credit
  rcases refill_cases burst hperiod hfill with ⟨heq, hfull⟩ | ⟨heq, -, -, -⟩
  · have hpast := Nat.div_mul_le_self (now - b.fill) period
    have hlater : (stop - now) / period ≤
        (stop - (b.fill + (now - b.fill) / period * period)) / period := by
      apply Nat.div_le_div_right
      omega
    rw [heq]
    dsimp only
    omega
  · rw [heq]
    dsimp only
    omega

/-- A bucket that is up to date can give the burst, one token for the period that runs and
one for each period after it. -/
theorem credit_refill_fresh {burst : Nat} (hperiod : 0 < period) (hfill : b.fill ≤ now) (hstop : now ≤ stop)
    (h : b.tokens ≤ burst) :
    credit period (refill burst period b now) stop ≤ burst + 1 + (stop - now) / period := by
  have htokens := refill_tokens_le hperiod hfill h
  have hrecent : now ≤ (refill burst period b now).fill + period := by
    rcases refill_cases burst hperiod hfill with ⟨heq, -⟩ | ⟨heq, -, -, hlt⟩
    · rw [heq]
      exact Nat.le_add_right _ _
    · rw [heq]
      exact hlt.le
  have hperiods : (stop - (refill burst period b now).fill) / period ≤ (stop - now) / period + 1 := by
    rw [← Nat.add_div_right _ hperiod]
    apply Nat.div_le_div_right
    omega
  unfold credit
  omega

end TokenBucket

end PilotProtocol.Library
