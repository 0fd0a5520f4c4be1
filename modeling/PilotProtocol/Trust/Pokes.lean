import PilotProtocol.Library.TokenBucket
import PilotProtocol.Trust.HandshakePoll

/-! # Pokes

How many pokes the scheduler accepts. Its bucket is brought up to date only by a poke that
finds no poll due, so the tokens may lag behind the clock for any time; the bound on a
stretch of time comes from the first poke in it that refills the bucket.
-/

namespace PilotProtocol.HandshakePoll

open Library

/-! ## The bucket of the scheduler -/

/-- The bucket that a poke at `now` finds. -/
def Sched.bucket (s : Sched) (now : Nat) : TokenBucket := ⟨s.pokeTokens, s.pokeFill.getD now⟩

theorem Sched.refill_bucket (s : Sched) (now : Nat) : (s.refill now).pokeTokens =
        ((s.bucket now).refill handshakePokeBurst handshakePokeRefill now).tokens ∧
      (s.refill now).pokeFill =
        some ((s.bucket now).refill handshakePokeBurst handshakePokeRefill now).fill := by
  unfold refill TokenBucket.refill bucket
  dsimp only
  split
  · exact ⟨rfl, rfl⟩
  · split <;> exact ⟨rfl, rfl⟩

/-- A poke is skipped while a poll is due; otherwise it refills the bucket and takes a token
from it if there is one. -/
theorem Sched.poke_cases (s : Sched) (now : Nat) :
    ((s.poke now).1 = false ∧ ((s.poke now).2 = s ∨ (s.poke now).2 = s.refill now)) ∨
    ((s.poke now).1 = true ∧ (s.refill now).pokeTokens = (s.poke now).2.pokeTokens + 1 ∧
      (s.poke now).2.pokeFill = (s.refill now).pokeFill) := by
  unfold poke
  split
  · exact .inl ⟨rfl, .inl rfl⟩
  · split
    next => exact .inl ⟨rfl, .inr rfl⟩
    next htokens =>
      refine .inr ⟨rfl, ?_, rfl⟩
      dsimp only
      omega

theorem Sched.claimLocked_bucket (s : Sched) (minGap now : Nat) :
    (s.claimLocked minGap now).2.pokeTokens = s.pokeTokens ∧
      (s.claimLocked minGap now).2.pokeFill = s.pokeFill := by
  unfold claimLocked
  split <;> exact ⟨rfl, rfl⟩

theorem Sched.begin_bucket (s : Sched) (poll minGap now : Nat) :
    (s.begin poll minGap now).2.pokeTokens = s.pokeTokens ∧
      (s.begin poll minGap now).2.pokeFill = s.pokeFill := by
  rcases s.begin_cases poll minGap now with ⟨-, -, -, -, heq⟩ | ⟨-, heq⟩
  · rw [heq]
    exact ⟨rfl, rfl⟩
  · rw [heq]
    exact ⟨rfl, rfl⟩

/-! ## Pokes on a clock -/

/-- The scheduler with its clock and the times of the pokes it has accepted. -/
structure Poked where
  sched : Sched
  now : Nat
  accepted : List Nat

namespace Poked

inductive Input
  | advance (d : Nat)
  | poke
  | claim (minGap : Nat)
  | begin (poll minGap : Nat)
  | endPoll
  /-- A caller that finds no registry leaves nothing due. -/
  | clear
  | shutdown

def initial (now : Nat) : Poked := ⟨Sched.new, now, []⟩

def step (s : Poked) : Input → Poked
  | .advance d => { s with now := s.now + d }
  | .poke =>
    { s with
      sched := (s.sched.poke s.now).2
      accepted := if (s.sched.poke s.now).1 then s.now :: s.accepted else s.accepted }
  | .claim minGap => { s with sched := (s.sched.claimLocked minGap s.now).2 }
  | .begin poll minGap => { s with sched := (s.sched.begin poll minGap s.now).2 }
  | .endPoll => { s with sched := s.sched.endPoll }
  | .clear => { s with sched := { s.sched with pokeDue := false } }
  | .shutdown => { s with sched := s.sched.shutdown }

def run (s : Poked) (inputs : List Input) : Poked := inputs.foldl step s

def acceptedIn (s : Poked) (start stop : Nat) : Nat :=
  s.accepted.countP fun t => decide (start ≤ t ∧ t ≤ stop)

def pokeBound (T : Nat) : Nat := handshakePokeBurst + 1 + T / handshakePokeRefill

structure Inv (start T : Nat) (s : Poked) : Prop where
  past : ∀ fill, s.sched.pokeFill = some fill → fill ≤ s.now
  tokens : s.sched.pokeTokens ≤ handshakePokeBurst
  count : s.acceptedIn start (start + T) ≤ pokeBound T
  /-- Once a poke of the stretch is accepted, the rest of the bound covers the credit. -/
  covered : s.now ≤ start + T → s.acceptedIn start (start + T) = 0 ∨
    ∃ fill, s.sched.pokeFill = some fill ∧
      s.acceptedIn start (start + T) +
        TokenBucket.credit handshakePokeRefill ⟨s.sched.pokeTokens, fill⟩ (start + T) ≤ pokeBound T

theorem initial_inv (start T now : Nat) : (initial now).Inv start T where
  past := nofun
  tokens := le_rfl
  count := Nat.zero_le _
  covered := fun _ => .inl rfl

variable {start T : Nat} {s : Poked}

section

variable (h : s.Inv start T)
include h

theorem Inv.of_same {s' : Poked}
    (htokens : s'.sched.pokeTokens = s.sched.pokeTokens) (hfill : s'.sched.pokeFill = s.sched.pokeFill)
    (hnow : s.now ≤ s'.now) (haccepted : s'.accepted = s.accepted) : s'.Inv start T where
  past := fun fill hf => (h.past fill (hfill ▸ hf)).trans hnow
  tokens := htokens ▸ h.tokens
  count := by
    unfold acceptedIn
    rw [haccepted]
    exact h.count
  covered := fun hstop => by
    unfold acceptedIn
    rw [haccepted, htokens, hfill]
    exact h.covered (hnow.trans hstop)

theorem Inv.bucket_le : (s.sched.bucket s.now).fill ≤ s.now := by
  unfold Sched.bucket
  cases hfill : s.sched.pokeFill with
  | none => exact le_rfl
  | some fill => exact h.past fill hfill

theorem Inv.refilled (hstop : s.now ≤ start + T) :
    (s.acceptedIn start (start + T) = 0 ∧ s.now < start) ∨ s.acceptedIn start (start + T) +
        ((s.sched.bucket s.now).refill handshakePokeBurst handshakePokeRefill s.now).credit
          handshakePokeRefill (start + T) ≤ pokeBound T := by
  have hperiod : 0 < handshakePokeRefill := by decide
  rcases h.covered hstop with hzero | ⟨fill, hfill, hcredit⟩
  · by_cases hstart : start ≤ s.now
    · have hfresh := TokenBucket.credit_refill_fresh
        hperiod h.bucket_le hstop h.tokens
      have hlength : (start + T - s.now) / handshakePokeRefill ≤ T / handshakePokeRefill := by
        apply Nat.div_le_div_right
        omega
      unfold pokeBound
      omega
    · exact .inl ⟨hzero, by omega⟩
  · have hle := TokenBucket.credit_refill_le handshakePokeBurst hperiod h.bucket_le hstop
    have hbucket : s.sched.bucket s.now = ⟨s.sched.pokeTokens, fill⟩ := by
      simp [Sched.bucket, hfill]
    rw [hbucket] at hle ⊢
    omega

theorem Inv.of_refill {sched : Sched} {accepted : List Nat} (taken : Nat)
    (htokens : (s.sched.refill s.now).pokeTokens = sched.pokeTokens + taken)
    (hfill : sched.pokeFill = (s.sched.refill s.now).pokeFill)
    (hcount : Poked.acceptedIn ⟨sched, s.now, accepted⟩ start (start + T) =
      s.acceptedIn start (start + T) + if start ≤ s.now ∧ s.now ≤ start + T then taken else 0) :
    Inv start T ⟨sched, s.now, accepted⟩ := by
  have hperiod : 0 < handshakePokeRefill := by decide
  obtain ⟨hrefill, hrefillFill⟩ := s.sched.refill_bucket s.now
  have htokensLe := TokenBucket.refill_tokens_le hperiod h.bucket_le h.tokens
  rw [hrefillFill] at hfill
  have hcredit (stop : Nat) :
      taken + TokenBucket.credit handshakePokeRefill ⟨sched.pokeTokens, ((s.sched.bucket s.now).refill
          handshakePokeBurst handshakePokeRefill s.now).fill⟩ stop =
        ((s.sched.bucket s.now).refill handshakePokeBurst handshakePokeRefill s.now).credit
          handshakePokeRefill stop := by
    unfold TokenBucket.credit
    dsimp only
    omega
  have hcovered : s.now ≤ start + T →
      Poked.acceptedIn ⟨sched, s.now, accepted⟩ start (start + T) = 0 ∨
      Poked.acceptedIn ⟨sched, s.now, accepted⟩ start (start + T) +
        TokenBucket.credit handshakePokeRefill ⟨sched.pokeTokens, ((s.sched.bucket s.now).refill
          handshakePokeBurst handshakePokeRefill s.now).fill⟩ (start + T) ≤ pokeBound T := by
    intro hstop
    have hsum := hcredit (start + T)
    rcases h.refilled hstop with ⟨hzero, hearly⟩ | hbound
    · rw [if_neg (by omega), hzero] at hcount
      exact .inl hcount
    · split at hcount <;> omega
  constructor
  · intro fill hsome
    rw [hfill] at hsome
    cases hsome
    exact TokenBucket.refill_fill_le _ hperiod h.bucket_le
  · dsimp only
    omega
  · by_cases hstop : s.now ≤ start + T
    · rcases hcovered hstop with hzero | hle <;> omega
    · rw [if_neg (by omega)] at hcount
      rw [hcount]
      exact h.count
  · intro hstop
    rcases hcovered hstop with hzero | hle
    · exact .inl hzero
    · exact .inr ⟨_, hfill, hle⟩

theorem Inv.poke : (s.step .poke).Inv start T := by
  simp only [step]
  rcases s.sched.poke_cases s.now with ⟨hflag, hsame | hrefill⟩ | ⟨hflag, htaken, hfill⟩
  · rw [hflag, hsame]
    exact h.of_same rfl rfl le_rfl rfl
  · rw [hflag, hrefill]
    apply h.of_refill 0 rfl rfl
    simp [acceptedIn]
  · rw [hflag]
    apply h.of_refill 1 htaken hfill
    simp [acceptedIn, List.countP_cons]

theorem step_inv (i : Input) : (s.step i).Inv start T := by
  cases i with
  | advance d => exact h.of_same rfl rfl (Nat.le_add_right _ _) rfl
  | poke => exact h.poke
  | claim minGap =>
    obtain ⟨htokens, hfill⟩ := s.sched.claimLocked_bucket minGap s.now
    exact h.of_same htokens hfill le_rfl rfl
  | begin poll minGap =>
    obtain ⟨htokens, hfill⟩ := s.sched.begin_bucket poll minGap s.now
    exact h.of_same htokens hfill le_rfl rfl
  | endPoll | clear | shutdown => exact h.of_same rfl rfl le_rfl rfl

end

/-- In any stretch of time `[start, start + T]` of any run at most the burst, one poke and one
more for each whole refill period of the stretch are accepted. The tokens stay between zero
and the burst: a poke is accepted only where the refill has left a token to take. -/
theorem poke_flood_bounded (began : Nat) (inputs : List Input) (start T : Nat) :
    let s := (initial began).run inputs
    s.acceptedIn start (start + T) ≤ handshakePokeBurst + 1 + T / handshakePokeRefill ∧
      s.sched.pokeTokens ≤ handshakePokeBurst ∧
      ((s.sched.poke s.now).1 = true →
        (s.sched.refill s.now).pokeTokens = (s.sched.poke s.now).2.pokeTokens + 1) := by
  intro s
  have hinv : s.Inv start T :=
    run_invariant_all (Inv start T) (fun _ i h => step_inv h i) inputs (initial_inv start T began)
  refine ⟨hinv.count, hinv.tokens, fun haccepted => ?_⟩
  rcases s.sched.poke_cases s.now with ⟨hflag, -⟩ | ⟨-, htaken, -⟩
  · simp [hflag] at haccepted
  · exact htaken

end Poked

end PilotProtocol.HandshakePoll
