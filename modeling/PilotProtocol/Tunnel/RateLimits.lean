import PilotProtocol.Library.RateLimit
import PilotProtocol.Tunnel.Inbound

/-! # The rate limiters

Key-exchange frames are limited by source IP, or by node where they come through the relay,
and SYNs by node. All three keep a table of buckets of one kind: the key-exchange tables drop
idle buckets when they are full, the SYN table is reaped from outside. An idle bucket that is
dropped would have been filled up by the next call, so dropping it changes nothing.
-/

namespace PilotProtocol.Tunnel

open Library
open KeyExchange (NodeID second)
open Routing (UDPAddr)

def perSourceSYNLimit : Nat := 10
def perSourceSYNBurst : Nat := 64
def maxPerSrcSYNEntries : Nat := 4096
def synBucketAge : Nat := 10 * second

/-- The same two fields. -/
abbrev SrcSYNBucket := SrcKxBucket

def pruneKxLocked {K : Type} (buckets : GoMap K SrcKxBucket) (now : Nat) : GoMap K SrcKxBucket :=
  buckets.keep fun _ b => decide (now - b.lastFill < relayKxPruneAge)

def TunnelManager.pruneKxRateLimLocked (t : TunnelManager) (now : Nat) : TunnelManager :=
  { t with kxRateLim := pruneKxLocked t.kxRateLim now }

def TunnelManager.pruneRelayKxLocked (t : TunnelManager) (now : Nat) : TunnelManager :=
  { t with relayKxLim := pruneKxLocked t.relayKxLim now }

def allowSYNFromSource (perSrcSYN : GoMap NodeID SrcSYNBucket) (srcNode : NodeID) (now : Nat) :
    Bool × GoMap NodeID SrcSYNBucket :=
  match perSrcSYN.lookup srcNode with
  | none =>
    if maxPerSrcSYNEntries ≤ perSrcSYN.len then (false, perSrcSYN)
    else (true, perSrcSYN.insert srcNode ⟨perSourceSYNBurst - 1, now⟩)
  | some b =>
    let refill := (now - b.lastFill) * perSourceSYNLimit / second
    let filled := if 0 < refill then ⟨min (b.tokens + refill) perSourceSYNBurst, now⟩ else b
    if 0 < filled.tokens then
      (true, perSrcSYN.insert srcNode { filled with tokens := filled.tokens - 1 })
    else (false, perSrcSYN.insert srcNode filled)

def reapPerSrcSYN (perSrcSYN : GoMap NodeID SrcSYNBucket) (now : Nat) : GoMap NodeID SrcSYNBucket :=
  perSrcSYN.keep fun _ b => decide (¬ b.lastFill + synBucketAge < now)

/-! ## Tables -/

section

variable {K : Type} [DecidableEq K] {L : RateLimit} {m live : GoMap K SrcKxBucket} {key : K}
  {now : Nat}

def SrcKxBucket.held (b : SrcKxBucket) : TokenBucket := ⟨b.tokens, b.lastFill⟩

def bucketOf (m : GoMap K SrcKxBucket) (k : K) : Option TokenBucket := (m.lookup k).map (·.held)

theorem keep_moved {p : K → SrcKxBucket → Bool} (age : Nat) (hage : L.cap ≤ L.gained age)
    (hp : ∀ k b, p k b = false → age ≤ now - b.lastFill) (k : K) :
    L.Moved now (bucketOf m k) none (bucketOf (m.keep p) k) := by
  unfold bucketOf
  rw [GoMap.lookup_keep]
  cases m.lookup k with
  | none => exact .kept none
  | some b =>
    cases hb : p k b with
    | true =>
      rw [Option.filter_some, hb]
      exact .kept _
    | false =>
      rw [Option.filter_some, hb]
      exact .dropped _ (hage.trans (RateLimit.gained_mono (hp k b hb)))

/-- What `r` answers a call of `key` and leaves of the buckets. -/
def Limited (L : RateLimit) (now : Nat) (m : GoMap K SrcKxBucket) (key : K)
    (r : Bool × GoMap K SrcKxBucket) : Prop :=
  ∀ k, L.Moved now (bucketOf m k) (if key = k then some r.1 else none) (bucketOf r.2 k)

theorem answers_insert (hlive : ∀ k, L.Moved now (bucketOf m k) none (bucketOf live k))
    {b : SrcKxBucket} {answer : Bool} (hcall : L.call (bucketOf m key) now = (answer, b.held)) :
    Limited L now m key (answer, live.insert key b) := by
  intro k
  by_cases hk : key = k
  · have hmoved : L.Moved now (bucketOf m key) _ _ := .answered (bucketOf m key)
    rw [hcall] at hmoved
    rw [← hk, if_pos rfl]
    simpa only [bucketOf, AList.lookup_insert, Option.map_some] using hmoved
  · have hother := hlive k
    rw [if_neg hk]
    simpa only [bucketOf, AList.lookup_insert_ne (Ne.symm hk)] using hother

theorem answers_refuse (hlive : ∀ k, L.Moved now (bucketOf m k) none (bucketOf live k))
    (hnone : bucketOf m key = none) : Limited L now m key (false, live) := by
  intro k
  have hmoved := hlive k
  by_cases hk : key = k
  · rw [← hk, hnone] at hmoved ⊢
    rw [if_pos rfl]
    generalize bucketOf live key = after at hmoved ⊢
    cases hmoved
    exact .refused
  · rwa [if_neg hk]

/-- The part of the functions that finds a bucket. -/
theorem answers_found {rate cap : Nat} (hrate : L.rate = rate) (hcap : L.cap = cap)
    (hunit : L.unit = second) {b : SrcKxBucket} (hb : m.lookup key = some b) :
    let refill := (now - b.lastFill) * rate / second
    let filled : SrcKxBucket := if 0 < refill then ⟨min (b.tokens + refill) cap, now⟩ else b
    Limited L now m key (if 0 < filled.tokens then
      (true, m.insert key { filled with tokens := filled.tokens - 1 })
      else (false, m.insert key filled)) := by
  subst hrate hcap
  intro refill filled
  have hfilled : L.refill b.held now = filled.held := by
    simp only [RateLimit.refill, RateLimit.gained, SrcKxBucket.held, hunit, filled, refill]
    split <;> rfl
  have hcall : L.call (bucketOf m key) now = L.take b.held now := by rw [bucketOf, hb]; rfl
  simp only [RateLimit.take, hfilled] at hcall
  split
  next hpos => exact answers_insert (fun _ => .kept _) (hcall.trans (if_pos hpos))
  next hzero => exact answers_insert (fun _ => .kept _) (hcall.trans (if_neg hzero))

theorem pruneKxLocked_moved (hage : L.cap ≤ L.gained relayKxPruneAge) (m : GoMap K SrcKxBucket)
    (now : Nat) (k : K) : L.Moved now (bucketOf m k) none (bucketOf (pruneKxLocked m now) k) :=
  keep_moved relayKxPruneAge hage (fun _ _ hb => Nat.le_of_not_lt (of_decide_eq_false hb)) k

theorem takeToken_answers {limit maxEntries : Nat} (hrate : L.rate = limit) (hcap : L.cap = limit)
    (hunit : L.unit = second) (hage : L.cap ≤ L.gained relayKxPruneAge) (m : GoMap K SrcKxBucket)
    (key : K) (now : Nat) : Limited L now m key (takeToken limit maxEntries m key now) := by
  unfold takeToken
  cases hb : m.lookup key with
  | none =>
    have hnone : bucketOf m key = none := by rw [bucketOf, hb]; rfl
    have hlive : ∀ k, L.Moved now (bucketOf m k) none
        (bucketOf (if maxEntries ≤ m.len then pruneKxLocked m now else m) k) := by
      intro k
      split
      · exact pruneKxLocked_moved hage m now k
      · exact .kept _
    dsimp only
    unfold pruneKxLocked at hlive
    generalize (if maxEntries ≤ m.len then _ else m) = live at hlive ⊢
    split
    · exact answers_refuse hlive hnone
    · refine answers_insert hlive ?_
      rw [hnone, ← hcap]
      rfl
  | some b => exact answers_found hrate hcap hunit hb

theorem allowSYNFromSource_answers {L : RateLimit} (hrate : L.rate = perSourceSYNLimit)
    (hcap : L.cap = perSourceSYNBurst) (hunit : L.unit = second) (m : GoMap NodeID SrcSYNBucket)
    (srcNode : NodeID) (now : Nat) : Limited L now m srcNode (allowSYNFromSource m srcNode now) := by
  unfold allowSYNFromSource
  cases hb : m.lookup srcNode with
  | none =>
    have hnone : bucketOf m srcNode = none := by rw [bucketOf, hb]; rfl
    dsimp only
    split
    · exact answers_refuse (fun _ => .kept _) hnone
    · refine answers_insert (fun _ => .kept _) ?_
      rw [hnone, ← hcap]
      rfl
  | some b => exact answers_found hrate hcap hunit hb

end

/-! ## The three limiters -/

def perSecond (rate cap : Nat) (hcap : 0 < cap) : RateLimit := ⟨cap, rate, second, hcap, by decide⟩

def kxLimit : RateLimit := perSecond perSourceKxLimit perSourceKxLimit (by decide)
def relayKxLimit : RateLimit := perSecond perRelaySrcKxLimit perRelaySrcKxLimit (by decide)
def synLimit : RateLimit := perSecond perSourceSYNLimit perSourceSYNBurst (by decide)

/-- The limiter of direct key-exchange frames; a call without an address is not limited. -/
def kxLimiter : Limiter TunnelManager UDPAddr Nat where
  source := UDPAddr.ip
  bucket := fun t => bucketOf t.kxRateLim
  call := fun t addr now => t.allowKxFromSource (some addr) now
  prune := TunnelManager.pruneKxRateLimLocked

def relayKxLimiter : Limiter TunnelManager NodeID NodeID where
  source := id
  bucket := fun t => bucketOf t.relayKxLim
  call := TunnelManager.allowKxFromRelaySrc
  prune := TunnelManager.pruneRelayKxLocked

def synLimiter : Limiter (GoMap NodeID SrcSYNBucket) NodeID NodeID where
  source := id
  bucket := bucketOf
  call := allowSYNFromSource
  prune := reapPerSrcSYN

theorem kxLimiter_limits : kxLimiter.Limits kxLimit where
  call t addr now := takeToken_answers rfl rfl rfl (by decide) t.kxRateLim addr.ip now
  prune t := pruneKxLocked_moved (by decide) t.kxRateLim

theorem relayKxLimiter_limits : relayKxLimiter.Limits relayKxLimit where
  call t := takeToken_answers rfl rfl rfl (by decide) t.relayKxLim
  prune t := pruneKxLocked_moved (by decide) t.relayKxLim

theorem synLimiter_limits : synLimiter.Limits synLimit where
  call := allowSYNFromSource_answers rfl rfl rfl
  prune m now k := by
    refine keep_moved synBucketAge (by decide) (fun _ b hb => ?_) k
    have hold := not_not.mp (of_decide_eq_false hb)
    omega

variable {σ A K : Type} [DecidableEq K]

/-- From an empty table on, whatever is called, pruned and refused: no bucket leaves its range,
and in `T` nanoseconds no source gets more than `cap` and what `rate` gives. -/
def KeepsRate (I : Limiter σ A K) (cap rate : Nat) : Prop :=
  ∀ s, (∀ k, I.bucket s k = none) → ∀ began inputs k,
    (∀ b, I.bucket (I.run s began inputs).limiter k = some b → 0 ≤ b.tokens ∧ b.tokens ≤ cap) ∧
    ∀ start T, I.admitted k start (start + T) (I.run s began inputs) ≤ cap + T * rate / second

theorem keepsRate_of_limits {I : Limiter σ A K} {L : RateLimit} (hI : I.Limits L)
    (hunit : L.unit = second) : KeepsRate I L.cap L.rate := by
  intro s hempty began inputs k
  obtain ⟨htokens, hcount⟩ := Limiter.run_bounded hI hempty began inputs k
  refine ⟨fun b hb => ⟨Nat.zero_le _, htokens b hb⟩, fun start T => ?_⟩
  rw [← hunit]
  exact hcount start T

theorem limiters_keep_their_rate : KeepsRate kxLimiter perSourceKxLimit perSourceKxLimit ∧
    KeepsRate relayKxLimiter perRelaySrcKxLimit perRelaySrcKxLimit ∧
    KeepsRate synLimiter perSourceSYNBurst perSourceSYNLimit :=
  ⟨keepsRate_of_limits kxLimiter_limits rfl, keepsRate_of_limits relayKxLimiter_limits rfl,
    keepsRate_of_limits synLimiter_limits rfl⟩

def synFlood : List (Limiter.Input NodeID) :=
  List.replicate 70 (.call 7) ++ [.advance second, .call 7, .call 8]

/-- Of 71 SYNs of node 7 in a second the limiter admits 65, and may admit 74. -/
theorem syn_flood_limited : synLimiter.admitted 7 0 (0 + second) (synLimiter.run ∅ 0 synFlood) ≤
      perSourceSYNBurst + second * perSourceSYNLimit / second ∧
    synLimiter.admitted 7 0 (0 + second) (synLimiter.run ∅ 0 synFlood) = 65 :=
  ⟨(limiters_keep_their_rate.2.2 ∅ (fun _ => rfl) 0 synFlood 7).2 0 second, by decide +kernel⟩

end PilotProtocol.Tunnel
