import PilotProtocol.Tunnel.Authenticity

/-! # Duplicated and late frames

A frame of the peer that arrives twice, or too late for the window, is rejected
and counted, and enough rejections in a row drop the session. Below the
fast-drop age, sequences whose rejections stay under the thresholds between
accepted frames never do.
-/

namespace PilotProtocol.Tunnel

open Library KeyExchange Envelope
open Routing (UDPAddr)
open TunnelManager

/-- The frame behind the magic of a PILS datagram, with the time it is handled. -/
structure Arrival where
  now : Nat
  data : Bytes
  source : Option UDPAddr

namespace Arrival

def receive (W : World) (t : TunnelManager) (a : Arrival) : TunnelManager :=
  t.handleEncrypted W a.now a.data a.source

def err (W : World) (t : TunnelManager) (a : Arrival) : Option DecryptErr :=
  (decryptFrame W.P t.kx.env a.data).1.err

def outcomes (W : World) : TunnelManager → List Arrival → List (Option DecryptErr)
  | _, [] => []
  | t, a :: rest => a.err W t :: outcomes W (a.receive W t) rest

end Arrival

/-- At most `limit` errors of this kind without a success between them, when `n` came
just before. -/
def atMostInARow (kind : DecryptErr) (limit : Nat) : Nat → List (Option DecryptErr) → Bool
  | _, [] => true
  | _, none :: rest => atMostInARow kind limit 0 rest
  | n, some e :: rest =>
    if e = kind then decide (n + 1 ≤ limit) && atMostInARow kind limit (n + 1) rest
    else atMostInARow kind limit n rest

theorem atMostInARow_same {kind : DecryptErr} {limit n : Nat} {rest : List (Option DecryptErr)} :
    atMostInARow kind limit n (some kind :: rest) = true ↔
      n + 1 ≤ limit ∧ atMostInARow kind limit (n + 1) rest = true := by
  rw [atMostInARow, if_pos rfl, Bool.and_eq_true, decide_eq_true_iff]

theorem atMostInARow_other {kind e : DecryptErr} (h : e ≠ kind) (limit n : Nat)
    (rest : List (Option DecryptErr)) :
    atMostInARow kind limit n (some e :: rest) = atMostInARow kind limit n rest := by
  rw [atMostInARow, if_neg h]

/-- A frame that names `peer` and opens under `key`, as everything `peer` seals under
it does. -/
def genuine (P : Primitives) (key : Bytes) (peer : NodeID) (data : Bytes) : Bool :=
  (parseSecure data).any fun f =>
    decide (f.peer = peer) && (P.aeadOpen key f.nonce f.ciphertext (nodeBytes peer)).isSome

variable {peer : NodeID} {t : TunnelManager} {c : Crypto}

theorem genuine_iff {P : Primitives} {key : Bytes} {data : Bytes} :
    genuine P key peer data = true ↔ ∃ f, parseSecure data = some f ∧ f.peer = peer ∧
      (P.aeadOpen key f.nonce f.ciphertext (nodeBytes peer)).isSome = true := by
  simp [genuine, Option.any_eq_true]

/-! ## One frame -/

/-- The session of `peer` is the object `head`, with these many rejections counted. -/
structure Standing (t : TunnelManager) (peer : NodeID) (head : CryptoHead) (replays outside : Nat)
    (c : Crypto) : Prop where
  installed : t.kx.env.get peer = some c
  head_eq : c.head = head
  replays_eq : c.replayCount = replays
  outside_eq : c.outsideWindowCount = outside

theorem standing_of_session (h : t.core.session peer = some (forgetSends c)) :
    ∃ c', Standing t peer c.head c.replayCount c.outsideWindowCount c' := by
  obtain ⟨c', hget, heq⟩ := Option.map_eq_some_iff.mp h
  have hhead : (forgetSends c').head = (forgetSends c).head := congrArg Crypto.head heq
  have hreplays := congrArg Crypto.replayCount heq
  have houtside := congrArg Crypto.outsideWindowCount heq
  exact ⟨c', hget, hhead, hreplays, houtside⟩

/-- A frame handled under a session leaves it as `decryptWith` does, unless the gate of
its error drops it. -/
theorem receive_session {W : World} {a : Arrival} {f : SecureFrame}
    (hparse : parseSecure a.data = some f) (hget : t.kx.env.get f.peer = some c)
    (hready : c.ready = true) (hkeep : ∀ e s, (decryptWith W.P c f).1.err = some e →
      shouldDrop e s f.peer (decryptWith W.P c f).2 a.now = false) :
    (a.receive W t).core.session f.peer = some (forgetSends (decryptWith W.P c f).2) := by
  have hresult := decryptFrame_keyed (P := W.P) hparse (Store.getReady_eq_some.mpr ⟨hget, hready⟩)
  have hafter : (decryptFrame W.P t.kx.env a.data).2.get f.peer = some (decryptWith W.P c f).2 := by
    rw [hresult, Store.get_install, if_pos rfl]
  have hsession : ((decryptFrame W.P t.kx.env a.data).2.get f.peer).map forgetSends =
      some (forgetSends (decryptWith W.P c f).2) := by
    rw [hafter, Option.map_some]
  have houtcome : Outcome W a.now t a.data (t.handleEncrypted W a.now a.data a.source).core :=
    handleEncrypted_outcome t a.data a.source
  unfold Arrival.receive
  generalize (t.handleEncrypted W a.now a.data a.source).core = core at houtcome ⊢
  cases houtcome with
  | rejected e herr | accepted herr packets hpackets => exact hsession
  | dropped e herr c' hc' hdrop =>
    rw [hresult] at herr hc' hdrop
    rw [decryptWith_peer, Store.get_install, if_pos rfl] at hc'
    cases hc'
    rw [decryptWith_peer, hkeep e _ herr] at hdrop
    cases hdrop

theorem shouldDropOnRejections_young {rejections threshold grace : Nat} {s : Store} {now : Nat}
    (hyoung : now - c.createdAt < agedCryptoFastDropAge) (hcount : rejections < threshold) :
    Store.shouldDropOnRejections rejections threshold grace s peer c now = false := by
  unfold Store.shouldDropOnRejections
  split
  · rfl
  · rw [if_pos ⟨hyoung, Or.inl hcount⟩]

theorem standing_receive {W : World} {head : CryptoHead} {replays outside : Nat}
    (hs : Standing t peer head replays outside c) (hready : head.ready = true) {a : Arrival}
    (hgenuine : genuine W.P head.key peer a.data = true)
    (hyoung : (a.err W t).isSome = true → a.now - head.createdAt < agedCryptoFastDropAge)
    (hreplay : a.err W t = some .replay → replays + 1 < replayDropThreshold)
    (houtside : a.err W t = some .outsideWindow → outside + 1 < outsideWindowDropThreshold) :
    (a.err W t = none ∧ ∃ c', Standing (a.receive W t) peer head 0 0 c') ∨
    (a.err W t = some .replay ∧ ∃ c', Standing (a.receive W t) peer head (replays + 1) outside c') ∨
    (a.err W t = some .outsideWindow ∧
      ∃ c', Standing (a.receive W t) peer head replays (outside + 1) c') := by
  obtain ⟨f, hparse, rfl, hopens⟩ := genuine_iff.mp hgenuine
  obtain ⟨hget, rfl, rfl, rfl⟩ := hs
  have hgetReady := Store.getReady_eq_some.mpr ⟨hget, hready⟩
  have herr : a.err W t = (decryptWith W.P c f).1.err := by
    rw [Arrival.err, decryptFrame_keyed hparse hgetReady]
  have hhead := decryptWith_head W.P c f
  have hcreated : (decryptWith W.P c f).2.createdAt = c.createdAt :=
    congrArg CryptoHead.createdAt hhead
  rw [herr] at hyoung hreplay houtside ⊢
  have hstanding := fun hkeep => standing_of_session
    (receive_session (W := W) (a := a) hparse hget hready hkeep)
  rw [hhead] at hstanding
  have hfails : openWith W.P c f ≠ none := Option.isSome_iff_ne_none.mp hopens
  obtain ⟨hnone, _⟩ | ⟨plaintext, _, _, hwith⟩ | ⟨plaintext, _, _, hwith⟩ :=
    decryptWith_cases W.P c f
  · exact absurd hnone hfails
  · left
    rw [hwith] at hstanding ⊢
    exact ⟨rfl, hstanding nofun⟩
  · right
    rw [hwith] at hstanding hyoung hreplay houtside hcreated ⊢
    have hage : a.now - (countReject c f.counter c.maxRecvNonce).createdAt < agedCryptoFastDropAge :=
      hcreated ▸ hyoung rfl
    by_cases hout : isOutside f.counter c.maxRecvNonce = true
    · right
      simp only [rejectResult, rejectErr, countReject, if_pos hout] at hstanding houtside hage ⊢
      refine ⟨trivial, hstanding fun e s he => ?_⟩
      cases he
      exact shouldDropOnRejections_young hage (houtside trivial)
    · left
      simp only [rejectResult, rejectErr, countReject, if_neg hout] at hstanding hreplay hage ⊢
      refine ⟨trivial, hstanding fun e s he => ?_⟩
      cases he
      exact shouldDropOnRejections_young hage (hreplay trivial)

/-! ## Every sequence -/

theorem standing_run (W : World) (peer : NodeID) (head : CryptoHead) (hready : head.ready = true)
    (arrivals : List Arrival) : ∀ (t : TunnelManager) (replays outside : Nat) (c : Crypto),
      Standing t peer head replays outside c →
      (∀ a ∈ arrivals, genuine W.P head.key peer a.data = true) →
      AllSteps (Arrival.receive W) (fun t a => (a.err W t).isSome = true →
        a.now - head.createdAt < agedCryptoFastDropAge) t arrivals →
      atMostInARow .replay (replayDropThreshold - 1) replays (Arrival.outcomes W t arrivals) = true →
      atMostInARow .outsideWindow (outsideWindowDropThreshold - 1) outside
        (Arrival.outcomes W t arrivals) = true → AllSteps (Arrival.receive W) (fun t a =>
        ((a.receive W t).kx.env.get peer).map Crypto.head = some head) t arrivals := by
  induction arrivals with
  | nil => exact fun t _ _ _ _ _ _ _ _ => allSteps_nil _ _ t
  | cons a rest ih =>
    intro t replays outside c hs hgenuine hyoung hreplay houtside
    have hlater : ∀ b ∈ rest, genuine W.P head.key peer b.data = true :=
      fun b hb => hgenuine b (List.mem_cons_of_mem a hb)
    have hinstalled : ∀ {replays outside : Nat} {c : Crypto},
        Standing (a.receive W t) peer head replays outside c →
        ((a.receive W t).kx.env.get peer).map Crypto.head = some head := fun hs => by
      rw [hs.installed, Option.map_some, hs.head_eq]
    rw [Arrival.outcomes] at hreplay houtside
    have hreplayed : a.err W t = some .replay → replays + 1 < replayDropThreshold := by
      intro he
      rw [he, atMostInARow_same] at hreplay
      exact Nat.lt_of_le_pred (by decide) hreplay.1
    have hlate : a.err W t = some .outsideWindow → outside + 1 < outsideWindowDropThreshold := by
      intro he
      rw [he, atMostInARow_same] at houtside
      exact Nat.lt_of_le_pred (by decide) houtside.1
    obtain ⟨herr, c', hs'⟩ | ⟨herr, c', hs'⟩ | ⟨herr, c', hs'⟩ :=
      standing_receive hs hready (hgenuine a (.head _)) hyoung.1 hreplayed hlate
    · rw [herr, atMostInARow] at hreplay houtside
      exact ⟨hinstalled hs', ih _ 0 0 c' hs' hlater hyoung.2 hreplay houtside⟩
    · rw [herr, atMostInARow_same] at hreplay
      rw [herr, atMostInARow_other (by decide)] at houtside
      exact ⟨hinstalled hs', ih _ _ _ c' hs' hlater hyoung.2 hreplay.2 houtside⟩
    · rw [herr, atMostInARow_other (by decide)] at hreplay
      rw [herr, atMostInARow_same] at houtside
      exact ⟨hinstalled hs', ih _ _ _ c' hs' hlater hyoung.2 hreplay houtside.2⟩

/-- A ready session outlives every sequence of frames sealed under its key whose
rejections all come before the fast-drop age and stay below the thresholds in a row,
those counted before the sequence included. -/
theorem duplicates_keep_session (W : World) (t : TunnelManager) (peer : NodeID) (c : Crypto)
    (arrivals : List Arrival) (hget : t.kx.env.get peer = some c) (hready : c.ready = true)
    (hgenuine : ∀ a ∈ arrivals, genuine W.P c.key peer a.data = true)
    (hreplay : atMostInARow .replay (replayDropThreshold - 1) c.replayCount
      (Arrival.outcomes W t arrivals) = true)
    (houtside : atMostInARow .outsideWindow (outsideWindowDropThreshold - 1) c.outsideWindowCount
      (Arrival.outcomes W t arrivals) = true)
    (hyoung : AllSteps (Arrival.receive W) (fun t a => (a.err W t).isSome = true →
      a.now - c.createdAt < agedCryptoFastDropAge) t arrivals) :
    AllSteps (Arrival.receive W) (fun t a =>
      ((a.receive W t).kx.env.get peer).map Crypto.head = some c.head) t arrivals :=
  standing_run W peer c.head hready arrivals t _ _ c ⟨hget, rfl, rfl, rfl⟩ hgenuine hyoung hreplay
    houtside

/-! ## Sequences on a toy session -/

def shaken : TunnelManager :=
  (Daemon.run toyWorld (Daemon.start toySetup 1 none)
    [⟨second, .recv peerAuthFrame (some ⟨9, 9⟩)⟩]).tunnels

def arrival (now counter : Nat) : Arrival :=
  ⟨now, (peerSecureFrame counter [1, 80, 7, 42]).drop 4, some ⟨9, 9⟩⟩

/-- Three duplicates and two frames below the window, around an accepted frame. -/
def reordered : List Arrival :=
  [arrival second 300, arrival second 300, arrival (2 * second) 300, arrival (2 * second) 44,
   arrival (3 * second) 299, arrival (30 * second) 299, arrival (60 * second) 43]

theorem reordered_keep_session : Arrival.outcomes toyWorld shaken reordered =
      [none, some .replay, some .replay, some .outsideWindow, none, some .replay,
        some .outsideWindow] ∧
    ∃ c, shaken.kx.env.get 7 = some c ∧ AllSteps (Arrival.receive toyWorld) (fun t a =>
      ((a.receive toyWorld t).kx.env.get 7).map Crypto.head = some c.head) shaken reordered := by
  have hsession : (shaken.kx.env.get 7).map (fun c => (c.head, c.replayCount, c.outsideWindowCount)) =
      some (⟨0, List.replicate 32 8, true, true, List.replicate 32 7, second⟩, 0, 0) := by
    decide +kernel
  obtain ⟨c, hget, hc⟩ := Option.map_eq_some_iff.mp hsession
  have hhead : c.head = ⟨0, List.replicate 32 8, true, true, List.replicate 32 7, second⟩ :=
    congrArg Prod.fst hc
  have hkey : c.key = List.replicate 32 8 := congrArg CryptoHead.key hhead
  have hready : c.ready = true := congrArg CryptoHead.ready hhead
  have hcreated : c.createdAt = second := congrArg CryptoHead.createdAt hhead
  have hreplays : c.replayCount = 0 := congrArg (fun x => x.2.1) hc
  have houtside : c.outsideWindowCount = 0 := congrArg (fun x => x.2.2) hc
  refine ⟨by decide +kernel, c, hget,
    duplicates_keep_session toyWorld shaken 7 c reordered hget hready ?_ ?_ ?_ ?_⟩
  · rw [hkey]
    decide +kernel
  · rw [hreplays]
    decide +kernel
  · rw [houtside]
    decide +kernel
  · rw [hcreated]
    decide +kernel

/-- Past the fast-drop age one duplicate of an accepted frame drops the ready session,
although both frames are genuine and the rejection is the only one. -/
theorem duplicate_drops_aged_session : (∀ a ∈ [arrival second 1, arrival (61 * second) 1],
      genuine toyPrimitives (List.replicate 32 8) 7 a.data = true) ∧
    (shaken.kx.env.get 7).map (fun c => (c.key, c.ready, c.replayCount, c.outsideWindowCount)) =
      some (List.replicate 32 8, true, 0, 0) ∧
    Arrival.outcomes toyWorld shaken [arrival second 1, arrival (61 * second) 1] =
      [none, some .replay] ∧
    ([arrival second 1, arrival (61 * second) 1].foldl (Arrival.receive toyWorld) shaken).kx.env.has 7
      = false := by
  decide +kernel

end PilotProtocol.Tunnel
