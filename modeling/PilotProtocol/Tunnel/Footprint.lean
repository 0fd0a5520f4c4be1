import PilotProtocol.Tunnel.Effect

/-! # What a step leaves behind

Every function that acts for one peer writes frames to that peer only, each its
own key-exchange frame or an encrypted one, and starts to wait for no other
peer's key. `Footprint` states this, and a run whose inputs concern one peer
waits for that peer only.
-/

namespace PilotProtocol.Tunnel

open Library KeyExchange Envelope
open Routing (UDPAddr WriteErr Route)
open RekeyTable

/-- The frames the node makes itself satisfy `own`. -/
structure Speaks (P : Primitives) (own : Bytes → Prop) (m : KeyExchange.Manager) : Prop where
  auth : ∀ frame, m.buildAuthFrame P = some frame → own frame
  unauth : ∀ frame, m.buildUnauthFrame = some frame → own frame
  sealed : ∀ frame, magicOf frame = some .secure → own frame

theorem Speaks.congr {P : Primitives} {own : Bytes → Prop} {m m' : KeyExchange.Manager}
    (h : Speaks P own m) (hsetup : m'.setup = m.setup)
    (hnode : m'.env.localNodeID = m.env.localNodeID) : Speaks P own m' where
  auth frame hframe := h.auth frame (buildAuthFrame_congr P hsetup hnode ▸ hframe)
  unauth frame hframe := h.unauth frame (buildUnauthFrame_congr hsetup hnode ▸ hframe)
  sealed := h.sealed

theorem Speaks.trivial (P : Primitives) (m : KeyExchange.Manager) : Speaks P (fun _ => True) m :=
  ⟨fun _ _ => True.intro, fun _ _ => True.intro, fun _ _ => True.intro⟩

structure Footprint (own : Bytes → Prop) (peer : NodeID) (t t' : TunnelManager) : Prop where
  waits : Waits peer t.kx.rk t'.kx.rk
  sends : Appends (fun s => s.peer = peer ∧ own s.frame) t.sent t'.sent

section

variable {W : World} {now : Nat} {own : Bytes → Prop} {peer : NodeID} {t t' t'' : TunnelManager}

namespace Footprint

theorem of_waits (hwaits : Waits peer t.kx.rk t'.kx.rk) (hsent : t'.sent = t.sent) :
    Footprint own peer t t' := ⟨hwaits, .of_eq hsent⟩

theorem of_rekey (hrk : t'.kx.rk = t.kx.rk) (hsent : t'.sent = t.sent) : Footprint own peer t t' :=
  of_waits (hrk ▸ Waits.refl peer _) hsent

theorem trans (h : Footprint own peer t t') (h' : Footprint own peer t' t'') :
    Footprint own peer t t'' := ⟨h.waits.trans h'.waits, h.sends.trans h'.sends⟩

end Footprint

/-! ## Moves -/

/-- The moves for one peer that keep its frames to `own`. -/
def Scope.only (peer : NodeID) (plain : Prop) : Scope :=
  ⟨fun _ => True, (· = peer), (· = peer), True, plain, fun _ _ => trivial⟩

variable {plain : Prop} {frame : Bytes}

theorem Made.owned {m : KeyExchange.Manager} (h : Made W.P plain m frame)
    (hspeaks : Speaks W.P own m) (hplain : plain → ∀ frame, own frame) : own frame := by
  cases h with
  | auth h => exact hspeaks.auth frame h
  | unauth h => exact hspeaks.unauth frame h
  | secure h => exact hspeaks.sealed frame h
  | plain h => exact hplain h frame

theorem logSent_footprint (t : TunnelManager) (hown : own frame) (result : Except WriteErr Route) :
    Footprint own peer t (t.logSent peer frame result) :=
  ⟨Waits.refl peer _, logSent_appends t fun _ _ => ⟨rfl, hown⟩⟩

theorem writeFrame_footprint (t : TunnelManager) (addr : Option UDPAddr) (hown : own frame) :
    Footprint own peer t (t.writeFrame W now peer addr frame).2 := by
  unfold TunnelManager.writeFrame
  simp only
  split
  · exact (logSent_footprint t hown _).trans
      (.of_waits (touches_resetPendingRekeyAttempts now peer _).waits rfl)
  · exact (logSent_footprint t hown _).trans (.of_rekey rfl rfl)

theorem Move.footprint (h : Move W now (.only peer plain) t t') (hspeaks : Speaks W.P own t.kx)
    (hplain : plain → ∀ frame, own frame) : Footprint own peer t t' := by
  cases h with
  | write q addr frame hq hframe =>
    obtain rfl : q = peer := hq
    exact writeFrame_footprint t addr (hframe.owned hspeaks hplain)
  | relay q frame hq hframe =>
    obtain rfl : q = peer := hq
    exact logSent_footprint t (hframe.owned hspeaks hplain) _
  | rekey q rk hq hrk =>
    obtain rfl : q = peer := hq
    exact .of_waits hrk.waits rfl
  | scan => exact .of_waits (waits_scanPending _ now peer) rfl
  | accept q kx hsessions hq hkx => exact .of_rekey hkx.rk rfl
  | dropCrypto q hsessions hq | removePeer q hsessions hq =>
    exact .of_waits (Waits.of_erase rfl) rfl
  | _ => exact .of_rekey rfl rfl

theorem Moves.footprint (h : Moves W now (.only peer plain) t t') (hspeaks : Speaks W.P own t.kx)
    (hplain : plain → ∀ frame, own frame) : Footprint own peer t t' := by
  induction h with
  | refl => exact .of_rekey rfl rfl
  | tail hmoves hmove ih =>
    have hsetup := Moves.setup hmoves
    have hspeaks' := hspeaks.congr hsetup.1 hsetup.2
    exact ih.trans (hmove.footprint hspeaks' hplain)

/-- A step acts for `peer` only, whatever it sends. -/
abbrev ActsFor (peer : NodeID) (t t' : TunnelManager) : Prop := Footprint (fun _ => True) peer t t'

theorem Moves.actsFor (h : Moves W now (.only peer True) t t') : ActsFor peer t t' :=
  h.footprint (Speaks.trivial W.P t.kx) fun _ _ => trivial

namespace TunnelManager

theorem handleAuthFrame_footprint (t : TunnelManager) {data : Bytes} (source : Option UDPAddr)
    (fromRelay : Bool) (hspeaks : Speaks W.P own t.kx)
    (hpeer : ∀ f, parseAuth data = some f → f.peer = peer) :
    Footprint own peer t (t.handleAuthFrame W now data source fromRelay) :=
  (handleAuthFrame_moves (S := .only peer False) t data source fromRelay trivial hpeer).footprint
    hspeaks False.elim

theorem handleUnauthFrame_footprint (t : TunnelManager) {data : Bytes} (source : Option UDPAddr)
    (fromRelay : Bool) (hspeaks : Speaks W.P own t.kx)
    (hpeer : ∀ f, parseUnauth data = some f → f.peer = peer) :
    Footprint own peer t (t.handleUnauthFrame W now data source fromRelay) :=
  (handleUnauthFrame_moves (S := .only peer False) t data source fromRelay trivial hpeer).footprint
    hspeaks False.elim

end TunnelManager

end

/-! ## Steps that concern one peer -/

/-- A key-exchange or encrypted frame names no other node than `peer`. -/
def concerns (peer : NodeID) : Option (Magic × Bytes) → Bool
  | some (.authEx, data) => (parseAuth data).all fun f => decide (f.peer = peer)
  | some (.keyEx, data) => (parseUnauth data).all fun f => decide (f.peer = peer)
  | some (.secure, data) => (parseSecure data).all fun f => decide (f.peer = peer)
  | _ => true

theorem named_of_concerns {peer q : NodeID} {frame : Option (Magic × Bytes)}
    (h : concerns peer frame = true) (hq : named frame = some q) : q = peer := by
  unfold concerns at h
  unfold named at hq
  split at hq
  all_goals simp_all only [Option.map_eq_some_iff, reduceCtorEq]
  all_goals
    obtain ⟨f, hf, rfl⟩ := hq
    simpa [hf] using h

namespace Daemon

def Op.concerns (peer : NodeID) : Op → Bool
  | .recv frame _ => Tunnel.concerns peer (carried frame)
  | .tick => true
  | .reset q _ => decide (q = peer)
  | .sendTo _ q _ _ => decide (q = peer)
  | .addPeer q _ => decide (q = peer)
  | .removePeer q => decide (q = peer)
  | .dropCrypto q => decide (q = peer)

/-- The daemon waits for the key of no other node than `peer`. -/
def WaitsOnly (peer : NodeID) (d : Daemon) : Prop :=
  ∀ q, (d.tunnels.kx.rk.pendingRekey.lookup q).isSome = true → q = peer

theorem waitsOnly_step {W : World} {peer : NodeID} {d : Daemon} {i : Input} (h : WaitsOnly peer d)
    (hconcerns : i.op.concerns peer = true) : WaitsOnly peer (step W d i) := by
  suffices hmoves : Moves W i.now (.only peer True) d.tunnels (step W d i).tunnels by
    intro q hq
    obtain hpeer | hq' := hmoves.actsFor.waits q hq
    · exact hpeer
    · exact h q hq'
  obtain ⟨now, op⟩ := i
  apply step_moves d trivial trivial
  cases op with
  | recv frame remote => exact ⟨fun _ _ => trivial, fun q hq => named_of_concerns hconcerns hq⟩
  | tick => exact fun due hdue => h due.1 (waiting_of_mem_toRetry (List.mem_of_mem_take hdue))
  | reset q answer =>
    have hq : q = peer := of_decide_eq_true hconcerns
    exact ⟨hq, hq⟩
  | sendTo _ q | addPeer q | removePeer q | dropCrypto q =>
    have hq : q = peer := of_decide_eq_true hconcerns
    exact hq

end Daemon

end PilotProtocol.Tunnel
