import PilotProtocol.Tunnel.Authenticity

/-! # Peers do not interfere

Whatever arrives, is sent or is forgotten for other nodes, a peer keeps its session, its
queue and its address, and no frame is written to it.
-/

namespace PilotProtocol.Tunnel

open Library KeyExchange Envelope

structure Apart (p : NodeID) (t t' : TunnelManager) : Prop where
  session : t'.kx.env.get p = t.kx.env.get p
  pending : t'.pending.lookup p = t.pending.lookup p
  since : t'.pendingSince.lookup p = t.pendingSince.lookup p
  addr : t'.peers.lookup p = t.peers.lookup p
  sends : Appends (·.peer ≠ p) t.sent t'.sent

def Scope.others (p : NodeID) : Scope := ⟨(p ≠ ·), (p ≠ ·), (p ≠ ·), True, True, fun _ h => h⟩

variable {W : World} {now : Nat} {p : NodeID} {t t' t'' : TunnelManager}

theorem Apart.refl (p : NodeID) (t : TunnelManager) : Apart p t t := ⟨rfl, rfl, rfl, rfl, .of_eq rfl⟩

theorem Apart.trans (h : Apart p t t') (h' : Apart p t' t'') : Apart p t t'' :=
  ⟨h'.session.trans h.session, h'.pending.trans h.pending, h'.since.trans h.since,
    h'.addr.trans h.addr, h.sends.trans h'.sends⟩

theorem Move.apart (h : Move W now (.others p) t t') : Apart p t t' := by
  cases h with
  | write q addr frame hq hframe =>
    have hsends : Appends (·.peer ≠ p) t.sent (t.logSent q frame
        (t.routing.writeFrame q addr now (W.net t.writes)).1).sent :=
      logSent_appends t fun _ _ => hq.symm
    unfold TunnelManager.writeFrame
    dsimp only
    split <;> exact { Apart.refl p t with sends := hsends }
  | relay q frame hq hframe =>
    exact { Apart.refl p t with sends := logSent_appends t fun _ _ => hq.symm }
  | encrypt q c plaintext hq hc =>
    exact { Apart.refl p t with session := (Store.get_install _ q p _).trans (if_neg hq) }
  | learn q addr hq => exact { Apart.refl p t with addr := AList.lookup_insert_ne hq }
  | queue q pending pendingSince hq hpending hsince hnow =>
    exact { Apart.refl p t with pending := hpending p hq, since := hsince p hq }
  | session q env hsessions hq hnode hothers =>
    exact { Apart.refl p t with session := hothers p hq }
  | accept q kx hsessions hq hkx => exact { Apart.refl p t with session := hkx.session p hq }
  | dropCrypto q hsessions hq =>
    exact { Apart.refl p t with session := (Store.get_drop _ q p).trans (if_neg hq) }
  | removePeer q hsessions hq =>
    exact { Apart.refl p t with
      session := (Store.get_drop _ q p).trans (if_neg hq)
      addr := AList.lookup_erase_ne hq }
  | _ => exact { Apart.refl p t with }

theorem Moves.apart (h : Moves W now (.others p) t t') : Apart p t t' := by
  induction h with
  | refl => exact .refl p t
  | tail _ hmove ih => exact ih.trans hmove.apart

namespace Daemon

theorem run_apart (d : Daemon) (inputs : List Input)
    (h : AllSteps (step W) (fun d i => i.op.Within (.others p) d i.now) d inputs) :
    Apart p d.tunnels (run W d inputs).tunnels := by
  apply run_invariant (fun d' => Apart p d.tunnels d'.tunnels) _ (.refl p _) h
  intro d' i hd hi
  exact hd.trans (d'.step_moves trivial trivial hi).apart

/-- After a handshake with node 7, a forged frame of node 5, a packet to it and its removal. -/
theorem run_apart_chat :
    let d := run toyWorld (start toySetup 1 none) (chat.take 1)
    let forged := tunnelMagicSecure ++ nodeBytes 5 ++ List.replicate 28 0
    (d.tunnels.kx.env.get 7).isSome = true ∧ Apart 7 d.tunnels (run toyWorld d
      [⟨second, .recv forged none⟩, ⟨second, .sendTo none 5 [42] false⟩,
        ⟨second, .removePeer 5⟩]).tunnels := by
  intro d forged
  have hnamed : named (carried forged) = some 5 := by decide
  have hother : (7 : NodeID) ≠ 5 := by decide
  refine ⟨by decide +kernel, run_apart d _ ⟨⟨nofun, fun q hq => ?_⟩, hother, hother, trivial⟩⟩
  rwa [← Option.some.inj (hnamed.symm.trans hq)]

end Daemon

end PilotProtocol.Tunnel
