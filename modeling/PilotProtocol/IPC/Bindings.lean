import PilotProtocol.IPC.Client

/-! # The client's listeners

A listener that is open is one the client still holds: its port is among the client's, or a
handler is about to put it there or to give it up. So the cleanup closes every one.
-/

namespace PilotProtocol.IPC

open Library

namespace Listeners

variable {ls : Listeners} {l : Nat} {port : UInt16}

def info (ls : Listeners) (l : Nat) : Option (UInt16 × Bool) :=
  ls.objects[l]?.map fun ln => (ln.port, ln.closed)

theorem info_modify {f : Listener → Listener}
    (hf : ∀ ln, ls.objects[l]? = some ln → (f ln).port = ln.port ∧ (f ln).closed = ln.closed)
    (i : Nat) : (ls.modify l f).info i = ls.info i := by
  unfold info modify
  rw [List.getElem?_modify]
  cases hi : ls.objects[i]? with
  | none => rfl
  | some ln =>
    by_cases hl : l = i
    · obtain ⟨hport, hclosed⟩ := hf ln (hl ▸ hi)
      simp [hl, hport, hclosed]
    · simp [hl]

theorem info_close (ls : Listeners) (i l : Nat) : (ls.modify i Listener.close).info l =
    if i = l then (ls.info l).map fun p => (p.1, true) else ls.info l := by
  unfold info modify
  rw [List.getElem?_modify]
  cases ls.objects[l]? with
  | none => simp
  | some ln => by_cases hl : i = l <;> simp [hl, Listener.close]

theorem info_unbind {port' : UInt16} (h : (ls.unbind port).info l = some (port', false)) :
    ls.info l = some (port', false) ∧ (ls.bound.lookup port' = some l → port' ≠ port) := by
  unfold unbind at h
  split at h
  next hnone =>
    refine ⟨h, fun hbound heq => ?_⟩
    rw [heq, hnone] at hbound
    cases hbound
  next i hi =>
    have hclose : (ls.modify i Listener.close).info l = some (port', false) := h
    rw [info_close] at hclose
    split at hclose
    next hl =>
      obtain ⟨p, -, hp⟩ := Option.map_eq_some_iff.mp hclose
      cases congrArg Prod.snd hp
    next hl =>
      refine ⟨hclose, fun hbound heq => hl ?_⟩
      rw [heq, hi] at hbound
      exact Option.some.inj hbound

theorem info_unbind_of_ne (h : ls.bound.lookup port ≠ some l) :
    (ls.unbind port).info l = ls.info l := by
  unfold unbind
  split
  · rfl
  next i hi =>
    have hne : i ≠ l := fun heq => h (heq ▸ hi)
    exact (info_close ls i l).trans (if_neg hne)

theorem unbind_lookup {port' : UInt16} :
    (ls.unbind port).bound.lookup port' = if port' = port then none else ls.bound.lookup port' := by
  unfold unbind
  split
  next hnone =>
    split
    next heq => rw [heq, hnone]
    next => rfl
  next => exact GoMap.lookup_erase_ite _ _ _

theorem unbind_length : (ls.unbind port).objects.length = ls.objects.length := by
  unfold unbind
  split
  · rfl
  · exact List.length_modify _ _ _

end Listeners

def SynAt.listener : SynAt → Option Nat
  | .idle => none
  | .looked l => some l
  | .created l _ => some l
  | .established l _ => some l

namespace System

variable {s s' : System} {port : UInt16} {l : Nat}

theorem closeByID_frame (s : System) (id : UInt32) :
    ∃ ports ending, s.closeByID id = { s with ports := ports, ending := ending } := by
  unfold closeByID
  split
  · exact ⟨_, _, rfl⟩
  · exact ⟨_, _, rfl⟩

/-- The client has the port, is about to have it, or is about to give it up. -/
def Holding (s : System) (port : UInt16) (l : Nat) : Prop :=
  match s.cleanup with
  | .pending =>
    port ∈ s.clientPorts ∨ .bindTrack port l ∈ s.handlers ∨ .unbindPort port ∈ s.handlers
  | .closing _ ports => port ∈ ports
  | .done => False

structure Bindings (s : System) : Prop where
  named : ∀ port l, s.listeners.bound.lookup port = some l → s.listeners.info l = some (port, false)
  held : ∀ port l, s.listeners.info l = some (port, false) →
    s.listeners.bound.lookup port = some l ∧ s.Holding port l
  quiet : s.cleanup ≠ .pending → s.reading = false ∧ s.handlers = []
  listed : ∀ l, s.syn.listener = some l → l < s.listeners.objects.length

section

variable (h : s.Bindings)
include h

theorem Bindings.of_info (hinfo : ∀ l, s'.listeners.info l = s.listeners.info l)
    (hbound : s'.listeners.bound = s.listeners.bound)
    (hlength : s'.listeners.objects.length = s.listeners.objects.length)
    (hsyn : ∀ l, s'.syn.listener = some l → s.syn.listener = some l)
    (hquiet : s'.cleanup ≠ .pending → s'.reading = false ∧ s'.handlers = [])
    (hholding : ∀ port l, s.Holding port l → s'.Holding port l) : s'.Bindings where
  named port l hlookup := by
    rw [hbound] at hlookup
    rw [hinfo, h.named port l hlookup]
  held port l hopen := by
    rw [hinfo] at hopen
    obtain ⟨hlookup, hhold⟩ := h.held port l hopen
    exact ⟨hbound ▸ hlookup, hholding port l hhold⟩
  quiet := hquiet
  listed l hl := by
    rw [hlength]
    exact h.listed l (hsyn l hl)

theorem Bindings.of_modify {f : Listener → Listener}
    (hf : ∀ ln, s.listeners.objects[l]? = some ln → (f ln).port = ln.port ∧ (f ln).closed = ln.closed) :
    Bindings { s with listeners := s.listeners.modify l f } :=
  h.of_info (Listeners.info_modify hf) rfl (List.length_modify _ _ _) (fun _ hl => hl) h.quiet
    fun _ _ hhold => hhold

theorem Bindings.of_unbind (hlisteners : s'.listeners = s.listeners.unbind port)
    (hsyn : s'.syn = s.syn) (hquiet : s'.cleanup ≠ .pending → s'.reading = false ∧ s'.handlers = [])
    (hholding : ∀ port' l, port' ≠ port → s.Holding port' l → s'.Holding port' l) :
    s'.Bindings where
  named port' l hlookup := by
    rw [hlisteners, Listeners.unbind_lookup] at hlookup
    split at hlookup
    · cases hlookup
    next hne =>
      have hinfo := h.named port' l hlookup
      rw [hlisteners, Listeners.info_unbind_of_ne, hinfo]
      intro hbound
      rw [h.named port l hbound] at hinfo
      exact hne (congrArg Prod.fst (Option.some.inj hinfo)).symm
  held port' l hopen := by
    rw [hlisteners] at hopen ⊢
    obtain ⟨hinfo, hother⟩ := Listeners.info_unbind hopen
    obtain ⟨hlookup, hhold⟩ := h.held port' l hinfo
    refine ⟨?_, hholding port' l (hother hlookup) hhold⟩
    rw [Listeners.unbind_lookup, if_neg (hother hlookup), hlookup]
  quiet := hquiet
  listed l hl := by
    rw [hlisteners, Listeners.unbind_length]
    exact h.listed l (hsyn ▸ hl)

theorem Bindings.of_bind {ls : Listeners}
    (hbind : s.listeners.bind port = some (l, ls)) (hpending : s.cleanup = .pending) :
    Bindings { s with listeners := ls, handlers := .bindTrack port l :: s.handlers } := by
  unfold Listeners.bind at hbind
  split at hbind
  · cases hbind
  next hfree =>
    cases hbind
    have hinfo : ∀ i, Listeners.info ⟨s.listeners.objects ++ [⟨port, [], false⟩],
        s.listeners.bound.insert port s.listeners.objects.length⟩ i =
        if i = s.listeners.objects.length then some (port, false) else s.listeners.info i := by
      intro i
      unfold Listeners.info
      split
      next heq => rw [heq, List.getElem?_concat_length]; rfl
      next hne =>
        rw [List.getElem?_append]
        split
        · rfl
        next hge => rw [List.getElem?_eq_none (by simp; omega), List.getElem?_eq_none (by omega)]
    have hlt : ∀ i p, s.listeners.info i = some p → i ≠ s.listeners.objects.length := by
      rintro i p hi rfl
      unfold Listeners.info at hi
      simp at hi
    refine ⟨?_, ?_, fun hne => absurd hpending hne, ?_⟩
    · intro port' i hlookup
      rw [GoMap.lookup_insert_ite] at hlookup
      rw [hinfo]
      split at hlookup
      next heq =>
        cases hlookup
        rw [if_pos rfl, heq]
      next =>
        have hold := h.named port' i hlookup
        rw [if_neg (hlt i _ hold), hold]
    · intro port' i hopen
      rw [hinfo] at hopen
      rw [GoMap.lookup_insert_ite]
      unfold Holding
      rw [hpending]
      split at hopen
      next heq =>
        cases hopen
        exact ⟨by rw [if_pos rfl, heq], .inr (.inl (heq ▸ (.head _)))⟩
      next =>
        obtain ⟨hlookup, hhold⟩ := h.held port' i hopen
        unfold Holding at hhold
        rw [hpending] at hhold
        have hne : port' ≠ port := fun heq => by rw [heq, hfree] at hlookup; cases hlookup
        rw [if_neg hne]
        exact ⟨hlookup, hhold.imp_right (Or.imp (List.mem_cons_of_mem _) (List.mem_cons_of_mem _))⟩
    · intro i hi
      rw [List.length_append]
      exact Nat.lt_add_right _ (h.listed i hi)

theorem Bindings.dispatch (hpending : s.cleanup = .pending) (r : Request) :
    (s.dispatch r).Bindings := by
  cases r with
  | bind port =>
    simp only [System.dispatch]
    split
    · exact h
    next l ls hbind => exact h.of_bind hbind hpending
  | unbind port =>
    simp only [System.dispatch]
    split
    · refine h.of_info (fun _ => rfl) rfl rfl (fun _ hl => hl) (fun hne => absurd hpending hne) ?_
      intro port' l hhold
      unfold Holding at hhold ⊢
      rw [hpending] at hhold ⊢
      by_cases heq : port' = port
      · exact .inr (.inr (heq ▸ (.head _)))
      · exact hhold.imp (List.mem_erase_of_ne heq).mpr
          (Or.imp (List.mem_cons_of_mem _) (List.mem_cons_of_mem _))
    · exact h
  | close id =>
    obtain ⟨ports, ending, hframe⟩ := closeByID_frame s id
    simp only [System.dispatch, hframe]
    refine h.of_info (fun _ => rfl) rfl rfl (fun _ hl => hl) (fun hne => absurd hpending hne) ?_
    intro port' l hhold
    unfold Holding at hhold ⊢
    rw [hpending] at hhold ⊢
    exact hhold.imp_right (Or.imp (List.mem_cons_of_mem _) (List.mem_cons_of_mem _))

theorem Bindings.handle {hd : Handler} (hmem : hd ∈ s.handlers) (ok : Bool) :
    (System.handleNext { s with handlers := s.handlers.erase hd } ok hd).Bindings := by
  have hpending : s.cleanup = .pending := by
    by_contra hne
    simp [(h.quiet hne).2] at hmem
  -- of a handler that is not the one that goes on nothing changes
  have herased : (∀ port l, hd ≠ .bindTrack port l) → (∀ port, hd ≠ .unbindPort port) →
      Bindings { s with handlers := s.handlers.erase hd } := by
    intro hbind hunbind
    refine h.of_info (fun _ => rfl) rfl rfl (fun _ hl => hl) (fun hne => absurd hpending hne) ?_
    intro port' l hhold
    unfold Holding at hhold ⊢
    rw [hpending] at hhold ⊢
    exact hhold.imp_right (Or.imp (List.mem_erase_of_ne (hbind port' l).symm).mpr
      (List.mem_erase_of_ne (hunbind port').symm).mpr)
  cases hd with
  | dispatched r => exact (herased nofun nofun).dispatch hpending r
  | bindTrack port l =>
    refine h.of_info (fun _ => rfl) rfl rfl (fun _ hl => hl) (fun hne => absurd hpending hne) ?_
    intro port' l' hhold
    unfold Holding at hhold ⊢
    rw [hpending] at hhold ⊢
    rcases hhold with hport | hbind | hunbind
    · exact .inl (List.mem_append_left _ hport)
    · by_cases heq : port' = port
      · exact .inl (List.mem_append_right _ (List.mem_singleton.mpr heq))
      · refine .inr (.inl (.tail _ ((List.mem_erase_of_ne fun he => ?_).mpr hbind)))
        cases he
        exact heq rfl
    · have hother : Handler.unbindPort port' ≠ .bindTrack port l := nofun
      exact .inr (.inr (.tail _ ((List.mem_erase_of_ne hother).mpr hunbind)))
  | bindReply l =>
    have herased := herased nofun nofun
    simp only [System.handleNext]
    split
    · exact { herased with }
    · exact herased
  | unbindPort port =>
    refine h.of_unbind rfl rfl (fun hne => absurd hpending hne) fun port' l hne hhold => ?_
    unfold Holding at hhold ⊢
    rw [hpending] at hhold ⊢
    have hbind : Handler.bindTrack port' l ≠ .unbindPort port := nofun
    have hunbind : Handler.unbindPort port' ≠ .unbindPort port := fun he => hne (by cases he; rfl)
    exact hhold.imp_right
      (Or.imp (List.mem_erase_of_ne hbind).mpr (List.mem_erase_of_ne hunbind).mpr)
  | closeRemove id =>
    have herased := herased nofun nofun
    exact { herased with }

theorem Bindings.copy (hreading : s.reading = false) (hnone : s.handlers = [])
    (hpending : s.cleanup = .pending) :
    Bindings { s with cleanup := .closing s.conns s.clientPorts } := by
  refine h.of_info (fun _ => rfl) rfl rfl (fun _ hl => hl) (fun _ => ⟨hreading, hnone⟩) ?_
  intro port l hhold
  unfold Holding at hhold
  rw [hpending, hnone] at hhold
  rcases hhold with hport | hbind | hunbind
  · exact hport
  · cases hbind
  · cases hunbind

theorem Bindings.trySend {ref : Nat} :
    Bindings { s.trySend l ref with syn := .idle } := by
  unfold System.trySend
  split
  · exact { h with listed := nofun }
  next ln hln =>
    unfold Listener.trySend
    by_cases hfull : ln.closed = true ∨ acceptQueueLen ≤ ln.acceptCh.length
    · rw [if_pos hfull]
      dsimp only
      unfold System.refuse
      split <;> exact { h with listed := nofun }
    · rw [if_neg hfull]
      have hqueued : Bindings { s with
          listeners := s.listeners.modify l fun _ => { ln with acceptCh := ln.acceptCh ++ [ref] } } := by
        refine h.of_modify fun ln' hln' => ?_
        rw [hln] at hln'
        cases hln'
        exact ⟨rfl, rfl⟩
      exact { hqueued with listed := nofun }

theorem Bindings.receive {ln : Listener} : (s.receive l ln).Bindings := by
  unfold System.receive
  split
  next ref rest _ =>
    have hmoved : (s.movePusher l .receiving (.tracking ref)).Bindings := { h with }
    exact hmoved.of_modify fun _ _ => ⟨rfl, rfl⟩
  next =>
    split
    · exact { h with }
    · exact h

end

end System

end PilotProtocol.IPC
