import PilotProtocol.Stream.EphemeralPorts

/-! # Connection IDs

`NewConnection` takes its ID from a 32-bit counter that skips zero and writes the table entry
without a look at what is there. A connection's reference is the number of connections made
before it, so the counter gives two connections the same ID exactly when their references
differ by a multiple of the `2 ^ 32 - 1` IDs there are.
-/

namespace PilotProtocol.Ports

open Library

namespace PortManager

def getConnection (pm : PortManager) (id : UInt32) : Option Nat := pm.connections.lookup id

end PortManager

/-- How many IDs there are: every 32-bit number but zero. -/
def idPeriod : Nat := 2 ^ 32 - 1

/-- The ID of the connection made after `n` others. -/
def idOf (n : Nat) : UInt32 := UInt32.ofNat (n % idPeriod + 1)

theorem toNat_idOf (n : Nat) : (idOf n).toNat = n % idPeriod + 1 := by
  unfold idOf idPeriod
  rw [UInt32.toNat_ofNat']
  omega

theorem idOf_ne_zero (n : Nat) : idOf n ≠ 0 := by
  intro h
  have hval := congrArg UInt32.toNat h
  simp [toNat_idOf] at hval

theorem idOf_eq_iff (m n : Nat) : idOf m = idOf n ↔ m % idPeriod = n % idPeriod := by
  constructor
  · intro h
    have hval := congrArg UInt32.toNat h
    rw [toNat_idOf, toNat_idOf] at hval
    omega
  · intro h
    rw [idOf, idOf, h]

theorem idOf_succ (n : Nat) : (if idOf n + 1 = 0 then 1 else idOf n + 1) = idOf (n + 1) := by
  have hnext : (idOf n + 1).toNat = (n % idPeriod + 1 + 1) % 2 ^ 32 := by
    rw [UInt32.toNat_add, toNat_idOf]
    rfl
  have hzero : idOf n + 1 = 0 ↔ (n % idPeriod + 1 + 1) % 2 ^ 32 = 0 := by
    rw [← UInt32.toNat_inj, hnext]
    exact Iff.rfl
  apply UInt32.toNat_inj.mp
  rw [toNat_idOf]
  unfold idPeriod at hnext hzero ⊢
  split
  next hwrap =>
    rw [hzero] at hwrap
    show 1 = _
    omega
  next hwrap =>
    rw [hzero] at hwrap
    omega

namespace Allocation

variable {s : Allocation}

def Input.isNew : Input → Bool
  | .newConnection _ _ _ _ => true
  | _ => false

/-- The entry that a new connection takes is free, and a step takes no connection out of the
table but the one it removes. -/
def Undisplaced (s : Allocation) (i : Input) : Prop :=
  (i.isNew = true →
    s.ports.nextConnID ≠ 0 ∧ s.ports.getConnection s.ports.nextConnID = none) ∧
  ∀ id ref, s.ports.getConnection id = some ref → i ≠ .removeConnection id →
    (s.step i).ports.getConnection id = some ref

/-- When a connection is made, none in the table is as old as there are IDs. -/
def Young (s : Allocation) (i : Input) : Prop :=
  i.isNew = true →
    ∀ id ref, s.ports.getConnection id = some ref → s.ports.objects.length < ref + idPeriod

/-! ## One step -/

theorem step_table (s : Allocation) (i : Input) : (i.isNew = true ∧
      (s.step i).ports.objects.length = s.ports.objects.length + 1 ∧ (s.step i).ports.nextConnID =
        (if s.ports.nextConnID + 1 = 0 then 1 else s.ports.nextConnID + 1) ∧
      ∀ id, (s.step i).ports.getConnection id =
        if id = s.ports.nextConnID then some s.ports.objects.length else s.ports.getConnection id) ∨
    i.isNew = false ∧ (s.step i).ports.objects.length = s.ports.objects.length ∧
    (s.step i).ports.nextConnID = s.ports.nextConnID ∧
    ((∃ id', i = .removeConnection id' ∧ ∀ id, (s.step i).ports.getConnection id =
        if id = id' then none else s.ports.getConnection id) ∨
      ∀ id, (s.step i).ports.getConnection id = s.ports.getConnection id) := by
  unfold PortManager.getConnection Allocation.step
  cases i <;> dsimp only
  case newConnection =>
    left
    obtain ⟨bitmap, h⟩ := PortManager.newConnection_eq s.ports
    rw [h]
    exact ⟨rfl, List.length_append, rfl, fun id => GoMap.lookup_insert_ite _ _ id _⟩
  all_goals right
  case allocEphemeralPort =>
    unfold PortManager.allocEphemeralPort
    dsimp only
    split <;> exact ⟨rfl, rfl, rfl, .inr fun _ => rfl⟩
  case releaseEphemeralPort port =>
    obtain ⟨bitmap, h⟩ := PortManager.clearEphPort_eq s.ports port
    rw [h]
    exact ⟨rfl, rfl, rfl, .inr fun _ => rfl⟩
  case create =>
    split
    · exact ⟨rfl, List.length_modify _ _ _, rfl, .inr fun _ => rfl⟩
    · exact ⟨rfl, rfl, rfl, .inr fun _ => rfl⟩
  case setState => exact ⟨rfl, List.length_modify _ _ _, rfl, .inr fun _ => rfl⟩
  case removeConnection id' =>
    obtain ⟨bitmap, h⟩ := PortManager.removeConnection_eq s.ports id'
    have hlookup := s.ports.removeConnection_lookup id'
    rw [h] at hlookup ⊢
    exact ⟨rfl, rfl, rfl, .inl ⟨id', rfl, hlookup⟩⟩

theorem entry_before {i : Input} (hold : i.isNew = false) {id : UInt32} {ref : Nat}
    (href : (s.step i).ports.getConnection id = some ref) : s.ports.getConnection id = some ref := by
  rcases step_table s i with ⟨hnew, -⟩ | ⟨-, -, -, ⟨id', -, hget⟩ | hget⟩
  · simp [hold] at hnew
  · rw [hget] at href
    split at href
    · cases href
    · exact href
  · rwa [← hget]

/-! ## Runs -/

/-- The counter is that of the next connection, and every entry has the ID of its connection. -/
structure Numbered (s : Allocation) : Prop where
  next : s.ports.nextConnID = idOf s.ports.objects.length
  entry : ∀ id ref, s.ports.getConnection id = some ref → id = idOf ref ∧ ref < s.ports.objects.length

theorem initial_numbered : initial.Numbered := ⟨rfl, nofun⟩

theorem Numbered.step (h : s.Numbered) (i : Input) : (s.step i).Numbered := by
  rcases step_table s i with ⟨-, hlen, hid, hget⟩ | ⟨hold, hlen, hid, -⟩
  · refine ⟨by rw [hid, hlen, h.next, idOf_succ], fun id ref href => ?_⟩
    rw [hget] at href
    rw [hlen]
    split at href
    next hnew =>
      cases href
      exact ⟨hnew.trans h.next, Nat.lt_succ_self _⟩
    next =>
      obtain ⟨hentry, hlt⟩ := h.entry id ref href
      exact ⟨hentry, Nat.lt_succ_of_lt hlt⟩
  · refine ⟨by rw [hid, hlen, h.next], fun id ref href => ?_⟩
    rw [hlen]
    exact h.entry id ref (entry_before hold href)

def Bounded (s : Allocation) : Prop :=
  ∀ id ref, s.ports.getConnection id = some ref → s.ports.objects.length ≤ ref + idPeriod

theorem Bounded.step (h : s.Bounded) {i : Input} (hyoung : s.Young i) : (s.step i).Bounded := by
  intro id ref href
  rcases step_table s i with ⟨hnew, hlen, -, hget⟩ | ⟨hold, hlen, -, -⟩
  · rw [hget] at href
    rw [hlen]
    split at href
    · cases href
      have hpos : 0 < idPeriod := by decide
      omega
    · exact hyoung hnew id ref href
  · rw [hlen]
    exact h id ref (entry_before hold href)

theorem young_iff_free (hn : s.Numbered) (hb : s.Bounded) :
    (∀ id ref, s.ports.getConnection id = some ref → s.ports.objects.length < ref + idPeriod) ↔
      s.ports.getConnection s.ports.nextConnID = none := by
  constructor
  · intro hyoung
    rw [Option.eq_none_iff_forall_ne_some]
    intro ref href
    obtain ⟨hid, hlt⟩ := hn.entry _ ref href
    have hage := hyoung _ ref href
    rw [hn.next, idOf_eq_iff] at hid
    -- two numbers less than a period apart with the same residue
    have hdvd := (Nat.modEq_iff_dvd' (Nat.le_of_lt hlt)).mp hid.symm
    have hle := Nat.le_of_dvd (by omega) hdvd
    omega
  · intro hfree id ref href
    have hle := hb id ref href
    by_contra hold
    have heq : s.ports.objects.length = ref + idPeriod := by omega
    have hid : s.ports.nextConnID = id := by
      rw [hn.next, (hn.entry id ref href).1, idOf_eq_iff, heq, Nat.add_mod_right]
    simp [hid, href] at hfree

theorem undisplaced_iff_young (hn : s.Numbered) (hb : s.Bounded) (i : Input) :
    s.Undisplaced i ↔ s.Young i := by
  have hfree := young_iff_free hn hb
  refine ⟨fun h hnew => hfree.mpr (h.1 hnew).2, fun hyoung => ?_⟩
  rcases step_table s i with ⟨hnew, -, -, hget⟩ | ⟨hold, -, -, hget⟩
  · have hnone := hfree.mp (hyoung hnew)
    refine ⟨fun _ => ⟨hn.next ▸ idOf_ne_zero _, hnone⟩, fun id ref href _ => ?_⟩
    rw [hget, if_neg, href]
    rintro rfl
    simp [hnone] at href
  · refine ⟨fun hnew => ?_, fun id ref href hne => ?_⟩
    · simp [hold] at hnew
    · rcases hget with ⟨id', rfl, hget⟩ | hget
      · rw [hget, if_neg, href]
        rintro rfl
        exact hne rfl
      · rw [hget, href]

theorem undisplaced_run_iff (hn : s.Numbered) (hb : s.Bounded) (inputs : List Input) :
    AllSteps step Undisplaced s inputs ↔ AllSteps step Young s inputs := by
  induction inputs generalizing s with
  | nil => exact Iff.rfl
  | cons i rest ih =>
    rw [allSteps_cons, allSteps_cons, undisplaced_iff_young hn hb]
    exact and_congr_right fun hyoung => ih (hn.step i) (hb.step hyoung)

/-- No run displaces a connection exactly if none lets a connection grow as old as there
are IDs. -/
theorem connections_kept_iff_young (inputs : List Input) :
    AllSteps step Undisplaced initial inputs ↔ AllSteps step Young initial inputs :=
  undisplaced_run_iff initial_numbered nofun inputs

/-! ## A run through all IDs -/

def dial : Input := .newConnection 1000 ⟨0, 1⟩ 80 0

def churn (n : Nat) : List Input :=
  dial :: (List.range n).flatMap fun k => [dial, .removeConnection (idOf (k + 1))]

theorem churn_succ (n : Nat) :
    churn (n + 1) = churn n ++ [dial, .removeConnection (idOf (n + 1))] := by
  simp [churn, List.range_succ]

theorem churn_spec (n : Nat) (hn : n < idPeriod) : ((churn n).foldl step initial).Numbered ∧
    ((churn n).foldl step initial).ports.objects.length = n + 1 ∧
    ((churn n).foldl step initial).ports.getConnection 1 = some 0 := by
  induction n with
  | zero =>
    have hnumbered := initial_numbered.step dial
    exact ⟨hnumbered, rfl, rfl⟩
  | succ n ih =>
    obtain ⟨hnumbered, hlen, hfirst⟩ := ih (by omega)
    rw [churn_succ, List.foldl_append, List.foldl_cons, List.foldl_cons, List.foldl_nil]
    generalize (churn n).foldl step initial = s at hnumbered hlen hfirst
    have hne : (1 : UInt32) ≠ idOf (n + 1) := by
      intro h
      have hval := congrArg UInt32.toNat h
      rw [toNat_idOf, show (1 : UInt32).toNat = 1 from rfl, Nat.mod_eq_of_lt hn] at hval
      omega
    rcases step_table s dial with ⟨-, hlen', -, hget⟩ | ⟨hold, -⟩
    case inr => cases hold
    rcases step_table (s.step dial) (.removeConnection (idOf (n + 1))) with
      ⟨hnew, -⟩ | ⟨-, hlen'', -, hget'⟩
    case inl => cases hnew
    refine ⟨(hnumbered.step dial).step _, by rw [hlen'', hlen', hlen], ?_⟩
    have hdialed : (s.step dial).ports.getConnection 1 = some 0 := by
      rw [hget, if_neg (by rw [hnumbered.next, hlen]; exact hne), hfirst]
    rcases hget' with ⟨id', hid, hget'⟩ | hget'
    · cases hid
      rw [hget', if_neg hne, hdialed]
    · rw [hget', hdialed]

/-- The connection made first stays in the table while `2 ^ 32 - 2` others come and go; the
next one takes its entry. -/
theorem wrapped_id_displaces :
    ((churn (2 ^ 32 - 2)).foldl step initial).ports.getConnection 1 = some 0 ∧
    ((churn (2 ^ 32 - 2) ++ [dial]).foldl step initial).ports.getConnection 1 = some (2 ^ 32 - 1) ∧
    ¬ AllSteps step Undisplaced initial (churn (2 ^ 32 - 2) ++ [dial]) := by
  have hperiod : idPeriod = 2 ^ 32 - 1 := rfl
  obtain ⟨hnumbered, hlen, hfirst⟩ := churn_spec (2 ^ 32 - 2) (by omega)
  rw [allSteps_append, List.foldl_append]
  generalize (churn (2 ^ 32 - 2)).foldl step initial = s at hnumbered hlen hfirst ⊢
  have hnext : s.ports.nextConnID = 1 := by
    rw [hnumbered.next, hlen, idOf, hperiod]
    rfl
  refine ⟨hfirst, ?_, fun hall => ?_⟩
  · rcases step_table s dial with ⟨-, -, -, hget⟩ | ⟨hold, -⟩
    · rw [List.foldl_cons, List.foldl_nil, hget, if_pos hnext.symm, hlen]
      exact congrArg some (by omega)
    · cases hold
  · have hfree := (hall.2.1.1 rfl).2
    simp [hnext, hfirst] at hfree

end Allocation

end PilotProtocol.Ports
