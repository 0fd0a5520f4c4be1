import Mathlib.Data.List.AList

/-! # Finite maps

A map of the source language is an association list without duplicate keys.
Lookups after an update are stated as one conditional each, so that a proof
about an updated map is a case split on the key.
-/

namespace PilotProtocol.Library

/-- A map from `K` to `V`, in no particular order of iteration. -/
abbrev GoMap (K V : Type*) := AList fun _ : K => V

namespace GoMap

variable {K V : Type*} [DecidableEq K]

variable (p : K → V → Bool) (m : GoMap K V) (k : K)

theorem lookup_insert_ite (j : K) (v : V) :
    (m.insert k v).lookup j = if j = k then some v else m.lookup j := by
  split
  next h => subst h; exact AList.lookup_insert m
  next h => exact AList.lookup_insert_ne h

theorem lookup_erase_ite (j : K) : (m.erase k).lookup j = if j = k then none else m.lookup j := by
  split
  next h => subst h; exact AList.lookup_erase _ m
  next h => exact AList.lookup_erase_ne h

def len (m : GoMap K V) : Nat := m.entries.length

/-- The map without the entries that fail `p`: a loop over the map that deletes. -/
def keep (p : K → V → Bool) (m : GoMap K V) : GoMap K V :=
  ⟨m.entries.filter fun e => p e.1 e.2, List.NodupKeys.sublist List.filter_sublist m.nodupKeys⟩

theorem lookup_eq_some_iff {m : GoMap K V} {k : K} {v : V} :
    m.lookup k = some v ↔ (⟨k, v⟩ : Sigma fun _ : K => V) ∈ m.entries := by
  exact AList.mem_lookup_iff

theorem lookup_keep : (keep p m).lookup k = (m.lookup k).filter (p k) := by
  apply Option.ext
  intro v
  rw [lookup_eq_some_iff, Option.filter_eq_some_iff, lookup_eq_some_iff]
  simp [keep]

theorem lookup_isSome_iff {m : GoMap K V} {k : K} : (m.lookup k).isSome = true ↔ k ∈ m.keys :=
  AList.lookup_isSome

omit [DecidableEq K] in
theorem len_eq_keys : m.len = m.keys.length := (List.length_map _).symm

theorem len_insert (v : V) :
    len (m.insert k v) = if (m.lookup k).isSome then m.len else m.len + 1 := by
  rw [len_eq_keys, len_eq_keys, AList.keys_insert, List.length_cons]
  split
  next h =>
    have hmem := lookup_isSome_iff.mp h
    have hpos := List.length_pos_of_mem hmem
    rw [List.length_erase_of_mem hmem]
    omega
  next h => rw [List.erase_of_not_mem fun hmem => h (lookup_isSome_iff.mpr hmem)]

theorem len_erase : len (m.erase k) = if (m.lookup k).isSome then m.len - 1 else m.len := by
  rw [len_eq_keys, len_eq_keys, AList.keys_erase]
  split
  next h => exact List.length_erase_of_mem (lookup_isSome_iff.mp h)
  next h => rw [List.erase_of_not_mem fun hmem => h (lookup_isSome_iff.mpr hmem)]

omit [DecidableEq K] in
theorem len_keep_le : (keep p m).len ≤ m.len := List.length_filter_le _ _

def gone (m m' : GoMap K V) : List K := m.keys.filter fun k => !(m'.lookup k).isSome

theorem mem_gone {m m' : GoMap K V} {k : K} : k ∈ gone m m' ↔ k ∈ m.keys ∧ m'.lookup k = none := by
  simp [gone]

theorem gone_length_le {m m' : GoMap K V} {ids : List K}
    (h : ∀ k, k ∉ ids → m'.lookup k = none → m.lookup k = none) :
    (gone m m').length ≤ ids.length := by
  have hids : ∀ k ∈ gone m m', k ∈ ids := by
    intro k hk
    obtain ⟨hmem, hnone⟩ := mem_gone.mp hk
    by_contra hnot
    have hsome := lookup_isSome_iff.mpr hmem
    simp [h k hnot hnone] at hsome
  exact (List.subperm_of_subset (m.keys_nodup.filter _) hids).length_le

theorem len_le_add_gone (m' : GoMap K V) : m'.len ≤ m.len + (gone m' m).length := by
  have hold : ∀ k ∈ m'.keys.filter fun k => (m.lookup k).isSome, k ∈ m.keys := by
    intro k hk
    exact lookup_isSome_iff.mp (List.mem_filter.mp hk).2
  have hle := (List.subperm_of_subset (m'.keys_nodup.filter _) hold).length_le
  have hsplit := List.length_eq_length_filter_add (l := m'.keys) fun k => (m.lookup k).isSome
  rw [len_eq_keys, len_eq_keys, gone]
  omega

theorem entries_eq_singleton {m : GoMap K V} {k : K} {v : V} (h : m.lookup k = some v)
    (honly : ∀ q, (m.lookup q).isSome = true → q = k) : m.entries = [⟨k, v⟩] := by
  have hkeys : ∀ e ∈ m.entries, e.1 = k := by
    rintro ⟨q, w⟩ he
    refine honly q ?_
    rw [lookup_eq_some_iff.mpr he]
    rfl
  have hmem := lookup_eq_some_iff.mp h
  have hnodup : (m.entries.map Sigma.fst).Nodup := m.nodupKeys
  cases hentries : m.entries with
  | nil => rw [hentries] at hmem; cases hmem
  | cons e rest =>
    cases rest with
    | nil =>
      rw [hentries, List.mem_singleton] at hmem
      rw [hmem]
    | cons e' rest =>
      rw [hentries] at hkeys hnodup
      have he := hkeys e (by simp)
      have he' := hkeys e' (by simp)
      simp [he, he'] at hnodup

end GoMap

/-- The order in which a loop visits what has none: any rearrangement. -/
structure Arrangement (α : Type*) where
  arrange : List α → List α
  perm : ∀ l, (arrange l).Perm l

end PilotProtocol.Library
