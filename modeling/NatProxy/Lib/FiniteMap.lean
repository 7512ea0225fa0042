import Mathlib.Data.List.AList

/-!
# Finite maps

Facts about `AList` at a constant value type, used as the finite maps of the models: what a lookup
after `insert`, `erase` or `filterEntries` returns, and how the first two change the number of keys.
-/

namespace NatProxy.Lib

open List

universe u v

variable {κ : Type u} {α : Type v} [DecidableEq κ]

theorem lookup_insert_eq_some_iff (m : AList fun _ : κ => α) (k k' : κ) (a b : α) :
    (m.insert k a).lookup k' = some b ↔
      (k' = k ∧ a = b) ∨ (k' ≠ k ∧ m.lookup k' = some b) := by
  by_cases h : k' = k
  · subst h
    rw [AList.lookup_insert]
    simp
  · rw [AList.lookup_insert_ne h]
    simp [h]

theorem lookup_erase_eq_some_iff (m : AList fun _ : κ => α) (k k' : κ) (b : α) :
    (m.erase k).lookup k' = some b ↔ k' ≠ k ∧ m.lookup k' = some b := by
  by_cases h : k' = k
  · subst h
    rw [AList.lookup_erase]
    simp
  · rw [AList.lookup_erase_ne h]
    simp [h]

def filterEntries (p : κ → α → Bool) (m : AList fun _ : κ => α) : AList fun _ : κ => α where
  entries := m.entries.filter fun e => p e.1 e.2
  nodupKeys := m.nodupKeys.sublist filter_sublist

theorem lookup_filterEntries_eq_some_iff (p : κ → α → Bool) (m : AList fun _ : κ => α) (k : κ)
    (b : α) : (filterEntries p m).lookup k = some b ↔ m.lookup k = some b ∧ p k b = true := by
  rw [← Option.mem_def, ← Option.mem_def, AList.mem_lookup_iff, AList.mem_lookup_iff]
  exact mem_filter

theorem mem_map_entries_iff (m : AList fun _ : κ => α) (b : α) :
    b ∈ m.entries.map (·.2) ↔ ∃ k, m.lookup k = some b := by
  rw [mem_map]
  constructor
  · rintro ⟨⟨k, c⟩, hmem, rfl⟩
    exact ⟨k, AList.mem_lookup_iff.2 hmem⟩
  · rintro ⟨k, hk⟩
    exact ⟨⟨k, b⟩, AList.mem_lookup_iff.1 hk, rfl⟩

theorem length_keys_insert_of_mem (m : AList fun _ : κ => α) {k : κ} (h : k ∈ m) (a : α) :
    (m.insert k a).keys.length = m.keys.length := by
  have hk : k ∈ m.keys := h
  have hpos := length_pos_of_mem hk
  rw [AList.keys_insert, length_cons, length_erase_of_mem hk]
  omega

theorem length_keys_insert_of_notMem (m : AList fun _ : κ => α) {k : κ} (h : k ∉ m) (a : α) :
    (m.insert k a).keys.length = m.keys.length + 1 := by
  have hk : k ∉ m.keys := h
  rw [AList.keys_insert, length_cons, erase_of_not_mem hk]

theorem length_keys_erase_of_mem (m : AList fun _ : κ => α) {k : κ} (h : k ∈ m) :
    (m.erase k).keys.length + 1 = m.keys.length := by
  have hk : k ∈ m.keys := h
  have hpos := length_pos_of_mem hk
  rw [AList.keys_erase, length_erase_of_mem hk]
  omega

end NatProxy.Lib
