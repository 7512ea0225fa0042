import Mathlib.Data.List.Nodup
import Mathlib.Data.List.Pairwise

/-!
# Lists in order of last use

A finite map as a list of its entries, the one used last first. `lookup` finds an entry by its key,
`without` removes it, `toFront` puts an entry at the front in the place of the one with its key, and
`insertFront` does the same in a list of bounded size, which loses its back when a new key does not
fit. `ByRecency` says that a list is in order of last use, for a log of the keys used so far.
-/

namespace NatProxy.Lib.RecencyList

open List

universe u v

variable {κ : Type u} {α : Type v} [DecidableEq κ] (key : α → κ)

def lookup (k : κ) (l : List α) : Option α := l.find? fun x => key x = k

def without (k : κ) (l : List α) : List α := l.filter fun x => key x ≠ k

def toFront (x : α) (l : List α) : List α := x :: without key (key x) l

def insertFront (cap : Nat) (x : α) (l : List α) : List α :=
  if (lookup key (key x) l).isSome then toFront key x l
  else x :: if cap ≤ l.length then l.dropLast else l

/-- The keys are in the order in which they were used last; the log has the last use first. -/
def ByRecency (uses : List κ) (l : List α) : Prop :=
  l.Pairwise (fun x y => uses.idxOf (key x) < uses.idxOf (key y)) ∧ ∀ x ∈ l, key x ∈ uses

variable {key}

variable {k : κ} {x : α} {l : List α}

theorem mem_without : x ∈ without key k l ↔ x ∈ l ∧ key x ≠ k := by
  rw [without, mem_filter, decide_eq_true_iff]

theorem lookup_eq_none_iff : lookup key k l = none ↔ k ∉ l.map key := by
  rw [lookup, find?_eq_none, mem_map]
  constructor
  · rintro h ⟨x, hx, hk⟩
    exact h x hx (decide_eq_true hk)
  · intro h x hx hk
    exact h ⟨x, hx, of_decide_eq_true hk⟩

theorem lookup_eq_some_of_mem (hnodup : (l.map key).Nodup) (hx : x ∈ l) :
    lookup key (key x) l = some x := by
  induction l with
  | nil => cases hx
  | cons y l ih =>
    rw [map_cons, nodup_cons] at hnodup
    unfold lookup
    by_cases hy : key y = key x
    · rw [find?_cons_of_pos (p := fun z => key z = key x) (decide_eq_true hy)]
      obtain rfl | hmem := mem_cons.mp hx
      · rfl
      · -- the key of `y` would be there twice
        exact absurd (hy ▸ mem_map_of_mem hmem) hnodup.1
    · rw [find?_cons_of_neg (p := fun z => key z = key x) fun h => hy (of_decide_eq_true h)]
      obtain rfl | hmem := mem_cons.mp hx
      · exact absurd rfl hy
      · exact ih hnodup.2 hmem

theorem mem_of_lookup (h : lookup key k l = some x) : x ∈ l ∧ key x = k := by
  have hkey := find?_some h
  exact ⟨mem_of_find?_eq_some h, of_decide_eq_true hkey⟩

theorem lookup_cons_self (x : α) (l : List α) : lookup key (key x) (x :: l) = some x :=
  find?_cons_of_pos (decide_eq_true rfl)

theorem mem_toFront {y : α} (h : y ∈ toFront key x l) : y = x ∨ (y ∈ l ∧ key y ≠ key x) := by
  obtain rfl | hy := mem_cons.mp h
  · exact .inl rfl
  · exact .inr (mem_without.mp hy)

theorem mem_insertFront {cap : Nat} {y : α} (h : y ∈ insertFront key cap x l) :
    y = x ∨ (y ∈ l ∧ key y ≠ key x) := by
  unfold insertFront at h
  by_cases hx : (lookup key (key x) l).isSome
  · rw [if_pos hx] at h
    exact mem_toFront h
  · rw [if_neg hx] at h
    obtain rfl | hy := mem_cons.mp h
    · exact .inl rfl
    · have hmem : y ∈ l := by
        by_cases hc : cap ≤ l.length
        · rw [if_pos hc] at hy
          exact (dropLast_sublist l).subset hy
        · rw [if_neg hc] at hy
          exact hy
      refine .inr ⟨hmem, fun hkey => ?_⟩
      have hnone := lookup_eq_none_iff.mp (Option.not_isSome_iff_eq_none.mp hx)
      exact hnone (hkey ▸ mem_map_of_mem hmem)

theorem lookup_insertFront_self (cap : Nat) (x : α) (l : List α) :
    lookup key (key x) (insertFront key cap x l) = some x := by
  unfold insertFront toFront
  by_cases hx : (lookup key (key x) l).isSome
  · rw [if_pos hx, lookup_cons_self]
  · rw [if_neg hx, lookup_cons_self]

variable {uses : List κ}

theorem ByRecency.cons_of_forall_ne (h : ByRecency key uses l) (hne : ∀ x ∈ l, key x ≠ k) :
    ByRecency key (k :: uses) l := by
  refine ⟨?_, fun x hx => mem_cons_of_mem k (h.2 x hx)⟩
  apply h.1.imp_of_mem
  intro x y hx hy hlt
  rw [idxOf_cons_ne uses (hne x hx).symm, idxOf_cons_ne uses (hne y hy).symm]
  exact Nat.succ_lt_succ hlt

theorem ByRecency.sublist {l' : List α} (h : ByRecency key uses l)
    (hs : l'.Sublist l) : ByRecency key uses l' :=
  ⟨h.1.sublist hs, fun x hx => h.2 x (hs.subset hx)⟩

theorem ByRecency.cons (h : ByRecency key uses l)
    (hne : ∀ y ∈ l, key y ≠ key x) : ByRecency key (key x :: uses) (x :: l) := by
  obtain ⟨hp, hm⟩ := h.cons_of_forall_ne hne
  refine ⟨pairwise_cons.mpr ⟨fun y hy => ?_, hp⟩, fun y hy => ?_⟩
  · rw [idxOf_cons_self, idxOf_cons_ne uses (hne y hy).symm]
    exact Nat.succ_pos _
  · obtain rfl | hy := mem_cons.mp hy
    · exact mem_cons_self
    · exact hm y hy

theorem ByRecency.toFront (x : α) (h : ByRecency key uses l) :
    ByRecency key (key x :: uses) (toFront key x l) :=
  (h.sublist filter_sublist).cons fun _ hy => (mem_without.mp hy).2

theorem ByRecency.insertFront (cap : Nat) (x : α)
    (h : ByRecency key uses l) : ByRecency key (key x :: uses) (insertFront key cap x l) := by
  unfold RecencyList.insertFront
  by_cases hx : (lookup key (key x) l).isSome
  · rw [if_pos hx]
    exact h.toFront x
  · rw [if_neg hx]
    have hnew : key x ∉ l.map key := by
      apply lookup_eq_none_iff.mp
      rwa [← Option.not_isSome_iff_eq_none]
    have hsub : (if cap ≤ l.length then l.dropLast else l).Sublist l := by
      by_cases hc : cap ≤ l.length
      · rw [if_pos hc]
        exact dropLast_sublist l
      · rw [if_neg hc]
    apply (h.sublist hsub).cons
    intro y hy heq
    exact hnew (heq ▸ mem_map_of_mem (hsub.subset hy))

end NatProxy.Lib.RecencyList
