import Mathlib.Data.List.Basic
import Mathlib.Data.List.Perm.Basic

/-!
# Exchanging entries of a slice

`List.swap` is `s[i], s[j] = s[j], s[i]`, and `shuffle` is the loop of Fisher and Yates. The
outcomes of the random source are a list of any numbers; a source that is not seeded may fail, and
the loop ends then.
-/

namespace NatProxy.Lib.Swaps

open List

variable {α : Type}

theorem swap_append (front middle back : List α) (x y : α) :
    swap (front ++ x :: (middle ++ y :: back)) front.length (front.length + (middle.length + 1)) =
      front ++ y :: (middle ++ x :: back) := by
  rw [swap_eq_of_lt (by simp) (by simp)]
  simp [set_append_right]

theorem getElem?_swap_of_lt {l : List α} {i j : Nat} (hi : i < l.length) (hj : j < l.length) :
    (l.swap i j)[i]? = l[j]? := by
  have hi' : i < (l.swap i j).length := by rwa [length_swap]
  rw [getElem?_eq_getElem hi', getElem_swap_left_of_lt hj, getElem?_eq_getElem hj]

structure Rand where
  seeded : Bool
  outcomes : List (Option Nat)

def Rand.next (r : Rand) : Rand := { r with outcomes := r.outcomes.tail }

/-- `Intn(n)` of a seeded source. -/
def Rand.intn (r : Rand) (n : Nat) : Nat := (r.outcomes.head?.join.getD 0) % n

def Rand.draw (r : Rand) (n : Nat) : Option Nat :=
  if r.seeded then some (r.intn n) else r.outcomes.head?.join.map (· % n)

/-- The rest of the loop, which exchanges the entry `i` next. -/
def shuffle (r : Rand) : Nat → List α → List α × Rand
  | 0, l => (l, r)
  | i + 1, l =>
    match r.draw (i + 2) with
    | none => (l, r.next)
    | some j => shuffle r.next i (swap l (i + 1) j)

theorem shuffle_perm (r : Rand) (i : Nat) (l : List α) : (shuffle r i l).1.Perm l := by
  induction i generalizing r l with
  | zero => exact .refl l
  | succ i ih =>
    rw [shuffle]
    split
    · exact .refl l
    · exact (ih _ _).trans (swap_perm _ _ _)

def seededShuffle (l : List α) (r : Rand) : List α × Rand := shuffle r (l.length - 1) l

theorem draw_cons {i n : Nat} (h : i < n) (seeded : Bool) (outcomes : List (Option Nat)) :
    Rand.draw ⟨seeded, some i :: outcomes⟩ n = some i := by
  cases seeded with
  | false => simp [Rand.draw, Nat.mod_eq_of_lt h]
  | true => simp [Rand.draw, Rand.intn, Nat.mod_eq_of_lt h]

/-- Some outcomes exchange one entry with the first one, and do nothing else. -/
theorem exists_shuffle_eq_swap (seeded : Bool) {i j : Nat} (hj : j ≤ i) :
    ∃ outcomes, ∀ l : List α, (shuffle ⟨seeded, outcomes⟩ i l).1 = swap l j 0 := by
  induction i generalizing j with
  | zero => exact ⟨[], fun l => by rw [Nat.le_zero.mp hj, swap_self]; rfl⟩
  | succ i ih =>
    by_cases heq : j = i + 1
    · -- the rest of the loop exchanges nothing
      obtain ⟨outcomes, h⟩ := ih (Nat.zero_le i)
      refine ⟨some 0 :: outcomes, fun l => ?_⟩
      rw [shuffle, draw_cons (by omega), heq]
      exact (h _).trans swap_self
    · obtain ⟨outcomes, h⟩ := ih (show j ≤ i by omega)
      refine ⟨some (i + 1) :: outcomes, fun l => ?_⟩
      rw [shuffle, draw_cons (by omega)]
      exact (h _).trans (by rw [swap_self])

end NatProxy.Lib.Swaps
