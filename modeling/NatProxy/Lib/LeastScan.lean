import Mathlib.Data.List.Basic

/-!
# Scanning for the least

A loop that goes through a list, passes over some items, and keeps the first item whose count is
below that of all before it, starting from a bound. It finds the first item with the least count, if
there is one below the bound (`Least`, `exists_least`).
-/

namespace NatProxy.Lib.LeastScan

open List

variable {α : Type} (usable : α → Bool) (count : α → Nat)

/-- The loop, from the best item so far and its count. -/
def scanFrom : Option α → Nat → List α → Option α
  | best, _, [] => best
  | best, bestCount, x :: xs =>
    if usable x = false then scanFrom best bestCount xs
    else if count x < bestCount then scanFrom (some x) (count x) xs
    else scanFrom best bestCount xs

def scan (bound : Nat) (xs : List α) : Option α := scanFrom usable count none bound xs

/-- The first item with the least count, which is below the bound. -/
structure Least (bound : Nat) (xs : List α) (x : α) (before after : List α) : Prop where
  split : xs = before ++ x :: after
  chosen : usable x = true
  below : count x < bound
  earlier : ∀ y ∈ before, usable y = true → count x < count y
  later : ∀ y ∈ after, usable y = true → count x ≤ count y

variable {usable count}

variable {xs before after : List α} {x y : α}

theorem Least.cons {m n : Nat} (h : Least usable count m xs x before after) (hmn : m ≤ n)
    (hy : usable y = true → count x < count y) :
    Least usable count n (y :: xs) x (y :: before) after where
  split := by
    rw [h.split]
    rfl
  chosen := h.chosen
  below := Nat.lt_of_lt_of_le h.below hmn
  earlier := forall_mem_cons.mpr ⟨hy, h.earlier⟩
  later := h.later

theorem scanFrom_spec (best : Option α) (bound : Nat) (xs : List α) :
    (scanFrom usable count best bound xs = best ∧
        ∀ y ∈ xs, usable y = true → bound ≤ count y) ∨
      ∃ x before after, scanFrom usable count best bound xs = some x ∧
        Least usable count bound xs x before after := by
  induction xs generalizing best bound with
  | nil => exact .inl ⟨rfl, fun y hy => (nomatch hy)⟩
  | cons y ys ih =>
    rw [scanFrom]
    by_cases hskip : usable y = false
    · rw [if_pos hskip]
      rcases ih best bound with ⟨hbest, hall⟩ | ⟨x, before, after, hscan, hleast⟩
      · exact .inl ⟨hbest, forall_mem_cons.mpr ⟨fun hy => (by simp [hskip] at hy), hall⟩⟩
      · exact .inr ⟨x, y :: before, after, hscan,
          hleast.cons (Nat.le_refl _) fun hy => (by simp [hskip] at hy)⟩
    · rw [if_neg hskip]
      by_cases hless : count y < bound
      · rw [if_pos hless]
        rcases ih (some y) (count y) with ⟨hbest, hall⟩ | ⟨x, before, after, hscan, hleast⟩
        · exact .inr ⟨y, [], ys, hbest, rfl, Bool.not_eq_false _ ▸ hskip, hless,
            fun _ h => (nomatch h), hall⟩
        · -- a later item is below `y`
          exact .inr ⟨x, y :: before, after, hscan,
            hleast.cons (Nat.le_of_lt hless) fun _ => hleast.below⟩
      · rw [if_neg hless]
        have hle := Nat.le_of_not_lt hless
        rcases ih best bound with ⟨hbest, hall⟩ | ⟨x, before, after, hscan, hleast⟩
        · exact .inl ⟨hbest, forall_mem_cons.mpr ⟨fun _ => hle, hall⟩⟩
        · exact .inr ⟨x, y :: before, after, hscan,
            hleast.cons (Nat.le_refl _) fun _ => Nat.lt_of_lt_of_le hleast.below hle⟩

variable {bound : Nat}

theorem Least.mem (h : Least usable count bound xs x before after) : x ∈ xs := by
  rw [h.split]
  exact mem_append_right before mem_cons_self

theorem Least.le (h : Least usable count bound xs x before after) (hy : y ∈ xs)
    (husable : usable y = true) : count x ≤ count y := by
  rw [h.split] at hy
  rcases mem_append.mp hy with hy | hy
  · exact Nat.le_of_lt (h.earlier y hy husable)
  · rcases mem_cons.mp hy with rfl | hy
    · exact Nat.le_refl _
    · exact h.later y hy husable

theorem Least.mem_or_eq (h : Least usable count bound xs x before after) {front back : List α}
    (hsplit : xs = front ++ y :: back) (husable : usable y = true) (hle : count y ≤ count x) :
    x ∈ front ∨ x = y := by
  rcases append_eq_append_iff.mp (hsplit.symm.trans h.split) with
    ⟨mid, hbefore, hafter⟩ | ⟨mid, hfront, hafter⟩
  · cases mid with
    | nil => exact .inr (cons.inj hafter).1.symm
    | cons first mid =>
      have hmem : y ∈ before := by
        rw [hbefore, (cons.inj hafter).1]
        exact mem_append_right _ mem_cons_self
      exact absurd (h.earlier y hmem husable) (Nat.not_lt_of_le hle)
  · cases mid with
    | nil => exact .inr (cons.inj hafter).1
    | cons first mid =>
      rw [hfront, (cons.inj hafter).1]
      exact .inl (mem_append_right _ mem_cons_self)

variable (usable count)

theorem exists_least (hy : y ∈ xs) (husable : usable y = true) (hbound : count y < bound) :
    ∃ x before after, scan usable count bound xs = some x ∧
      Least usable count bound xs x before after := by
  rcases scanFrom_spec none bound xs with ⟨-, hall⟩ | hfound
  · exact absurd hbound (Nat.not_lt_of_le (hall y hy husable))
  · exact hfound

theorem scan_eq_none (h : ∀ y ∈ xs, usable y = false) (bound : Nat) :
    scan usable count bound xs = none := by
  rcases scanFrom_spec none bound xs with ⟨hnone, -⟩ | ⟨x, before, after, -, hleast⟩
  · exact hnone
  · have hskip := h x hleast.mem
    rw [hleast.chosen] at hskip
    cases hskip

end NatProxy.Lib.LeastScan
