import Mathlib.Data.BitVec
import Mathlib.Tactic.SplitIfs

/-!
# Bit sets in arrays of machine words

A bit set of `n * w` bits is an array of `n` words of `w` bits each; the bit number `k` is bit
`k % w` of word `k / w` (`bitOf`, `bitAt`). `bitAt_setWord_or` says what setting one bit by a mask
does, `bitOf_moveWords` and `bitOf_moveBits` what moving the words up and shifting across the word
boundaries do.

`forDown` and `forUp` are counting loops. If a loop that overwrites words in place runs downwards
and reads only at or below the word it writes, or upwards and only at or above it, then it computes
from the old words (`wordAt_forDown`, `wordAt_forUp`).
-/

namespace NatProxy.Lib

section Words

variable {n w : Nat}

/-- A word; there are zeros beyond the end of the array. -/
def wordAt (v : Vector (BitVec w) n) (i : Nat) : BitVec w := v[i]?.getD 0

def bitOf (u : Nat → BitVec w) (k : Nat) : Bool := (u (k / w)).getLsbD (k % w)

def bitAt (v : Vector (BitVec w) n) (k : Nat) : Bool := bitOf (wordAt v) k

theorem wordAt_set {v : Vector (BitVec w) n} {i : Nat} (hi : i < n) (x : BitVec w) (j : Nat) :
    wordAt (v.setIfInBounds i x) j = if i = j then x else wordAt v j := by
  rw [wordAt, Vector.getElem?_setIfInBounds]
  split_ifs
  · rfl
  · rfl

theorem wordAt_replicate_zero (i : Nat) : wordAt (Vector.replicate n (0 : BitVec w)) i = 0 := by
  rw [wordAt, Vector.getElem?_replicate]
  split_ifs
  · rfl
  · rfl

theorem bitAt_replicate_zero (k : Nat) : bitAt (Vector.replicate n (0 : BitVec w)) k = false := by
  rw [bitAt, bitOf, wordAt_replicate_zero]
  exact BitVec.getLsbD_zero

theorem eq_iff_div_mod {w k l : Nat} : k = l ↔ k / w = l / w ∧ k % w = l % w := by
  constructor
  · rintro rfl
    exact ⟨rfl, rfl⟩
  · rintro ⟨hdiv, hmod⟩
    rw [← Nat.div_add_mod k w, hdiv, hmod, Nat.div_add_mod]

theorem bitAt_setWord_or {v : Vector (BitVec w) n} {l : Nat} (hl : l / w < n) (hw : 0 < w)
    (k : Nat) :
    bitAt (v.setIfInBounds (l / w) (wordAt v (l / w) ||| 1#w <<< (l % w))) k =
      (bitAt v k || decide (l = k)) := by
  have hmod : l % w < w := Nat.mod_lt l hw
  rw [bitAt, bitAt, bitOf, bitOf, wordAt_set hl]
  by_cases hword : l / w = k / w
  · rw [if_pos hword, hword, BitVec.getLsbD_or]
    congr 1
    -- the mask has its only bit at `l % w`
    rw [← BitVec.twoPow_eq, BitVec.getLsbD_twoPow, decide_eq_true hmod, Bool.true_and]
    apply decide_eq_decide.2
    constructor
    · intro hplace
      exact eq_iff_div_mod.2 ⟨hword, hplace⟩
    · intro heq
      exact (eq_iff_div_mod.1 heq).2
  · grind

/-- Every word moved up by `d` places, zeros below. -/
def moveWords (d : Nat) (u : Nat → BitVec w) (i : Nat) : BitVec w := if d ≤ i then u (i - d) else 0

/-- Every bit moved up by `d < w` places: the high bits of a word go to the word above. -/
def moveBits (d : Nat) (u : Nat → BitVec w) (i : Nat) : BitVec w :=
  if i = 0 then u 0 <<< d else u i <<< d ||| u (i - 1) >>> (w - d)

theorem bitOf_moveWords (hw : 0 < w) (d : Nat) (u : Nat → BitVec w) (k : Nat) :
    bitOf (moveWords d u) k = (decide (w * d ≤ k) && bitOf u (k - w * d)) := by
  have hle : d ≤ k / w ↔ w * d ≤ k := by
    rw [Nat.le_div_iff_mul_le hw, Nat.mul_comm]
  rw [bitOf, bitOf, moveWords]
  by_cases hd : w * d ≤ k
  · rw [if_pos (hle.2 hd), Nat.sub_mul_div, Nat.sub_mul_mod hd, decide_eq_true hd, Bool.true_and]
  · grind

theorem bitOf_mul_add {r : Nat} (hr : r < w) (u : Nat → BitVec w) (j : Nat) :
    bitOf u (w * j + r) = (u j).getLsbD r := by
  have hw : 0 < w := by omega
  rw [bitOf, Nat.mul_add_div hw, Nat.div_eq_of_lt hr, Nat.mul_add_mod, Nat.mod_eq_of_lt hr,
    Nat.add_zero]

theorem bitOf_moveBits {d : Nat} (hd : d < w) (u : Nat → BitVec w) (k : Nat) :
    bitOf (moveBits d u) k = (decide (d ≤ k) && bitOf u (k - d)) := by
  have hw : 0 < w := by omega
  obtain ⟨j, r, hr, rfl⟩ : ∃ j r, r < w ∧ k = w * j + r :=
    ⟨k / w, k % w, Nat.mod_lt k hw, (Nat.div_add_mod k w).symm⟩
  rw [bitOf_mul_add hr]
  by_cases hlow : d ≤ r
  · -- the bit comes from the same word
    have hsub : w * j + r - d = w * j + (r - d) := by omega
    rw [hsub, bitOf_mul_add (by omega), decide_eq_true (by omega), Bool.true_and, moveBits]
    have hhigh : ¬ w - d + r < w := by omega
    split_ifs with hj
    · rw [BitVec.getLsbD_shiftLeft, hj]
      simp [hr, Nat.not_lt.2 hlow]
    · grind
  · cases j with
    | zero =>
      have hnone : ¬ d ≤ w * 0 + r := by omega
      rw [moveBits, if_pos rfl, BitVec.getLsbD_shiftLeft, decide_eq_false hnone]
      simp [Nat.lt_of_not_le hlow]
    | succ j =>
      -- the bit comes from the word below
      have hsub : w * (j + 1) + r - d = w * j + (w - d + r) := by
        rw [Nat.mul_succ]
        omega
      have hle : d ≤ w * (j + 1) + r := by
        rw [Nat.mul_succ]
        omega
      rw [hsub, bitOf_mul_add (by omega), decide_eq_true hle, Bool.true_and, moveBits,
        if_neg (Nat.succ_ne_zero j), BitVec.getLsbD_or, BitVec.getLsbD_shiftLeft,
        BitVec.getLsbD_ushiftRight, Nat.add_sub_cancel]
      simp [Nat.lt_of_not_le hlow]

end Words

/-! ## Loops -/

section Loops

variable {β : Type}

/-- `for i := lo + k - 1; i >= lo; i--`. -/
def forDown (body : Nat → β → β) (lo : Nat) : Nat → β → β
  | 0, b => b
  | k + 1, b => forDown body lo k (body (lo + k) b)

/-- `for i := lo; i < lo + k; i++`. -/
def forUp (body : Nat → β → β) : Nat → Nat → β → β
  | _, 0, b => b
  | lo, k + 1, b => forUp body (lo + 1) k (body lo b)

variable {n w : Nat}

/-- Overwrite the word `i` by a function of the words. -/
def overwrite (g : (Nat → BitVec w) → Nat → BitVec w) (i : Nat) (v : Vector (BitVec w) n) :
    Vector (BitVec w) n :=
  v.setIfInBounds i (g (wordAt v) i)

/-- **In-place loops that run downwards.** -/
theorem wordAt_forDown {g : (Nat → BitVec w) → Nat → BitVec w}
    (hg : ∀ i u v, (∀ j, j ≤ i → u j = v j) → g u i = g v i) {lo k : Nat} (hk : lo + k ≤ n)
    (v : Vector (BitVec w) n) (j : Nat) :
    wordAt (forDown (overwrite g) lo k v) j =
      if lo ≤ j ∧ j < lo + k then g (wordAt v) j else wordAt v j := by
  -- the words below the counter are still the old ones
  induction k generalizing v with
  | zero => rw [forDown, if_neg (by omega)]
  | succ k ih =>
    rw [forDown, ih (by omega)]
    have hstep : ∀ l, wordAt (overwrite g (lo + k) v) l =
        if lo + k = l then g (wordAt v) (lo + k) else wordAt v l :=
      wordAt_set (by omega) _
    by_cases hbelow : lo ≤ j ∧ j < lo + k
    · rw [if_pos hbelow, if_pos (by omega)]
      apply hg
      intro l hl
      rw [hstep, if_neg (by omega)]
    · rw [if_neg hbelow, hstep]
      by_cases htop : lo + k = j
      · rw [if_pos htop, if_pos (by omega), htop]
      · rw [if_neg htop, if_neg (by omega)]

/-- **In-place loops that run upwards.** -/
theorem wordAt_forUp {g : (Nat → BitVec w) → Nat → BitVec w}
    (hg : ∀ i u v, (∀ j, i ≤ j → u j = v j) → g u i = g v i) {lo k : Nat} (hk : lo + k ≤ n)
    (v : Vector (BitVec w) n) (j : Nat) :
    wordAt (forUp (overwrite g) lo k v) j =
      if lo ≤ j ∧ j < lo + k then g (wordAt v) j else wordAt v j := by
  induction k generalizing v lo with
  | zero => rw [forUp, if_neg (by omega)]
  | succ k ih =>
    rw [forUp, ih (by omega)]
    have hstep : ∀ l, wordAt (overwrite g lo v) l =
        if lo = l then g (wordAt v) lo else wordAt v l :=
      wordAt_set (by omega) _
    by_cases habove : lo + 1 ≤ j ∧ j < lo + 1 + k
    · rw [if_pos habove, if_pos (by omega)]
      apply hg
      intro l hl
      rw [hstep, if_neg (by omega)]
    · grind

end Loops

end NatProxy.Lib
