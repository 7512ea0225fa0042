import Mathlib.Data.List.Basic

/-!
# Index and slice expressions

`s[i]`, `s[lo:hi]` and `s[lo:]` of Go on a slice whose capacity is its length. The indices are
`int`s, and an index that is out of range is a panic, which is none here.
-/

namespace NatProxy.Lib.GoSlice

universe u

variable {α : Type u}

/-- `s[i]`. -/
def index (s : List α) (i : Int) : Option α :=
  if i < 0 then none else s[i.toNat]?

/-- `s[lo:hi]`. -/
def slice (s : List α) (lo hi : Int) : Option (List α) :=
  if 0 ≤ lo ∧ lo ≤ hi ∧ hi ≤ s.length then some ((s.drop lo.toNat).take (hi - lo).toNat) else none

/-- `s[lo:]`. -/
def sliceFrom (s : List α) (lo : Int) : Option (List α) :=
  slice s lo s.length

theorem index_natCast (s : List α) (i : Nat) : index s i = s[i]? := by
  rw [index, if_neg (Int.not_lt.mpr (Int.natCast_nonneg i)), Int.toNat_natCast]

theorem slice_natCast {s : List α} {lo width : Nat} (h : lo + width ≤ s.length) :
    slice s lo (lo + width : Nat) = some ((s.drop lo).take width) := by
  have hrange : (0 : Int) ≤ lo ∧ (lo : Int) ≤ (lo + width : Nat) ∧
      ((lo + width : Nat) : Int) ≤ s.length := by omega
  have hwidth : (((lo + width : Nat) : Int) - lo).toNat = width := by omega
  rw [slice, if_pos hrange, Int.toNat_natCast, hwidth]

theorem sliceFrom_natCast {s : List α} {lo : Nat} (h : lo ≤ s.length) :
    sliceFrom s lo = some (s.drop lo) := by
  have hrest : lo + (s.length - lo) = s.length := Nat.add_sub_cancel' h
  have hslice := slice_natCast (Nat.le_of_eq hrest)
  rw [hrest] at hslice
  rw [sliceFrom, hslice, ← List.length_drop, List.take_length]

end NatProxy.Lib.GoSlice
