import Mathlib.Algebra.GroupWithZero.Nat
import Mathlib.Data.List.Range
import Mathlib.Logic.Function.Basic

/-!
# A ring of the newest entries

A ring has a fixed number of slots. The entry with position `i` of an endless history is written to
the slot `i % cap`, so that the ring holds the newest `cap` entries of the history (`Holds`), and
the entries from any of their positions on can be read back in order (`Holds.window_eq`).
-/

namespace NatProxy.Lib.Ring

open List

variable {α : Type} {cap : Nat} [NeZero cap]

def slot (i : Nat) : Fin cap := Fin.ofNat cap i

def write (ring : Fin cap → α) (i : Nat) (x : α) : Fin cap → α :=
  Function.update ring (slot i) x

/-- The entries at the positions from `start` up to `stop`. -/
def window (ring : Fin cap → α) (start stop : Nat) : List α :=
  (range' start (stop - start)).map fun i => ring (slot i)

/-- The ring holds the newest entries of the history. -/
def Holds (ring : Fin cap → α) (history : List α) : Prop :=
  ∀ (i : Nat) (x : α), history[i]? = some x → history.length ≤ i + cap → ring (slot i) = x

theorem holds_nil (ring : Fin cap → α) : Holds ring [] := by
  intro i x hx
  simp at hx

theorem slot_ne {i j : Nat} (hlt : i < j) (hnear : j < i + cap) :
    (slot i : Fin cap) ≠ slot j := by
  intro hslot
  have hmod : i % cap = j % cap := congrArg Fin.val hslot
  have hdvd : cap ∣ j - i := Nat.dvd_of_mod_eq_zero (Nat.sub_mod_eq_zero_of_mod_eq hmod.symm)
  have hle := Nat.le_of_dvd (Nat.sub_pos_of_lt hlt) hdvd
  omega

theorem Holds.write {ring : Fin cap → α} {history : List α} (h : Holds ring history) (x : α) :
    Holds (Ring.write ring history.length x) (history ++ [x]) := by
  intro i y hy hnew
  rw [length_append, length_singleton] at hnew
  rcases Nat.lt_trichotomy i history.length with hlt | rfl | hgt
  · rw [getElem?_append_left hlt] at hy
    rw [Ring.write, Function.update_of_ne (slot_ne hlt (by omega))]
    exact h i y hy (by omega)
  · rw [getElem?_concat_length, Option.some.injEq] at hy
    rw [Ring.write, Function.update_self, hy]
  · rw [getElem?_eq_none (by simp; omega)] at hy
    cases hy

theorem Holds.window_eq {ring : Fin cap → α} {history : List α} (h : Holds ring history)
    {start : Nat} (hstart : history.length ≤ start + cap) :
    window ring start history.length = history.drop start := by
  apply ext_getElem?
  intro k
  rw [window, getElem?_map, getElem?_drop]
  by_cases hk : start + k < history.length
  · have hrange : (range' start (history.length - start))[k]? = some (start + k) := by
      rw [getElem?_range' (by omega)]
      simp
    have hentry := getElem?_eq_getElem hk
    rw [hrange, hentry, Option.map_some, h _ _ hentry (by omega)]
  · rw [getElem?_eq_none (by simp; omega), getElem?_eq_none (by omega)]
    rfl

end NatProxy.Lib.Ring
