import Mathlib.Logic.Basic

/-!
# Items that are in one place at a time

`At p x` says that the item `x` is in the place `p`. The relation is linear when no item is in two
places. `Linear.step` is the rule for a step that takes items away, moves them to one place or puts
a new one there.
-/

namespace NatProxy.Lib

universe u v

variable {π : Type u} {γ : Type v}

/-- No item is in two places. -/
def Linear (At : π → γ → Prop) : Prop := ∀ p q x, At p x → At q x → p = q

/-- Every item is where it was, or in the place `q`, and then it is new or has left another place.
-/
theorem Linear.step {At At' : π → γ → Prop} (h : Linear At) (q : π)
    (hstep : ∀ r x, At' r x → At r x ∨ (r = q ∧ ((∀ p, ¬ At p x) ∨ ∃ p, At p x ∧ ¬ At' p x))) :
    Linear At' := by
  -- an item that stayed and an item that came to `q` cannot be the same
  have hapart {r x} (hr : At' r x) (hold : At r x)
      (hcame : (∀ p, ¬ At p x) ∨ ∃ p, At p x ∧ ¬ At' p x) : False := by
    rcases hcame with hnew | ⟨p, hp, hleft⟩
    · exact hnew r hold
    · rw [h p r x hp hold] at hleft
      exact hleft hr
  intro p r x hp hr
  rcases hstep p x hp with hp' | ⟨rfl, hp'⟩
  · rcases hstep r x hr with hr' | ⟨rfl, hr'⟩
    · exact h p r x hp' hr'
    · exact (hapart hp hp' hr').elim
  · rcases hstep r x hr with hr' | ⟨rfl, -⟩
    · exact (hapart hr hr' hp').elim
    · rfl

theorem Linear.mono {At At' : π → γ → Prop} (h : Linear At) (hstep : ∀ r x, At' r x → At r x) :
    Linear At' :=
  fun p q x hp hq => h p q x (hstep p x hp) (hstep q x hq)

end NatProxy.Lib
