import Mathlib.Logic.Function.Basic
import Mathlib.Logic.Relation

/-!
# Runs of a partial step function

A system is a function `step : σ → α → Option σ`: in the state `s` the action `a` is disabled
(`none`) or leads to one state; `of_guarded` inverts a step that has a guard. `run` executes a list
of actions. `Reaches step ok` is reachability by actions that all meet a condition `ok` on the
action and on the state before it; `Reaches.invariant` is the induction rule for it, and
`reaches_of_run` turns an executed list of actions into a reachable state. `AllStates` and
`AllSteps` speak about one executed list of actions; the lemmas about them compare properties of all
its states with conditions on all its steps. `getElem?_eq_of_isPrefix` is for records that only
grow, `update_cases` for a step that changes one part of a family.
-/

namespace NatProxy.Lib

universe u v

variable {σ : Type u} {α : Type v}

def run (step : σ → α → Option σ) : σ → List α → Option σ
  | s, [] => some s
  | s, a :: as => (step s a).bind fun t => run step t as

/-- One step by an action that meets `ok`. -/
def StepVia (step : σ → α → Option σ) (ok : σ → α → Prop) (s t : σ) : Prop :=
  ∃ a, ok s a ∧ step s a = some t

/-- Reachability by steps whose actions all meet `ok`. -/
abbrev Reaches (step : σ → α → Option σ) (ok : σ → α → Prop) : σ → σ → Prop :=
  Relation.ReflTransGen (StepVia step ok)

def anyStep (_ : σ) (_ : α) : Prop := True

/-- Every state that the listed actions pass through has the property `P`. -/
def AllStates (step : σ → α → Option σ) (P : σ → Prop) : σ → List α → Prop
  | s, [] => P s
  | s, a :: as => P s ∧ ∀ t, step s a = some t → AllStates step P t as

/-- Every action of the list meets `ok` in the state it is taken from. -/
def AllSteps (step : σ → α → Option σ) (ok : σ → α → Prop) : σ → List α → Prop
  | _, [] => True
  | s, a :: as => ∀ t, step s a = some t → ok s a ∧ AllSteps step ok t as

instance AllSteps.decidable (step : σ → α → Option σ) (ok : σ → α → Prop)
    [∀ s a, Decidable (ok s a)] : ∀ (s : σ) (as : List α), Decidable (AllSteps step ok s as)
  | _, [] => isTrue trivial
  | s, a :: as =>
    match h : step s a with
    | none => isTrue fun t ht => by rw [h] at ht; cases ht
    | some t =>
      have := AllSteps.decidable step ok t as
      decidable_of_iff (ok s a ∧ AllSteps step ok t as)
        ⟨fun hboth u hu => by rw [h] at hu; cases hu; exact hboth, fun hall => hall t h⟩

theorem of_guarded {c : Prop} [Decidable c] {s t : σ} (h : (if c then some s else none) = some t) :
    c ∧ s = t := by
  obtain ⟨hc, hs⟩ := Option.ite_none_right_eq_some.mp h
  exact ⟨hc, Option.some.inj hs⟩

theorem of_unless {c : Prop} [Decidable c] {s t : σ} (h : (if c then none else some s) = some t) :
    ¬ c ∧ s = t := by
  obtain ⟨hc, hs⟩ := Option.ite_none_left_eq_some.mp h
  exact ⟨hc, Option.some.inj hs⟩

section Rules

variable {step : σ → α → Option σ} {ok : σ → α → Prop}

variable {s t : σ}

/-- **Invariant rule.** What holds at the start and is kept by each step that meets the condition
holds in every state reached by such steps. -/
theorem Reaches.invariant (h : Reaches step ok s t) (Inv : σ → Prop) (hs : Inv s)
    (hstep : ∀ s a t, Inv s → ok s a → step s a = some t → Inv t) : Inv t := by
  induction h with
  | refl => exact hs
  | tail _ hst ih =>
    obtain ⟨a, hok, ha⟩ := hst
    exact hstep _ a _ ih hok ha

@[simp] theorem run_nil (s : σ) : run step s [] = some s := rfl

theorem run_cons (s : σ) (a : α) (as : List α) :
    run step s (a :: as) = (step s a).bind fun t => run step t as := rfl

theorem run_append (s : σ) (as bs : List α) :
    run step s (as ++ bs) = (run step s as).bind fun t => run step t bs := by
  induction as generalizing s with
  | nil => rfl
  | cons a as ih =>
    rw [List.cons_append, run_cons, run_cons]
    cases step s a with
    | none => rfl
    | some t => exact ih t

variable {as : List α}

theorem reaches_of_allSteps (h : run step s as = some t)
    (hok : AllSteps step ok s as) : Reaches step ok s t := by
  induction as generalizing s with
  | nil =>
    rw [run_nil, Option.some.injEq] at h
    subst h
    exact Relation.ReflTransGen.refl
  | cons a as ih =>
    rw [run_cons, Option.bind_eq_some_iff] at h
    obtain ⟨u, hu, htail⟩ := h
    obtain ⟨ha, has⟩ := hok u hu
    exact Relation.ReflTransGen.head ⟨a, ha, hu⟩ (ih htail has)

theorem allSteps_of_forall_mem (h : ∀ a ∈ as, ∀ s, ok s a) : ∀ s : σ, AllSteps step ok s as := by
  induction as with
  | nil => exact fun _ => trivial
  | cons a as ih =>
    intro s t _
    exact ⟨h a List.mem_cons_self s, ih (fun b hb => h b (List.mem_cons_of_mem a hb)) t⟩

theorem reaches_of_run (h : run step s as = some t) : Reaches step anyStep s t :=
  reaches_of_allSteps h (allSteps_of_forall_mem (fun _ _ _ => trivial) s)

variable {P : σ → Prop}

theorem allStates_of_allSteps  :
    ∀ {s : σ}, (∀ t, Reaches step ok s t → P t) → AllSteps step ok s as →
      AllStates step P s as := by
  induction as with
  | nil => exact fun h _ => h _ Relation.ReflTransGen.refl
  | cons a as ih =>
    intro s h hok
    refine ⟨h s Relation.ReflTransGen.refl, fun t ht => ?_⟩
    obtain ⟨ha, has⟩ := hok t ht
    exact ih (fun u hu => h u (Relation.ReflTransGen.head ⟨a, ha, ht⟩ hu)) has

theorem allStates_iff_allSteps {Inv : σ → Prop} (hinv : ∀ s a t, Inv s → step s a = some t → Inv t)
    (hstep : ∀ s a t, Inv s → P s → step s a = some t → (P t ↔ ok s a)) (as : List α) :
    ∀ s, Inv s → P s → (AllStates step P s as ↔ AllSteps step ok s as) := by
  induction as with
  | nil => exact fun s _ hs => ⟨fun _ => trivial, fun _ => hs⟩
  | cons a as ih =>
    intro s hi hs
    constructor
    · rintro ⟨-, h⟩ t ht
      have htail := h t ht
      -- the tail begins with the state `t` itself
      have hPt : P t := by
        cases as with
        | nil => exact htail
        | cons b bs => exact htail.1
      exact ⟨(hstep s a t hi hs ht).1 hPt, (ih t (hinv s a t hi ht) hPt).1 htail⟩
    · intro h
      refine ⟨hs, fun t ht => ?_⟩
      obtain ⟨hok, htail⟩ := h t ht
      have hPt : P t := (hstep s a t hi hs ht).2 hok
      exact (ih t (hinv s a t hi ht) hPt).2 htail

variable {ok' : σ → α → Prop}

theorem allSteps_of_invariant (Inv : σ → Prop)
    (hinv : ∀ s a t, Inv s → ok s a → step s a = some t → Inv t)
    (hstep : ∀ s a t, Inv s → ok s a → step s a = some t → ok' s a)
    (as : List α) : ∀ s, Inv s → AllSteps step ok s as → AllSteps step ok' s as := by
  induction as with
  | nil => exact fun _ _ _ => trivial
  | cons a as ih =>
    intro s hi h t ht
    obtain ⟨hok, htail⟩ := h t ht
    exact ⟨hstep s a t hi hok ht, ih t (hinv s a t hi hok ht) htail⟩

theorem allSteps_of_allStates (Inv : σ → Prop) (hinv : ∀ s a t, Inv s → step s a = some t → Inv t)
    (hstep : ∀ s a, Inv s → P s → ok s a) (as : List α) :
    ∀ s, Inv s → AllStates step P s as → AllSteps step ok s as := by
  induction as with
  | nil => exact fun _ _ _ => trivial
  | cons a as ih =>
    intro s hi h t ht
    exact ⟨hstep s a hi h.1, ih t (hinv s a t hi ht) (h.2 t ht)⟩

theorem AllSteps.of_append {bs : List α} :
    ∀ {s t : σ}, AllSteps step ok s (as ++ bs) → run step s as = some t →
      AllSteps step ok t bs := by
  induction as with
  | nil =>
    intro s t h hrun
    cases hrun
    exact h
  | cons a as ih =>
    intro s t h hrun
    obtain ⟨u, hu, hrest⟩ := Option.bind_eq_some_iff.mp hrun
    exact ih (h u hu).2 hrest

theorem AllSteps.and : ∀ {s : σ}, AllSteps step ok s as → AllSteps step ok' s as →
      AllSteps step (fun s a => ok s a ∧ ok' s a) s as := by
  induction as with
  | nil => exact fun _ _ => trivial
  | cons a as ih =>
    intro s h h' t ht
    exact ⟨⟨(h t ht).1, (h' t ht).1⟩, ih (h t ht).2 (h' t ht).2⟩

/-- What a step keeps exactly if it meets `ok`, a run keeps exactly if all its steps do. -/
theorem allSteps_of_step (hstep : ∀ {s t : σ} (a : α), step s a = some t → (P t ↔ P s ∧ ok s a)) :
    ∀ {s t : σ}, run step s as = some t → (P t ↔ P s ∧ AllSteps step ok s as) := by
  induction as with
  | nil =>
    intro s t hrun
    cases hrun
    exact (and_iff_left trivial).symm
  | cons a as ih =>
    intro s t hrun
    obtain ⟨u, hu, hrest⟩ := Option.bind_eq_some_iff.mp hrun
    rw [ih hrest, hstep a hu, and_assoc]
    refine and_congr_right fun _ => ⟨fun hboth v hv => ?_, fun hall => hall u hu⟩
    rw [hu] at hv
    cases hv
    exact hboth

theorem allSteps_congr {Inv : σ → Prop} (hinv : ∀ s a t, Inv s → step s a = some t → Inv t)
    (hstep : ∀ s a t, Inv s → step s a = some t → (ok s a ↔ ok' s a))
    (as : List α) : ∀ s, Inv s → (AllSteps step ok s as ↔ AllSteps step ok' s as) := by
  induction as with
  | nil => exact fun _ _ => Iff.rfl
  | cons a as ih =>
    intro s hi
    exact forall_congr' fun t => imp_congr_right fun ht =>
      and_congr (hstep s a t hi ht) (ih t (hinv s a t hi ht))

end Rules

theorem getElem?_eq_of_isPrefix {l m : List α} (h : l <+: m) {i : Nat} {x : α}
    (hx : l[i]? = some x) : m[i]? = some x := by
  obtain ⟨rest, rfl⟩ := h
  have hi : i < l.length := (List.getElem?_eq_some_iff.1 hx).1
  rw [List.getElem?_append_left hi, hx]

theorem update_cases {ι : Type u} {β : Type v} [DecidableEq ι] {f : ι → β} {i k : ι} {b : β}
    (P : β → Prop) (h : P (Function.update f i b k)) : k = i ∧ P b ∨ k ≠ i ∧ P (f k) := by
  by_cases hki : k = i
  · subst hki
    rw [Function.update_self] at h
    exact .inl ⟨rfl, h⟩
  · rw [Function.update_of_ne hki] at h
    exact .inr ⟨hki, h⟩

end NatProxy.Lib
