import Mathlib.Data.List.Basic
import Mathlib.Tactic.SplitIfs

/-!
# Regular expressions with priorities

An expression matches at a place in a text in several ways, and they have an order: a repetition
tries one more round before it stops, and of two expressions in a row the first decides first. The
match that is taken is the first one (`Re.matchAt`), as in Perl and in Go. `replaceAll` replaces the
matches from left to right and they do not overlap. No match goes beyond a character that is in no
class of the expression, so the parts of a text before and after it are treated on their own
(`replaceAll_append_cons`).

There is one group at most, and the expressions do not match the empty text (`Re.Consumes`).
-/

namespace NatProxy.Lib.Regexp

open List

/-- A character of a class, two in a row, an expression up to `n` times, and the group. -/
inductive Re where
  | set (p : Char → Bool)
  | seq (a b : Re)
  | upTo (n : Nat) (a : Re)
  | group (a : Re)

/-- The text of a match, what the group has matched, and the text after the match. -/
structure Match where
  text : List Char
  group : Option (List Char)
  rest : List Char
deriving DecidableEq, Repr

def Match.before (m n : Match) : Match := ⟨m.text ++ n.text, n.group.or m.group, n.rest⟩

def Match.extend (m : Match) (more : List Char) : Match := { m with rest := m.rest ++ more }

/-- The ways to match an expression up to `n` times; one more time comes first. -/
def waysUpTo (ways : List Char → List Match) : Nat → List Char → List Match
  | 0, s => [⟨[], none, s⟩]
  | n + 1, s =>
    ((ways s).flatMap fun m => (waysUpTo ways n m.rest).map m.before) ++ [⟨[], none, s⟩]

/-- All ways to match at the beginning of a text, in their order. -/
def Re.ways : Re → List Char → List Match
  | .set _, [] => []
  | .set p, c :: cs => if p c = true then [⟨[c], none, cs⟩] else []
  | .seq a b, s => (a.ways s).flatMap fun m => (b.ways m.rest).map m.before
  | .upTo n a, s => waysUpTo a.ways n s
  | .group a, s => (a.ways s).map fun m => { m with group := some m.text }

def Re.matchAt (r : Re) (s : List Char) : Option Match := (r.ways s).head?

/-- The text without the `skip` characters of a match, with all further matches replaced. -/
def replaceFrom (r : Re) (template : List Char → List Char) : (skip : Nat) → List Char → List Char
  | _, [] => []
  | skip + 1, _ :: cs => replaceFrom r template skip cs
  | 0, c :: cs =>
    match r.matchAt (c :: cs) with
    | some m => template (m.group.getD []) ++ replaceFrom r template (m.text.length - 1) cs
    | none => c :: replaceFrom r template 0 cs

def replaceAll (r : Re) (template : List Char → List Char) (s : List Char) : List Char :=
  replaceFrom r template 0 s

/-- The character is in no class of the expression. -/
def Re.Avoids (c : Char) : Re → Prop
  | .set p => p c = false
  | .seq a b => a.Avoids c ∧ b.Avoids c
  | .upTo _ a => a.Avoids c
  | .group a => a.Avoids c

def Re.Consumes (r : Re) : Prop := ∀ s, ∀ m ∈ r.ways s, m.text ≠ []

section

variable {a b r : Re} {c : Char} {s cs : List Char} {m : Match}

theorem mem_ways_set {p : Char → Bool} :
    m ∈ (Re.set p).ways s ↔ ∃ c cs, s = c :: cs ∧ p c = true ∧ m = ⟨[c], none, cs⟩ := by
  cases s with
  | nil => simp [Re.ways]
  | cons c cs =>
    simp only [Re.ways]
    split_ifs with hc
    · simp [hc, and_assoc]
    · simp [hc]

theorem mem_ways_seq :
    m ∈ (Re.seq a b).ways s ↔ ∃ x ∈ a.ways s, ∃ y ∈ b.ways x.rest, x.before y = m := by
  simp only [Re.ways, mem_flatMap, mem_map]

theorem mem_ways_group :
    m ∈ (Re.group a).ways s ↔ ∃ x ∈ a.ways s, ({ x with group := some x.text } : Match) = m := by
  simp only [Re.ways, mem_map]

theorem append_of_mem_waysUpTo {ways : List Char → List Match}
    (h : ∀ s, ∀ m ∈ ways s, s = m.text ++ m.rest) (n : Nat) :
    ∀ {s : List Char} {m : Match}, m ∈ waysUpTo ways n s → s = m.text ++ m.rest := by
  induction n with
  | zero => simp [waysUpTo]
  | succ n ih =>
    intro s m hm
    rw [waysUpTo, mem_append] at hm
    rcases hm with hm | hm
    · grind [mem_flatMap.mp, mem_map.mp, Match.before]
    · simp_all

theorem append_of_mem_ways (r : Re) :
    ∀ {s : List Char} {m : Match}, m ∈ r.ways s → s = m.text ++ m.rest := by
  induction r with
  | set p =>
    intro s m hm
    obtain ⟨c, cs, rfl, -, rfl⟩ := mem_ways_set.mp hm
    rfl
  | seq a b iha ihb =>
    grind [mem_ways_seq.mp, Match.before]
  | upTo n a ih => exact append_of_mem_waysUpTo (fun _ _ => ih) n
  | group a ih =>
    intro s m hm
    obtain ⟨x, hx, rfl⟩ := mem_ways_group.mp hm
    have happend := ih hx
    exact happend

theorem forall_mem_of_mem_upTo {p : Char → Bool} (n : Nat) :
    ∀ {s : List Char} {m : Match}, m ∈ (Re.upTo n (.set p)).ways s →
      m.group = none ∧ ∀ c ∈ m.text, p c = true := by
  induction n with
  | zero => simp [Re.ways, waysUpTo]
  | succ n ih =>
    intro s m hm
    rw [Re.ways, waysUpTo, mem_append] at hm
    rcases hm with hm | hm
    · obtain ⟨x, hx, hmap⟩ := mem_flatMap.mp hm
      obtain ⟨y, hy, rfl⟩ := mem_map.mp hmap
      obtain ⟨c, cs, -, hc, rfl⟩ := mem_ways_set.mp hx
      obtain ⟨hgroup, htext⟩ := ih hy
      exact ⟨by simp [Match.before, hgroup], by simpa [Match.before, hc] using htext⟩
    · simp_all

theorem mem_ways_of_matchAt (h : r.matchAt s = some m) : m ∈ r.ways s :=
  mem_of_mem_head? h

theorem waysUpTo_append {ways : List Char → List Match} {more : List Char}
    (h : ∀ u, ways (u ++ more) = (ways u).map (·.extend more)) (n : Nat) :
    ∀ u, waysUpTo ways n (u ++ more) = (waysUpTo ways n u).map (·.extend more) := by
  induction n with
  | zero => exact fun _ => rfl
  | succ n ih =>
    intro u
    simp [waysUpTo, h, ih, Match.extend, Match.before, flatMap_map, map_flatMap,
      Function.comp_def]

theorem ways_append_cons (r : Re) (h : r.Avoids c) :
    ∀ u, r.ways (u ++ c :: cs) = (r.ways u).map (·.extend (c :: cs)) := by
  induction r with
  | set p =>
    rintro (_ | ⟨d, u⟩)
    · have hc : p c = false := h
      simp [Re.ways, hc]
    · by_cases hd : p d = true <;> simp [Re.ways, hd, Match.extend]
  | seq a b iha ihb =>
    intro u
    simp [Re.ways, iha h.1, ihb h.2, Match.extend, Match.before, flatMap_map,
      map_flatMap, Function.comp_def]
  | upTo n a ih => exact waysUpTo_append (ih h) n
  | group a ih =>
    intro u
    simp [Re.ways, ih h, Match.extend, Function.comp_def]

theorem matchAt_append_cons (h : r.Avoids c) (u : List Char) :
    r.matchAt (u ++ c :: cs) = (r.matchAt u).map (·.extend (c :: cs)) := by
  rw [Re.matchAt, ways_append_cons r h, head?_map]
  rfl

theorem Re.Consumes.matchAt_nil (h : r.Consumes) : r.matchAt [] = none := by
  by_contra hne
  obtain ⟨m, hm⟩ := Option.ne_none_iff_exists'.mp hne
  have happend := append_of_mem_ways r (mem_ways_of_matchAt hm)
  exact h [] m (mem_ways_of_matchAt hm) (append_eq_nil_iff.mp happend.symm).1

/-! ## Replacing -/

variable {template : List Char → List Char}

theorem replaceFrom_eq_drop (skip : Nat) :
    ∀ s, replaceFrom r template skip s = replaceAll r template (s.drop skip) := by
  induction skip with
  | zero => exact fun _ => rfl
  | succ skip ih =>
    intro s
    cases s with
    | nil => rfl
    | cons c cs => exact ih cs

@[simp] theorem replaceAll_nil : replaceAll r template [] = [] := rfl

theorem replaceAll_of_matchAt (hr : r.Consumes) (h : r.matchAt s = some m) :
    replaceAll r template s = template (m.group.getD []) ++ replaceAll r template m.rest := by
  have happend := append_of_mem_ways r (mem_ways_of_matchAt h)
  obtain ⟨c, cs, htext⟩ := exists_cons_of_ne_nil (hr s m (mem_ways_of_matchAt h))
  have hs : s = c :: (cs ++ m.rest) := by rw [happend, htext, cons_append]
  subst hs
  rw [replaceAll, replaceFrom]
  simp only [h]
  rw [replaceFrom_eq_drop, htext]
  simp

theorem replaceAll_cons_of_none (h : r.matchAt (c :: cs) = none) :
    replaceAll r template (c :: cs) = c :: replaceAll r template cs := by
  rw [replaceAll, replaceFrom]
  simp only [h]
  rfl

theorem replaceAll_induction {P : List Char → Prop} (hr : r.Consumes) (nil : P [])
    (skip : ∀ c cs, r.matchAt (c :: cs) = none → P cs → P (c :: cs))
    (found : ∀ s m, r.matchAt s = some m → P m.rest → P s) (s : List Char) : P s := by
  induction hn : s.length using Nat.strongRecOn generalizing s with
  | _ n ih =>
    cases hm : r.matchAt s with
    | some m =>
      have happend := append_of_mem_ways r (mem_ways_of_matchAt hm)
      have htext := length_pos_of_ne_nil (hr s m (mem_ways_of_matchAt hm))
      have hlength := congrArg length happend
      rw [length_append] at hlength
      exact found s m hm (ih _ (by omega) m.rest rfl)
    | none =>
      cases s with
      | nil => exact nil
      | cons c cs => exact skip c cs hm (ih _ (by simp [← hn]) cs rfl)

theorem replaceAll_append_cons (hr : r.Consumes) (hc : r.Avoids c) (u : List Char) :
    replaceAll r template (u ++ c :: cs) =
      replaceAll r template u ++ c :: replaceAll r template cs := by
  induction u using replaceAll_induction hr with
  | nil =>
    apply replaceAll_cons_of_none
    exact (matchAt_append_cons hc []).trans (by rw [hr.matchAt_nil]; rfl)
  | skip d u hnone ih =>
    have hnone' : r.matchAt (d :: (u ++ c :: cs)) = none :=
      (matchAt_append_cons hc (d :: u)).trans (by rw [hnone]; rfl)
    rw [cons_append, replaceAll_cons_of_none hnone, replaceAll_cons_of_none hnone', ih,
      cons_append]
  | found u m hm ih =>
    have hm' : r.matchAt (u ++ c :: cs) = some (m.extend (c :: cs)) :=
      (matchAt_append_cons hc u).trans (by rw [hm]; rfl)
    rw [replaceAll_of_matchAt hr hm, replaceAll_of_matchAt hr hm', append_assoc, ← ih]
    rfl

end

end NatProxy.Lib.Regexp
