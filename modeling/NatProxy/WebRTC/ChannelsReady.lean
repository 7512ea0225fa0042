import Mathlib.Data.Finset.Card
import Mathlib.Data.Finset.Range
import NatProxy.Lib.Transition

/-!
# When a connection is ready

Each of the `n` data channels of a connection has a callback that adds 1 to `readyCount` or to
`failedCount` and then runs `checkAllChannelsReady`, on `Client` and on `Server` alike. The check
loads `readyCount`, then `failedCount`, compares the sum with `n`, loads `readyCount` again and
closes `connected` in a `sync.Once`. Other callbacks may run between any two of these operations.

The counters are `int32`s in the code and natural numbers here. They never exceed `n` (`counts_le`),
so below `2 ^ 31` channels the comparisons of the code are those of the model (`comparisons_int32`).
The number of a data channel has 16 bits, so no connection has more.

Nobody passes the comparison before all have counted, and whoever counts last loads the final
values. So `connected` is closed at most once, not before all callbacks have counted, and in the end
exactly if a channel was ready (`ready_once`).
-/

namespace NatProxy.WebRTC.ChannelsReady

open Lib Function

/-- Before it counts; at the loads of `checkAllChannelsReady`; before and inside of
`connectedOnce.Do`; at the end. -/
inductive PC where
  | idle
  | counted
  | loaded (ready : Nat)
  | checking
  | entering
  | inside
  | finished
  deriving DecidableEq, Repr

def PC.passed : PC → Bool
  | .checking | .entering | .inside => true
  | _ => false

def PC.sawReady : PC → Bool
  | .entering | .inside => true
  | _ => false

inductive Once where
  | unused
  | running
  | completed
  deriving DecidableEq, Repr

/-- `closes` and `outcomes` record what happened. -/
structure State where
  readyCount : Nat := 0
  failedCount : Nat := 0
  pcs : Nat → PC := fun _ => .idle
  connectedOnce : Once := .unused
  closes : Nat := 0
  outcomes : Nat → Option Bool := fun _ => none

/-- One atomic operation of the callback `i`. -/
inductive Action where
  | count (i : Nat) (ready : Bool)
  | loadReady (i : Nat)
  | loadFailed (i : Nat)
  | checkReady (i : Nat)
  | enterOnce (i : Nat)
  | closeConnected (i : Nat)
  deriving DecidableEq, Repr

def State.move (s : State) (i : Nat) (pc : PC) : State :=
  { s with pcs := update s.pcs i pc }

/-- `readyCount.Add(1)` or `failedCount.Add(1)`. -/
def State.count (s : State) (i : Nat) (ready : Bool) : State :=
  { s.move i .counted with
    readyCount := if ready then s.readyCount + 1 else s.readyCount
    failedCount := if ready then s.failedCount else s.failedCount + 1
    outcomes := update s.outcomes i (some ready) }

/-- The first call runs the function, and the others wait for its end. -/
def State.enterOnce (s : State) (i : Nat) : Option State :=
  match s.connectedOnce with
  | .unused => some { s.move i .inside with connectedOnce := .running }
  | .running => none
  | .completed => some (s.move i .finished)

variable {n : Nat}

def step (n : Nat) (s : State) : Action → Option State
  | .count i ready => if i < n ∧ s.pcs i = .idle then some (s.count i ready) else none
  | .loadReady i => if s.pcs i = .counted then some (s.move i (.loaded s.readyCount)) else none
  | .loadFailed i =>
    match s.pcs i with
    | .loaded ready =>
      some (s.move i (if ready + s.failedCount = n then .checking else .finished))
    | _ => none
  | .checkReady i =>
    if s.pcs i = .checking then
      some (s.move i (if 0 < s.readyCount then .entering else .finished))
    else none
  | .enterOnce i => if s.pcs i = .entering then s.enterOnce i else none
  | .closeConnected i =>
    if s.pcs i = .inside then
      some { s.move i .finished with connectedOnce := .completed, closes := s.closes + 1 }
    else none

/-! ## Invariants -/

def State.counted (n : Nat) (s : State) : Finset Nat :=
  (Finset.range n).filter fun i => s.pcs i ≠ .idle

def State.Full (n : Nat) (s : State) : Prop := s.readyCount + s.failedCount = n

structure Counts (n : Nat) (s : State) : Prop where
  card : (s.counted n).card = s.readyCount + s.failedCount
  unused : ∀ i, n ≤ i → s.pcs i = .idle
  fresh : ∀ i, s.pcs i = .idle → s.outcomes i = none
  ready : 0 < s.readyCount ↔ ∃ i < n, s.outcomes i = some true

/-- A callback that has counted last does not end before `connected` is closed, if a channel is
ready. -/
def OnTrack (s : State) : PC → Prop
  | .idle => False
  | .loaded ready => ready = s.readyCount
  | .finished => 0 < s.readyCount → s.connectedOnce = .completed
  | _ => True

/-- What the callbacks have found in their checks. -/
structure Checks (n : Nat) (s : State) : Prop where
  loaded : ∀ i ready, s.pcs i = .loaded ready → ready ≤ s.readyCount
  passed : ∀ i, (s.pcs i).passed = true → s.Full n
  sawReady : ∀ i, (s.pcs i).sawReady = true → 0 < s.readyCount
  track : s.Full n → 0 < n → ∃ i < n, OnTrack s (s.pcs i)

/-- `connected` is closed by the one callback that is inside of `connectedOnce`. -/
structure Closing (n : Nat) (s : State) : Prop where
  unused : s.connectedOnce = .unused → s.closes = 0 ∧ ∀ i, s.pcs i ≠ .inside
  running : s.connectedOnce = .running →
    s.closes = 0 ∧ ∃ i, ∀ j, s.pcs j = .inside → j = i
  completed : s.connectedOnce = .completed →
    s.closes = 1 ∧ (∀ i, s.pcs i ≠ .inside) ∧ s.Full n ∧ 0 < s.readyCount

structure Inv (n : Nat) (s : State) : Prop where
  counts : Counts n s
  checks : Checks n s
  closing : Closing n s

theorem inv_start (n : Nat) : Inv n {} where
  counts :=
    { card := by
        rw [State.counted, Finset.filter_false_of_mem (fun _ _ h => h rfl)]
        rfl
      unused := fun _ _ => rfl
      fresh := fun _ _ => rfl
      ready := ⟨fun h => absurd h (Nat.lt_irrefl 0), fun ⟨_, _, h⟩ => nomatch h⟩ }
  checks :=
    { loaded := fun _ _ h => nomatch h
      passed := fun _ h => nomatch h
      sawReady := fun _ h => nomatch h
      track := fun hfull hpos => absurd hfull (Nat.ne_of_lt hpos) }
  closing :=
    { unused := fun _ => ⟨rfl, fun _ h => nomatch h⟩
      running := fun h => nomatch h
      completed := fun h => nomatch h }

section Moves

variable {s t : State} {i : Nat} {pc : PC}

theorem pcs_move_self (s : State) (i : Nat) (pc : PC) : (s.move i pc).pcs i = pc :=
  update_self ..

theorem pcs_move_of_ne {j : Nat} (h : j ≠ i) (s : State) (pc : PC) :
    (s.move i pc).pcs j = s.pcs j :=
  update_of_ne h ..

theorem pcs_move_cases (P : PC → Prop) {j : Nat} (h : P ((s.move i pc).pcs j)) :
    P pc ∨ j ≠ i ∧ P (s.pcs j) :=
  (update_cases P h).imp_left And.right

theorem Counts.le (h : Counts n s) : s.readyCount + s.failedCount ≤ n := by
  rw [← h.card]
  exact (Finset.card_filter_le _ _).trans (Finset.card_range n).le

theorem Counts.not_full (h : Counts n s) (hi : i < n) (hidle : s.pcs i = .idle) :
    s.readyCount + s.failedCount < n := by
  have hmissing : i ∉ s.counted n := fun hmem => (Finset.mem_filter.mp hmem).2 hidle
  have hproper : s.counted n ⊂ Finset.range n :=
    (Finset.filter_subset _ _).ssubset_of_mem_notMem (Finset.mem_range.mpr hi) hmissing
  have hlt := Finset.card_lt_card hproper
  rwa [h.card, Finset.card_range] at hlt

theorem Counts.move (h : Counts n s) (pc : PC) (hfrom : s.pcs i ≠ .idle) (hto : pc ≠ .idle)
    (hpcs : t.pcs = (s.move i pc).pcs) (hready : t.readyCount = s.readyCount)
    (hfailed : t.failedCount = s.failedCount) (houtcomes : t.outcomes = s.outcomes) :
    Counts n t where
  card := by
    have hsame : t.counted n = s.counted n := by
      refine Finset.filter_congr fun j _ => ?_
      rw [hpcs]
      by_cases hj : j = i
      · subst hj
        rw [pcs_move_self]
        exact ⟨fun _ => hfrom, fun _ => hto⟩
      · rw [pcs_move_of_ne hj]
    rw [hsame, hready, hfailed]
    exact h.card
  unused := by
    intro j hj
    have hne : j ≠ i := by
      rintro rfl
      exact hfrom (h.unused j hj)
    rw [hpcs, pcs_move_of_ne hne]
    exact h.unused j hj
  fresh := by
    intro j hj
    rw [hpcs] at hj
    rw [houtcomes]
    obtain hnew | ⟨-, hold⟩ := pcs_move_cases (· = .idle) hj
    · exact absurd hnew hto
    · exact h.fresh j hold
  ready := by
    rw [hready, houtcomes]
    exact h.ready

theorem OnTrack.mono (h : OnTrack s pc) (hready : t.readyCount = s.readyCount)
    (hcompleted : s.connectedOnce = .completed → t.connectedOnce = .completed) : OnTrack t pc := by
  cases pc with
  | idle => exact h
  | loaded ready => exact Eq.trans h hready.symm
  | finished =>
    intro hr
    rw [hready] at hr
    exact hcompleted (h hr)
  | counted | checking | entering | inside => exact trivial

theorem Checks.move (h : Checks n s) (pc : PC) (hpcs : t.pcs = (s.move i pc).pcs)
    (hready : t.readyCount = s.readyCount) (hfailed : t.failedCount = s.failedCount)
    (hcompleted : s.connectedOnce = .completed → t.connectedOnce = .completed)
    (hloaded : ∀ ready, pc = .loaded ready → ready ≤ s.readyCount)
    (hpassed : pc.passed = true → s.Full n) (hsaw : pc.sawReady = true → 0 < s.readyCount)
    (htrack : s.Full n → OnTrack s (s.pcs i) → OnTrack t pc) : Checks n t := by
  have hfull : t.Full n ↔ s.Full n := by rw [State.Full, State.Full, hready, hfailed]
  constructor
  case loaded =>
    intro j ready hj
    rw [hpcs] at hj
    rw [hready]
    obtain hnew | ⟨-, hold⟩ := pcs_move_cases (· = .loaded ready) hj
    · exact hloaded ready hnew
    · exact h.loaded j ready hold
  case passed =>
    intro j hj
    rw [hpcs] at hj
    rw [hfull]
    obtain hnew | ⟨-, hold⟩ := pcs_move_cases (·.passed = true) hj
    · exact hpassed hnew
    · exact h.passed j hold
  case sawReady =>
    intro j hj
    rw [hpcs] at hj
    rw [hready]
    obtain hnew | ⟨-, hold⟩ := pcs_move_cases (·.sawReady = true) hj
    · exact hsaw hnew
    · exact h.sawReady j hold
  case track =>
    intro hall hpos
    obtain ⟨j, hj, hon⟩ := h.track (hfull.mp hall) hpos
    refine ⟨j, hj, ?_⟩
    rw [hpcs]
    by_cases hji : j = i
    · subst hji
      rw [pcs_move_self]
      exact htrack (hfull.mp hall) hon
    · rw [pcs_move_of_ne hji]
      exact hon.mono hready hcompleted

theorem Closing.move (h : Closing n s) (pc : PC) (hto : pc ≠ .inside) :
    Closing n (s.move i pc) := by
  have hback : ∀ j, (s.move i pc).pcs j = .inside → s.pcs j = .inside := by
    intro j hj
    obtain hnew | ⟨-, hold⟩ := pcs_move_cases (· = .inside) hj
    · exact absurd hnew hto
    · exact hold
  constructor
  case unused => exact fun ho => ⟨(h.unused ho).1, fun j hj => (h.unused ho).2 j (hback j hj)⟩
  case running =>
    intro ho
    obtain ⟨hcloses, k, honly⟩ := h.running ho
    exact ⟨hcloses, k, fun j hj => honly j (hback j hj)⟩
  case completed =>
    intro ho
    obtain ⟨hcloses, hnone, hrest⟩ := h.completed ho
    exact ⟨hcloses, fun j hj => hnone j (hback j hj), hrest⟩

end Moves

/-! ## The steps -/

section Steps

variable {s t : State} {i : Nat}

theorem counted_count (hi : i < n) (ready : Bool) :
    (s.count i ready).counted n = insert i (s.counted n) := by
  ext j
  rw [State.counted, State.counted, Finset.mem_insert, Finset.mem_filter, Finset.mem_filter]
  by_cases hji : j = i
  · subst hji
    have hpc : (s.count j ready).pcs j = .counted := pcs_move_self s j .counted
    rw [hpc]
    exact ⟨fun _ => .inl rfl, fun _ => ⟨Finset.mem_range.mpr hi, nofun⟩⟩
  · have hpc : (s.count i ready).pcs j = s.pcs j := pcs_move_of_ne hji s .counted
    rw [hpc]
    exact ⟨.inr, fun h => h.resolve_left hji⟩

theorem total_count (s : State) (i : Nat) (ready : Bool) :
    (s.count i ready).readyCount + (s.count i ready).failedCount =
      s.readyCount + s.failedCount + 1 := by
  cases ready with
  | true => exact Nat.add_right_comm _ _ _
  | false => rfl

theorem readyCount_le_count (s : State) (i : Nat) (ready : Bool) :
    s.readyCount ≤ (s.count i ready).readyCount := by
  cases ready with
  | true => exact Nat.le_succ _
  | false => exact Nat.le_refl _

theorem Counts.count (h : Counts n s) (hi : i < n) (hidle : s.pcs i = .idle) (ready : Bool) :
    Counts n (s.count i ready) where
  card := by
    have hnew : i ∉ s.counted n := fun hmem => (Finset.mem_filter.mp hmem).2 hidle
    rw [counted_count hi, Finset.card_insert_of_notMem hnew, h.card, total_count]
  unused := by
    intro j hj
    have hne : j ≠ i := Nat.ne_of_gt (Nat.lt_of_lt_of_le hi hj)
    exact (pcs_move_of_ne hne s .counted).trans (h.unused j hj)
  fresh := by
    intro j hj
    have hne : j ≠ i := by
      rintro rfl
      rw [show (s.count j ready).pcs j = .counted from pcs_move_self s j .counted] at hj
      cases hj
    rw [show (s.count i ready).pcs j = s.pcs j from pcs_move_of_ne hne s .counted] at hj
    exact (update_of_ne hne ..).trans (h.fresh j hj)
  ready := by
    have hself : (s.count i ready).outcomes i = some ready := update_self ..
    cases ready with
    | true => exact ⟨fun _ => ⟨i, hi, hself⟩, fun _ => Nat.succ_pos _⟩
    | false =>
      refine h.ready.trans ⟨?_, ?_⟩
      · rintro ⟨j, hj, hready⟩
        have hne : j ≠ i := by
          rintro rfl
          rw [h.fresh j hidle] at hready
          cases hready
        exact ⟨j, hj, (update_of_ne hne ..).trans hready⟩
      · rintro ⟨j, hj, hready⟩
        have hne : j ≠ i := by
          rintro rfl
          rw [hself] at hready
          cases hready
        exact ⟨j, hj, (update_of_ne hne ..).symm.trans hready⟩

theorem Inv.count (h : Inv n s) (hi : i < n) (hidle : s.pcs i = .idle) (ready : Bool) :
    Inv n (s.count i ready) := by
  have hnotFull : ¬ s.Full n := Nat.ne_of_lt (h.counts.not_full hi hidle)
  -- The place after the addition is none of those that the invariant speaks about.
  have hback : ∀ P : PC → Prop, ¬ P .counted → ∀ j, P ((s.count i ready).pcs j) → P (s.pcs j) := by
    intro P hnot j hj
    obtain hnew | ⟨-, hold⟩ := pcs_move_cases P hj
    · exact absurd hnew hnot
    · exact hold
  refine ⟨h.counts.count hi hidle ready, ?_, ?_⟩
  · constructor
    case loaded =>
      intro j r hj
      have hold := hback (· = .loaded r) nofun j hj
      exact (h.checks.loaded j r hold).trans (readyCount_le_count s i ready)
    case passed =>
      intro j hj
      have hold := hback (·.passed = true) nofun j hj
      exact absurd (h.checks.passed j hold) hnotFull
    case sawReady =>
      intro j hj
      have hold := hback (·.sawReady = true) nofun j hj
      exact Nat.lt_of_lt_of_le (h.checks.sawReady j hold) (readyCount_le_count s i ready)
    case track =>
      intro _ _
      refine ⟨i, hi, ?_⟩
      rw [show (s.count i ready).pcs i = .counted from pcs_move_self s i .counted]
      exact trivial
  · have hinside := hback (· = .inside) nofun
    constructor
    case unused =>
      intro ho
      exact ⟨(h.closing.unused ho).1, fun j hj => (h.closing.unused ho).2 j (hinside j hj)⟩
    case running =>
      intro ho
      obtain ⟨hcloses, k, honly⟩ := h.closing.running ho
      exact ⟨hcloses, k, fun j hj => honly j (hinside j hj)⟩
    case completed => exact fun ho => absurd (h.closing.completed ho).2.2.1 hnotFull

theorem Inv.loadReady (h : Inv n s) (hpc : s.pcs i = .counted) :
    Inv n (s.move i (.loaded s.readyCount)) where
  counts := h.counts.move (.loaded s.readyCount) (by rw [hpc]; exact nofun) nofun rfl rfl rfl rfl
  checks := h.checks.move (.loaded s.readyCount) rfl rfl rfl id
    (fun r hr => by cases hr; exact Nat.le_refl _) nofun nofun fun _ _ => rfl
  closing := h.closing.move (.loaded s.readyCount) nofun

theorem Inv.loadFailed (h : Inv n s) {r : Nat} (hpc : s.pcs i = .loaded r) :
    Inv n (s.move i (if r + s.failedCount = n then .checking else .finished)) := by
  have hle := h.checks.loaded i r hpc
  have hbound := h.counts.le
  have hfrom : s.pcs i ≠ .idle := by
    rw [hpc]
    exact nofun
  by_cases hsum : r + s.failedCount = n
  · rw [if_pos hsum]
    have hfull : s.Full n := by
      rw [State.Full]
      omega
    exact ⟨h.counts.move .checking hfrom nofun rfl rfl rfl rfl,
      h.checks.move .checking rfl rfl rfl id nofun (fun _ => hfull) nofun fun _ _ => trivial,
      h.closing.move .checking nofun⟩
  · rw [if_neg hsum]
    refine ⟨h.counts.move .finished hfrom nofun rfl rfl rfl rfl,
      h.checks.move .finished rfl rfl rfl id nofun nofun nofun fun hfull hon => ?_,
      h.closing.move .finished nofun⟩
    rw [hpc] at hon
    have hlast : r = s.readyCount := hon
    rw [State.Full, ← hlast] at hfull
    exact absurd hfull hsum

theorem Inv.checkReady (h : Inv n s) (hpc : s.pcs i = .checking) :
    Inv n (s.move i (if 0 < s.readyCount then .entering else .finished)) := by
  have hfrom : s.pcs i ≠ .idle := by
    rw [hpc]
    exact nofun
  have hfull : s.Full n := h.checks.passed i (by rw [hpc]; rfl)
  by_cases hready : 0 < s.readyCount
  · rw [if_pos hready]
    exact ⟨h.counts.move .entering hfrom nofun rfl rfl rfl rfl,
      h.checks.move .entering rfl rfl rfl id nofun (fun _ => hfull) (fun _ => hready)
        fun _ _ => trivial,
      h.closing.move .entering nofun⟩
  · rw [if_neg hready]
    exact ⟨h.counts.move .finished hfrom nofun rfl rfl rfl rfl,
      h.checks.move .finished rfl rfl rfl id nofun nofun nofun fun _ _ hr => absurd hr hready,
      h.closing.move .finished nofun⟩

theorem Inv.enterOnce (h : Inv n s) (hpc : s.pcs i = .entering) (hstep : s.enterOnce i = some t) :
    Inv n t := by
  have hfrom : s.pcs i ≠ .idle := by
    rw [hpc]
    exact nofun
  have hfull : s.Full n := h.checks.passed i (by rw [hpc]; rfl)
  have hready : 0 < s.readyCount := h.checks.sawReady i (by rw [hpc]; rfl)
  rw [State.enterOnce] at hstep
  split at hstep
  · next hunused =>
      obtain rfl := Option.some.inj hstep
      obtain ⟨hcloses, hnone⟩ := h.closing.unused hunused
      refine ⟨h.counts.move .inside hfrom nofun rfl rfl rfl rfl,
        h.checks.move .inside rfl rfl rfl ?_ nofun (fun _ => hfull) (fun _ => hready)
          fun _ _ => trivial, ?_⟩
      · intro hcompleted
        rw [hunused] at hcompleted
        cases hcompleted
      · refine ⟨nofun, fun _ => ⟨hcloses, i, fun j hj => ?_⟩, nofun⟩
        by_contra hji
        exact hnone j ((pcs_move_of_ne hji s .inside).symm.trans hj)
  · cases hstep
  · next hcompleted =>
      obtain rfl := Option.some.inj hstep
      exact ⟨h.counts.move .finished hfrom nofun rfl rfl rfl rfl,
        h.checks.move .finished rfl rfl rfl id nofun nofun nofun fun _ _ _ => hcompleted,
        h.closing.move .finished nofun⟩

theorem Inv.closeConnected (h : Inv n s) (hpc : s.pcs i = .inside) :
    Inv n { s.move i .finished with connectedOnce := .completed, closes := s.closes + 1 } := by
  have hfrom : s.pcs i ≠ .idle := by
    rw [hpc]
    exact nofun
  have hfull : s.Full n := h.checks.passed i (by rw [hpc]; rfl)
  have hready : 0 < s.readyCount := h.checks.sawReady i (by rw [hpc]; rfl)
  refine ⟨h.counts.move .finished hfrom nofun rfl rfl rfl rfl,
    h.checks.move .finished rfl rfl rfl (fun _ => rfl) nofun nofun nofun fun _ _ _ => rfl,
    nofun, nofun, fun _ => ?_⟩
  -- Only the callback that is inside of `connectedOnce` closes, and it was alone there.
  cases honce : s.connectedOnce with
  | unused => exact absurd hpc ((h.closing.unused honce).2 i)
  | completed => exact absurd hpc ((h.closing.completed honce).2.1 i)
  | running =>
    obtain ⟨hcloses, k, honly⟩ := h.closing.running honce
    refine ⟨congrArg Nat.succ hcloses, fun j hj => ?_, hfull, hready⟩
    obtain hnew | ⟨hji, hold⟩ := pcs_move_cases (· = .inside) hj
    · cases hnew
    · exact hji ((honly j hold).trans (honly i hpc).symm)

theorem Inv.step (h : Inv n s) {a : Action} (hstep : step n s a = some t) : Inv n t := by
  cases a with
  | count i ready =>
    obtain ⟨⟨hi, hidle⟩, rfl⟩ := of_guarded hstep
    exact h.count hi hidle ready
  | loadReady i =>
    obtain ⟨hpc, rfl⟩ := of_guarded hstep
    exact h.loadReady hpc
  | loadFailed i =>
    grind [ChannelsReady.step, Option.some.inj, h.loadFailed]
  | checkReady i =>
    obtain ⟨hpc, rfl⟩ := of_guarded hstep
    exact h.checkReady hpc
  | enterOnce i =>
    obtain ⟨hpc, hstep⟩ := Option.ite_none_right_eq_some.mp hstep
    exact h.enterOnce hpc hstep
  | closeConnected i =>
    obtain ⟨hpc, rfl⟩ := of_guarded hstep
    exact h.closeConnected hpc

end Steps

/-! ## Every interleaving -/

theorem inv_of_run {as : List Action} {t : State} (h : run (step n) {} as = some t) : Inv n t :=
  (reaches_of_run h).invariant (Inv n) (inv_start n) fun _ _ _ hs _ hstep => hs.step hstep

theorem counts_le {as : List Action} {t : State} (h : run (step n) {} as = some t) :
    t.readyCount + t.failedCount ≤ n ∧
      ∀ i ready, t.pcs i = .loaded ready → ready + t.failedCount ≤ n := by
  have hinv := inv_of_run h
  refine ⟨hinv.counts.le, fun i ready hpc => ?_⟩
  exact (Nat.add_le_add_right (hinv.checks.loaded i ready hpc) _).trans hinv.counts.le

/-- `total == int32(numChannels)`. -/
def allReported (n ready failed : Nat) : Bool :=
  Int32.ofNat ready + Int32.ofNat failed == Int32.ofNat n

/-- `readyCount.Load() > 0`. -/
def anyReady (ready : Nat) : Bool := decide (0 < Int32.ofNat ready)

theorem allReported_eq {ready failed : Nat} (hn : n < 2147483648) (hle : ready + failed ≤ n) :
    allReported n ready failed = decide (ready + failed = n) := by
  rw [allReported, ← Int32.ofNat_add, Bool.eq_iff_iff, beq_iff_eq, decide_eq_true_iff,
    ← Int32.toInt_inj, Int32.toInt_ofNat_of_lt hn,
    Int32.toInt_ofNat_of_lt (Nat.lt_of_le_of_lt hle hn)]
  exact Int.natCast_inj

theorem anyReady_eq {ready : Nat} (hlt : ready < 2147483648) :
    anyReady ready = decide (0 < ready) := by
  rw [anyReady, Bool.eq_iff_iff, decide_eq_true_iff, decide_eq_true_iff, Int32.lt_iff_toInt_lt,
    Int32.toInt_ofNat_of_lt hlt]
  exact Int.natCast_pos

/-- In every state the comparisons of the code give what those of the model give. -/
theorem comparisons_int32 (hn : n < 2147483648) {as : List Action} {t : State}
    (h : run (step n) {} as = some t) :
    anyReady t.readyCount = decide (0 < t.readyCount) ∧
      ∀ i ready, t.pcs i = .loaded ready →
        allReported n ready t.failedCount = decide (ready + t.failedCount = n) := by
  obtain ⟨htotal, hloaded⟩ := counts_le h
  have hready : t.readyCount ≤ n := (Nat.le_add_right _ _).trans htotal
  exact ⟨anyReady_eq (Nat.lt_of_le_of_lt hready hn),
    fun i ready hpc => allReported_eq hn (hloaded i ready hpc)⟩

/-- **Readiness is signalled once and at the right time.** -/
theorem ready_once {as : List Action} {t : State} (h : run (step n) {} as = some t) :
    t.closes ≤ 1 ∧ (0 < t.closes → ∀ i < n, t.pcs i ≠ .idle) ∧
      ((∀ i < n, t.pcs i = .finished) →
        (t.closes = 1 ↔ ∃ i < n, t.outcomes i = some true)) := by
  have hinv := inv_of_run h
  have hcompleted : 0 < t.closes → t.connectedOnce = .completed := by
    intro hpos
    cases honce : t.connectedOnce with
    | completed => rfl
    | unused => exact absurd (hinv.closing.unused honce).1 (Nat.ne_of_gt hpos)
    | running => exact absurd (hinv.closing.running honce).1 (Nat.ne_of_gt hpos)
  refine ⟨?_, fun hpos i hi hidle => ?_, fun hall => ?_⟩
  · grind [hinv.closing.completed]
  · have hfull := (hinv.closing.completed (hcompleted hpos)).2.2.1
    exact absurd hfull (Nat.ne_of_lt (hinv.counts.not_full hi hidle))
  · rw [← hinv.counts.ready]
    constructor
    · grind [hinv.closing.completed]
    · intro hready
      obtain ⟨i, hi, -⟩ := hinv.counts.ready.mp hready
      have hcounted : t.counted n = Finset.range n := by
        refine Finset.filter_true_of_mem fun j hj => ?_
        rw [hall j (Finset.mem_range.mp hj)]
        exact nofun
      have hfull : t.Full n := by
        rw [State.Full, ← hinv.counts.card, hcounted, Finset.card_range]
      -- The callback that has counted last has finished, and not before `connected` was closed.
      obtain ⟨j, hj, hon⟩ := hinv.checks.track hfull (Nat.zero_lt_of_lt hi)
      rw [hall j hj] at hon
      exact (hinv.closing.completed (hon hready)).1

def failedThenReady : List Action :=
  [.count 0 false, .loadReady 0, .count 1 true, .loadFailed 0, .loadReady 1, .loadFailed 1,
    .checkReady 1, .enterOnce 1, .closeConnected 1]

theorem comparisons_int32_failedThenReady : ∃ t : State,
    run (step 2) {} failedThenReady = some t ∧ anyReady t.readyCount = true :=
  ⟨_, rfl, (comparisons_int32 (by decide) (show run (step 2) {} failedThenReady = _ from rfl)).1⟩

theorem failedThenReady_closes : ∃ t : State, run (step 2) {} failedThenReady = some t ∧
    (∀ i < 2, t.pcs i = .finished) ∧ t.closes = 1 := by
  have hall : ∀ t : State, t.pcs 0 = .finished → t.pcs 1 = .finished →
      ∀ i < 2, t.pcs i = .finished := by
    rintro t h0 h1 (_ | _ | i) hi
    · exact h0
    · exact h1
    · omega
  obtain ⟨t, hrun, h0, h1, hready⟩ : ∃ t : State, run (step 2) {} failedThenReady = some t ∧
      t.pcs 0 = .finished ∧ t.pcs 1 = .finished ∧ t.outcomes 1 = some true :=
    ⟨_, rfl, rfl, rfl, rfl⟩
  exact ⟨t, hrun, hall t h0 h1, ((ready_once hrun).2.2 (hall t h0 h1)).mpr ⟨1, by decide, hready⟩⟩

end NatProxy.WebRTC.ChannelsReady
