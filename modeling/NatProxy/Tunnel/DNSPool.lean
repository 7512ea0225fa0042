import NatProxy.Tunnel.DNSBatch

/-!
# Closing the DNS channel pool

Model of `pickChannel`, `openChannel`, `flushBatch` and `close` of `dnsChannelPool` in
`golib/tunnel/dnschannel.go`, on top of the batch queue of `DNSBatch`. Each batch that was taken
from the queue is a call of `flushBatch`. It holds the mutex `mu` while it prunes the channels whose
read loop has ended and dials new ones. `close` first goes through the critical section of the
queue, then takes the channels out of the pool under `mu`, and closes them afterwards.

The pool has no flag that says it is closed. If no call of `flushBatch` comes to `pickChannel` after
`close` has taken the channels, a closed pool has no open channel and opens none
(`staysClosed_of_pickEarly`); otherwise it dials (`latePick_leavesOpen`).
-/

namespace NatProxy.Tunnel.DNSPool

open Lib Function List

def dnsChannelCount : Nat := 2

/-- Pruning, opening channels, or before the round robin. -/
inductive PickPC where
  | prune (rest alive : List Nat)
  | openChannels
  | choose
  deriving DecidableEq, Repr

/-- `using`: the call has its channel, writes to it and waits for the responses. -/
inductive FlushPC where
  | idle
  | picking
  | using (ch : Nat)
  | finished
  deriving DecidableEq, Repr

/-- Before `close` takes the channels, or closing them. -/
inductive ClosePC where
  | idle
  | swap
  | closing (left : List Nat)
  | returned
  deriving DecidableEq, Repr

def ClosePC.left : ClosePC → List Nat
  | .closing left => left
  | _ => []

/-- Calls of `flushBatch` are named by their batches, those of `close` by the order in which they
leave the queue, channels by their streams. `ended` are the channels whose `done` is closed. No
branch reads `closed`, `swapped` and `late` (the streams opened after `close` took the channels). -/
structure State where
  batch : DNSBatch.State := {}
  mu : Option (Nat × PickPC) := none
  flushes : Nat → FlushPC := fun _ => .idle
  closes : Nat → ClosePC := fun _ => .idle
  closeCount : Nat := 0
  channels : List Nat := []
  roundRobin : Nat := 0
  opened : Nat := 0
  ended : List Nat := []
  closed : List Nat := []
  swapped : Bool := false
  late : List Nat := []

def State.setFlush (s : State) (k : Nat) (pc : FlushPC) : State :=
  { s with flushes := update s.flushes k pc }

def State.setClose (s : State) (j : Nat) (pc : ClosePC) : State :=
  { s with closes := update s.closes j pc }

theorem closes_setClose_self (s : State) (j : Nat) (pc : ClosePC) :
    (s.setClose j pc).closes j = pc :=
  update_self ..

theorem closes_setClose_of_ne {i j : Nat} (h : i ≠ j) (s : State) (pc : ClosePC) :
    (s.setClose j pc).closes i = s.closes i :=
  update_of_ne h ..

/-- A step of the batch queue, of a call of `flushBatch`, of a read loop, or of `close`. The flag of
`openNext` is the success of the dial. -/
inductive Action where
  | batch (a : DNSBatch.Action)
  | pick (k : Nat)
  | prune
  | openNext (ok : Bool)
  | choose
  | finish (k : Nat)
  | readLoopEnd (ch : Nat)
  | swap (j : Nat)
  | closeNext (j : Nat)
  deriving DecidableEq, Repr

/-- The action with which `close` leaves the critical section of the queue. -/
def State.LeavesQueue (s : State) (a : DNSBatch.Action) : Prop :=
  s.batch.batchMu = some (.close .unlock) ∧ a = .advance

instance (s : State) (a : DNSBatch.Action) : Decidable (s.LeavesQueue a) :=
  inferInstanceAs (Decidable (_ ∧ _))

def State.batchStep (s : State) (a : DNSBatch.Action) : Option State :=
  (DNSBatch.step s.batch a).map fun b =>
    if s.LeavesQueue a then
      { s.setClose s.closeCount .swap with batch := b, closeCount := s.closeCount + 1 }
    else { s with batch := b }

def State.pick (s : State) (k : Nat) : Option State :=
  if s.flushes k = .idle ∧ k < s.batch.flushed.length ∧ s.mu = none then
    some { s.setFlush k .picking with mu := some (k, .prune s.channels []) }
  else none

/-- One turn of the loop that prunes the dead channels. -/
def State.prune (s : State) : Option State :=
  match s.mu with
  | some (k, .prune (ch :: rest) alive) =>
    if ch ∈ s.ended then
      some { s with mu := some (k, .prune rest alive), closed := ch :: s.closed }
    else some { s with mu := some (k, .prune rest (alive ++ [ch])) }
  | some (k, .prune [] alive) => some { s with mu := some (k, .openChannels), channels := alive }
  | _ => none

/-- `openChannel`, with a dial that succeeds, and the append. -/
def State.openChannel (s : State) : State :=
  { s with
    channels := s.channels ++ [s.opened]
    opened := s.opened + 1
    late := if s.swapped then s.late ++ [s.opened] else s.late }

/-- One turn of the loop; a failed dial is an error if there is no channel. -/
def State.openNext (s : State) (ok : Bool) : Option State :=
  match s.mu with
  | some (k, .openChannels) =>
    if s.channels.length < dnsChannelCount then
      if ok then some s.openChannel
      else if s.channels = [] then some { s.setFlush k .finished with mu := none }
      else some { s with mu := some (k, .choose) }
    else some { s with mu := some (k, .choose) }
  | _ => none

/-- The round robin, whose counter is a `uint32`, and `Unlock`. -/
def State.choose (s : State) : Option State :=
  match s.mu with
  | some (k, .choose) =>
    let next := (s.roundRobin + 1) % 4294967296
    match s.channels[next % s.channels.length]? with
    | some ch => some { s.setFlush k (.using ch) with mu := none, roundRobin := next }
    | none => some { s.setFlush k .finished with mu := none }
  | _ => none

def State.finish (s : State) (k : Nat) : Option State :=
  match s.flushes k with
  | .using _ => some (s.setFlush k .finished)
  | _ => none

/-- One turn of the loop of `close` that closes the channels it has taken. -/
def State.closeNext (s : State) (j : Nat) : Option State :=
  match s.closes j with
  | .closing (ch :: left) =>
    some { s.setClose j (.closing left) with closed := ch :: s.closed }
  | .closing [] => some (s.setClose j .returned)
  | _ => none

def step (s : State) : Action → Option State
  | .batch a => s.batchStep a
  | .pick k => s.pick k
  | .prune => s.prune
  | .openNext ok => s.openNext ok
  | .choose => s.choose
  | .finish k => s.finish k
  | .readLoopEnd ch => if ch < s.opened then some { s with ended := ch :: s.ended } else none
  | .swap j =>
    if s.closes j = .swap ∧ s.mu = none then
      some { s.setClose j (.closing s.channels) with channels := [], swapped := true }
    else none
  | .closeNext j => s.closeNext j

/-- A `close` has returned, nothing is queued, no timer armed, and no call under way. -/
structure State.Quiet (s : State) : Prop where
  returned : ∃ j, s.closes j = .returned
  closes : ∀ j, s.closes j = .idle ∨ s.closes j = .returned
  flushes : ∀ k < s.batch.flushed.length, s.flushes k = .finished
  batchMu : s.batch.batchMu = none
  batchQueue : s.batch.batchQueue = []
  timers : ∀ t ∈ s.batch.timers, t.pc = .ran ∨ (t.pc = .armed ∧ t.stopped = true)

/-- Every channel that was opened is closed. -/
def State.AllClosed (s : State) : Prop :=
  ∀ ch < s.opened, ch ∈ s.closed

/-- A call of `flushBatch` comes to `pickChannel` before `close` takes the channels. -/
def PickEarly (s : State) : Action → Prop
  | .pick _ => s.swapped = false
  | _ => True

instance (s : State) : (a : Action) → Decidable (PickEarly s a)
  | .pick _ => inferInstanceAs (Decidable (_ = _))
  | .batch _ | .prune | .openNext _ | .choose | .finish _ | .readLoopEnd _ | .swap _
  | .closeNext _ => isTrue trivial

/-! ## The places of a channel -/

/-- A call of `close` has taken the channel and has not closed it yet. -/
def State.Taken (s : State) (ch : Nat) : Prop :=
  ∃ j, ch ∈ (s.closes j).left

theorem taken_of_left {s : State} {j ch : Nat} {pc : ClosePC} (h : ch ∈ pc.left) :
    (s.setClose j pc).Taken ch := by
  refine ⟨j, ?_⟩
  rw [closes_setClose_self]
  exact h

theorem taken_of_other {s : State} {j ch : Nat} {pc : ClosePC} (h : s.Taken ch)
    (hj : ch ∈ (s.closes j).left → ch ∈ pc.left) : (s.setClose j pc).Taken ch := by
  obtain ⟨i, hi⟩ := h
  by_cases hij : i = j
  · subst hij
    exact taken_of_left (hj hi)
  · refine ⟨i, ?_⟩
    rw [closes_setClose_of_ne hij]
    exact hi

/-- An opened channel is in the pool, taken, or closed. -/
def State.Placed (s : State) : Prop :=
  ∀ ch < s.opened, ch ∈ s.channels ∨ s.Taken ch ∨ ch ∈ s.closed

/-- While the loop prunes, a channel of the pool is still to come, kept, or closed. -/
def State.Pruned (s : State) : Prop :=
  ∀ k rest alive, s.mu = some (k, .prune rest alive) →
    ∀ ch ∈ s.channels, ch ∈ rest ∨ ch ∈ alive ∨ ch ∈ s.closed

/-- Once `close` has taken the channels, nobody is in `pickChannel`, the pool is empty, and no
stream is opened. -/
structure State.Emptied (s : State) : Prop where
  calls : s.swapped = false → ∀ j, s.closes j = .idle ∨ s.closes j = .swap
  unused : ∀ j, s.closeCount ≤ j → s.closes j = .idle
  empty : s.swapped = true → s.channels = [] ∧ s.mu = none
  late : s.late = []

structure Inv (s : State) : Prop where
  placed : s.Placed
  pruned : s.Pruned
  emptied : s.Emptied

theorem inv_start : Inv {} where
  placed := fun _ h => absurd h (Nat.not_lt_zero _)
  pruned := fun _ _ _ h => nomatch h
  emptied :=
    { calls := fun _ _ => .inl rfl
      unused := fun _ _ => rfl
      empty := fun h => nomatch h
      late := rfl }

section Preserved

variable {s t : State}

theorem Inv.batchStep (h : Inv s) {a : DNSBatch.Action} (hstep : s.batchStep a = some t) :
    Inv t := by
  obtain ⟨b, -, rfl⟩ := Option.map_eq_some_iff.mp hstep
  by_cases hleaves : s.LeavesQueue a
  · rw [if_pos hleaves]
    have hidle := h.emptied.unused s.closeCount (Nat.le_refl _)
    constructor
    case placed =>
      intro ch hch
      rcases h.placed ch hch with hpool | htaken | hclosed
      · exact .inl hpool
      · refine .inr (.inl (taken_of_other htaken fun hmem => ?_))
        rw [hidle] at hmem
        exact absurd hmem not_mem_nil
      · exact .inr (.inr hclosed)
    case pruned => exact h.pruned
    case emptied =>
      refine ⟨fun hs j => ?_, fun j hj => ?_, h.emptied.empty, h.emptied.late⟩
      · by_cases hj : j = s.closeCount
        · subst hj
          exact .inr (closes_setClose_self ..)
        · have hcall := h.emptied.calls hs j
          rwa [← closes_setClose_of_ne hj s .swap] at hcall
      · have hne : j ≠ s.closeCount := Nat.ne_of_gt hj
        exact (closes_setClose_of_ne hne s .swap).trans
          (h.emptied.unused j (Nat.le_of_succ_le hj))
  · rw [if_neg hleaves]
    exact ⟨h.placed, h.pruned, ⟨h.emptied.calls, h.emptied.unused, h.emptied.empty, h.emptied.late⟩⟩

theorem Inv.pick (h : Inv s) {k : Nat} (hearly : s.swapped = false) (hstep : s.pick k = some t) :
    Inv t := by
  obtain ⟨-, rfl⟩ := of_guarded hstep
  refine ⟨h.placed, ?_, ⟨h.emptied.calls, h.emptied.unused, fun hs => ?_, h.emptied.late⟩⟩
  · intro k' rest alive hmu ch hch
    cases hmu
    exact .inl hch
  · exact absurd (hearly.symm.trans hs) Bool.false_ne_true

theorem State.Emptied.locked (h : s.Emptied) {holder : Nat × PickPC} (hmu : s.mu = some holder) :
    s.swapped = false := by
  cases hs : s.swapped with
  | false => rfl
  | true =>
    obtain ⟨-, hfree⟩ := h.empty hs
    rw [hmu] at hfree
    cases hfree

theorem State.Emptied.holder (h : s.Emptied) {holder : Nat × PickPC} (hmu : s.mu = some holder)
    (hcloses : t.closes = s.closes) (hcount : t.closeCount = s.closeCount)
    (hswapped : t.swapped = s.swapped) (hlate : t.late = s.late) : t.Emptied where
  calls := by
    rw [hswapped, hcloses]
    exact h.calls
  unused := by
    rw [hcount, hcloses]
    exact h.unused
  empty := by
    rw [hswapped, h.locked hmu]
    exact fun hs => nomatch hs
  late := by
    rw [hlate]
    exact h.late

theorem Inv.prune (h : Inv s) (hstep : s.prune = some t) : Inv t := by
  rw [State.prune] at hstep
  split at hstep
  · next k ch rest alive hmu =>
      have hpruned := h.pruned k (ch :: rest) alive hmu
      split at hstep
      · obtain rfl := Option.some.inj hstep
        refine ⟨fun c hc => ?_, fun k' rest' alive' hmu' c hc => ?_,
          h.emptied.holder hmu rfl rfl rfl rfl⟩
        · rcases h.placed c hc with hpool | htaken | hclosed
          · exact .inl hpool
          · exact .inr (.inl htaken)
          · exact .inr (.inr (mem_cons_of_mem ch hclosed))
        · cases hmu'
          rcases hpruned c hc with hrest | halive | hclosed
          · grind
          · exact .inr (.inl halive)
          · exact .inr (.inr (mem_cons_of_mem ch hclosed))
      · obtain rfl := Option.some.inj hstep
        refine ⟨h.placed, fun k' rest' alive' hmu' c hc => ?_,
          h.emptied.holder hmu rfl rfl rfl rfl⟩
        cases hmu'
        rcases hpruned c hc with hrest | halive | hclosed
        · grind
        · exact .inr (.inl (mem_append_left [ch] halive))
        · exact .inr (.inr hclosed)
  · next k alive hmu =>
      obtain rfl := Option.some.inj hstep
      refine ⟨fun c hc => ?_, fun _ _ _ hmu' => (nomatch hmu'),
        h.emptied.holder hmu rfl rfl rfl rfl⟩
      rcases h.placed c hc with hpool | hrest
      · rcases h.pruned k [] alive hmu c hpool with hnil | halive | hclosed
        · exact absurd hnil not_mem_nil
        · exact .inl halive
        · exact .inr (.inr hclosed)
      · exact .inr hrest
  · cases hstep

theorem Inv.openChannel (h : Inv s) {k : Nat} (hmu : s.mu = some (k, .openChannels)) :
    Inv s.openChannel := by
  refine ⟨fun c hc => ?_, fun k' rest alive hmu' => ?_, h.emptied.holder hmu rfl rfl rfl ?_⟩
  · rcases Nat.lt_succ_iff_lt_or_eq.mp hc with hc | rfl
    · rcases h.placed c hc with hpool | hrest
      · exact .inl (mem_append_left [s.opened] hpool)
      · exact .inr hrest
    · exact .inl (mem_append_right s.channels mem_cons_self)
  · rw [State.openChannel, hmu] at hmu'
    cases hmu'
  · rw [State.openChannel, h.emptied.locked hmu]
    rfl

theorem Inv.openNext (h : Inv s) {ok : Bool} (hstep : s.openNext ok = some t) : Inv t := by
  rw [State.openNext] at hstep
  split at hstep
  case h_2 => cases hstep
  rename_i k hmu
  have hchoose : Inv { s with mu := some (k, .choose) } :=
    ⟨h.placed, fun _ _ _ hmu' => (nomatch hmu'), h.emptied.holder hmu rfl rfl rfl rfl⟩
  have hfail : Inv { s.setFlush k .finished with mu := none } :=
    ⟨h.placed, fun _ _ _ hmu' => (nomatch hmu'), h.emptied.holder hmu rfl rfl rfl rfl⟩
  split at hstep
  · grind [h.openChannel]
  · obtain rfl := Option.some.inj hstep
    exact hchoose

theorem Inv.choose (h : Inv s) (hstep : s.choose = some t) : Inv t := by
  rw [State.choose] at hstep
  split at hstep
  case h_2 => cases hstep
  rename_i k hmu
  dsimp only at hstep
  split at hstep
  all_goals
    obtain rfl := Option.some.inj hstep
    exact ⟨h.placed, fun _ _ _ hmu' => (nomatch hmu'), h.emptied.holder hmu rfl rfl rfl rfl⟩

theorem Inv.finish (h : Inv s) {k : Nat} (hstep : s.finish k = some t) : Inv t := by
  rw [State.finish] at hstep
  split at hstep
  · obtain rfl := Option.some.inj hstep
    exact ⟨h.placed, h.pruned, ⟨h.emptied.calls, h.emptied.unused, h.emptied.empty, h.emptied.late⟩⟩
  · cases hstep

theorem State.Emptied.unused_set (h : s.Emptied) {j : Nat} {pc : ClosePC}
    (hj : s.closes j ≠ .idle) :
    ∀ i, s.closeCount ≤ i → (s.setClose j pc).closes i = .idle := by
  intro i hi
  have hne : i ≠ j := by
    rintro rfl
    exact hj (h.unused i hi)
  exact (closes_setClose_of_ne hne s pc).trans (h.unused i hi)

theorem Inv.swap (h : Inv s) {j : Nat} (hj : s.closes j = .swap) (hmu : s.mu = none) :
    Inv { s.setClose j (.closing s.channels) with channels := [], swapped := true } := by
  have hcounted : s.closes j ≠ .idle := by
    rw [hj]
    exact nofun
  refine ⟨fun c hc => ?_, fun k rest alive hmu' => ?_, ?_⟩
  · rcases h.placed c hc with hpool | htaken | hclosed
    · exact .inr (.inl (taken_of_left hpool))
    · refine .inr (.inl (taken_of_other htaken fun hmem => ?_))
      rw [hj] at hmem
      exact absurd hmem not_mem_nil
    · exact .inr (.inr hclosed)
  · exact absurd (hmu.symm.trans hmu') nofun
  · exact ⟨fun hs => (nomatch hs), h.emptied.unused_set hcounted, fun _ => ⟨rfl, hmu⟩,
      h.emptied.late⟩

theorem State.Emptied.swapped_of (h : s.Emptied) {j : Nat} (hidle : s.closes j ≠ .idle)
    (hswap : s.closes j ≠ .swap) : s.swapped = true := by
  cases hs : s.swapped with
  | true => rfl
  | false =>
    rcases h.calls hs j with hj | hj
    · exact absurd hj hidle
    · exact absurd hj hswap

theorem Inv.closeNext (h : Inv s) {j : Nat} (hstep : s.closeNext j = some t) : Inv t := by
  rw [State.closeNext] at hstep
  split at hstep
  · next ch left hj =>
      obtain rfl := Option.some.inj hstep
      have hidle : s.closes j ≠ .idle := by
        rw [hj]
        exact nofun
      have hswapped := h.emptied.swapped_of hidle (by rw [hj]; exact nofun)
      refine ⟨fun c hc => ?_, fun k rest alive hmu => ?_, ?_⟩
      · rcases h.placed c hc with hpool | htaken | hclosed
        · exact .inl hpool
        · by_cases hcch : c = ch
          · subst hcch
            exact .inr (.inr mem_cons_self)
          · refine .inr (.inl (taken_of_other htaken fun hmem => ?_))
            rw [hj] at hmem
            exact mem_of_ne_of_mem hcch hmem
        · exact .inr (.inr (mem_cons_of_mem ch hclosed))
      · exact absurd ((h.emptied.empty hswapped).2.symm.trans hmu) nofun
      · exact ⟨fun hs => absurd (hs.symm.trans hswapped) Bool.false_ne_true,
          h.emptied.unused_set hidle, h.emptied.empty, h.emptied.late⟩
  · next hj =>
      obtain rfl := Option.some.inj hstep
      have hidle : s.closes j ≠ .idle := by
        rw [hj]
        exact nofun
      have hswapped := h.emptied.swapped_of hidle (by rw [hj]; exact nofun)
      refine ⟨fun c hc => ?_, h.pruned, ?_⟩
      · rcases h.placed c hc with hpool | htaken | hclosed
        · exact .inl hpool
        · refine .inr (.inl (taken_of_other htaken fun hmem => ?_))
          rw [hj] at hmem
          exact absurd hmem not_mem_nil
        · exact .inr (.inr hclosed)
      · exact ⟨fun hs => absurd (hs.symm.trans hswapped) Bool.false_ne_true,
          h.emptied.unused_set hidle, h.emptied.empty, h.emptied.late⟩
  · cases hstep

theorem Inv.step (h : Inv s) {a : Action} (hearly : PickEarly s a) (hstep : step s a = some t) :
    Inv t := by
  cases a with
  | batch a => exact h.batchStep hstep
  | pick k => exact h.pick hearly hstep
  | prune => exact h.prune hstep
  | openNext ok => exact h.openNext hstep
  | choose => exact h.choose hstep
  | finish k => exact h.finish hstep
  | readLoopEnd ch =>
    obtain ⟨-, rfl⟩ := of_guarded hstep
    exact ⟨h.placed, h.pruned,
      ⟨h.emptied.calls, h.emptied.unused, h.emptied.empty, h.emptied.late⟩⟩
  | swap j =>
    obtain ⟨⟨hj, hmu⟩, rfl⟩ := of_guarded hstep
    exact h.swap hj hmu
  | closeNext j => exact h.closeNext hstep

end Preserved

/-! ## A closed pool -/

/-- **A closed pool stays closed, if nobody picks late.** -/
theorem staysClosed_of_pickEarly {as : List Action} {t : State} (hrun : run step {} as = some t)
    (hearly : AllSteps step PickEarly {} as) (hquiet : t.Quiet) : t.AllClosed ∧ t.late = [] := by
  have hinv : Inv t := (reaches_of_allSteps hrun hearly).invariant Inv inv_start
    fun _ _ _ hs hok hstep => hs.step hok hstep
  refine ⟨fun ch hch => ?_, hinv.emptied.late⟩
  rcases hinv.placed ch hch with hpool | ⟨j, hj⟩ | hclosed
  · obtain ⟨j, hreturned⟩ := hquiet.returned
    have hswapped : t.swapped = true := by
      apply hinv.emptied.swapped_of
      · rw [hreturned]
        exact nofun
      · rw [hreturned]
        exact nofun
    rw [(hinv.emptied.empty hswapped).1] at hpool
    exact absurd hpool not_mem_nil
  · rcases hquiet.closes j with hidle | hreturned
    · rw [hidle] at hj
      exact absurd hj not_mem_nil
    · rw [hreturned] at hj
      exact absurd hj not_mem_nil
  · exact hclosed

def queueOne : List Action :=
  [.batch (.submitQuery []), .batch .advance, .batch .advance, .batch .advance,
    .batch (.fire 0), .batch (.callback 0), .batch .advance, .batch .advance, .batch .advance]

def flushOne : List Action :=
  [.pick 0, .prune, .openNext true, .openNext true, .openNext true, .choose, .finish 0]

def closeCall (taken : List Nat) : List Action :=
  [.batch .close, .batch .advance, .batch .advance, .batch .advance, .swap 0] ++
    taken.map (fun _ => .closeNext 0) ++ [.closeNext 0]

theorem quiet_of_finished {s : State} (hbatch : s.batch.flushed.length = 1)
    (hflush : s.flushes 0 = .finished) (hclose : s.closes 0 = .returned)
    (hcloses : ∀ j, s.closes (j + 1) = .idle) (hmu : s.batch.batchMu = none)
    (hqueue : s.batch.batchQueue = []) (htimers : s.batch.timers = [⟨.ran, false⟩]) :
    s.Quiet where
  returned := ⟨0, hclose⟩
  closes := by
    intro j
    cases j with
    | zero => exact .inr hclose
    | succ j => exact .inl (hcloses j)
  flushes := by
    intro k hk
    rw [hbatch] at hk
    rw [Nat.lt_one_iff.mp hk]
    exact hflush
  batchMu := hmu
  batchQueue := hqueue
  timers := by
    intro t ht
    rw [htimers] at ht
    rw [mem_singleton.mp ht]
    exact .inl rfl

theorem earlyPick_closed : ∃ t : State,
    run step {} (queueOne ++ flushOne ++ closeCall [0, 1]) = some t ∧ t.Quiet ∧ t.opened = 2 ∧
      t.AllClosed ∧ t.late = [] := by
  refine ⟨_, rfl, ?quiet, rfl, @staysClosed_of_pickEarly (queueOne ++ flushOne ++ closeCall [0, 1])
    _ rfl (by decide) ?quiet⟩
  exact quiet_of_finished rfl rfl rfl (fun _ => rfl) rfl rfl rfl

theorem latePick_leavesOpen : ∃ t : State,
    run step {} (queueOne ++ closeCall [] ++ flushOne) = some t ∧ t.Quiet ∧ t.opened = 2 ∧
      t.closed = [] ∧ t.late = [0, 1] ∧ ¬ t.AllClosed := by
  refine ⟨_, rfl, ?_, rfl, rfl, rfl, fun hall => not_mem_nil (hall 0 (by decide))⟩
  exact quiet_of_finished rfl rfl rfl (fun _ => rfl) rfl rfl rfl

end NatProxy.Tunnel.DNSPool
