import NatProxy.Lib.Transition
import NatProxy.Lib.BigEndian
import Mathlib.Data.List.Perm.Basic
import Mathlib.Data.List.Nodup

/-!
# The batch queue of the DNS channel pool

Model of `submitQuery` and `close` of `dnsChannelPool` in `golib/tunnel/dnschannel.go`: the queue
that collects queries, the timer that ends its window, and the mutex `batchMu` that guards both.
The holder of `batchMu` goes through its critical section one statement at a time; between two
statements timers may fire.

A timer of `time.AfterFunc` is named by its number. `Stop` keeps a timer that has not fired from
firing. It does nothing to a callback that is already under way: such a callback waits for `batchMu`
and then takes whatever is queued, which may be the batch of a newer timer. What carries the proofs
is that `batchTimer`, while it is set, is a timer that nobody stopped and whose callback has not
run, and that it is set while something is queued.
-/

namespace NatProxy.Tunnel.DNSBatch

open Lib List

/-- `dnsBatchItem`; the response channel is named by the number of its call. -/
structure Item where
  query : Bytes
  resultCh : Nat
deriving Repr, DecidableEq

def dnsBatchMaxQueries : Nat := 16

/-- A timer waits, its callback is under way, or its callback is past its critical section. -/
inductive TimerPC where
  | armed
  | fired
  | ran
deriving Repr, DecidableEq

structure Timer where
  pc : TimerPC := .armed
  stopped : Bool := false
deriving Repr, DecidableEq

/-- The places in the critical section of `submitQuery`; at the last there may be a batch for
`flushBatch`. -/
inductive SubmitPC where
  | append
  | branch
  | stopTimer (batch : List Item)
  | flush (batch : List Item)
  | unlock
deriving Repr, DecidableEq

/-- The places in the critical section of a callback. -/
inductive CallbackPC where
  | take
  | clearTimer (batch : List Item)
  | flush (batch : List Item)
deriving Repr, DecidableEq

/-- The critical section of `close`, with its loop over the queue. -/
inductive ClosePC where
  | stopTimer
  | fail (rest : List Item)
  | unlock
deriving Repr, DecidableEq

inductive Holder where
  | submit (item : Item) (pc : SubmitPC)
  | callback (k : Nat) (pc : CallbackPC)
  | close (pc : ClosePC)
deriving Repr, DecidableEq

/-- `submitted` are the items appended, `closed` the queues that `close` dropped, `failed` the items
that got its error. -/
structure State where
  batchMu : Option Holder := none
  batchQueue : List Item := []
  batchTimer : Option Nat := none
  timers : List Timer := []
  submitted : List Item := []
  flushed : List (List Item) := []
  closed : List (List Item) := []
  failed : List Item := []
deriving Repr, DecidableEq

/-- `if p.batchTimer != nil { p.batchTimer.Stop(); p.batchTimer = nil }` -/
def State.stopTimer (s : State) : State :=
  match s.batchTimer with
  | some k =>
    { s with
      timers := s.timers.modify k fun t => { t with stopped := true }
      batchTimer := none }
  | none => s

def State.advance (s : State) : Holder → State
  | .submit item .append =>
    { s with
      batchQueue := s.batchQueue ++ [item]
      submitted := s.submitted ++ [item]
      batchMu := some (.submit item .branch) }
  | .submit item .branch =>
    if dnsBatchMaxQueries ≤ s.batchQueue.length then
      { s with
        batchQueue := []
        batchMu := some (.submit item (.stopTimer s.batchQueue)) }
    else
      match s.batchTimer with
      -- `time.AfterFunc`
      | none =>
        { s with
          timers := s.timers ++ [{}]
          batchTimer := some s.timers.length
          batchMu := some (.submit item .unlock) }
      | some _ => { s with batchMu := some (.submit item .unlock) }
  | .submit item (.stopTimer batch) =>
    { s.stopTimer with batchMu := some (.submit item (.flush batch)) }
  | .submit _ (.flush batch) => { s with flushed := s.flushed ++ [batch], batchMu := none }
  | .submit _ .unlock => { s with batchMu := none }
  | .callback k .take =>
    { s with batchQueue := [], batchMu := some (.callback k (.clearTimer s.batchQueue)) }
  | .callback k (.clearTimer batch) =>
    { s with batchTimer := none, batchMu := some (.callback k (.flush batch)) }
  | .callback k (.flush batch) =>
    { s with
      timers := s.timers.modify k fun t => { t with pc := .ran }
      flushed := if batch = [] then s.flushed else s.flushed ++ [batch]
      batchMu := none }
  | .close .stopTimer => { s.stopTimer with batchMu := some (.close (.fail s.batchQueue)) }
  -- the channel of a queued item is empty, so the send does not block
  | .close (.fail (item :: rest)) =>
    { s with failed := s.failed ++ [item], batchMu := some (.close (.fail rest)) }
  | .close (.fail []) =>
    { s with
      batchQueue := []
      closed := s.closed ++ [s.batchQueue]
      batchMu := some (.close .unlock) }
  | .close .unlock => { s with batchMu := none }

/-- A call or a callback takes `batchMu`; a timer fires; the holder of `batchMu` goes on. -/
inductive Action where
  | submitQuery (query : Bytes)
  | fire (k : Nat)
  | callback (k : Nat)
  | close
  | advance
deriving Repr, DecidableEq

def State.lock (s : State) (h : Holder) : Option State :=
  match s.batchMu with
  | none => some { s with batchMu := some h }
  | some _ => none

def step (s : State) : Action → Option State
  | .submitQuery query => s.lock (.submit ⟨query, s.submitted.length⟩ .append)
  | .fire k =>
    match s.timers[k]? with
    | some ⟨.armed, false⟩ =>
      some { s with timers := s.timers.modify k fun t => { t with pc := .fired } }
    | _ => none
  -- a callback that is under way runs, stopped or not
  | .callback k =>
    match s.timers[k]? with
    | some ⟨.fired, _⟩ => s.lock (.callback k .take)
    | _ => none
  | .close => s.lock (.close .stopTimer)
  | .advance => s.batchMu.map s.advance

def init : State := {}

/-! ## Where the items are -/

/-- The batch that the holder of `batchMu` has taken from the queue and not passed on yet. -/
def Holder.batch : Holder → List Item
  | .submit _ (.stopTimer batch) => batch
  | .submit _ (.flush batch) => batch
  | .callback _ (.clearTimer batch) => batch
  | .callback _ (.flush batch) => batch
  | _ => []

def State.held (s : State) : List Item := (s.batchMu.map Holder.batch).getD []

/-- How often an item was taken out of the queue. -/
def State.removals (s : State) (item : Item) : Nat :=
  s.held.count item + s.flushed.flatten.count item + s.closed.flatten.count item

/-- The callback of a timer that nobody stopped has not run its critical section yet. -/
def State.Live (s : State) (k : Nat) : Prop :=
  ∃ t, s.timers[k]? = some t ∧ t.stopped = false ∧ t.pc ≠ .ran

/-- Whatever is queued, `batchTimer` is set. -/
def State.Covered (s : State) : Prop := s.batchQueue ≠ [] → s.batchTimer ≠ none

/-- What holds before each statement of a critical section. -/
def Holder.Ok (s : State) : Holder → Prop
  | .submit item .append => item.resultCh = s.submitted.length ∧ s.Covered
  -- the item that was just appended may have no timer yet
  | .submit _ .branch => True
  | .submit _ (.stopTimer _) => s.batchQueue = []
  | .submit _ (.flush _) => s.batchQueue = []
  | .submit _ .unlock => s.Covered
  | .callback _ .take => s.Covered
  | .callback _ (.clearTimer _) => s.batchQueue = []
  | .callback _ (.flush _) => s.batchQueue = [] ∧ s.batchTimer = none
  | .close .stopTimer => s.Covered
  -- the queue is still there while its items are failed, but its timer is not
  | .close (.fail _) => s.batchTimer = none
  | .close .unlock => s.batchQueue = []

/-- Timer and queue fit together, as far as the critical section has got. -/
def State.Guarded (s : State) : Prop :=
  match s.batchMu with
  | none => s.Covered
  | some h => h.Ok s

structure Inv (s : State) : Prop where
  /-- Each submitted item is queued or was removed, once. -/
  count : ∀ item, s.batchQueue.count item + s.removals item = s.submitted.count item
  channels : s.submitted.map Item.resultCh = range s.submitted.length
  timer : ∀ k, s.batchTimer = some k → s.Live k
  guarded : s.Guarded

theorem inv_init : Inv init where
  count := fun _ => rfl
  channels := rfl
  timer := fun _ h => nomatch h
  guarded := fun h => absurd rfl h

variable {s : State}

theorem State.Guarded.covered (hg : s.Guarded) (hh : s.batchMu = none) : s.Covered := by
  unfold State.Guarded at hg
  rw [hh] at hg
  exact hg

variable {h : Holder}

theorem State.Guarded.ok (hg : s.Guarded) (hh : s.batchMu = some h) : h.Ok s := by
  unfold State.Guarded at hg
  rw [hh] at hg
  exact hg

section Frame

variable (s : State)

@[simp] theorem State.stopTimer_batchQueue : s.stopTimer.batchQueue = s.batchQueue := by
  unfold State.stopTimer
  cases s.batchTimer <;> rfl

@[simp] theorem State.stopTimer_submitted : s.stopTimer.submitted = s.submitted := by
  unfold State.stopTimer
  cases s.batchTimer <;> rfl

@[simp] theorem State.stopTimer_flushed : s.stopTimer.flushed = s.flushed := by
  unfold State.stopTimer
  cases s.batchTimer <;> rfl

@[simp] theorem State.stopTimer_closed : s.stopTimer.closed = s.closed := by
  unfold State.stopTimer
  cases s.batchTimer <;> rfl

@[simp] theorem State.stopTimer_failed : s.stopTimer.failed = s.failed := by
  unfold State.stopTimer
  cases s.batchTimer <;> rfl

@[simp] theorem State.stopTimer_batchTimer : s.stopTimer.batchTimer = none := by
  unfold State.stopTimer
  cases h : s.batchTimer with
  | none => exact h
  | some k => rfl

end Frame

/-! ## One statement of a critical section -/

theorem flatten_flushed (flushed : List (List Item)) (batch : List Item) :
    (if batch = [] then flushed else flushed ++ [batch]).flatten = flushed.flatten ++ batch := by
  by_cases hb : batch = []
  · rw [if_pos hb, hb, append_nil]
  · rw [if_neg hb, flatten_append, flatten_singleton]

theorem advance_branch_cases (s : State) (item : Item) :
    s.advance (.submit item .branch) =
        { s with
          batchQueue := []
          batchMu := some (.submit item (.stopTimer s.batchQueue)) } ∨
      (s.batchTimer = none ∧ s.advance (.submit item .branch) =
        { s with
          timers := s.timers ++ [{}]
          batchTimer := some s.timers.length
          batchMu := some (.submit item .unlock) }) ∨
      (s.batchTimer ≠ none ∧ s.advance (.submit item .branch) =
        { s with batchMu := some (.submit item .unlock) }) := by
  by_cases hfull : dnsBatchMaxQueries ≤ s.batchQueue.length
  · left
    simp only [State.advance, if_pos hfull]
  · right
    cases ht : s.batchTimer with
    | none =>
      left
      simp only [State.advance, if_neg hfull, ht, and_self]
    | some k =>
      right
      refine ⟨fun h => (nomatch h), ?_⟩
      simp only [State.advance, if_neg hfull, ht]

section Advance

variable {s : State} {h : Holder}

theorem count_advance (hh : s.batchMu = some h) (item : Item)
    (hc : s.batchQueue.count item + s.removals item = s.submitted.count item) :
    (s.advance h).batchQueue.count item + (s.advance h).removals item =
      (s.advance h).submitted.count item := by
  simp only [State.removals, State.held, hh, Option.map_some, Option.getD_some] at hc ⊢
  cases h with
  | submit x pc =>
    cases pc with
    | append =>
      simp only [State.advance, Holder.batch, count_append, Option.map_some,
        Option.getD_some] at hc ⊢
      omega
    | branch =>
      obtain e | ⟨-, e⟩ | ⟨-, e⟩ := advance_branch_cases s x
      · rw [e]
        simp only [Holder.batch, count_nil, Option.map_some, Option.getD_some] at hc ⊢
        omega
      · rw [e]
        exact hc
      · rw [e]
        exact hc
    | stopTimer batch =>
      simp only [State.advance, State.stopTimer_batchQueue, State.stopTimer_flushed,
        State.stopTimer_closed, State.stopTimer_submitted]
      exact hc
    | flush batch =>
      simp only [State.advance, Holder.batch, flatten_append, flatten_singleton,
        count_append, Option.map_none, Option.getD_none, count_nil] at hc ⊢
      omega
    | unlock => exact hc
  | callback k pc =>
    cases pc with
    | take =>
      simp only [State.advance, Holder.batch, count_nil, Option.map_some,
        Option.getD_some] at hc ⊢
      omega
    | clearTimer batch => exact hc
    | flush batch =>
      simp only [State.advance, Holder.batch, flatten_flushed, count_append,
        Option.map_none, Option.getD_none, count_nil] at hc ⊢
      omega
  | close pc =>
    cases pc with
    | stopTimer =>
      simp only [State.advance, State.stopTimer_batchQueue, State.stopTimer_flushed,
        State.stopTimer_closed, State.stopTimer_submitted]
      exact hc
    | fail rest =>
      cases rest with
      | nil =>
        simp only [State.advance, Holder.batch, flatten_append, flatten_singleton,
          count_append, Option.map_some, Option.getD_some, count_nil] at hc ⊢
        omega
      | cons x rest => exact hc
    | unlock => exact hc

theorem channels_advance (hok : h.Ok s)
    (hc : s.submitted.map Item.resultCh = range s.submitted.length) :
    (s.advance h).submitted.map Item.resultCh = range (s.advance h).submitted.length := by
  cases h with
  | submit x pc =>
    cases pc with
    | append =>
      simp only [State.advance, map_append, map_cons, map_nil, hc, hok.1,
        length_append, length_singleton, range_succ]
    | branch =>
      obtain e | ⟨-, e⟩ | ⟨-, e⟩ := advance_branch_cases s x
      all_goals
        rw [e]
        exact hc
    | stopTimer batch =>
      simp only [State.advance, State.stopTimer_submitted]
      exact hc
    | flush batch | unlock => exact hc
  | callback k pc =>
    cases pc with
    | take | clearTimer batch | flush batch => exact hc
  | close pc =>
    cases pc with
    | stopTimer =>
      simp only [State.advance, State.stopTimer_submitted]
      exact hc
    | fail rest =>
      cases rest with
      | nil | cons x rest => exact hc
    | unlock => exact hc

theorem timer_advance (hok : h.Ok s) (ht : ∀ k, s.batchTimer = some k → s.Live k) :
    ∀ k, (s.advance h).batchTimer = some k → (s.advance h).Live k := by
  intro j hj
  cases h with
  | submit x pc =>
    cases pc with
    | append | flush batch | unlock => exact ht j hj
    | branch =>
      obtain e | ⟨-, e⟩ | ⟨-, e⟩ := advance_branch_cases s x
      · rw [e] at hj ⊢
        exact ht j hj
      · rw [e] at hj ⊢
        obtain rfl : s.timers.length = j := Option.some.inj hj
        exact ⟨{}, getElem?_concat_length, rfl, fun h => nomatch h⟩
      · rw [e] at hj ⊢
        exact ht j hj
    | stopTimer batch =>
      simp only [State.advance, State.stopTimer_batchTimer, reduceCtorEq] at hj
  | callback k pc =>
    cases pc with
    | take => exact ht j hj
    | clearTimer batch => exact nomatch hj
    | flush batch =>
      have hnone : s.batchTimer = some j := hj
      rw [hok.2] at hnone
      cases hnone
  | close pc =>
    cases pc with
    | stopTimer => simp only [State.advance, State.stopTimer_batchTimer, reduceCtorEq] at hj
    | fail rest =>
      cases rest with
      | nil | cons x rest => exact ht j hj
    | unlock => exact ht j hj

theorem guarded_advance (hok : h.Ok s) : (s.advance h).Guarded := by
  cases h with
  | submit x pc =>
    cases pc with
    | append => trivial
    | branch =>
      obtain e | ⟨-, e⟩ | ⟨hset, e⟩ := advance_branch_cases s x
      · rw [e]
        rfl
      · rw [e]
        exact fun _ hnone => nomatch hnone
      · rw [e]
        exact fun _ => hset
    | stopTimer batch => exact (State.stopTimer_batchQueue s).trans hok
    -- an empty queue needs no timer
    | flush batch => exact fun hne => absurd hok hne
    | unlock => exact hok
  | callback k pc =>
    cases pc with
    | take => rfl
    | clearTimer batch => exact ⟨hok, rfl⟩
    | flush batch => exact fun hne => absurd hok.1 hne
  | close pc =>
    cases pc with
    | stopTimer => exact State.stopTimer_batchTimer s
    | fail rest =>
      cases rest with
      | nil => rfl
      | cons x rest => exact hok
    | unlock => exact fun hne => absurd hok hne

end Advance

theorem Inv.advance (hi : Inv s) (hh : s.batchMu = some h) :
    Inv (s.advance h) where
  count := fun item => count_advance hh item (hi.count item)
  channels := channels_advance (hi.guarded.ok hh) hi.channels
  timer := timer_advance (hi.guarded.ok hh) hi.timer
  guarded := guarded_advance (hi.guarded.ok hh)

/-! ## All runs -/

variable {t : State}

theorem lock_eq_some (hl : s.lock h = some t) :
    s.batchMu = none ∧ t = { s with batchMu := some h } := by
  unfold State.lock at hl
  cases hm : s.batchMu with
  | none =>
    rw [hm] at hl
    exact ⟨rfl, (Option.some.inj hl).symm⟩
  | some h' =>
    rw [hm] at hl
    cases hl

variable {a : Action}

theorem step_cases (hst : step s a = some t) :
    (∃ h, s.batchMu = none ∧ t = { s with batchMu := some h } ∧ h.batch = [] ∧
      (s.Covered → h.Ok s) ∧ ∀ rest, h ≠ .close (.fail rest)) ∨
    (∃ k, t = { s with timers := s.timers.modify k fun t => { t with pc := .fired } }) ∨
    (∃ h, s.batchMu = some h ∧ t = s.advance h) := by
  cases a with
  | submitQuery query =>
    obtain ⟨hm, rfl⟩ := lock_eq_some hst
    exact .inl ⟨_, hm, rfl, rfl, fun hc => ⟨rfl, hc⟩, fun rest h => nomatch h⟩
  | fire k =>
    right
    left
    simp only [step] at hst
    split at hst
    next => exact ⟨k, (Option.some.inj hst).symm⟩
    next => cases hst
  | callback k =>
    left
    simp only [step] at hst
    split at hst
    next =>
      obtain ⟨hm, rfl⟩ := lock_eq_some hst
      exact ⟨_, hm, rfl, rfl, fun hc => hc, fun rest h => nomatch h⟩
    next => cases hst
  | close =>
    obtain ⟨hm, rfl⟩ := lock_eq_some hst
    exact .inl ⟨_, hm, rfl, rfl, fun hc => hc, fun rest h => nomatch h⟩
  | advance =>
    obtain ⟨h, hm, rfl⟩ := Option.map_eq_some_iff.mp hst
    exact .inr (.inr ⟨h, hm, rfl⟩)

theorem live_fire {j : Nat} (k : Nat) (hj : s.Live j) :
    State.Live { s with timers := s.timers.modify k fun t => { t with pc := .fired } } j := by
  obtain ⟨t, ht, hstop, hpc⟩ := hj
  by_cases hjk : k = j
  · subst hjk
    refine ⟨{ t with pc := .fired }, ?_, hstop, fun h => nomatch h⟩
    show (s.timers.modify k _)[k]? = _
    rw [getElem?_modify_eq, ht]
    rfl
  · refine ⟨t, ?_, hstop, hpc⟩
    show (s.timers.modify k _)[j]? = _
    rw [getElem?_modify_ne _ _ hjk, ht]

theorem Inv.step (hi : Inv s) (hst : step s a = some t) : Inv t := by
  obtain ⟨h, hm, rfl, hb, hok, -⟩ | ⟨k, rfl⟩ | ⟨h, hm, rfl⟩ := step_cases hst
  · -- the new holder has taken nothing yet
    refine ⟨fun item => ?_, hi.channels, hi.timer, hok (hi.guarded.covered hm)⟩
    have hc := hi.count item
    simp only [State.removals, State.held, hm, Option.map_none, Option.getD_none, Option.map_some,
      Option.getD_some, hb] at hc ⊢
    exact hc
  · exact ⟨hi.count, hi.channels, fun j hj => live_fire k (hi.timer j hj), hi.guarded⟩
  · exact hi.advance hm

theorem inv_of_run {as : List Action} (h : run step init as = some s) : Inv s := by
  apply (reaches_of_run h).invariant Inv inv_init
  intro s a t hi _ hst
  exact hi.step hst

variable {item : Item}

theorem Inv.count_submitted (hi : Inv s) (h : item ∈ s.submitted) : s.submitted.count item = 1 := by
  have hnodup : s.submitted.Nodup := by
    apply List.Nodup.of_map Item.resultCh
    rw [hi.channels]
    exact nodup_range
  exact count_eq_one_of_mem hnodup h

/-- While an item is queued, `batchTimer` is the timer `k` or `close` is failing the queue. -/
def Waits (item : Item) (k : Nat) (s : State) : Prop :=
  item ∈ s.submitted ∧
    (item ∈ s.batchQueue → s.batchTimer = some k ∨ ∃ rest, s.batchMu = some (.close (.fail rest)))

variable {k : Nat}

theorem Waits.of_not_mem (hsub : item ∈ s.submitted) (hq : item ∉ s.batchQueue) : Waits item k s :=
  ⟨hsub, fun h => absurd h hq⟩

theorem Waits.advance (hi : Inv s)
    (hh : s.batchMu = some h) (hw : Waits item k s) : Waits item k (s.advance h) := by
  obtain ⟨hsub, hw⟩ := hw
  have hok := hi.guarded.ok hh
  -- outside of the loop of `close` it is the timer
  have htimer (hne : ∀ rest, h ≠ .close (.fail rest)) (hq : item ∈ s.batchQueue) :
      s.batchTimer = some k := by
    obtain ht | ⟨rest, hrest⟩ := hw hq
    · exact ht
    · rw [hh] at hrest
      exact absurd (Option.some.inj hrest) (hne rest)
  cases h with
  | submit x pc =>
    have hset := htimer fun rest h => by cases h
    cases pc with
    | append =>
      refine ⟨mem_append_left _ hsub, fun hq => ?_⟩
      obtain hq | hx := mem_append.mp hq
      · exact .inl (hset hq)
      · -- the new item has a channel that no submitted item has
        have hmem : item.resultCh ∈ s.submitted.map Item.resultCh :=
          mem_map_of_mem hsub
        rw [mem_singleton.mp hx, hi.channels, hok.1, mem_range] at hmem
        exact absurd hmem (Nat.lt_irrefl _)
    | branch =>
      obtain e | ⟨hnone, e⟩ | ⟨-, e⟩ := advance_branch_cases s x
      · rw [e]
        exact Waits.of_not_mem hsub not_mem_nil
      · rw [e]
        refine ⟨hsub, fun hq => ?_⟩
        rw [hset hq] at hnone
        cases hnone
      · rw [e]
        exact ⟨hsub, fun hq => .inl (hset hq)⟩
    | stopTimer batch =>
      apply Waits.of_not_mem
      · simpa only [State.advance, State.stopTimer_submitted] using hsub
      · have hnil : s.batchQueue = [] := hok
        simp only [State.advance, State.stopTimer_batchQueue, hnil, not_mem_nil,
          not_false_eq_true]
    | flush batch | unlock => exact ⟨hsub, fun hq => .inl (hset hq)⟩
  | callback j pc =>
    have hset := htimer fun rest h => by cases h
    cases pc with
    | take => exact Waits.of_not_mem hsub not_mem_nil
    | clearTimer batch =>
      have hnil : s.batchQueue = [] := hok
      exact Waits.of_not_mem hsub (by rw [State.advance, hnil]; exact not_mem_nil)
    | flush batch => exact ⟨hsub, fun hq => .inl (hset hq)⟩
  | close pc =>
    cases pc with
    | stopTimer =>
      refine ⟨?_, fun _ => .inr ⟨s.batchQueue, rfl⟩⟩
      simpa only [State.advance, State.stopTimer_submitted] using hsub
    | fail rest =>
      cases rest with
      | nil => exact Waits.of_not_mem hsub not_mem_nil
      | cons x rest => exact ⟨hsub, fun _ => .inr ⟨rest, rfl⟩⟩
    | unlock =>
      have hnil : s.batchQueue = [] := hok
      exact Waits.of_not_mem hsub (by rw [State.advance, hnil]; exact not_mem_nil)

theorem Waits.step (hi : Inv s)
    (hw : Waits item k s) (hst : step s a = some t) : Waits item k t := by
  obtain ⟨h, hm, rfl, -⟩ | ⟨j, rfl⟩ | ⟨h, hm, rfl⟩ := step_cases hst
  · refine ⟨hw.1, fun hq => ?_⟩
    obtain ht | ⟨rest, hrest⟩ := hw.2 hq
    · exact .inl ht
    · rw [hm] at hrest
      cases hrest
  · exact hw
  · exact hw.advance hi hm

/-- **No batched query is stranded or flushed twice.** -/
theorem batched_query_removed_once {as : List Action} {s : State} (h : run step init as = some s) :
    (∀ item ∈ s.submitted, s.batchQueue.count item + s.removals item = 1) ∧
      (s.batchMu = none → s.batchQueue ≠ [] → ∃ k, s.Live k) ∧
      ∀ item ∈ s.batchQueue, s.batchMu = none → ∃ k, s.Live k ∧
        ∀ bs t, run step s bs = some t → t.batchMu = none → ¬ t.Live k →
          item ∉ t.batchQueue ∧ t.removals item = 1 := by
  have hi := inv_of_run h
  have hlive (hm : s.batchMu = none) (hq : s.batchQueue ≠ []) :
      ∃ k, s.batchTimer = some k ∧ s.Live k := by
    obtain ⟨k, hk⟩ := Option.ne_none_iff_exists'.mp (hi.guarded.covered hm hq)
    exact ⟨k, hk, hi.timer k hk⟩
  refine ⟨fun item hmem => ?_, fun hm hq => ?_, fun item hmem hm => ?_⟩
  · rw [hi.count item]
    exact hi.count_submitted hmem
  · obtain ⟨k, -, hk⟩ := hlive hm hq
    exact ⟨k, hk⟩
  · obtain ⟨k, htimer, hk⟩ := hlive hm (ne_nil_of_mem hmem)
    refine ⟨k, hk, fun bs t hrun hfree hdead => ?_⟩
    have hsub : item ∈ s.submitted := by
      have hpos := count_pos_iff.mpr hmem
      have hc := hi.count item
      exact count_pos_iff.mp (by omega)
    -- along the continuation, the queued item keeps its timer
    have hrel : Inv t ∧ Waits item k t := by
      apply (reaches_of_run hrun).invariant (fun u => Inv u ∧ Waits item k u)
        ⟨hi, hsub, fun _ => .inl htimer⟩
      intro u a v hu _ huv
      exact ⟨hu.1.step huv, hu.2.step hu.1 huv⟩
    obtain ⟨hti, htsub, htw⟩ := hrel
    have hgone : item ∉ t.batchQueue := by
      intro hq
      obtain ht | ⟨rest, hrest⟩ := htw hq
      · exact hdead (hti.timer k ht)
      · rw [hfree] at hrest
        cases hrest
    have hc := hti.count item
    rw [count_eq_zero_of_not_mem hgone, hti.count_submitted htsub] at hc
    exact ⟨hgone, by omega⟩

def staleCallback : List Action :=
  [.submitQuery [], .advance, .advance, .advance, .fire 0] ++
    (replicate 14 [.submitQuery [], .advance, .advance, .advance]).flatten ++
    [.submitQuery [], .advance, .advance, .advance, .advance] ++
    [.submitQuery [], .advance, .advance, .advance, .callback 0, .advance, .advance, .advance]

theorem batched_query_removed_once_stale : ∃ s, run step init staleCallback = some s ∧
    s.flushed.map length = [16, 1] ∧ s.timers = [⟨.ran, true⟩, ⟨.armed, false⟩] ∧
      ∀ item ∈ s.submitted, s.batchQueue.count item + s.removals item = 1 :=
  ⟨_, rfl, rfl, rfl,
    (batched_query_removed_once (show run step init staleCallback = some _ from rfl)).1⟩

/-! ## What `close` tells the items it drops -/

/-- The loop of `close` sends its error to the items of the queue, in order. -/
def State.Failing (s : State) : Prop :=
  match s.batchMu with
  | some (.close (.fail rest)) => s.failed ++ rest = s.closed.flatten ++ s.batchQueue
  | _ => s.failed = s.closed.flatten

theorem failing_iff (h : ∀ rest, s.batchMu ≠ some (.close (.fail rest))) :
    s.Failing ↔ s.failed = s.closed.flatten := by
  unfold State.Failing
  split
  next rest hm => exact absurd hm (h rest)
  next => exact Iff.rfl

theorem failing_advance (hh : s.batchMu = some h) (hf : s.Failing) : (s.advance h).Failing := by
  cases h with
  | submit x pc =>
    rw [failing_iff (by rw [hh]; exact fun rest h => nomatch h)] at hf
    cases pc with
    | append | flush batch | unlock => exact hf
    | branch =>
      obtain e | ⟨-, e⟩ | ⟨-, e⟩ := advance_branch_cases s x
      all_goals
        rw [e]
        exact hf
    | stopTimer batch =>
      show s.stopTimer.failed = s.stopTimer.closed.flatten
      rw [State.stopTimer_failed, State.stopTimer_closed, hf]
  | callback k pc =>
    rw [failing_iff (by rw [hh]; exact fun rest h => nomatch h)] at hf
    cases pc with
    | take | clearTimer batch | flush batch => exact hf
  | close pc =>
    cases pc with
    | stopTimer =>
      rw [failing_iff (by rw [hh]; exact fun rest h => nomatch h)] at hf
      show s.stopTimer.failed ++ s.batchQueue =
        s.stopTimer.closed.flatten ++ s.stopTimer.batchQueue
      rw [State.stopTimer_failed, State.stopTimer_closed, State.stopTimer_batchQueue, hf]
    | fail rest =>
      unfold State.Failing at hf
      rw [hh] at hf
      cases rest with
      | nil =>
        show s.failed = (s.closed ++ [s.batchQueue]).flatten
        rw [flatten_append, flatten_singleton, ← hf, append_nil]
      | cons x rest =>
        show (s.failed ++ [x]) ++ rest = s.closed.flatten ++ s.batchQueue
        rw [append_assoc, ← hf]
        rfl
    | unlock =>
      rw [failing_iff (by rw [hh]; exact fun rest h => nomatch h)] at hf
      exact hf

/-- The items that `close` has dropped are those that it has sent its error to, each once. -/
theorem failed_eq_closed {as : List Action} {s : State} (h : run step init as = some s)
    (hm : s.batchMu = none) : s.failed = s.closed.flatten := by
  have hf : s.Failing := by
    apply (reaches_of_run h).invariant State.Failing rfl
    intro u a v hu _ huv
    obtain ⟨h, hm, rfl, -, -, hne⟩ | ⟨j, rfl⟩ | ⟨h, hm, rfl⟩ := step_cases huv
    · grind [failing_iff, Option.some.inj]
    · exact hu
    · exact failing_advance hm hu
  rwa [failing_iff (by rw [hm]; exact fun rest h => nomatch h)] at hf

def closeOne : List Action :=
  [.submitQuery [7], .advance, .advance, .advance, .close, .advance, .advance, .advance, .advance]

theorem failed_eq_closed_one : ∃ s, run step init closeOne = some s ∧ s.failed.length = 1 ∧
    s.failed = s.closed.flatten :=
  ⟨_, rfl, rfl, failed_eq_closed (show run step init closeOne = some _ from rfl) rfl⟩

end NatProxy.Tunnel.DNSBatch
