import NatProxy.WebRTC.ReliableReaders

/-!
# Readers that are released

A `Read` is meant to be released once `Close` has returned, or the inner `Read` has failed. A reader
that has seen the done channel open and is not yet on the list misses the broadcast, and waits for
ever; so does one that waits when `receiveLoop` returns (`readers_stay_blocked`).

`reads_released`: if no reader is between its check and `Wait` when a `Close` broadcasts, and the
inner `Read` fails only after a broadcast, then no `Read` waits, and the readers' own steps let each
of them return.
-/

namespace NatProxy.WebRTC.ReliableReaders

open Lib List
open WebRTC.ReliableRTP (Endpoint ReadResult Tagged)

/-! ## The lock and the list -/

/-- Where a reader is with respect to `readMu`. -/
inductive Place where
  | outside
  | inside
  | waiting
deriving DecidableEq, Repr

def ReaderPC.place : ReaderPC → Place
  | .locked _ | .looping _ | .checked _ | .missed _ | .returning _ => .inside
  | .waiting _ => .waiting
  | .idle | .calling _ | .woken _ | .returned _ => .outside

def CloserPC.closed : CloserPC → Bool
  | .broadcasting | .innerClosing | .returned => true
  | .idle | .closing => false

/-- The readers on the list wait, and the lock is held by the one inside. -/
structure Inv (s : State) : Prop where
  queue : ∀ i, (s.readers i).place = .waiting ↔ i ∈ s.waiters
  nodup : s.waiters.Nodup
  lock : ∀ i, (s.readers i).place = .inside ↔ s.lock = some i
  closed : ∀ j, (s.closers j).closed = true → s.ep.done = true

theorem inv_init : Inv {} where
  queue _ := ⟨fun h => (nomatch h), fun h => (nomatch h)⟩
  nodup := nodup_nil
  lock _ := ⟨fun h => (nomatch h), fun h => (nomatch h)⟩
  closed _ h := nomatch h

/-- How the lock and the list change when a reader goes on. -/
inductive Transfer (s : State) (i : Nat) : Place → Option Nat → List Nat → Prop where
  | stay {p : Place} (h : (s.readers i).place = p) (hp : p ≠ .waiting) :
      Transfer s i p s.lock s.waiters
  | enter (h : (s.readers i).place = .outside) (hlock : s.lock = none) :
      Transfer s i .inside (some i) s.waiters
  | leave (h : (s.readers i).place = .inside) : Transfer s i .outside none s.waiters
  | wait (h : (s.readers i).place = .inside) : Transfer s i .waiting none (s.waiters ++ [i])

variable {a : Action} {e : Endpoint}

variable {s : State} {i : Nat} {pc : ReaderPC} {lock : Option Nat} {waiters : List Nat}

theorem ReaderStep.transfer (h : ReaderStep s i a pc e lock waiters) :
    Transfer s i pc.place lock waiters := by
  cases h with
  | read n hpc | servePending n hpc | loop n hpc | eof n hpc | check n hpc hopen
  | takeNext n d hpc | miss n hpc => exact .stay (by rw [hpc]; rfl) nofun
  | lock n hpc hlock => exact .enter (by rw [hpc]; rfl) hlock
  | relock n hpc hlock => exact .enter (by rw [hpc]; rfl) hlock
  | wait n hpc => exact .wait (by rw [hpc]; rfl)
  | unlock r hpc => exact .leave (by rw [hpc]; rfl)

theorem ReaderStep.done_eq (h : ReaderStep s i a pc e lock waiters) : e.done = s.ep.done := by
  cases h <;> rfl

theorem Inv.transfer (h : Inv s) {p : Place} (hmove : Transfer s i p lock waiters) :
    (∀ k ≠ i, (k ∈ waiters ↔ k ∈ s.waiters) ∧ (lock = some k ↔ s.lock = some k)) ∧
      waiters.Nodup ∧ (p = .waiting ↔ i ∈ waiters) ∧ (p = .inside ↔ lock = some i) := by
  have hqueue := h.queue i
  have hlock := h.lock i
  cases hmove with
  | stay hp hne =>
    rw [hp] at hqueue hlock
    exact ⟨fun k _ => ⟨Iff.rfl, Iff.rfl⟩, h.nodup, hqueue, hlock⟩
  | enter hp hfree =>
    rw [hp] at hqueue
    refine ⟨fun k hk => ⟨Iff.rfl, ?_⟩, h.nodup, ?_, ⟨fun _ => rfl, fun _ => rfl⟩⟩
    · -- nobody held the lock
      rw [hfree]
      exact ⟨fun heq => absurd (Option.some.inj heq).symm hk, fun heq => (nomatch heq)⟩
    · exact ⟨fun heq => (nomatch heq), fun hmem => nomatch hqueue.mpr hmem⟩
  | leave hp =>
    grind [hlock.mp, h.nodup, hqueue.mpr]
  | wait hp =>
    rw [hp] at hqueue
    have hheld := hlock.mp hp
    have hnotin : i ∉ s.waiters := fun hmem => nomatch hqueue.mpr hmem
    refine ⟨fun k hk => ⟨?_, ?_⟩, ?_, ?_, ?_⟩
    · rw [mem_append, mem_singleton, or_iff_left hk]
    · grind
    · exact nodup_append.mpr ⟨h.nodup, nodup_singleton i, by
        rintro k hk _ hi rfl
        exact hnotin (mem_singleton.mp hi ▸ hk)⟩
    · exact ⟨fun _ => mem_append_right _ mem_cons_self, fun _ => rfl⟩
    · exact ⟨fun heq => (nomatch heq), fun heq => (nomatch heq)⟩

theorem Inv.reader (h : Inv s) (hmove : Transfer s i pc.place lock waiters)
    (hdone : e.done = s.ep.done) :
    Inv { s.setReader i pc with ep := e, lock := lock, waiters := waiters } := by
  have hclosed : ∀ j, (s.closers j).closed = true → e.done = true :=
    fun j hj => hdone.trans (h.closed j hj)
  obtain ⟨hother, hnodup, hqueue, hlock⟩ := h.transfer hmove
  refine ⟨fun k => ?_, hnodup, fun k => ?_, hclosed⟩
  · by_cases hk : k = i
    · subst hk
      simpa [State.setReader] using hqueue
    · have hold := (h.queue k).trans (hother k hk).1.symm
      simpa [State.setReader, hk] using hold
  · by_cases hk : k = i
    · subst hk
      simpa [State.setReader] using hlock
    · have hold := (h.lock k).trans (hother k hk).2.symm
      simpa [State.setReader, hk] using hold

theorem place_wake_ne (pc : ReaderPC) : pc.wake.place ≠ .waiting := by
  cases pc <;> exact nofun

theorem place_wake_inside_iff (pc : ReaderPC) : pc.wake.place = .inside ↔ pc.place = .inside := by
  cases pc with
  | waiting n => exact ⟨fun heq => (nomatch heq), fun heq => (nomatch heq)⟩
  | _ => exact Iff.rfl

theorem Inv.signal (h : Inv s) : Inv s.signal := by
  rw [State.signal]
  cases hwaiters : s.waiters with
  | nil => exact h
  | cons i rest =>
    have hnodup := h.nodup
    rw [hwaiters, nodup_cons] at hnodup
    -- the reader at the head of the list leaves it, the others keep their places
    refine ⟨fun k => ?_, hnodup.2, fun k => ?_, h.closed⟩
    · by_cases hk : k = i
      · subst hk
        simpa [State.setReader, place_wake_ne] using hnodup.1
      · have hold := h.queue k
        rw [hwaiters, mem_cons, or_iff_right hk] at hold
        simpa [State.setReader, hk] using hold
    · by_cases hk : k = i
      · subst hk
        simpa [State.setReader, place_wake_inside_iff] using h.lock k
      · simpa [State.setReader, hk] using h.lock k

theorem Inv.broadcast (h : Inv s) : Inv s.broadcast := by
  refine ⟨fun k => ?_, nodup_nil, fun k => ?_, h.closed⟩
  · show (if k ∈ s.waiters then (s.readers k).wake else s.readers k).place = .waiting ↔ k ∈ []
    split_ifs with hk
    · exact ⟨fun heq => absurd heq (place_wake_ne _), fun hmem => (nomatch hmem)⟩
    · exact ⟨fun heq => absurd ((h.queue k).mp heq) hk, fun hmem => (nomatch hmem)⟩
  · show (if k ∈ s.waiters then (s.readers k).wake else s.readers k).place = .inside ↔ _
    split_ifs with hk
    · exact (place_wake_inside_iff _).trans (h.lock k)
    · exact h.lock k

variable {j : Nat}

theorem Inv.closer (h : Inv s) {pc : CloserPC} (hpc : pc.closed = true → e.done = true)
    (hdone : s.ep.done = true → e.done = true) : Inv { s.setCloser j pc with ep := e } := by
  refine ⟨h.queue, h.nodup, h.lock, fun k hk => ?_⟩
  by_cases hkj : k = j
  · subst hkj
    exact hpc (by simpa [State.setCloser] using hk)
  · exact hdone (h.closed k (by simpa [State.setCloser, hkj] using hk))

theorem CloserStep.done {pc : CloserPC} (hinv : Inv s) (h : CloserStep s j a pc e) :
    (pc.closed = true → e.done = true) ∧ (s.ep.done = true → e.done = true) := by
  cases h with
  | again h hdone => exact ⟨fun _ => hdone, fun hd => hd⟩
  | check h => exact ⟨fun hpc => (nomatch hpc), fun hd => hd⟩
  | closeDone h => exact ⟨fun _ => rfl, fun _ => rfl⟩
  | innerClose h => exact ⟨fun _ => hinv.closed j (by rw [h]; rfl), fun hd => hd⟩

theorem ReceiverStep.done {pc : ReceiverPC} {failed : Bool}
    (h : ReceiverStep s a e pc failed) : e.done = s.ep.done := by
  cases h with
  | handle pkt pc h => exact (ReliableRTP.handle_sender s.ep pkt).1
  | _ => rfl

variable {t : State}

/-- **One step keeps the lock and the list right.** -/
theorem Inv.step (h : Inv s) (hstep : step s a = some t) : Inv t := by
  cases step_cases hstep with
  | reader i hmove => exact h.reader hmove.transfer hmove.done_eq
  | receiver hmove =>
    exact ⟨h.queue, h.nodup, h.lock, fun j hj => hmove.done.trans (h.closed j hj)⟩
  | signal hpc =>
    have hsignal := h.signal
    exact ⟨hsignal.queue, hsignal.nodup, hsignal.lock, hsignal.closed⟩
  | closer j hmove => exact h.closer (hmove.done h).1 (hmove.done h).2
  | broadcast j hpc =>
    exact h.broadcast.closer (e := s.ep) (fun _ => h.closed j (by rw [hpc]; rfl)) (fun hd => hd)
  | panic j hpc => exact ⟨h.queue, h.nodup, h.lock, h.closed⟩

/-! ## The condition -/

/-- The reader has seen the done channel open and is not on the list yet. -/
def ReaderPC.pastCheck : ReaderPC → Bool
  | .checked _ | .missed _ => true
  | _ => false

/-- The reader is past its check or waits. -/
def ReaderPC.exposed : ReaderPC → Bool
  | .checked _ | .missed _ | .waiting _ => true
  | _ => false

def CloserPC.broadcasted : CloserPC → Bool
  | .innerClosing | .returned => true
  | _ => false

/-- No reader is between its check and `Wait` at a broadcast of `Close`, and the inner `Read` fails
only after one. -/
def ReleaseOk (s : State) : Action → Prop
  | .broadcast _ => ∀ i, (s.readers i).pastCheck = false
  | .innerError => ∃ j, (s.closers j).broadcasted = true
  | _ => True

/-- After a broadcast no reader is past its check or waits. -/
structure Released (s : State) : Prop where
  past : ∀ j, (s.closers j).broadcasted = true → ∀ i, (s.readers i).exposed = false
  failed : s.innerFailed = true → ∃ j, (s.closers j).broadcasted = true

theorem released_init : Released {} where
  past _ h := nomatch h
  failed h := nomatch h

theorem closed_of_broadcasted {pc : CloserPC} (h : pc.broadcasted = true) : pc.closed = true := by
  cases pc <;> first | rfl | cases h

theorem ReaderStep.exposed (h : ReaderStep s i a pc e lock waiters)
    (hdone : s.ep.done = true) (hsafe : (s.readers i).exposed = false) : pc.exposed = false := by
  cases h with
  -- the only step into the window, and it sees the done channel open
  | check n hpc hopen => exact absurd (hopen.symm.trans hdone) Bool.false_ne_true
  | miss n hpc =>
    rw [hpc] at hsafe
    cases hsafe
  | wait n hpc =>
    rw [hpc] at hsafe
    cases hsafe
  | _ => rfl

theorem exposed_wake (pc : ReaderPC) : pc.wake.exposed = pc.pastCheck := by
  cases pc <;> rfl

theorem exposed_of_pastCheck (h : pc.pastCheck = false)
    (hplace : pc.place ≠ .waiting) : pc.exposed = false := by
  cases pc with
  | waiting n => exact absurd rfl hplace
  | _ => exact h

theorem exposed_wake_of_exposed (h : pc.exposed = false) : pc.wake.exposed = false := by
  cases pc with
  | waiting n => cases h
  | _ => exact h

theorem exposed_signal {k : Nat} (h : (s.readers k).exposed = false) :
    (s.signal.readers k).exposed = false := by
  rw [State.signal]
  cases s.waiters with
  | nil => exact h
  | cons i rest =>
    by_cases hk : k = i
    · subst hk
      simpa [State.setReader] using exposed_wake_of_exposed h
    · simpa [State.setReader, hk] using h

theorem signal_closers (s : State) :
    s.signal.closers = s.closers ∧ s.signal.innerFailed = s.innerFailed := by
  rw [State.signal]
  cases s.waiters with
  | nil | cons i rest => exact ⟨rfl, rfl⟩

theorem CloserStep.broadcasted_eq {pc : CloserPC} (h : CloserStep s j a pc e) (k : Nat) :
    ((s.setCloser j pc).closers k).broadcasted = (s.closers k).broadcasted := by
  by_cases hk : k = j
  · subst hk
    cases h with
    | again h hdone | check h | closeDone h | innerClose h =>
      simp [State.setCloser, h, CloserPC.broadcasted]
  · simp [State.setCloser, hk]

theorem exposed_broadcast (hinv : Inv s) (hok : ∀ i, (s.readers i).pastCheck = false)
    (k : Nat) : (s.broadcast.readers k).exposed = false := by
  show (if k ∈ s.waiters then (s.readers k).wake else s.readers k).exposed = false
  split_ifs with hk
  · rw [exposed_wake]
    exact hok k
  · exact exposed_of_pastCheck (hok k) fun hplace => hk ((hinv.queue k).mp hplace)

/-- **One step that meets the condition keeps the readers released.** -/
theorem Released.step (h : Released s) (hinv : Inv s)
    (hok : ReleaseOk s a) (hstep : step s a = some t) : Released t := by
  cases step_cases hstep with
  | reader i hmove =>
    refine ⟨fun j hj k => ?_, h.failed⟩
    -- a reader that goes on finds the done channel closed
    have hdone := hinv.closed j (closed_of_broadcasted hj)
    by_cases hk : k = i
    · subst hk
      simpa [State.setReader] using hmove.exposed hdone (h.past j hj k)
    · simpa [State.setReader, hk] using h.past j hj k
  | receiver hmove =>
    refine ⟨h.past, fun hfailed => ?_⟩
    cases hmove with
    -- the inner `Read` fails: the condition gives the broadcast before it
    | error hpc => exact hok
    | _ => exact h.failed hfailed
  | signal hpc =>
    obtain ⟨hclosers, hfailed⟩ := signal_closers s
    refine ⟨fun j hj k => exposed_signal (h.past j (hclosers ▸ hj) k), fun hf => ?_⟩
    obtain ⟨j, hj⟩ := h.failed (hfailed ▸ hf)
    exact ⟨j, hclosers.symm ▸ hj⟩
  | closer j hmove =>
    refine ⟨fun k hk => h.past k ((hmove.broadcasted_eq k).symm.trans hk), fun hf => ?_⟩
    obtain ⟨k, hk⟩ := h.failed hf
    exact ⟨k, (hmove.broadcasted_eq k).trans hk⟩
  | broadcast j hpc =>
    refine ⟨fun _ _ k => exposed_broadcast hinv hok k, fun _ => ⟨j, ?_⟩⟩
    simp [State.setCloser, CloserPC.broadcasted]
  | panic j hpc => exact ⟨h.past, h.failed⟩

theorem reaches_released (h : Reaches step ReleaseOk {} s) : Inv s ∧ Released s := by
  refine h.invariant (fun s => Inv s ∧ Released s) ⟨inv_init, released_init⟩ ?_
  rintro s a t ⟨hinv, hreleased⟩ hok hstep
  exact ⟨hinv.step hstep, hreleased.step hinv hok hstep⟩

/-! ## The readers return -/

def Action.byReader : Action → Bool
  | .lock _ | .pending _ | .check _ | .lookup _ | .wait _ | .unlock _ => true
  | _ => false

def ReaderPC.inProgress : ReaderPC → Bool
  | .idle | .returned _ => false
  | _ => true

/-- A state of a run that meets the condition, after a broadcast. -/
structure Ended (s : State) : Prop where
  reaches : Reaches step ReleaseOk {} s
  past : ∃ j, (s.closers j).broadcasted = true
  live : s.panicked = false

theorem Ended.exposed (h : Ended s) (i : Nat) : (s.readers i).exposed = false := by
  obtain ⟨j, hj⟩ := h.past
  exact (reaches_released h.reaches).2.past j hj i

theorem Ended.done (h : Ended s) : s.ep.done = true := by
  obtain ⟨j, hj⟩ := h.past
  exact (reaches_released h.reaches).1.closed j (closed_of_broadcasted hj)

theorem Ended.readerStep (h : Ended s) (ha : a.byReader = true)
    (hstep : step s a = some t) : Ended t := by
  have hok : ReleaseOk s a := by
    cases a <;> trivial
  have hreaches := h.reaches.tail ⟨a, hok, hstep⟩
  cases step_cases hstep with
  | reader i hmove => exact ⟨hreaches, h.past, h.live⟩
  | receiver hmove | closer j hmove => cases hmove <;> cases ha
  | signal hpc | broadcast j hpc | panic j hpc => cases ha

/-- The steps of readers let the call return and free the lock, while no other reader moves. -/
def Finishes (s : State) (i : Nat) : Prop :=
  ∃ t, Reaches step (fun _ a => a.byReader = true) s t ∧ Ended t ∧ t.lock = none ∧
    (∃ r, t.readers i = .returned r) ∧ ∀ k ≠ i, t.readers k = s.readers k

theorem Finishes.head {u : State} (ha : a.byReader = true) (hstep : step s a = some u)
    (hothers : ∀ k ≠ i, u.readers k = s.readers k) (h : Finishes u i) : Finishes s i := by
  obtain ⟨t, hreach, hended, hlock, hreturned, hkept⟩ := h
  exact ⟨t, Relation.ReflTransGen.head ⟨a, ha, hstep⟩ hreach, hended, hlock, hreturned,
    fun k hk => (hkept k hk).trans (hothers k hk)⟩

section Finish

variable {s : State} {i : Nat}

theorem step_live (h : s.panicked = false) (a : Action) : step s a = act s a := by
  rw [step, h]
  rfl

theorem finishes_returning (h : Ended s) {r : ReadResult} (hpc : s.readers i = .returning r) :
    Finishes s i := by
  have hstep : step s (.unlock i) = some { s.setReader i (.returned r) with lock := none } := by
    rw [step_live h.live, act, hpc]
  exact ⟨_, .single ⟨_, rfl, hstep⟩, h.readerStep rfl hstep, rfl, ⟨r, setReader_self s i _⟩,
    fun k hk => setReader_of_ne s hk _⟩

theorem finishes_looping (h : Ended s) {n : Nat} (hpc : s.readers i = .looping n) :
    Finishes s i := by
  have hstep : step s (.check i) = some (s.setReader i (.returning .eof)) := by
    rw [step_live h.live, act, hpc]
    simp only [h.done, if_true]
  exact .head rfl hstep (fun k hk => setReader_of_ne s hk _)
    (finishes_returning (h.readerStep rfl hstep) (setReader_self s i _))

theorem finishes_locked (h : Ended s) {n : Nat} (hpc : s.readers i = .locked n) :
    Finishes s i := by
  -- what is pending is handed out also after the done channel is closed
  by_cases hpending : s.ep.readPending ≠ []
  · have hstep : step s (.pending i) =
        some { s.setReader i (.returning (.data (s.ep.readPending.take n))) with
          ep := servePending s.ep n } := by
      rw [step_live h.live, act, hpc]
      simp only [if_pos hpending]
    exact .head rfl hstep (fun k hk => setReader_of_ne s hk _)
      (finishes_returning (h.readerStep rfl hstep) (setReader_self s i _))
  · have hstep : step s (.pending i) = some (s.setReader i (.looping n)) := by
      rw [step_live h.live, act, hpc]
      simp only [if_neg hpending]
    exact .head rfl hstep (fun k hk => setReader_of_ne s hk _)
      (finishes_looping (h.readerStep rfl hstep) (setReader_self s i _))

theorem finishes_inside (h : Ended s) (hin : (s.readers i).place = .inside) : Finishes s i := by
  have hexposed := h.exposed i
  cases hpc : s.readers i with
  | locked n => exact finishes_locked h hpc
  | looping n => exact finishes_looping h hpc
  | returning r => exact finishes_returning h hpc
  -- a reader past its check would be exposed, the rest do not hold the lock
  | _ =>
    rw [hpc] at hexposed hin
    simp [ReaderPC.exposed, ReaderPC.place] at hexposed hin

theorem finishes_outside (h : Ended s) (hlock : s.lock = none)
    (hpc : ∃ n, s.readers i = .calling n ∨ s.readers i = .woken n) : Finishes s i := by
  obtain ⟨n, hpc | hpc⟩ := hpc
  · have hstep : step s (.lock i) = some { s.setReader i (.locked n) with lock := some i } := by
      rw [step_live h.live, act, if_pos hlock, hpc]
    exact .head rfl hstep (fun k hk => setReader_of_ne s hk _)
      (finishes_locked (h.readerStep rfl hstep) (setReader_self s i _))
  · have hstep : step s (.lock i) = some { s.setReader i (.looping n) with lock := some i } := by
      rw [step_live h.live, act, if_pos hlock, hpc]
    exact .head rfl hstep (fun k hk => setReader_of_ne s hk _)
      (finishes_looping (h.readerStep rfl hstep) (setReader_self s i _))

end Finish

theorem inProgress_cases (h : pc.inProgress = true) (hexposed : pc.exposed = false) :
    pc.place = .inside ∨ ∃ n, pc = .calling n ∨ pc = .woken n := by
  cases pc with
  | calling n => exact .inr ⟨n, .inl rfl⟩
  | woken n => exact .inr ⟨n, .inr rfl⟩
  | locked n | looping n | returning r => exact .inl rfl
  | _ => simp [ReaderPC.inProgress, ReaderPC.exposed] at h hexposed

theorem Ended.returns (h : Ended s) (hi : (s.readers i).inProgress = true) :
    ∃ t, Reaches step (fun _ a => a.byReader = true) s t ∧ ∃ r, t.readers i = .returned r := by
  rcases inProgress_cases hi (h.exposed i) with hin | hout
  · obtain ⟨t, hreach, -, -, hreturned, -⟩ := finishes_inside h hin
    exact ⟨t, hreach, hreturned⟩
  · cases hlock : s.lock with
    | none =>
      obtain ⟨t, hreach, -, -, hreturned, -⟩ := finishes_outside h hlock hout
      exact ⟨t, hreach, hreturned⟩
    | some k =>
      -- the reader that holds the lock goes first
      have hholder := ((reaches_released h.reaches).1.lock k).mpr hlock
      obtain ⟨u, hreach, hended, hfree, -, hkept⟩ := finishes_inside h hholder
      have hne : i ≠ k := by
        rintro rfl
        obtain ⟨n, hpc | hpc⟩ := hout <;> rw [hpc] at hholder <;> cases hholder
      rw [← hkept i hne] at hout
      obtain ⟨t, hreach', -, -, hreturned, -⟩ := finishes_outside hended hfree hout
      exact ⟨t, hreach.trans hreach', hreturned⟩

/-- **The readers are released** in a run that meets the condition. -/
theorem reads_released {s : State} (h : Reaches step ReleaseOk {} s)
    (hend : (∃ j, s.closers j = .returned) ∨ s.innerFailed = true) :
    (∀ i n, s.readers i ≠ .waiting n) ∧
      (s.panicked = false → ∀ i, (s.readers i).inProgress = true →
        ∃ t, Reaches step (fun _ a => a.byReader = true) s t ∧ ∃ r, t.readers i = .returned r) := by
  obtain ⟨-, hreleased⟩ := reaches_released h
  -- either way a `Close` has broadcast
  have hpast : ∃ j, (s.closers j).broadcasted = true := by
    rcases hend with ⟨j, hj⟩ | hfailed
    · exact ⟨j, by rw [hj]; rfl⟩
    · exact hreleased.failed hfailed
  constructor
  · intro i n hwait
    obtain ⟨j, hj⟩ := hpast
    have hexposed := hreleased.past j hj i
    rw [hwait] at hexposed
    cases hexposed
  · intro hlive i hi
    exact Ended.returns ⟨h, hpast, hlive⟩ hi

def wokenRun : List Action :=
  [.read 0 1, .lock 0, .pending 0, .check 0, .lookup 0, .wait 0, .close 0, .closeDone 0,
    .broadcast 0, .innerClose 0]

theorem reads_released_woken : ∃ s, run step {} wokenRun = some s ∧ s.readers 0 ≠ .waiting 1 ∧
    ∃ t, Reaches step (fun _ a => a.byReader = true) s t ∧ ∃ r, t.readers 0 = .returned r := by
  have hok : AllSteps step ReleaseOk {} wokenRun := by
    iterate 8
      intro t ht
      obtain rfl := Option.some.inj ht
      refine ⟨trivial, ?_⟩
    intro t ht
    obtain rfl := Option.some.inj ht
    refine ⟨fun i => ?_, ?_⟩
    · by_cases hi : i = 0
      · subst hi
        rfl
      · simp [State.setReader, State.setCloser, hi, ReaderPC.pastCheck]
    · intro t ht
      exact ⟨trivial, trivial⟩
  have hrun : run step {} wokenRun = some _ := rfl
  have hreleased := reads_released (reaches_of_allSteps hrun hok) (.inl ⟨0, rfl⟩)
  exact ⟨_, hrun, hreleased.1 0 1, hreleased.2 rfl 0 rfl⟩

/-! ## Readers that stay blocked -/

def Action.isCloseCall : Action → Bool
  | .close _ => true
  | _ => false

/-- The reader waits whatever happens, unless `Close` is called once more. -/
def StaysBlocked (s : State) (i : Nat) : Prop :=
  ∀ t, Reaches step (fun _ a => a.isCloseCall = false) s t → ∃ n, t.readers i = .waiting n

theorem Transfer.place_ne {p : Place} (h : Transfer s i p lock waiters) :
    (s.readers i).place ≠ .waiting := by
  cases h with
  | stay h hp => rwa [h]
  | enter h hlock | leave h | wait h => rw [h]; exact nofun

/-- **Nobody is left to wake the reader** when `receiveLoop` has returned and no `Close` is on its
way to its broadcast. -/
theorem stays_blocked {n : Nat} (hexit : s.receiver = .exited)
    (hclosers : ∀ j, s.closers j = .idle ∨ (s.closers j).broadcasted = true)
    (hwait : s.readers i = .waiting n) : StaysBlocked s i := by
  intro t ht
  -- the invariant: `receiveLoop` is gone and every `Close` that began has broadcast
  suffices hkept : t.receiver = .exited ∧
      (∀ j, t.closers j = .idle ∨ (t.closers j).broadcasted = true) ∧ t.readers i = .waiting n from
    ⟨n, hkept.2.2⟩
  refine ht.invariant (fun t => t.receiver = .exited ∧
    (∀ j, t.closers j = .idle ∨ (t.closers j).broadcasted = true) ∧ t.readers i = .waiting n)
    ⟨hexit, hclosers, hwait⟩ ?_
  rintro s a t ⟨hexit, hclosers, hwait⟩ ha hstep
  cases step_cases hstep with
  | reader k hmove =>
    refine ⟨hexit, hclosers, ?_⟩
    have hne : i ≠ k := by
      rintro rfl
      exact hmove.transfer.place_ne (by rw [hwait]; rfl)
    exact (setReader_of_ne s hne _).trans hwait
  | receiver hmove =>
    cases hmove with
    | exit h | poll h | receive pkt h | error h | handle pkt pc h =>
      exact nomatch hexit.symm.trans h
  | signal hpc => exact nomatch hexit.symm.trans hpc
  | closer j hmove =>
    cases hmove with
    -- a new call of `Close` is excluded, and one under way is past its broadcast
    | again h hdone => cases ha
    | check h => cases ha
    | closeDone h => exact absurd (hclosers j) (by rw [h]; exact nofun)
    | innerClose h =>
      refine ⟨hexit, fun k => ?_, hwait⟩
      by_cases hk : k = j
      · subst hk
        exact .inr (by simp [State.setCloser, CloserPC.broadcasted])
      · simpa [State.setCloser, hk] using hclosers k
  | broadcast j hpc | panic j hpc => exact absurd (hclosers j) (by rw [hpc]; exact nofun)

/-- The close falls between the reader's look at the done channel and its wait. -/
def lostWakeupRun : List Action :=
  [.read 0 1, .lock 0, .pending 0, .check 0, .lookup 0, .close 0, .closeDone 0, .broadcast 0,
    .innerClose 0, .wait 0, .poll]

/-- The inner `Read` fails while the reader waits. -/
def errorRun : List Action :=
  [.read 0 1, .lock 0, .pending 0, .check 0, .lookup 0, .wait 0, .poll, .innerError]

theorem readers_stay_blocked :
    (∃ s, run step {} lostWakeupRun = some s ∧ s.closers 0 = .returned ∧ StaysBlocked s 0) ∧
      ∃ s, run step {} errorRun = some s ∧ s.innerFailed = true ∧ StaysBlocked s 0 := by
  constructor
  · refine ⟨_, rfl, rfl, stays_blocked rfl (fun j => ?_) rfl⟩
    by_cases hj : j = 0
    · subst hj
      exact .inr rfl
    · exact .inl (by simp [State.setReader, State.setCloser, State.broadcast, hj])
  · exact ⟨_, rfl, rfl, stays_blocked rfl (fun _ => .inl rfl) rfl⟩

end NatProxy.WebRTC.ReliableReaders
