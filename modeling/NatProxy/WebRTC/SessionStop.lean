import NatProxy.Lib.Transition

/-!
# The sessions of a connection and `Stop`

A connection has any number of data channels. The `OnOpen` callback of each one detaches the
channel, creates an smux session and appends it to `sessions` under the mutex. `closeSessions`, run
by the state callbacks, and `Stop` copy the list under the mutex and close the copies after they
have released it; only `closeSessions` clears the list. No callback looks at `done` before it
appends.

So a session is closed by the first of these copies after its append. Once a `Stop` has returned and
nothing is in progress, all sessions are closed exactly if none was appended since the last copy
(`unswept`, `allClosed_iff`). A callback that appends its session later leaves it open
(`lateAppend_leftOpen`).
-/

namespace NatProxy.WebRTC.SessionStop

open Lib Function List

/-- `Client` and `Server` differ in the states that lead to `closeSessions` and in how `Stop` keeps
a second call out. -/
inductive Side where
  | client
  | server
  deriving DecidableEq, Repr

/-- The state changes for which a callback of some side calls `closeSessions`. -/
inductive Event where
  | iceFailed
  | iceClosed
  | peerFailed
  | peerClosed
  deriving DecidableEq, Repr

/-- Whether the callback calls `closeSessions`. A client with a handler `onReconnectNeeded` keeps
its sessions when ICE fails. -/
def closesSessions : Side → Bool → Event → Bool
  | .client, reconnect, .iceFailed => !reconnect
  | .client, _, .iceClosed => true
  | .client, _, .peerFailed => false
  | .client, _, .peerClosed => false
  | .server, _, _ => true

/-- `reporting`: the callback has appended its session or has failed, and is about to count. -/
inductive OpenPC where
  | idle
  | opened
  | detached
  | created
  | reporting
  | finished
  deriving DecidableEq, Repr

/-- The callback has not come to its append yet. -/
def OpenPC.early : OpenPC → Bool
  | .idle | .opened | .detached | .created => true
  | .reporting | .finished => false

/-- Where a state callback or a call of `Stop` is. `closing` holds the sessions of the copy that are
not closed yet. -/
inductive CloserPC where
  | idle
  | closeSessions
  | stop
  | entered
  | stopping
  | closing ( ofStop : Bool) (left : List Nat)
  | closingPeer
  | returned ( ofStop : Bool)
  deriving DecidableEq, Repr

/-- The sessions that the callback or call is still going to close. -/
def CloserPC.left : CloserPC → List Nat
  | .closing _ left => left
  | _ => []

inductive Once where
  | unused
  | running
  | over
  deriving DecidableEq, Repr

/-- A session is named by its data channel. No branch reads `made`, `closed` and `unswept`, which
are those created, closed, and appended since the last copy. -/
structure State where
  sessions : List Nat := []
  opens : Nat → OpenPC := fun _ => .idle
  closers : Nat → CloserPC := fun _ => .idle
  done : Bool := false
  stopOnce : Once := .unused
  panicked : Bool := false
  made : List Nat := []
  closed : List Nat := []
  unswept : List Nat := []

def State.setOpen (s : State) (i : Nat) (pc : OpenPC) : State :=
  { s with opens := update s.opens i pc }

def State.setCloser (s : State) (j : Nat) (pc : CloserPC) : State :=
  { s with closers := update s.closers j pc }

variable {i j x : Nat}

theorem opens_setOpen_of_ne {k : Nat} (h : k ≠ i) (s : State) (pc : OpenPC) :
    (s.setOpen i pc).opens k = s.opens k :=
  update_of_ne h ..

theorem closers_setCloser_self (s : State) (j : Nat) (pc : CloserPC) :
    (s.setCloser j pc).closers j = pc :=
  update_self ..

theorem closers_setCloser_of_ne {k : Nat} (h : k ≠ j) (s : State) (pc : CloserPC) :
    (s.setCloser j pc).closers k = s.closers k :=
  update_of_ne h ..

/-- The flags of `detach` and `newSession` say whether the call succeeds, that of `stateChange`
whether `onReconnectNeeded` is set when the callback reads it. -/
inductive Action where
  | onOpen (i : Nat)
  | detach (i : Nat) (ok : Bool)
  | newSession (i : Nat) (ok : Bool)
  | appendSession (i : Nat)
  | report (i : Nat)
  | stateChange (j : Nat) (e : Event) (reconnect : Bool)
  | snapshotAndClear (j : Nat)
  | stop (j : Nat)
  | enterStop (j : Nat)
  | closeDone (j : Nat)
  | snapshot (j : Nat)
  | closeNext (j : Nat)
  | closePeer (j : Nat)
  deriving DecidableEq, Repr

/-- The callback of the data channel `i` goes on from `pc` to `next`. -/
def State.advance (s : State) (i : Nat) (pc next : OpenPC) : Option State :=
  if s.opens i = pc then some (s.setOpen i next) else none

/-- `stopOnce` of the client makes a second call of `Stop` wait for the first one; the server only
looks at `done`. -/
def State.enterStop (s : State) (j : Nat) : Side → Option State
  | .client =>
    match s.stopOnce with
    | .unused => some { s.setCloser j .entered with stopOnce := .running }
    | .running => none
    | .over => some (s.setCloser j (.returned true))
  | .server => some (s.setCloser j (if s.done then .returned true else .entered))

/-- `close(done)`: to close a closed channel is a panic. -/
def State.closeDone (s : State) (j : Nat) : State :=
  if s.done then { s with panicked := true }
  else { s.setCloser j .stopping with done := true }

/-- Closing the copied sessions: one session, or the end. -/
def State.closeNext (s : State) (j : Nat) : Option State :=
  match s.closers j with
  | .closing ofStop (x :: left) =>
    some { s.setCloser j (.closing ofStop left) with closed := x :: s.closed }
  | .closing true [] => some (s.setCloser j .closingPeer)
  | .closing false [] => some (s.setCloser j (.returned false))
  | _ => none

section Steps

variable (side : Side)

/-- One step of a process that has not panicked. -/
def stepOf (s : State) : Action → Option State
  | .onOpen i => s.advance i .idle .opened
  | .detach i ok => s.advance i .opened (if ok then .detached else .reporting)
  | .newSession i true =>
    if s.opens i = .detached then some { s.setOpen i .created with made := i :: s.made } else none
  | .newSession i false => s.advance i .detached .reporting
  | .appendSession i =>
    if s.opens i = .created then
      some { s.setOpen i .reporting with
        sessions := s.sessions ++ [i], unswept := i :: s.unswept }
    else none
  | .report i => s.advance i .reporting .finished
  | .stateChange j e reconnect =>
    if s.closers j = .idle then
      some (s.setCloser j
        (if closesSessions side reconnect e then .closeSessions else .returned false))
    else none
  | .snapshotAndClear j =>
    if s.closers j = .closeSessions then
      some { s.setCloser j (.closing false s.sessions) with sessions := [], unswept := [] }
    else none
  | .stop j => if s.closers j = .idle then some (s.setCloser j .stop) else none
  | .enterStop j => if s.closers j = .stop then s.enterStop j side else none
  | .closeDone j => if s.closers j = .entered then some (s.closeDone j) else none
  | .snapshot j =>
    if s.closers j = .stopping then
      some { s.setCloser j (.closing true s.sessions) with unswept := [] }
    else none
  | .closeNext j => s.closeNext j
  | .closePeer j =>
    if s.closers j = .closingPeer then
      some { s.setCloser j (.returned true) with stopOnce := .over }
    else none

def step (s : State) (a : Action) : Option State :=
  if s.panicked then none else stepOf side s a

end Steps

/-- A `Stop` has returned, and every callback and call that was started has finished. -/
structure State.Quiet (s : State) : Prop where
  stopped : ∃ j, s.closers j = .returned true
  opens : ∀ i, s.opens i = .idle ∨ s.opens i = .finished
  closers : ∀ j, s.closers j = .idle ∨ ∃ ofStop, s.closers j = .returned ofStop

/-- Every session that was created has been closed by `Stop` or `closeSessions`. -/
def State.AllClosed (s : State) : Prop :=
  ∀ i ∈ s.made, i ∈ s.closed

/-! ## What a step does to the sessions -/

inductive Effect (s : State) : State → Prop where
  | callback (i : Nat) (pc : OpenPC) (hfrom : s.opens i ≠ .created) (hto : pc ≠ .created)
      (hearly : pc.early = true → (s.opens i).early = true) : Effect s (s.setOpen i pc)
  | make (i : Nat) (hpc : s.opens i = .detached) :
      Effect s { s.setOpen i .created with made := i :: s.made }
  | append (i : Nat) (hpc : s.opens i = .created) :
      Effect s { s.setOpen i .reporting with
        sessions := s.sessions ++ [i], unswept := i :: s.unswept }
  | control (j : Nat) (pc : CloserPC) (hfrom : (s.closers j).left = []) (hto : pc.left = [])
      (done : Bool) (once : Once) (panicked : Bool) :
      Effect s { s.setCloser j pc with done := done, stopOnce := once, panicked := panicked }
  | copy (j : Nat) (ofStop : Bool) (hfrom : (s.closers j).left = []) (kept : List Nat)
      (hkept : ∀ x ∈ kept, x ∈ s.sessions) :
      Effect s { s.setCloser j (.closing ofStop s.sessions) with sessions := kept, unswept := [] }
  | close (j : Nat) (ofStop : Bool) (x : Nat) (left : List Nat)
      (hfrom : s.closers j = .closing ofStop (x :: left)) :
      Effect s { s.setCloser j (.closing ofStop left) with closed := x :: s.closed }

section Effects

variable {side : Side} {s t : State}

theorem left_of_eq {pc : CloserPC} (h : s.closers j = pc) (hpc : pc.left = []) :
    (s.closers j).left = [] := by
  rw [h]
  exact hpc

theorem effect_of_advance {pc next : OpenPC} (h : s.advance i pc next = some t)
    (hfrom : pc ≠ .created) (hto : next ≠ .created) (hearly : next.early = true → pc.early = true) :
    Effect s t := by
  obtain ⟨hpc, rfl⟩ := of_guarded h
  refine Effect.callback i next ?_ hto ?_
  · rw [hpc]
    exact hfrom
  · rw [hpc]
    exact hearly

theorem effect_of_setCloser {pc : CloserPC} (hfrom : (s.closers j).left = [])
    (hto : pc.left = []) : Effect s (s.setCloser j pc) :=
  Effect.control j pc hfrom hto s.done s.stopOnce s.panicked

theorem effect_of_enterStop (hpc : (s.closers j).left = [])
    (h : s.enterStop j side = some t) : Effect s t := by
  cases side with
  | client =>
    rw [State.enterStop] at h
    split at h
    · obtain rfl := Option.some.inj h
      exact Effect.control j .entered hpc rfl s.done .running s.panicked
    · cases h
    · obtain rfl := Option.some.inj h
      exact effect_of_setCloser hpc rfl
  | server =>
    obtain rfl := Option.some.inj h
    refine effect_of_setCloser hpc ?_
    split <;> rfl

theorem effect_of_closeDone (hpc : s.closers j = .entered) :
    Effect s (s.closeDone j) := by
  have hleft := left_of_eq hpc rfl
  rw [State.closeDone]
  split
  · -- The panicking call does not move: it is written as a step to the place where it is.
    have hstay : s.setCloser j .entered = s := by
      rw [State.setCloser, ← hpc, update_eq_self]
    have h := Effect.control j .entered hleft rfl s.done s.stopOnce true
    rw [hstay] at h
    exact h
  · exact Effect.control j .stopping hleft rfl true s.stopOnce s.panicked

theorem effect_of_closeNext (h : s.closeNext j = some t) : Effect s t := by
  rw [State.closeNext] at h
  split at h
  · next ofStop x left hpc =>
      obtain rfl := Option.some.inj h
      exact Effect.close j ofStop x left hpc
  · next hpc =>
      obtain rfl := Option.some.inj h
      exact effect_of_setCloser (left_of_eq hpc rfl) rfl
  · next hpc =>
      obtain rfl := Option.some.inj h
      exact effect_of_setCloser (left_of_eq hpc rfl) rfl
  · cases h

theorem effect_of_step {a : Action} (h : step side s a = some t) : Effect s t := by
  obtain ⟨-, h⟩ := Option.ite_none_left_eq_some.mp h
  cases a with
  | onOpen i => exact effect_of_advance h nofun nofun (fun _ => rfl)
  | detach i ok =>
    cases ok with
    | true | false => exact effect_of_advance h nofun nofun (fun _ => rfl)
  | newSession i ok =>
    cases ok with
    | true =>
      obtain ⟨hpc, rfl⟩ := of_guarded h
      exact Effect.make i hpc
    | false => exact effect_of_advance h nofun nofun (fun _ => rfl)
  | appendSession i =>
    obtain ⟨hpc, rfl⟩ := of_guarded h
    exact Effect.append i hpc
  | report i => exact effect_of_advance h nofun nofun nofun
  | stateChange j e reconnect =>
    obtain ⟨hpc, rfl⟩ := of_guarded h
    refine effect_of_setCloser (left_of_eq hpc rfl) ?_
    split <;> rfl
  | snapshotAndClear j =>
    obtain ⟨hpc, rfl⟩ := of_guarded h
    exact Effect.copy j false (left_of_eq hpc rfl) [] (fun x hx => absurd hx not_mem_nil)
  | stop j =>
    obtain ⟨hpc, rfl⟩ := of_guarded h
    exact effect_of_setCloser (left_of_eq hpc rfl) rfl
  | enterStop j =>
    obtain ⟨hpc, h⟩ := Option.ite_none_right_eq_some.mp h
    exact effect_of_enterStop (left_of_eq hpc rfl) h
  | closeDone j =>
    obtain ⟨hpc, rfl⟩ := of_guarded h
    exact effect_of_closeDone hpc
  | snapshot j =>
    obtain ⟨hpc, rfl⟩ := of_guarded h
    exact Effect.copy j true (left_of_eq hpc rfl) s.sessions (fun _ hx => hx)
  | closeNext j => exact effect_of_closeNext h
  | closePeer j =>
    obtain ⟨hpc, rfl⟩ := of_guarded h
    exact Effect.control j (.returned true) (left_of_eq hpc rfl) rfl s.done .over s.panicked

end Effects

/-! ## The places of a session -/

/-- Some callback or call is still going to close the session. -/
def State.Taken (s : State) (x : Nat) : Prop :=
  ∃ j, x ∈ (s.closers j).left

variable {s : State} {pc : CloserPC}

theorem taken_setCloser (h : (s.setCloser j pc).Taken x) : x ∈ pc.left ∨ s.Taken x := by
  obtain ⟨k, hk⟩ := h
  rcases update_cases (x ∈ CloserPC.left ·) hk with ⟨-, hnew⟩ | ⟨-, hold⟩
  · exact .inl hnew
  · exact .inr ⟨k, hold⟩

theorem taken_of_left (h : x ∈ pc.left) : (s.setCloser j pc).Taken x := by
  refine ⟨j, ?_⟩
  rw [closers_setCloser_self]
  exact h

theorem taken_of_other (h : s.Taken x)
    (hj : x ∈ (s.closers j).left → x ∈ pc.left) : (s.setCloser j pc).Taken x := by
  obtain ⟨k, hk⟩ := h
  by_cases hkj : k = j
  · subst hkj
    exact taken_of_left (hj hk)
  · refine ⟨k, ?_⟩
    rw [closers_setCloser_of_ne hkj]
    exact hk

/-- A created session is held by its callback, appended since the last copy, to be closed, or
closed; none is closed before it is copied. -/
structure Places (s : State) : Prop where
  created : ∀ i, s.opens i = .created → i ∈ s.made
  made : ∀ i ∈ s.made, s.opens i = .created ∨ i ∈ s.unswept ∨ s.Taken i ∨ i ∈ s.closed
  listed : ∀ i ∈ s.unswept, i ∈ s.made ∧ i ∈ s.sessions
  waiting : ∀ i ∈ s.unswept, ¬ s.Taken i ∧ i ∉ s.closed
  fresh : ∀ i, (s.opens i).early = true → i ∉ s.sessions ∧ ¬ s.Taken i ∧ i ∉ s.closed

theorem places_start : Places {} where
  created := fun _ h => nomatch h
  made := fun _ h => nomatch h
  listed := fun _ h => nomatch h
  waiting := fun _ h => nomatch h
  fresh := by
    refine fun i _ => ⟨not_mem_nil, ?_, not_mem_nil⟩
    rintro ⟨j, hj⟩
    exact not_mem_nil hj

section Preserved

variable {s : State}

theorem opens_setOpen_cases {k : Nat} {pc : OpenPC} (P : OpenPC → Prop)
    (h : P ((s.setOpen i pc).opens k)) : k = i ∧ P pc ∨ k ≠ i ∧ P (s.opens k) :=
  update_cases P h

theorem Places.callback (h : Places s) {pc : OpenPC} (hfrom : s.opens i ≠ .created)
    (hto : pc ≠ .created) (hearly : pc.early = true → (s.opens i).early = true) :
    Places (s.setOpen i pc) where
  created := by
    intro k hk
    rcases opens_setOpen_cases (· = .created) hk with ⟨-, hnew⟩ | ⟨-, hold⟩
    · exact absurd hnew hto
    · exact h.created k hold
  made := by
    intro k hk
    rcases h.made k hk with hcreated | hrest
    · grind [opens_setOpen_of_ne]
    · exact .inr hrest
  listed := h.listed
  waiting := h.waiting
  fresh := by
    intro k hk
    rcases opens_setOpen_cases (·.early = true) hk with ⟨rfl, hnew⟩ | ⟨-, hold⟩
    · exact h.fresh k (hearly hnew)
    · exact h.fresh k hold

theorem Places.make (h : Places s) (hpc : s.opens i = .detached) :
    Places { s.setOpen i .created with made := i :: s.made } where
  created := by
    intro k hk
    rcases opens_setOpen_cases (· = .created) hk with ⟨rfl, -⟩ | ⟨-, hold⟩
    · exact mem_cons_self
    · exact mem_cons_of_mem i (h.created k hold)
  made := by
    intro k hk
    by_cases hki : k = i
    · subst hki
      exact .inl (update_self ..)
    · have hmade := h.made k (mem_of_ne_of_mem hki hk)
      rwa [← update_of_ne hki OpenPC.created s.opens] at hmade
  listed := fun k hk => ⟨mem_cons_of_mem i (h.listed k hk).1, (h.listed k hk).2⟩
  waiting := h.waiting
  fresh := by
    intro k hk
    rcases opens_setOpen_cases (·.early = true) hk with ⟨rfl, -⟩ | ⟨-, hold⟩
    · refine h.fresh k ?_
      rw [hpc]
      rfl
    · exact h.fresh k hold

theorem Places.append (h : Places s) (hpc : s.opens i = .created) :
    Places { s.setOpen i .reporting with
      sessions := s.sessions ++ [i], unswept := i :: s.unswept } where
  created := by
    intro k hk
    rcases opens_setOpen_cases (· = .created) hk with ⟨rfl, -⟩ | ⟨-, hold⟩
    · exact h.created k hpc
    · exact h.created k hold
  made := by
    intro k hk
    by_cases hki : k = i
    · subst hki
      exact .inr (.inl mem_cons_self)
    · rcases h.made k hk with hcreated | hunswept | hrest
      · refine .inl ?_
        rw [opens_setOpen_of_ne hki]
        exact hcreated
      · exact .inr (.inl (mem_cons_of_mem i hunswept))
      · exact .inr (.inr hrest)
  listed := by
    intro k hk
    rcases mem_cons.mp hk with rfl | hk
    · exact ⟨h.created k hpc, mem_append_right s.sessions mem_cons_self⟩
    · exact ⟨(h.listed k hk).1, mem_append_left [i] (h.listed k hk).2⟩
  waiting := by
    intro k hk
    rcases mem_cons.mp hk with rfl | hk
    · -- A session is appended once, so no copy can hold it yet.
      have hfresh := h.fresh k (by rw [hpc]; rfl)
      exact hfresh.2
    · exact h.waiting k hk
  fresh := by
    intro k hk
    rcases opens_setOpen_cases (·.early = true) hk with ⟨-, hnew⟩ | ⟨hki, hold⟩
    · cases hnew
    · obtain ⟨hsessions, hrest⟩ := h.fresh k hold
      refine ⟨fun hmem => ?_, hrest⟩
      rcases mem_append.mp hmem with hmem | hmem
      · exact hsessions hmem
      · exact hki (mem_singleton.mp hmem)

theorem Places.control (h : Places s) {pc : CloserPC} (hfrom : (s.closers j).left = [])
    (hto : pc.left = []) (done : Bool) (once : Once) (panicked : Bool) :
    Places { s.setCloser j pc with done := done, stopOnce := once, panicked := panicked } := by
  have hback : ∀ x, (s.setCloser j pc).Taken x → s.Taken x := by
    intro x hx
    rcases taken_setCloser hx with hleft | hx
    · rw [hto] at hleft
      exact absurd hleft not_mem_nil
    · exact hx
  have hforth : ∀ x, s.Taken x → (s.setCloser j pc).Taken x := by
    intro x hx
    refine taken_of_other hx fun hmem => ?_
    rw [hfrom] at hmem
    exact absurd hmem not_mem_nil
  constructor
  case created => exact h.created
  case made =>
    intro k hk
    rcases h.made k hk with hcreated | hunswept | htaken | hclosed
    · exact .inl hcreated
    · exact .inr (.inl hunswept)
    · exact .inr (.inr (.inl (hforth k htaken)))
    · exact .inr (.inr (.inr hclosed))
  case listed => exact h.listed
  case waiting => exact fun k hk => ⟨fun hx => (h.waiting k hk).1 (hback k hx), (h.waiting k hk).2⟩
  case fresh =>
    intro k hk
    obtain ⟨hsessions, htaken, hclosed⟩ := h.fresh k hk
    exact ⟨hsessions, fun hx => htaken (hback k hx), hclosed⟩

theorem Places.copy (h : Places s) (ofStop : Bool) (hfrom : (s.closers j).left = [])
    {kept : List Nat} (hkept : ∀ x ∈ kept, x ∈ s.sessions) :
    Places { s.setCloser j (.closing ofStop s.sessions) with
      sessions := kept, unswept := [] } := by
  constructor
  case created => exact h.created
  case made =>
    intro k hk
    rcases h.made k hk with hcreated | hunswept | htaken | hclosed
    · exact .inl hcreated
    · exact .inr (.inr (.inl (taken_of_left (h.listed k hunswept).2)))
    · refine .inr (.inr (.inl (taken_of_other htaken fun hmem => ?_)))
      rw [hfrom] at hmem
      exact absurd hmem not_mem_nil
    · exact .inr (.inr (.inr hclosed))
  case listed => exact fun k hk => absurd hk not_mem_nil
  case waiting => exact fun k hk => absurd hk not_mem_nil
  case fresh =>
    intro k hk
    obtain ⟨hsessions, htaken, hclosed⟩ := h.fresh k hk
    refine ⟨fun hmem => hsessions (hkept k hmem), fun hx => ?_, hclosed⟩
    rcases taken_setCloser hx with hleft | hx
    · exact hsessions hleft
    · exact htaken hx

theorem Places.close (h : Places s) {ofStop : Bool} {left : List Nat}
    (hfrom : s.closers j = .closing ofStop (x :: left)) :
    Places { s.setCloser j (.closing ofStop left) with closed := x :: s.closed } := by
  have hx : s.Taken x := by
    refine ⟨j, ?_⟩
    rw [hfrom]
    exact mem_cons_self
  have hback : ∀ y, (s.setCloser j (.closing ofStop left)).Taken y → s.Taken y := by
    intro y hy
    rcases taken_setCloser hy with hleft | hy
    · refine ⟨j, ?_⟩
      rw [hfrom]
      exact mem_cons_of_mem x hleft
    · exact hy
  -- What was not to be closed is not `x`, so it is not closed by this step.
  have hother : ∀ y, ¬ s.Taken y → y ∉ s.closed →
      ¬ (s.setCloser j (.closing ofStop left)).Taken y ∧ y ∉ x :: s.closed := by
    intro y hy hclosed
    refine ⟨fun htaken => hy (hback y htaken), fun hmem => ?_⟩
    rcases mem_cons.mp hmem with rfl | hmem
    · exact hy hx
    · exact hclosed hmem
  constructor
  case created => exact h.created
  case made =>
    intro k hk
    rcases h.made k hk with hcreated | hunswept | htaken | hclosed
    · exact .inl hcreated
    · exact .inr (.inl hunswept)
    · by_cases hkx : k = x
      · subst hkx
        exact .inr (.inr (.inr mem_cons_self))
      · refine .inr (.inr (.inl (taken_of_other htaken fun hmem => ?_)))
        rw [hfrom] at hmem
        exact mem_of_ne_of_mem hkx hmem
    · exact .inr (.inr (.inr (mem_cons_of_mem x hclosed)))
  case listed => exact h.listed
  case waiting => exact fun k hk => hother k (h.waiting k hk).1 (h.waiting k hk).2
  case fresh =>
    intro k hk
    obtain ⟨hsessions, htaken, hclosed⟩ := h.fresh k hk
    exact ⟨hsessions, hother k htaken hclosed⟩

theorem Places.effect {t : State} (h : Places s) (he : Effect s t) : Places t := by
  cases he with
  | callback i pc hfrom hto hearly => exact h.callback hfrom hto hearly
  | make i hpc => exact h.make hpc
  | append i hpc => exact h.append hpc
  | control j pc hfrom hto done once panicked => exact h.control hfrom hto done once panicked
  | copy j ofStop hfrom kept hkept => exact h.copy ofStop hfrom hkept
  | close j ofStop x left hfrom => exact h.close hfrom

end Preserved

/-- **The places of the sessions, in every interleaving.** -/
theorem places_of_run {side : Side} {as : List Action} {t : State}
    (h : run (step side) {} as = some t) : Places t :=
  (reaches_of_run h).invariant Places places_start
    fun _ _ _ hs _ hstep => hs.effect (effect_of_step hstep)

/-! ## After `Stop` -/

theorem Places.closed_or_unswept (h : Places s) (hquiet : s.Quiet)
    (hi : i ∈ s.made) : i ∈ s.closed ∨ i ∈ s.unswept := by
  rcases h.made i hi with hcreated | hunswept | ⟨j, hj⟩ | hclosed
  · grind [hquiet.opens]
  · exact .inr hunswept
  · have hleft : (s.closers j).left = [] := by
      rcases hquiet.closers j with hidle | ⟨ofStop, hreturned⟩
      · exact left_of_eq hidle rfl
      · exact left_of_eq hreturned rfl
    rw [hleft] at hj
    exact absurd hj not_mem_nil
  · exact .inl hclosed

/-- **What `Stop` leaves open**: the sessions that were appended after the last copy. -/
theorem allClosed_iff {side : Side} {as : List Action} {t : State}
    (hrun : run (step side) {} as = some t) (hquiet : t.Quiet) :
    t.AllClosed ↔ t.unswept = [] := by
  have hplaces := places_of_run hrun
  constructor
  · intro hall
    refine eq_nil_iff_forall_not_mem.mpr fun i hi => ?_
    exact (hplaces.waiting i hi).2 (hall i (hplaces.listed i hi).1)
  · intro hempty i hi
    rcases hplaces.closed_or_unswept hquiet hi with hclosed | hunswept
    · exact hclosed
    · rw [hempty] at hunswept
      exact absurd hunswept not_mem_nil

def stopCall (j : Nat) (copied : List Nat) : List Action :=
  [.stop j, .enterStop j, .closeDone j, .snapshot j] ++
    copied.map (fun _ => .closeNext j) ++ [.closeNext j, .closePeer j]

def closeSessionsCall (j : Nat) (e : Event) (copied : List Nat) : List Action :=
  [.stateChange j e true, .snapshotAndClear j] ++ copied.map (fun _ => .closeNext j) ++
    [.closeNext j]

def appendThenStop : List Action :=
  [.onOpen 0, .detach 0 true, .newSession 0 true, .appendSession 0, .report 0] ++ stopCall 0 [0]

/-- The callback of channel 0 has created its session when `Stop` begins, and appends it after
`Stop` has returned. -/
def stopThenAppend : List Action :=
  [.onOpen 0, .detach 0 true, .newSession 0 true] ++ stopCall 0 [] ++
    closeSessionsCall 1 .iceClosed [] ++ [.appendSession 0, .report 0]

theorem quiet_of_finished (hopen : s.opens 0 = .finished)
    (hopens : ∀ i, s.opens (i + 1) = .idle) (hstop : s.closers 0 = .returned true)
    (hcall : s.closers 1 = .idle ∨ ∃ ofStop, s.closers 1 = .returned ofStop)
    (hcalls : ∀ j, s.closers (j + 2) = .idle) : s.Quiet where
  stopped := ⟨0, hstop⟩
  opens := by
    intro i
    cases i with
    | zero => exact .inr hopen
    | succ i => exact .inl (hopens i)
  closers := by
    rintro (_ | _ | j)
    · exact .inr ⟨true, hstop⟩
    · exact hcall
    · exact .inl (hcalls j)

theorem earlyAppend_closed : ∃ t : State,
    run (step .client) {} appendThenStop = some t ∧ t.Quiet ∧ t.made = [0] ∧ t.AllClosed := by
  refine ⟨_, rfl, ?quiet, rfl, (@allClosed_iff .client appendThenStop _ rfl ?quiet).mpr rfl⟩
  exact quiet_of_finished rfl (fun _ => rfl) rfl (.inl rfl) (fun _ => rfl)

/-- Everything has finished, and the created session is not closed. -/
def LeavesOpen (side : Side) : Prop :=
  ∃ t : State, run (step side) {} stopThenAppend = some t ∧ t.Quiet ∧
    t.made = [0] ∧ t.closed = [] ∧ ¬ t.AllClosed

theorem lateAppend_leftOpen : LeavesOpen .client ∧ LeavesOpen .server := by
  constructor
  all_goals
    refine ⟨_, rfl, ?_, rfl, rfl, fun hall => not_mem_nil (hall 0 mem_cons_self)⟩
    exact quiet_of_finished rfl (fun _ => rfl) rfl (.inr ⟨false, rfl⟩) (fun _ => rfl)

end NatProxy.WebRTC.SessionStop
