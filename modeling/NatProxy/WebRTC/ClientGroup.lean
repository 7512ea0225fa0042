import NatProxy.Lib.Transition
import Mathlib.Tactic.SplitIfs

/-!
# ICE failures in a client group

Model of how `golib/webrtc/group.go` reports an ICE failure. `StartClientGroup` gives every client
a callback that runs `g.OnReconnectNeeded` through one shared `sync.Once`; `client.go` starts a
goroutine with that callback when ICE fails; the owner of the group sets `g.OnReconnectNeeded`
after `WaitConnected`, which returns as soon as one client is connected. The steps of clients,
goroutines and owner come in any order, for any number of clients.

The `Once` is used up even when `g.OnReconnectNeeded` is still nil. So the group reports at most
once, and a failure after the assignment is reported exactly if no goroutine ran too early
(`reported_iff`).
-/

namespace NatProxy.WebRTC.ClientGroup

open Lib Function List

/-! ## The group -/

/-- The ICE connection states that the callback of `StartClient` distinguishes. -/
inductive ICEState where
  | connected
  | completed
  | failed
  | closed
  | disconnected
  | other
deriving DecidableEq, Repr

/-- The parts of a `Client` that the callback touches. `connected` and `failed` are channels that
are closed once. -/
structure Client where
  iceAlive : Bool := false
  connected : Bool := false
  failed : Bool := false
  sessionsClosed : Bool := false
deriving DecidableEq, Repr

/-- The first `wired` clients have their callback; `waiting` counts the goroutines that have not
run, `invoked` how often the callback of the group has run. -/
structure Group where
  npc : Nat
  clients : Nat → Client := fun _ => {}
  wired : Nat := 0
  waiting : Nat := 0
  reconnectOnce : Bool := false
  onReconnectNeeded : Bool := false
  invoked : Nat := 0

/-- The callback for a change of the ICE connection state. -/
def Group.onICEConnectionStateChange (g : Group) (i : Nat) (state : ICEState) : Group :=
  let c := g.clients i
  match state with
  | .connected | .completed =>
    { g with clients := update g.clients i { c with iceAlive := true } }
  | .failed =>
    if i < g.wired then
      -- `go c.onReconnectNeeded()`
      { g with
        clients := update g.clients i { c with iceAlive := false, failed := true }
        waiting := g.waiting + 1 }
    else
      { g with
        clients := update g.clients i
          { c with iceAlive := false, failed := true, sessionsClosed := true } }
  | .closed =>
    { g with
      clients := update g.clients i
        { c with iceAlive := false, failed := true, sessionsClosed := true } }
  | .disconnected | .other => g

/-- `cli.onReconnectNeeded`: one goroutine goes through the `Once`. -/
def Group.runCallback (g : Group) : Group :=
  { g with
    waiting := g.waiting - 1
    reconnectOnce := true
    invoked :=
      if g.reconnectOnce = false ∧ g.onReconnectNeeded = true then g.invoked + 1 else g.invoked }

/-- `WaitConnected` can return without an error: one client is connected. -/
def Group.anyConnected (g : Group) : Bool := (range g.npc).any fun i => (g.clients i).connected

/-- The steps of the clients, of a goroutine and of the owner. -/
inductive Event where
  | wire
  | channelsOpen (i : Nat)
  | iceState (i : Nat) (state : ICEState)
  | callback
  | assign
deriving DecidableEq, Repr

def step (g : Group) : Event → Option Group
  | .wire => if g.wired < g.npc then some { g with wired := g.wired + 1 } else none
  | .channelsOpen i =>
    if i < g.npc then
      some { g with
        clients := update g.clients i { g.clients i with connected := true } }
    else none
  | .iceState i state => if i < g.npc then some (g.onICEConnectionStateChange i state) else none
  | .callback => if 0 < g.waiting then some g.runCallback else none
  | .assign =>
    if g.wired = g.npc ∧ g.anyConnected = true ∧ g.onReconnectNeeded = false then
      some { g with onReconnectNeeded := true }
    else none

def start (npc : Nat) : Group := { npc := npc }

/-! ## What a step changes -/

theorem onICEConnectionStateChange_spec (g : Group) (i : Nat) (state : ICEState) :
    ∃ clients, g.onICEConnectionStateChange i state = { g with
      clients := clients
      waiting := if state = .failed ∧ i < g.wired then g.waiting + 1 else g.waiting } := by
  cases state with
  | failed =>
    by_cases hi : i < g.wired
    · simp only [Group.onICEConnectionStateChange, if_pos hi, true_and]
      exact ⟨_, rfl⟩
    · simp only [Group.onICEConnectionStateChange, if_neg hi, true_and]
      exact ⟨_, rfl⟩
  | _ => exact ⟨_, rfl⟩

inductive EventCase (g : Group) : Event → Group → Prop where
  | quiet {e : Event} {t : Group} (hne : e ≠ .callback ∧ e ≠ .assign) (hn : t.npc = g.npc)
      (hwired : g.wired ≤ t.wired) (hwait : g.waiting ≤ t.waiting)
      (hfail : ∀ i, e = .iceState i .failed → g.npc ≤ g.wired → 0 < t.waiting)
      (honce : t.reconnectOnce = g.reconnectOnce)
      (hset : t.onReconnectNeeded = g.onReconnectNeeded) (hinv : t.invoked = g.invoked) :
      EventCase g e t
  | callback (h : 0 < g.waiting) : EventCase g .callback g.runCallback
  | assign (hwired : g.wired = g.npc) (hset : g.onReconnectNeeded = false) :
      EventCase g .assign { g with onReconnectNeeded := true }

variable {g t : Group} {e : Event}

theorem step_cases (h : step g e = some t) : EventCase g e t := by
  cases e with
  | wire =>
    simp only [step, Option.ite_none_right_eq_some, Option.some.injEq] at h
    obtain ⟨-, rfl⟩ := h
    exact .quiet ⟨by simp, by simp⟩ rfl (Nat.le_succ _) (Nat.le_refl _) (fun i hc => by cases hc)
      rfl rfl rfl
  | channelsOpen i =>
    simp only [step, Option.ite_none_right_eq_some, Option.some.injEq] at h
    obtain ⟨-, rfl⟩ := h
    exact .quiet ⟨by simp, by simp⟩ rfl (Nat.le_refl _) (Nat.le_refl _) (fun i hc => by cases hc)
      rfl rfl rfl
  | iceState i state =>
    simp only [step, Option.ite_none_right_eq_some, Option.some.injEq] at h
    obtain ⟨hi, rfl⟩ := h
    obtain ⟨clients, heq⟩ := onICEConnectionStateChange_spec g i state
    rw [heq]
    refine .quiet ⟨by simp, by simp⟩ rfl (Nat.le_refl _) ?_ ?_ rfl rfl rfl
    · dsimp only
      split_ifs
      · exact Nat.le_succ _
      · exact Nat.le_refl _
    · rintro j hj hwired
      cases hj
      dsimp only
      rw [if_pos ⟨rfl, by omega⟩]
      exact Nat.succ_pos _
  | callback =>
    simp only [step, Option.ite_none_right_eq_some, Option.some.injEq] at h
    obtain ⟨hwait, rfl⟩ := h
    exact .callback hwait
  | assign =>
    simp only [step, Option.ite_none_right_eq_some, Option.some.injEq] at h
    obtain ⟨⟨hwired, -, hset⟩, rfl⟩ := h
    exact .assign hwired hset

/-! ## Three stages of the `Once` -/

def Group.Fresh (g : Group) : Prop :=
  g.onReconnectNeeded = false ∧ g.reconnectOnce = false ∧ g.invoked = 0

/-- The `Once` was used up by a goroutine that found nothing to call. -/
def Group.Consumed (g : Group) : Prop := g.reconnectOnce = true ∧ g.invoked = 0

/-- The callback is set, and the first goroutine to run calls it. -/
def Group.OnTime (g : Group) : Prop :=
  g.onReconnectNeeded = true ∧ g.invoked = if g.reconnectOnce = true then 1 else 0

/-- A goroutine runs before `g.OnReconnectNeeded` is set. -/
def EarlyCallback : List Event → Prop
  | [] => False
  | .assign :: _ => False
  | .callback :: _ => True
  | .wire :: es | .channelsOpen _ :: es | .iceState _ _ :: es => EarlyCallback es

/-- A client fails after `g.OnReconnectNeeded` is set. -/
def LateFailure : List Event → Prop
  | [] => False
  | .assign :: es => ∃ i, .iceState i .failed ∈ es
  | .callback :: es | .wire :: es | .channelsOpen _ :: es | .iceState _ _ :: es => LateFailure es

theorem step_consumed (hg : g.Consumed) (h : step g e = some t) : t.Consumed := by
  cases step_cases h with
  | quiet hne hn hwired hwait hfail honce hset hinv =>
    exact ⟨by rw [honce, hg.1], by rw [hinv, hg.2]⟩
  | callback hwait =>
    refine ⟨rfl, ?_⟩
    simp only [Group.runCallback, hg.1, hg.2]
    simp
  | assign hwired hset => exact hg

theorem step_onTime (hg : g.OnTime) (h : step g e = some t) : t.OnTime := by
  cases step_cases h with
  | quiet hne hn hwired hwait hfail honce hset hinv =>
    exact ⟨by rw [hset, hg.1], by rw [hinv, honce, hg.2]⟩
  | callback hwait =>
    refine ⟨hg.1, ?_⟩
    have hinv := hg.2
    cases honce : g.reconnectOnce with
    | true => simp [Group.runCallback, honce, hinv]
    | false => simp [Group.runCallback, honce, hg.1, hinv]
  | assign hwired hset => exact ⟨rfl, hg.2⟩

variable {es : List Event}

theorem run_fresh (hg : g.Fresh) (h : run step g es = some t) :
    (EarlyCallback es → t.Consumed) ∧ (¬ EarlyCallback es → t.Fresh ∨ t.OnTime) := by
  induction es generalizing g with
  | nil =>
    cases h
    exact ⟨fun hearly => hearly.elim, fun _ => .inl hg⟩
  | cons e es ih =>
    rw [run_cons, Option.bind_eq_some_iff] at h
    obtain ⟨u, hu, htail⟩ := h
    cases step_cases hu with
    | quiet hne hn hwired hwait hfail honce hset hinv =>
      have hfresh : u.Fresh := ⟨by rw [hset, hg.1], by rw [honce, hg.2.1], by rw [hinv, hg.2.2]⟩
      have hsame : EarlyCallback (e :: es) ↔ EarlyCallback es := by
        cases e with
        | callback => exact absurd rfl hne.1
        | assign => exact absurd rfl hne.2
        | _ => exact Iff.rfl
      rw [hsame]
      exact ih hfresh htail
    | callback hwait =>
      have hconsumed : g.runCallback.Consumed := by
        refine ⟨rfl, ?_⟩
        simp only [Group.runCallback, hg.1, hg.2.2]
        simp
      have hkept := (reaches_of_run htail).invariant Group.Consumed hconsumed
        fun _ _ _ hs _ hstep => step_consumed hs hstep
      exact ⟨fun _ => hkept, fun hnot => absurd trivial hnot⟩
    | assign hwired hset =>
      have honTime : Group.OnTime { g with onReconnectNeeded := true } := by
        refine ⟨rfl, ?_⟩
        simp [hg.2.1, hg.2.2]
      have hkept := (reaches_of_run htail).invariant Group.OnTime honTime
        fun _ _ _ hs _ hstep => step_onTime hs hstep
      exact ⟨fun hearly => hearly.elim, fun _ => .inr hkept⟩

/-! ## Failures leave a trace -/

/-- A goroutine is on its way, or one has run. -/
def Group.Noted (g : Group) : Prop := 0 < g.waiting ∨ g.reconnectOnce = true

theorem step_noted (hg : g.Noted) (h : step g e = some t) : t.Noted := by
  cases step_cases h with
  | quiet hne hn hwired hwait hfail honce hset hinv =>
    rcases hg with hg | hg
    · exact .inl (Nat.lt_of_lt_of_le hg hwait)
    · exact .inr (by rw [honce, hg])
  | callback hwait => exact .inr rfl
  | assign hwired hset => exact hg

theorem noted_of_failure (hwired : g.npc ≤ g.wired)
    (h : run step g es = some t) {i : Nat} (hi : .iceState i .failed ∈ es) : t.Noted := by
  induction es generalizing g with
  | nil => cases hi
  | cons e es ih =>
    rw [run_cons, Option.bind_eq_some_iff] at h
    obtain ⟨u, hu, htail⟩ := h
    have hkept (hnoted : u.Noted) : t.Noted :=
      (reaches_of_run htail).invariant Group.Noted hnoted
        fun _ _ _ hs _ hstep => step_noted hs hstep
    have hwired' : u.npc ≤ u.wired := by
      cases step_cases hu with
      | quiet hne hn hle hwait hfail honce hset hinv => omega
      | callback hwait | assign hall hset => exact hwired
    -- the failure happens now, or later on
    rcases mem_cons.1 hi with rfl | hi
    · cases step_cases hu with
      | quiet hne hn hle hwait hfail honce hset hinv => exact hkept (.inl (hfail i rfl hwired))
    · exact ih hwired' htail hi

theorem lateFailure_noted (h : run step g es = some t)
    (hlate : LateFailure es) : t.Noted ∧ t.onReconnectNeeded = true := by
  induction es generalizing g with
  | nil => exact hlate.elim
  | cons e es ih =>
    rw [run_cons, Option.bind_eq_some_iff] at h
    obtain ⟨u, hu, htail⟩ := h
    cases e with
    | assign =>
      obtain ⟨i, hi⟩ := hlate
      cases step_cases hu with
      | quiet hne hn hle hwait hfail honce hset hinv => exact absurd rfl hne.2
      | assign hwired hset =>
        refine ⟨noted_of_failure (g := { g with onReconnectNeeded := true })
          (Nat.le_of_eq hwired.symm) htail hi, ?_⟩
        refine (reaches_of_run htail).invariant (fun g => g.onReconnectNeeded = true) rfl ?_
        intro s e t hs _ hstep
        cases step_cases hstep with
        | quiet hne hn hle hwait hfail honce hset hinv => rw [hset, hs]
        | callback hwait => exact hs
        | assign hwired hset => rfl
    | _ => exact ih htail hlate

theorem run_waiting (g : Group) :
    ∃ t, run step g (replicate g.waiting .callback) = some t ∧ t.waiting = 0 := by
  induction hn : g.waiting generalizing g with
  | zero => exact ⟨g, rfl, hn⟩
  | succ n ih =>
    have hpos : 0 < g.waiting := by omega
    obtain ⟨t, ht, hzero⟩ := ih g.runCallback (by simp [Group.runCallback, hn])
    refine ⟨t, ?_, hzero⟩
    rw [replicate_succ, run_cons]
    simp only [step, if_pos hpos, Option.bind_some]
    exact ht

/-! ## What the owner hears -/

theorem invoked_le_one (h : g.Fresh ∨ g.Consumed ∨ g.OnTime) : g.invoked ≤ 1 := by
  rcases h with h | h | h
  · rw [h.2.2]
    exact Nat.zero_le 1
  · rw [h.2]
    exact Nat.zero_le 1
  · rw [h.2]
    split_ifs <;> decide

/-- **The group reports at most once, and a failure after the assignment is reported exactly if no
goroutine ran before it.** The state `t` is the one in which all goroutines have run. -/
theorem reported_iff {npc : Nat} {es : List Event} {s : Group}
    (h : run step (start npc) es = some s) :
    ∃ t, run step s (replicate s.waiting .callback) = some t ∧ t.waiting = 0 ∧ t.invoked ≤ 1 ∧
      ((LateFailure es → 1 ≤ t.invoked) ↔ (EarlyCallback es → ¬ LateFailure es)) := by
  obtain ⟨t, ht, hzero⟩ := run_waiting s
  have hfresh : (start npc).Fresh := ⟨rfl, rfl, rfl⟩
  obtain ⟨hearly, honTime⟩ := run_fresh hfresh h
  have hall : run step (start npc) (es ++ replicate s.waiting .callback) = some t := by
    rw [run_append, h]
    exact ht
  refine ⟨t, ht, hzero, ?_, ?_⟩
  · apply invoked_le_one
    obtain ⟨h1, h2⟩ := run_fresh hfresh hall
    by_cases hc : EarlyCallback (es ++ replicate s.waiting .callback)
    · exact .inr (.inl (h1 hc))
    · exact (h2 hc).imp_right .inr
  · by_cases hc : EarlyCallback es
    · -- the `Once` is used up for good
      have hconsumed := (reaches_of_run ht).invariant Group.Consumed (hearly hc)
        fun _ _ _ hs _ hstep => step_consumed hs hstep
      rw [hconsumed.2]
      simp [hc]
    · refine iff_of_true (fun hlate => ?_) (fun hc' => absurd hc' hc)
      obtain ⟨hnoted, hset⟩ := lateFailure_noted h hlate
      -- the first goroutine found the callback set, or is still to come
      have hstage : s.OnTime := by
        rcases honTime hc with hs | hs
        · rw [hs.1] at hset
          cases hset
        · exact hs
      have honTime' := (reaches_of_run ht).invariant Group.OnTime hstage
        fun _ _ _ hs _ hstep => step_onTime hs hstep
      have hnoted' := (reaches_of_run ht).invariant Group.Noted hnoted
        fun _ _ _ hs _ hstep => step_noted hs hstep
      rcases hnoted' with hpos | honce
      · omega
      · exact Nat.le_of_eq (by rw [honTime'.2, if_pos honce])

theorem reported_iff_late :
    ∃ s t, run step (start 2)
        [.wire, .wire, .channelsOpen 0, .assign, .iceState 1 .failed] = some s ∧
      run step s (replicate s.waiting .callback) = some t ∧ t.waiting = 0 ∧ 1 ≤ t.invoked := by
  have hrun : ∃ s, run step (start 2)
      [.wire, .wire, .channelsOpen 0, .assign, .iceState 1 .failed] = some s := ⟨_, rfl⟩
  obtain ⟨s, hs⟩ := hrun
  obtain ⟨t, ht, hzero, -, hiff⟩ := reported_iff hs
  exact ⟨s, t, hs, ht, hzero, hiff.2 (fun hc => hc.elim) ⟨1, by simp⟩⟩

/-- One client fails while the owner waits for the other, and uses up the `Once`. -/
def earlyRun : List Event :=
  [.wire, .wire, .iceState 1 .failed, .callback, .channelsOpen 0, .assign, .iceState 0 .failed,
    .callback]

/-- The failure of the client that was connected is never reported. -/
theorem earlyRun_swallows :
    ∃ s, run step (start 2) earlyRun = some s ∧ s.waiting = 0 ∧ LateFailure earlyRun ∧
      s.invoked = 0 :=
  ⟨_, rfl, rfl, ⟨0, by simp⟩, rfl⟩

end NatProxy.WebRTC.ClientGroup
