import NatProxy.Client.Ownership

/-!
# The health monitor and the reconnect limit

`attemptFastReconnect` counts the reconnects in `reconnectCount` and stops the client when there
have been too many; `monitorClientHealth` sets the count back. Each connection has a monitor with a
local variable `group`. At a tick the monitor asks that group whether it is alive, and only if it is
does it reset the count and take over the group that is active by then.

A tick is one step. The client itself takes the steps of `NatProxy.Client.step`, and a tick that
finds its group alive is the action `monitor` there (`step_client`).

At a tick with an active group that is alive, the count is reset exactly if the group that the
monitor holds is alive, too, or there is nothing to reset (`resets_iff`). A group that was swapped
out is stopped, so a monitor that still holds it never resets the count again (`deaf_of_reaches`),
and reconnects that all succeed add up to the limit (`succeedingReconnects_limited`).
-/

namespace NatProxy.Client.Health

open Lib

/-- `group i` is the local variable of the monitor of the connection `i`, `doneCh i` tells whether
its channel is closed. `settled`: a tick has found the active group alive since the last reconnect
began. -/
structure State where
  client : Client.State := {}
  alive : GroupId → Bool := fun _ => false
  group : Nat → Option GroupId := fun _ => none
  clientDoneCh : Option Nat := none
  doneCh : Nat → Bool := fun _ => false
  settled : Bool := true

inductive Action where
  | client (a : Client.Action)
  /-- the ICE connections of a group come up or go down -/
  | ice (g : GroupId) (up : Bool)
  | tick (i : Nat)
  /-- the monitor finds its channel closed -/
  | exit (i : Nat)
deriving DecidableEq, Repr

def State.setAlive (s : State) (g : GroupId) (up : Bool) : State :=
  { s with alive := Function.update s.alive g up }

def State.setGroup (s : State) (i : Nat) (g : Option GroupId) : State :=
  { s with group := Function.update s.group i g }

@[simp] theorem setAlive_self (s : State) (g : GroupId) (up : Bool) :
    (s.setAlive g up).alive g = up := by
  rw [State.setAlive]
  exact Function.update_self g up s.alive

variable {a : Action} {c : Client.State} {g : GroupId} {i : Nat}

@[simp] theorem setAlive_of_ne (s : State) {h : GroupId} (hne : h ≠ g) (up : Bool) :
    (s.setAlive g up).alive h = s.alive h := by
  rw [State.setAlive]
  exact Function.update_of_ne hne up s.alive

@[simp] theorem setGroup_self (s : State) (i : Nat) (g : Option GroupId) :
    (s.setGroup i g).group i = g := by
  rw [State.setGroup]
  exact Function.update_self i g s.group

@[simp] theorem setGroup_of_ne (s : State) {j : Nat} (hne : j ≠ i) (g : Option GroupId) :
    (s.setGroup i g).group j = s.group j := by
  rw [State.setGroup]
  exact Function.update_of_ne hne g s.group

def installs (s : Client.State) : Client.Action → Option Nat
  | .advance i _ =>
    if (s.calls i).pc = .tunnelled ∧ s.mayInstall i = true then some i else none
  | .begin _ | .stop _ | .monitor => none

def stopsRunning (s : Client.State) : Client.Action → Bool
  | .stop _ => s.clientRunning
  | .advance i _ =>
    match (s.calls i).pc, (s.calls i).kind with
    | .stopping, .fastReconnect _ => s.clientRunning
    | _, _ => false
  | .begin _ | .monitor => false

def counts (s : Client.State) : Client.Action → Bool
  | .begin (.fastReconnect _) => s.clientRunning && decide (s.reconnectCount < maxReconnects)
  | _ => false

def State.closeDone (s : State) : State :=
  match s.clientDoneCh with
  | none => s
  | some i => { s with clientDoneCh := none, doneCh := Function.update s.doneCh i true }

/-- A new connection has a channel, and on the WebRTC paths a monitor. -/
def State.startMonitor (s : State) (i : Nat) : State :=
  let c := s.client.calls i
  if c.kind = .startXray then { s with clientDoneCh := some i }
  else { s.setGroup i c.group with clientDoneCh := some i }

def State.observe (s : State) (a : Client.Action) : State :=
  match installs s.client a with
  | some i => s.startMonitor i
  | none =>
    if stopsRunning s.client a then s.closeDone
    else if counts s.client a then { s with settled := false }
    else s

def State.ActiveAlive (s : State) : Prop := ∃ g, s.client.activeGroup = some g ∧ s.alive g = true

instance (s : State) : Decidable s.ActiveAlive :=
  inferInstanceAs (Decidable (∃ g ∈ s.client.activeGroup, s.alive g = true))

/-- The monitor of the connection `i` ticks while the client runs on that connection, and the active
group is alive. -/
def State.Healthy (s : State) (i : Nat) : Prop :=
  s.client.clientRunning = true ∧ s.client.activeTunnel = some i ∧ s.ActiveAlive

instance (s : State) (i : Nat) : Decidable (s.Healthy i) := inferInstanceAs (Decidable (_ ∧ _))

def State.resetCount (s : State) (i : Nat) (g : GroupId) : State :=
  { s.setGroup i (some (s.client.activeGroup.getD g)) with
    client := { s.client with reconnectCount := 0 } }

def State.tick (s : State) (i : Nat) (g : GroupId) : State :=
  let t := { s with settled := s.settled || decide (s.Healthy i) }
  if s.alive g then t.resetCount i g else t

def step (s : State) : Action → Option State
  | .client .monitor => none
  | .client a => (Client.step s.client a).map fun c => { s.observe a with client := c }
  | .ice g up =>
    if up = true ∧ s.client.groupStopped g = true then none
    else some (s.setAlive g up)
  | .tick i => (s.group i).map fun g => s.tick i g
  | .exit i =>
    if s.doneCh i = true then some (s.setGroup i none) else none

@[simp] theorem closeDone_settled (s : State) : s.closeDone.settled = s.settled := by
  rw [State.closeDone]
  split <;> rfl

@[simp] theorem closeDone_group (s : State) : s.closeDone.group = s.group := by
  rw [State.closeDone]
  split <;> rfl

@[simp] theorem closeDone_alive (s : State) : s.closeDone.alive = s.alive := by
  rw [State.closeDone]
  split <;> rfl

/-! ## What a step does to the client -/

variable {s t : State}

inductive Moves (s : State) : Action → State → Prop where
  | client (a : Client.Action) (c : Client.State) (hc : Client.step s.client a = some c) :
      Moves s (.client a) { s.observe a with client := c }
  | ice (g : GroupId) (up : Bool) (hup : up = true → s.client.groupStopped g = false) :
      Moves s (.ice g up) (s.setAlive g up)
  | ticks (i : Nat) (g : GroupId) (hg : s.group i = some g) : Moves s (.tick i) (s.tick i g)
  | exits (i : Nat) (hdone : s.doneCh i = true) : Moves s (.exit i) (s.setGroup i none)

theorem moves_of_step (h : step s a = some t) : Moves s a t := by
  cases a with
  | client b =>
    have hmap (hb : step s (.client b) =
        (Client.step s.client b).map fun c => { s.observe b with client := c }) :
        Moves s (.client b) t := by
      rw [hb] at h
      obtain ⟨c, hc, rfl⟩ := Option.map_eq_some_iff.1 h
      exact .client b c hc
    cases b with
    | monitor => cases h
    | begin k | stop xrayOk | advance i ch => exact hmap rfl
  | ice g up =>
    obtain ⟨hnot, rfl⟩ := of_unless h
    refine .ice g up fun hup => ?_
    rw [← Bool.not_eq_true]
    exact fun hstopped => hnot ⟨hup, hstopped⟩
  | tick i =>
    obtain ⟨g, hg, rfl⟩ := Option.map_eq_some_iff.1 h
    exact .ticks i g hg
  | exit i =>
    obtain ⟨hdone, rfl⟩ := of_guarded h
    exact .exits i hdone

theorem step_client (h : step s a = some t) :
    t.client = s.client ∨ ∃ b, Client.step s.client b = some t.client := by
  cases moves_of_step h with
  | client b c hc => exact .inr ⟨b, hc⟩
  | ice g up hup | exits i hdone => exact .inl rfl
  | ticks i g hg =>
    rw [State.tick]
    split
    case isTrue => exact .inr ⟨.monitor, rfl⟩
    case isFalse => exact .inl rfl

theorem sound_step (hs : Sound s.client) (h : step s a = some t) :
    Sound t.client := by
  rcases step_client h with heq | ⟨b, hb⟩
  · rw [heq]
    exact hs
  · exact step_sound hs hb

/-! ## What a tick resets -/

/-- After a tick at which the active group is alive, the count is 0. -/
def Resets (s : State) : Action → Prop
  | .tick i => s.Healthy i → ∀ t, step s (.tick i) = some t → t.client.reconnectCount = 0
  | .client _ | .ice _ _ | .exit _ => True

/-- At such a tick the monitor holds a group that is alive, or there is nothing to reset. -/
def HoldsAlive (s : State) : Action → Prop
  | .tick i => s.Healthy i →
      (∃ g, s.group i = some g ∧ s.alive g = true) ∨ s.client.reconnectCount = 0
  | .client _ | .ice _ _ | .exit _ => True

instance (s : State) : (a : Action) → Decidable (HoldsAlive s a)
  | .tick i =>
    have : Decidable (∃ g, s.group i = some g ∧ s.alive g = true) :=
      inferInstanceAs (Decidable (∃ g ∈ s.group i, s.alive g = true))
    inferInstanceAs (Decidable (s.Healthy i → _))
  | .client _ | .ice _ _ | .exit _ => isTrue trivial

theorem tick_of_alive (h : s.alive g = true) :
    (s.tick i g).client = { s.client with reconnectCount := 0 } := by
  rw [State.tick, if_pos h]
  rfl

theorem tick_of_dead (h : s.alive g = false) :
    s.tick i g = { s with settled := s.settled || decide (s.Healthy i) } := by
  rw [State.tick, if_neg (by rw [h]; decide)]

theorem resets_tick_iff (hstep : step s (.tick i) = some t) :
    t.client.reconnectCount = 0 ↔
      (∃ g, s.group i = some g ∧ s.alive g = true) ∨ s.client.reconnectCount = 0 := by
  obtain ⟨g, hg, rfl⟩ := Option.map_eq_some_iff.1 hstep
  cases halive : s.alive g with
  | true =>
    rw [tick_of_alive halive]
    exact iff_of_true rfl (.inl ⟨g, hg, halive⟩)
  | false =>
    grind [tick_of_dead, Option.some.injEq]

theorem resets_iff_holdsAlive (hstep : step s a = some t) :
    Resets s a ↔ HoldsAlive s a := by
  cases a with
  | tick i =>
    refine imp_congr_right fun _ => ?_
    rw [← resets_tick_iff hstep]
    constructor
    · exact fun h => h t hstep
    · intro h u hu
      rw [hstep, Option.some.injEq] at hu
      rw [← hu]
      exact h
  | client b | ice g up | exit i => exact Iff.rfl

/-! ## How the count grows -/

theorem stopClient_reconnectCount (c : Client.State) (xrayOk : Bool) :
    (c.stopClient xrayOk).reconnectCount = c.reconnectCount ∨
      (c.stopClient xrayOk).reconnectCount = 0 := by
  have hmid : c.cancelMidConnect.reconnectCount = c.reconnectCount := by
    rw [cancelMidConnect_globals]
    split <;> rfl
  rw [State.stopClient, ← hmid]
  rcases stopRunning_cases c.cancelMidConnect xrayOk with ⟨-, h⟩ | ⟨-, h⟩ | ⟨-, -, -, -, h⟩
  · exact .inl (by rw [h])
  · exact .inr (by rw [h])
  · exact .inl (by rw [h])

theorem advance_reconnectCount {d : Client.State} {ch : Choice} (hok : CallOk c i)
    (h : c.advance i ch = some d) :
    d.reconnectCount = c.reconnectCount ∨ d.reconnectCount = 0 := by
  cases advance_cases hok h with
  | moves hmove => exact .inl (by rw [hmove.globals])
  | publishes | installs | resets => exact .inl rfl
  | cleans =>
    left
    show (c.cleanup (c.calls i).kind).reconnectCount = c.reconnectCount
    rw [cleanup_globals]
  | stops => exact stopClient_reconnectCount c _
  | swaps conn tun hpc hkind hrun htun =>
    left
    simp only [State.swapDialStream, hrun, htun]
    rfl
  | retires g =>
    left
    show (c.stopGroup (some g)).reconnectCount = c.reconnectCount
    rw [stopGroup_toGlobals]

theorem reconnectCount_step {d : Client.State} {a : Client.Action} (hok : ∀ i, CallOk c i)
    (h : Client.step c a = some d) :
    d.reconnectCount = c.reconnectCount ∨ d.reconnectCount = 0 ∨
      (counts c a = true ∧ d.reconnectCount = c.reconnectCount + 1) := by
  cases a with
  | begin k =>
    cases k with
    | fastReconnect conn =>
      simp only [Client.step, State.begin] at h
      split_ifs at h with hinst hlimit
      · cases h
        exact .inl rfl
      · cases h
        rw [not_or, Bool.not_eq_false, Nat.not_le] at hlimit
        refine .inr (.inr ⟨?_, rfl⟩)
        simp [counts, hlimit.1, hlimit.2]
    | startWebRTC | startXray | connectWebRTC | manualOffer | startTunnel =>
      rw [Client.step] at h
      cases begin_cases h <;> exact .inl rfl
  | stop xrayOk =>
    cases h
    exact (stopClient_reconnectCount c xrayOk).imp_right .inl
  | monitor =>
    cases h
    exact .inr (.inl rfl)
  | advance i ch => exact (advance_reconnectCount (hok i) h).imp_right .inl

/-- A reconnect begins only when a tick has found the last one alive. -/
def Spaced (s : State) : Action → Prop
  | .client a => counts s.client a = true → s.settled = true
  | .ice _ _ | .tick _ | .exit _ => True

instance (s : State) : (a : Action) → Decidable (Spaced s a)
  | .client a => inferInstanceAs (Decidable (counts s.client a = true → s.settled = true))
  | .ice _ _ | .tick _ | .exit _ => isTrue trivial

/-- The count is below the limit, and 0 once a tick has found the last reconnect alive. -/
structure Limited (s : State) : Prop where
  sound : Sound s.client
  below : s.client.reconnectCount < maxReconnects
  settled : s.settled = true → s.client.reconnectCount = 0

theorem limited_init : Limited {} where
  sound := sound_init
  below := by decide
  settled _ := rfl

theorem settled_observe (a : Client.Action) :
    (s.observe a).settled = (s.settled && !counts s.client a) := by
  rw [State.observe]
  cases a with
  | begin k => cases hc : counts s.client (.begin k) <;> simp [installs, stopsRunning]
  | stop xrayOk =>
    cases hrun : s.client.clientRunning <;> simp [installs, stopsRunning, counts, hrun]
  | monitor => simp [installs, stopsRunning, counts]
  | advance i ch =>
    cases installs s.client (.advance i ch) with
    | some j =>
      simp only [State.startMonitor, counts]
      split <;> simp [State.setGroup]
    | none => cases stopsRunning s.client (.advance i ch) <;> simp [counts]

theorem limited_client {a : Client.Action} (hs : Limited s)
    (hspaced : counts s.client a = true → s.settled = true)
    (hc : Client.step s.client a = some c) : Limited { s.observe a with client := c } := by
  have hzero : (0 : Nat) < maxReconnects := by decide
  refine ⟨step_sound hs.sound hc, ?_, fun hsettled => ?_⟩
  · rcases reconnectCount_step hs.sound.calls hc with h | h | ⟨hcount, h⟩
    · exact h.symm ▸ hs.below
    · exact h.symm ▸ hzero
    · -- the reconnect before it has been found alive, so this is the first one again
      show c.reconnectCount < maxReconnects
      rw [h, hs.settled (hspaced hcount)]
      decide
  · have hboth : s.settled = true ∧ counts s.client a = false := by
      rw [settled_observe, Bool.and_eq_true, Bool.not_eq_true'] at hsettled
      exact hsettled
    rcases reconnectCount_step hs.sound.calls hc with h | h | ⟨hcount, h⟩
    · exact h.trans (hs.settled hboth.1)
    · exact h
    · rw [hboth.2] at hcount
      cases hcount

theorem limited_tick (hs : Limited s) (hresets : Resets s (.tick i))
    (hstep : step s (.tick i) = some t) : Limited t := by
  have hsound := sound_step hs.sound hstep
  obtain ⟨g, hg, rfl⟩ := Option.map_eq_some_iff.1 hstep
  cases halive : s.alive g with
  | true =>
    have hzero : (s.tick i g).client.reconnectCount = 0 := by rw [tick_of_alive halive]
    exact ⟨hsound, by rw [hzero]; decide, fun _ => hzero⟩
  | false =>
    rw [tick_of_dead halive] at hsound ⊢
    refine ⟨hsound, hs.below, fun hsettled => ?_⟩
    rw [Bool.or_eq_true, decide_eq_true_eq] at hsettled
    rcases hsettled with hsettled | hhealthy
    · exact hs.settled hsettled
    · have hafter := hresets hhealthy _ hstep
      rw [tick_of_dead halive] at hafter
      exact hafter

theorem limited_step (hs : Limited s) (hok : Resets s a ∧ Spaced s a)
    (hstep : step s a = some t) : Limited t := by
  cases moves_of_step hstep with
  | client b c hc => exact limited_client hs hok.2 hc
  | ice g up hup | exits i hdone => exact ⟨hs.sound, hs.below, hs.settled⟩
  | ticks i g hg => exact limited_tick hs hok.1 hstep

/-! ## Every run -/

theorem allSteps_resets_iff_holdsAlive (acts : List Action) :
    AllSteps step Resets {} acts ↔ AllSteps step HoldsAlive {} acts :=
  allSteps_congr (fun (_ : State) _ _ (h : True) _ => h)
    (fun _ _ _ _ hstep => resets_iff_holdsAlive hstep) acts _ trivial

theorem allStates_below {acts : List Action} (hresets : AllSteps step Resets {} acts)
    (hspaced : AllSteps step Spaced {} acts) :
    AllStates step (fun s => s.client.reconnectCount < maxReconnects) {} acts := by
  refine allStates_of_allSteps (fun t ht => ?_) (hresets.and hspaced)
  exact (ht.invariant Limited limited_init fun _ _ _ => limited_step).below

/-- **When the count is reset** at every tick at which the active group is alive. -/
theorem resets_iff (acts : List Action) :
    (AllSteps step Resets {} acts ↔ AllSteps step HoldsAlive {} acts) ∧
      (AllSteps step Resets {} acts → AllSteps step Spaced {} acts →
        AllStates step (fun s => s.client.reconnectCount < maxReconnects) {} acts) :=
  ⟨allSteps_resets_iff_holdsAlive acts, allStates_below⟩

/-! ## A monitor that holds a stopped group -/

/-- The monitor of the connection `i` can only hold the group `g`, which is stopped and dead. -/
structure Deaf (s : State) (i : Nat) (g : GroupId) : Prop where
  sound : Sound s.client
  begun : i < s.client.nCalls
  done : (s.client.calls i).pc = .done
  held : ∀ h, s.group i = some h → h = g
  stopped : s.client.groupStopped g = true
  dead : s.alive g = false

theorem call_step_of_done {d : Client.State} {a : Client.Action} (hs : Sound c)
    (hi : i < c.nCalls) (hpc : (c.calls i).pc = .done) (h : Client.step c a = some d) :
    i < d.nCalls ∧ (d.calls i).pc = .done := by
  refine ⟨Nat.lt_of_lt_of_le hi (step_cases hs.calls h).stays.2.2, ?_⟩
  rw [step_calls_of_ne hs.calls h hi]
  · exact hpc
  · rintro ch rfl
    simp [Client.step, State.advance, hpc] at h

theorem observe_group {a : Client.Action} (hpc : (s.client.calls i).pc ≠ .tunnelled) :
    (s.observe a).group i = s.group i := by
  rw [State.observe]
  cases hinst : installs s.client a with
  | some j =>
    have hne : i ≠ j := by
      rintro rfl
      cases a with
      | advance k ch =>
        obtain ⟨⟨hk, -⟩, hkj⟩ := Option.ite_none_right_eq_some.1 hinst
        rw [Option.some.injEq] at hkj
        exact hpc (hkj ▸ hk)
      | begin k | stop xrayOk | monitor => cases hinst
    simp only [State.startMonitor]
    split
    · rfl
    · exact setGroup_of_ne s hne _
  | none =>
    dsimp only
    split
    · rw [closeDone_group]
    · split <;> rfl

@[simp] theorem observe_alive (a : Client.Action) : (s.observe a).alive = s.alive := by
  rw [State.observe]
  split
  · rw [State.startMonitor]
    dsimp only
    split <;> rfl
  · split
    · rw [closeDone_alive]
    · split <;> rfl

theorem deaf_step (hs : Deaf s i g)
    (hstep : step s a = some t) : Deaf t i g := by
  have hsound := sound_step hs.sound hstep
  cases moves_of_step hstep with
  | client b c hc =>
    obtain ⟨hbegun, hdone⟩ := call_step_of_done hs.sound hs.begun hs.done hc
    refine ⟨hsound, hbegun, hdone, fun h hheld => hs.held h ?_, ?_, ?_⟩
    · rwa [observe_group (by rw [hs.done]; decide)] at hheld
    · exact (step_cases hs.sound.calls hc).stays.1 g hs.stopped
    · rw [observe_alive]
      exact hs.dead
  | ice g' up hup =>
    refine ⟨hsound, hs.begun, hs.done, hs.held, hs.stopped, ?_⟩
    by_cases heq : g = g'
    · subst heq
      rw [setAlive_self, ← Bool.not_eq_true]
      intro htrue
      exact Bool.false_ne_true ((hup htrue).symm.trans hs.stopped)
    · rw [setAlive_of_ne s heq]
      exact hs.dead
  | ticks j g' hg' =>
    cases halive : s.alive g' with
    | false =>
      rw [tick_of_dead halive]
      exact ⟨hs.sound, hs.begun, hs.done, hs.held, hs.stopped, hs.dead⟩
    | true =>
      -- it is the tick of another monitor
      have hne : i ≠ j := by
        rintro rfl
        rw [hs.held g' hg', hs.dead] at halive
        cases halive
      rw [State.tick, if_pos halive] at hsound ⊢
      refine ⟨hsound, hs.begun, hs.done, fun h hheld => hs.held h ?_, hs.stopped, hs.dead⟩
      exact (setGroup_of_ne s hne _).symm.trans hheld
  | exits j hdone =>
    refine ⟨hsound, hs.begun, hs.done, fun h hheld => hs.held h ?_, hs.stopped, hs.dead⟩
    by_cases heq : i = j
    · subst heq
      rw [setGroup_self] at hheld
      cases hheld
    · rwa [setGroup_of_ne s heq] at hheld

/-- **A monitor that holds a stopped group never resets the count again**, and never takes over
another group. -/
theorem deaf_of_reaches (hs : Deaf s i g)
    (ht : Reaches step anyStep s t) : Deaf t i g ∧
      ∀ u, step t (.tick i) = some u → u.client = t.client ∧ u.group i = t.group i := by
  have hdeaf : Deaf t i g := ht.invariant (Deaf · i g) hs fun _ _ _ hs _ => deaf_step hs
  refine ⟨hdeaf, fun u hu => ?_⟩
  obtain ⟨h, hheld, rfl⟩ := Option.map_eq_some_iff.1 hu
  rw [tick_of_dead (by rw [hdeaf.held h hheld]; exact hdeaf.dead)]
  exact ⟨rfl, rfl⟩

/-! ## Reconnects that all succeed -/

/-- The group `g` fails, the reconnect `r` gets through, and its group is found alive at a tick. -/
def reconnected (g : GroupId) (r : Nat) : List Action :=
  [.ice g false, .client (.begin (.fastReconnect 0))] ++
    List.replicate 5 (.client (.advance r .ok)) ++
    [.ice ⟨r, 0⟩ true, .client (.advance r .ok), .tick 0]

def twiceReconnected : List Action :=
  .client (.begin .startWebRTC) :: List.replicate 8 (.client (.advance 0 .ok)) ++
    [.ice ⟨0, 0⟩ true, .tick 0] ++ reconnected ⟨0, 0⟩ 1 ++ reconnected ⟨1, 0⟩ 2

theorem deaf_of_reaches_reconnected : ∃ s, run step {} (twiceReconnected.take 20) = some s ∧
    s.ActiveAlive ∧ ∀ t, step s (.tick 0) = some t → t.client = s.client := by
  obtain ⟨s, hrun, hcalls, hdone, hheld, hstopped, hdead, hactive⟩ : ∃ s : State,
      run step {} (twiceReconnected.take 20) = some s ∧ 0 < s.client.nCalls ∧
        (s.client.calls 0).pc = .done ∧ s.group 0 = some ⟨0, 0⟩ ∧
        s.client.groupStopped ⟨0, 0⟩ = true ∧ s.alive ⟨0, 0⟩ = false ∧ s.ActiveAlive :=
    ⟨_, rfl, by decide, rfl, rfl, rfl, rfl, by decide⟩
  have hsound : Sound s.client := (reaches_of_run hrun).invariant (fun s : State => Sound s.client)
    sound_init fun _ _ _ hs _ hstep => sound_step hs hstep
  have hdeaf : Deaf s 0 ⟨0, 0⟩ :=
    ⟨hsound, hcalls, hdone, fun h hh => Option.some.inj (hh.symm.trans hheld), hstopped, hdead⟩
  exact ⟨s, hrun, hactive, fun t ht => ((deaf_of_reaches hdeaf .refl).2 t ht).1⟩

theorem succeedingReconnects_limited :
    AllSteps step Spaced {} twiceReconnected ∧ ¬ AllSteps step Resets {} twiceReconnected ∧
      (∃ s, run step {} twiceReconnected = some s ∧ s.client.clientRunning = true ∧
        s.ActiveAlive ∧ s.client.reconnectCount = maxReconnects) ∧
      ∃ s, run step {} (twiceReconnected ++ [.ice ⟨2, 0⟩ false,
        .client (.begin (.fastReconnect 0)), .client (.advance 3 .ok),
        .client (.advance 3 .ok)]) = some s ∧ s.client.clientRunning = false := by
  refine ⟨by decide, ?_, ⟨_, rfl, rfl, by decide, rfl⟩, ⟨_, rfl, rfl⟩⟩
  rw [allSteps_resets_iff_holdsAlive]
  decide

end NatProxy.Client.Health
