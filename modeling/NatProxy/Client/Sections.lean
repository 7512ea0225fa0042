import NatProxy.Client.Lifecycle
import Mathlib.Tactic.SplitIfs

/-!
# What a step of a call can change

`advance_cases` says once what the next step of a call can do. Most steps are local (`LocalStep`):
they change the call itself and what it holds, and leave the globals, the contexts and the other
calls alone. The rest are the sections under the mutex, and the stop of a group that was swapped
out.

`CallOk` is what holds of every call at any time: a call that has not returned has stopped every
group it started or took, except the one it still holds, and a tunnel that it could not install.
-/

namespace NatProxy.Client

open Lib

/-! ## The parts of a step -/

@[simp] theorem setCall_calls_self (s : State) (i : Nat) (c : Call) :
    (s.setCall i c).calls i = c := by
  rw [State.setCall]
  exact Function.update_self i c s.calls

variable {b s t : State} {i : Nat}

theorem setCall_calls_of_ne (s : State) {j : Nat} (c : Call) (h : j ≠ i) :
    (s.setCall i c).calls j = s.calls j := by
  rw [State.setCall]
  exact Function.update_of_ne h c s.calls

section StopGroup

variable (s : State) (g : Option GroupId)

@[simp] theorem stopGroup_toGlobals : (s.stopGroup g).toGlobals = s.toGlobals := by cases g <;> rfl

@[simp] theorem stopGroup_calls : (s.stopGroup g).calls = s.calls := by cases g <;> rfl

@[simp] theorem stopGroup_ctxCancelled : (s.stopGroup g).ctxCancelled = s.ctxCancelled := by
  cases g <;> rfl

@[simp] theorem stopGroup_tunnelStopped : (s.stopGroup g).tunnelStopped = s.tunnelStopped := by
  cases g <;> rfl

@[simp] theorem stopGroup_dialStream : (s.stopGroup g).dialStream = s.dialStream := by
  cases g <;> rfl

@[simp] theorem stopGroup_nCalls : (s.stopGroup g).nCalls = s.nCalls := by cases g <;> rfl

end StopGroup

theorem stopGroup_groupStopped (s : State) (g : Option GroupId) (g' : GroupId) :
    (s.stopGroup g).groupStopped g' = true ↔ s.groupStopped g' = true ∨ g = some g' := by
  cases g with
  | none => simp [State.stopGroup]
  | some g =>
    rw [State.stopGroup]
    by_cases h : g' = g
    · subst h
      simp
    · simp [Function.update_of_ne h, Ne.symm h]

/-! ## Local steps -/

/-- The places of a call at which it may hold a client group. -/
def PC.holds : PC → Bool
  | .grouped | .answering | .waiting | .connected | .tunnelled | .refused => true
  | .started | .dialing | .offered | .failed | .stopping | .limit | .swapped | .done => false

def Call.Owns (c : Call) (i : Nat) (g : GroupId) : Prop :=
  (g.owner = i ∧ g.index < c.groups) ∨ c.taken = some g

/-- The call answers for what it owns: it has not returned and not handed its group over. -/
def State.AtWork (s : State) (i : Nat) : Prop :=
  (s.calls i).pc ≠ .done ∧ (s.calls i).pc ≠ .swapped

variable {p : PC}

theorem atWork_of_pc (h : (s.calls i).pc = p) (hp : p ≠ .done ∧ p ≠ .swapped) : s.AtWork i := by
  rw [State.AtWork, h]
  exact hp

/-- While a call is at work, what it owns and does not hold is stopped. -/
structure CallOk (s : State) (i : Nat) : Prop where
  idle : (s.calls i).pc.holds = false → (s.calls i).group = none
  kept : s.AtWork i → ∀ g, (s.calls i).Owns i g →
    s.groupStopped g = true ∨ (s.calls i).group = some g
  tunnel : s.AtWork i → (s.calls i).tunnel = true →
    (s.calls i).pc = .tunnelled ∨ (s.calls i).pc = .refused ∨ s.tunnelStopped i = true
  failed : (s.calls i).pc = .failed → (s.calls i).kind.failPC = .failed
  stopping : (s.calls i).pc = .stopping → (s.calls i).kind.failPC = .stopping
  tunnelled : (s.calls i).pc = .tunnelled →
    (s.calls i).kind ≠ .connectWebRTC ∧ (s.calls i).kind ≠ .manualOffer ∧
      ∀ conn, (s.calls i).kind ≠ .fastReconnect conn
  limit : (s.calls i).pc = .limit → ∃ conn, (s.calls i).kind = .fastReconnect conn
  holding : (s.calls i).pc.holds = true → (s.calls i).kind = .startXray ∨ (s.calls i).group ≠ none
  swapped : (s.calls i).pc = .swapped → ∃ conn, (s.calls i).kind = .fastReconnect conn

theorem CallOk.tunnelStopped (h : CallOk s i) (hwork : s.AtWork i)
    (hpc : (s.calls i).pc ≠ .tunnelled ∧ (s.calls i).pc ≠ .refused)
    (hmade : (s.calls i).tunnel = true) : s.tunnelStopped i = true := by
  rcases h.tunnel hwork hmade with hat | hat | hstop
  · exact absurd hat hpc.1
  · exact absurd hat hpc.2
  · exact hstop

theorem CallOk.stopped_of_owns (h : CallOk s i) (hwork : s.AtWork i)
    (hidle : (s.calls i).pc.holds = false) {g : GroupId} (hg : (s.calls i).Owns i g) :
    s.groupStopped g = true := by
  rcases h.kept hwork g hg with hstop | hheld
  · exact hstop
  · rw [h.idle hidle] at hheld
    cases hheld

/-- The step changes the call `i` and what it holds, and nothing else. -/
structure LocalStep (s : State) (i : Nat) (t : State) : Prop where
  globals : t.toGlobals = s.toGlobals
  ctxCancelled : t.ctxCancelled = s.ctxCancelled
  nCalls : t.nCalls = s.nCalls
  others : ∀ j, j ≠ i → t.calls j = s.calls j
  dialStream : ∀ j, j ≠ i → t.dialStream j = s.dialStream j
  tunnels : ∀ j, j ≠ i → t.tunnelStopped j = s.tunnelStopped j
  tunnelStays : ∀ j, s.tunnelStopped j = true → t.tunnelStopped j = true
  stays : ∀ g, s.groupStopped g = true → t.groupStopped g = true
  stops : ∀ g, t.groupStopped g = true → s.groupStopped g = true ∨ (s.calls i).group = some g
  atWork : s.AtWork i
  kind : (t.calls i).kind = (s.calls i).kind
  origin : (t.calls i).origin = (s.calls i).origin
  taken : (t.calls i).taken = (s.calls i).taken
  oldGroup : (t.calls i).oldGroup = (s.calls i).oldGroup
  installed : (t.calls i).installed = (s.calls i).installed
  keeps : (t.calls i).pc ≠ .swapped
  returns : (t.calls i).pc = .done → ∃ conn, (s.calls i).kind = .fastReconnect conn
  group : (t.calls i).group = (s.calls i).group ∨ (t.calls i).group = none ∨
    ((t.calls i).group = some ⟨i, (s.calls i).groups⟩ ∧ (s.calls i).groups < (t.calls i).groups)
  groups : (s.calls i).groups ≤ (t.calls i).groups
  ok : CallOk s i → CallOk t i
  released : CallOk s i → (t.calls i).pc = .done →
    ∀ g, (t.calls i).Owns i g → t.groupStopped g = true

theorem LocalStep.withXray (h : LocalStep s i t) (on : Bool) :
    LocalStep s i { t with xrayRunning := on } :=
  { h with ok := fun hok =>
      let ht := h.ok hok
      ⟨ht.idle, ht.kept, ht.tunnel, ht.failed, ht.stopping, ht.tunnelled, ht.limit, ht.holding,
        ht.swapped⟩ }

/-- What a call lets go of before it moves on: its group, its tunnel. -/
structure Releases (s : State) (i : Nat) (b : State) : Prop where
  globals : b.toGlobals = s.toGlobals
  ctxCancelled : b.ctxCancelled = s.ctxCancelled
  nCalls : b.nCalls = s.nCalls
  calls : b.calls = s.calls
  dialStream : ∀ j, j ≠ i → b.dialStream j = s.dialStream j
  tunnels : ∀ j, b.tunnelStopped j = true ↔ s.tunnelStopped j = true ∨
    (j = i ∧ b.tunnelStopped i = true)
  stays : ∀ g, s.groupStopped g = true → b.groupStopped g = true
  stops : ∀ g, b.groupStopped g = true → s.groupStopped g = true ∨ (s.calls i).group = some g

theorem Releases.nothing (s : State) (i : Nat) : Releases s i s where
  globals := rfl
  ctxCancelled := rfl
  nCalls := rfl
  calls := rfl
  dialStream _ _ := rfl
  tunnels j := by
    constructor
    · exact .inl
    · rintro (h | ⟨rfl, h⟩) <;> exact h
  stays _ h := h
  stops _ h := .inl h

theorem Releases.group (h : Releases s i b) :
    Releases s i (b.stopGroup (s.calls i).group) where
  globals := by rw [stopGroup_toGlobals, h.globals]
  ctxCancelled := by rw [stopGroup_ctxCancelled, h.ctxCancelled]
  nCalls := by rw [stopGroup_nCalls, h.nCalls]
  calls := by rw [stopGroup_calls, h.calls]
  dialStream := by rw [stopGroup_dialStream]; exact h.dialStream
  tunnels := by rw [stopGroup_tunnelStopped]; exact h.tunnels
  stays g hg := (stopGroup_groupStopped b _ g).2 (.inl (h.stays g hg))
  stops g hg := by
    rcases (stopGroup_groupStopped b _ g).1 hg with hg | hg
    · exact h.stops g hg
    · exact .inr hg

theorem Releases.stopped_of_owns (h : Releases s i b) (hok : CallOk s i)
    (hwork : s.AtWork i) {g : GroupId} (hg : (s.calls i).Owns i g) :
    (b.stopGroup (s.calls i).group).groupStopped g = true := by
  rw [stopGroup_groupStopped]
  exact (hok.kept hwork g hg).imp_left (h.stays g)

theorem Releases.tunnel : Releases s i (s.stopTunnel (some i)) where
  globals := rfl
  ctxCancelled := rfl
  nCalls := rfl
  calls := rfl
  dialStream _ _ := rfl
  tunnels j := by
    by_cases hj : j = i
    · subst hj
      simp [State.stopTunnel]
    · simp [State.stopTunnel, hj]
  stays _ h := h
  stops _ h := .inl h

theorem Releases.dial (h : Releases s i b) (g : Option GroupId) :
    Releases s i { b with dialStream := Function.update b.dialStream i g } where
  globals := h.globals
  ctxCancelled := h.ctxCancelled
  nCalls := h.nCalls
  calls := h.calls
  dialStream j hj := by
    show Function.update b.dialStream i g j = _
    rw [Function.update_of_ne hj]
    exact h.dialStream j hj
  tunnels := h.tunnels
  stays := h.stays
  stops := h.stops

/-- The fields of a call that no local step changes. -/
def Call.SameRole (c c' : Call) : Prop :=
  c'.kind = c.kind ∧ c'.origin = c.origin ∧ c'.taken = c.taken ∧ c'.oldGroup = c.oldGroup ∧
    c'.installed = c.installed

theorem Releases.localStep (h : Releases s i b) {c : Call}
    (hwork : s.AtWork i) (hrole : (s.calls i).SameRole c)
    (hpc : c.pc ≠ .swapped ∧ (c.pc = .done → ∃ conn, (s.calls i).kind = .fastReconnect conn))
    (hgroup : c.group = (s.calls i).group ∨ c.group = none ∨
      (c.group = some ⟨i, (s.calls i).groups⟩ ∧ (s.calls i).groups < c.groups))
    (hgroups : (s.calls i).groups ≤ c.groups)
    (hok : CallOk s i → CallOk (b.setCall i c) i)
    (hreleased : CallOk s i → c.pc = .done → ∀ g, c.Owns i g → b.groupStopped g = true) :
    LocalStep s i (b.setCall i c) where
  globals := h.globals
  ctxCancelled := h.ctxCancelled
  nCalls := h.nCalls
  others j hj := by rw [setCall_calls_of_ne _ _ hj, h.calls]
  dialStream := h.dialStream
  tunnels j hj := by
    have hiff := h.tunnels j
    simp only [hj, false_and, or_false] at hiff
    exact Bool.eq_iff_iff.2 hiff
  tunnelStays j hj := (h.tunnels j).2 (.inl hj)
  stays := h.stays
  stops := h.stops
  atWork := hwork
  kind := by rw [setCall_calls_self]; exact hrole.1
  origin := by rw [setCall_calls_self]; exact hrole.2.1
  taken := by rw [setCall_calls_self]; exact hrole.2.2.1
  oldGroup := by rw [setCall_calls_self]; exact hrole.2.2.2.1
  installed := by rw [setCall_calls_self]; exact hrole.2.2.2.2
  keeps := by rw [setCall_calls_self]; exact hpc.1
  returns := by rw [setCall_calls_self]; exact hpc.2
  group := by rw [setCall_calls_self]; exact hgroup
  groups := by rw [setCall_calls_self]; exact hgroups
  ok := hok
  released := by rw [setCall_calls_self]; exact hreleased

/-- The places that only a failed attempt or a call with a tunnel gets to. -/
def PC.Special (q : PC) : Prop := q = .failed ∨ q = .stopping ∨ q = .tunnelled

instance (q : PC) : Decidable q.Special := inferInstanceAs (Decidable (_ ∨ _))

variable {c : Call} {q : PC}

theorem CallOk.of_call (hc : t.calls i = c) (hq : ¬ c.pc.Special)
    (hidle : c.pc.holds = false → c.group = none)
    (hkept : t.AtWork i → ∀ g, c.Owns i g → t.groupStopped g = true ∨ c.group = some g)
    (htunnel : t.AtWork i → c.tunnel = true → c.pc = .refused ∨ t.tunnelStopped i = true)
    (hholding : c.pc.holds = true → c.kind = .startXray ∨ c.group ≠ none)
    (hreconnect : c.pc = .limit ∨ c.pc = .swapped → ∃ conn, c.kind = .fastReconnect conn) :
    CallOk t i := by
  constructor
  all_goals rw [hc]
  · exact hidle
  · exact hkept
  · exact fun hwork hmade => .inr (htunnel hwork hmade)
  · exact fun h => absurd (.inl h) hq
  · exact fun h => absurd (.inr (.inl h)) hq
  · exact fun h => absurd (.inr (.inr h)) hq
  · exact fun h => hreconnect (.inl h)
  · exact hholding
  · exact fun h => hreconnect (.inr h)

/-- The places that a call can go to without letting go of anything. -/
def PC.Onward (p q : PC) : Prop :=
  (p.holds = true → q.holds = true) ∧ (p ≠ .tunnelled ∧ p ≠ .refused ∧ p ≠ .done ∧ p ≠ .swapped) ∧
    ¬ q.Special ∧ ¬ (q = .limit ∨ q = .swapped) ∧ q ≠ .done

instance (p q : PC) : Decidable (p.Onward q) := inferInstanceAs (Decidable (_ ∧ _))

theorem Releases.goto (h : Releases s i b) (x : Nat) (hpc : (s.calls i).pc = p) (hq : p.Onward q)
    (hholding : q.holds = true → p.holds = true ∨ (s.calls i).kind = .startXray) :
    LocalStep s i (b.setCall i { s.calls i with pc := q, ctx := x }) := by
  obtain ⟨hholds, ⟨hnt, hnr, hp⟩, hspecial, hre, hdone⟩ := hq
  have hwork := atWork_of_pc hpc hp
  subst hpc
  refine h.localStep hwork ⟨rfl, rfl, rfl, rfl, rfl⟩
    ⟨fun hc => hre (.inr hc), fun hc => absurd hc hdone⟩ (.inl rfl) (Nat.le_refl _)
    (fun hok => ?_) (fun _ hc => absurd hc hdone)
  refine CallOk.of_call (setCall_calls_self ..) hspecial ?_
    (fun _ g hg => (hok.kept hwork g hg).imp_left (h.stays g)) (fun _ hmade => .inr ?_)
    (fun hc => (hholding hc).elim hok.holding .inl) (fun hc => absurd hc hre)
  · -- a place without a group is only reached from such a place
    intro hidle
    apply hok.idle
    by_contra hc
    rw [Bool.not_eq_false] at hc
    rw [hholds hc] at hidle
    cases hidle
  · exact (h.tunnels i).2 (.inl (hok.tunnelStopped hwork ⟨hnt, hnr⟩ hmade))

/-- The call stops its group and goes to `q`. -/
theorem Releases.drop (h : Releases s i b) (hwork : s.AtWork i)
    (hq : q.holds = false ∧ q ≠ .tunnelled ∧ q ≠ .limit ∧ q ≠ .swapped)
    (hfail : q = .failed ∨ q = .stopping → (s.calls i).kind.failPC = q)
    (hdone : q = .done → ∃ conn, (s.calls i).kind = .fastReconnect conn)
    (htun : (s.calls i).pc = .tunnelled ∨ (s.calls i).pc = .refused →
      q = .done ∨ b.tunnelStopped i = true) :
    LocalStep s i ((b.stopGroup (s.calls i).group).setCall i
      { s.calls i with pc := q, group := none }) := by
  obtain ⟨hidle, htunnelled, hlimit, hswapped⟩ := hq
  refine h.group.localStep hwork ⟨rfl, rfl, rfl, rfl, rfl⟩ ⟨hswapped, hdone⟩ (.inr (.inl rfl))
    (Nat.le_refl _) (fun hok => ?_) (fun hok _ g hg => h.stopped_of_owns hok hwork hg)
  constructor
  all_goals simp only [State.AtWork, setCall_calls_self]
  · exact fun _ => trivial
  · exact fun _ g hg => .inl (h.stopped_of_owns hok hwork hg)
  · intro hwork' hmade
    refine .inr (.inr (((h.group).tunnels i).2 ?_))
    rw [stopGroup_tunnelStopped]
    by_cases hat : (s.calls i).pc = .tunnelled ∨ (s.calls i).pc = .refused
    · exact .inr ⟨rfl, (htun hat).resolve_left hwork'.1⟩
    · exact .inl (hok.tunnelStopped hwork (not_or.mp hat) hmade)
  · rintro rfl
    exact hfail (.inl rfl)
  · rintro rfl
    exact hfail (.inr rfl)
  · exact fun hc => absurd hc htunnelled
  · exact fun hc => absurd hc hlimit
  · exact fun hc => absurd (hidle.symm.trans hc) Bool.false_ne_true
  · exact fun hc => absurd hc hswapped

theorem Releases.abort (h : Releases s i b) (hwork : s.AtWork i)
    (htun : (s.calls i).pc = .tunnelled ∨ (s.calls i).pc = .refused → b.tunnelStopped i = true) :
    LocalStep s i ((b.stopGroup (s.calls i).group).setCall i
      { s.calls i with pc := (s.calls i).kind.failPC, group := none }) := by
  -- a failed call goes to its deferred cleanup or to its failure section
  have hpc : (s.calls i).kind.failPC = .failed ∨ (s.calls i).kind.failPC = .stopping := by
    cases (s.calls i).kind <;> first | exact .inl rfl | exact .inr rfl
  refine h.drop hwork ?_ (fun _ => rfl) (fun hdone => ?_) (fun hat => .inr (htun hat))
  · rcases hpc with hpc | hpc <;> rw [hpc] <;> decide
  · rcases hpc with hpc | hpc <;> rw [hpc] at hdone <;> cases hdone

theorem localStep_newGroup (hpc : (s.calls i).pc = .offered) (hq : q = .grouped ∨ q = .answering) :
    LocalStep s i (s.setCall i { s.calls i with
      pc := q
      group := some ⟨i, (s.calls i).groups⟩
      groups := (s.calls i).groups + 1 }) := by
  have hwork : s.AtWork i := atWork_of_pc hpc (by decide)
  obtain ⟨honward, hholds⟩ : PC.offered.Onward q ∧ q.holds = true := by
    rcases hq with rfl | rfl <;> decide
  obtain ⟨-, -, hspecial, hre, hdone⟩ := honward
  refine (Releases.nothing s i).localStep hwork ⟨rfl, rfl, rfl, rfl, rfl⟩
    ⟨fun hc => hre (.inr hc), fun hc => absurd hc hdone⟩ (.inr (.inr ⟨rfl, Nat.lt_succ_self _⟩))
    (Nat.le_succ _) (fun hok => ?_) (fun _ hc => absurd hc hdone)
  refine CallOk.of_call (setCall_calls_self ..) hspecial
    (fun hc => absurd (hc.symm.trans hholds) Bool.false_ne_true) (fun _ g hg => ?_)
    (fun _ hmade => .inr (hok.tunnelStopped hwork (by rw [hpc]; decide) hmade))
    (fun _ => .inr (Option.some_ne_none _)) (fun hc => absurd hc hre)
  -- the new group is the one held, all older ones are stopped
  by_cases hnew : g = ⟨i, (s.calls i).groups⟩
  · exact .inr (by rw [hnew])
  · left
    have hold : (s.calls i).Owns i g := by
      rcases hg with ⟨hi, hlt⟩ | htaken
      · refine .inl ⟨hi, ?_⟩
        have hne : g.index ≠ (s.calls i).groups := by
          intro heq
          apply hnew
          rw [← heq, ← hi]
        have hlt' : g.index < (s.calls i).groups + 1 := hlt
        omega
      · exact .inr htaken
    exact hok.stopped_of_owns hwork (by rw [hpc]; rfl) hold

theorem localStep_refresh (hpc : (s.calls i).pc = .grouped) :
    LocalStep s i ((s.stopGroup (s.calls i).group).setCall i
      { s.calls i with pc := .offered, group := none }) :=
  (Releases.nothing s i).drop (atWork_of_pc hpc (by decide)) (by decide) (by simp) (by simp)
    (by simp [hpc])

theorem localStep_newTunnel (hpc : (s.calls i).pc = .connected)
    (hkind : (s.calls i).kind ≠ .connectWebRTC ∧ (s.calls i).kind ≠ .manualOffer ∧
      ∀ conn, (s.calls i).kind ≠ .fastReconnect conn) :
    LocalStep s i { s.setCall i { s.calls i with pc := .tunnelled, tunnel := true } with
      dialStream := Function.update s.dialStream i (s.calls i).group } := by
  have hwork : s.AtWork i := atWork_of_pc hpc (by decide)
  refine ((Releases.nothing s i).dial (s.calls i).group).localStep
    (c := { s.calls i with pc := .tunnelled, tunnel := true }) hwork ⟨rfl, rfl, rfl, rfl, rfl⟩
    (by simp) (.inl rfl) (Nat.le_refl _) ?_ (fun _ hc => by cases hc)
  intro hok
  constructor
  all_goals rw [setCall_calls_self]
  · exact fun hidle => by cases hidle
  · exact fun _ g hg => hok.kept hwork g hg
  · exact fun _ _ => .inl rfl
  · exact fun hc => by cases hc
  · exact fun hc => by cases hc
  · exact fun _ => hkind
  · exact fun hc => by cases hc
  · exact fun _ => hok.holding (by rw [hpc]; rfl)
  · exact fun hc => by cases hc

theorem localStep_refuse
    (hpc : (s.calls i).pc = .tunnelled ∨ (s.calls i).pc = .connected) :
    LocalStep s i (s.goto i .refused) := by
  have hwork : s.AtWork i := by
    rcases hpc with hpc | hpc <;> exact atWork_of_pc hpc (by decide)
  refine (Releases.nothing s i).localStep hwork ⟨rfl, rfl, rfl, rfl, rfl⟩ (by simp) (.inl rfl)
    (Nat.le_refl _) (fun hok => ?_) (fun _ hc => by cases hc)
  refine CallOk.of_call (setCall_calls_self ..) (by simp [PC.Special]) (fun hidle => by cases hidle)
    (fun _ g hg => hok.kept hwork g hg) (fun _ _ => .inl rfl) (fun _ => hok.holding ?_) (by simp)
  rcases hpc with hpc | hpc <;> rw [hpc] <;> rfl

theorem localStep_dropGroup {conn : Nat} (hpc : (s.calls i).pc = .refused)
    (hkind : (s.calls i).kind = .fastReconnect conn) :
    LocalStep s i ((s.stopGroup (s.calls i).group).setCall i
      { s.calls i with pc := .done, group := none }) :=
  (Releases.nothing s i).drop (atWork_of_pc hpc (by decide)) (by decide) (by simp)
    (fun _ => ⟨conn, hkind⟩) (fun _ => .inl rfl)

theorem localStep_limit {conn : Nat} (hpc : (s.calls i).pc = .limit)
    (hkind : (s.calls i).kind = .fastReconnect conn) (hq : q = .stopping ∨ q = .done) :
    LocalStep s i (s.goto i q) := by
  have hwork : s.AtWork i := atWork_of_pc hpc (by decide)
  have hidle : (s.calls i).pc.holds = false := by rw [hpc]; rfl
  refine (Releases.nothing s i).localStep (c := { s.calls i with pc := q }) hwork
    ⟨rfl, rfl, rfl, rfl, rfl⟩ ⟨by rcases hq with rfl | rfl <;> simp, fun _ => ⟨conn, hkind⟩⟩
    (.inl rfl) (Nat.le_refl _) ?_ (fun hok _ g hg => hok.stopped_of_owns hwork hidle hg)
  intro hok
  constructor
  all_goals simp only [State.AtWork, setCall_calls_self]
  · exact fun _ => hok.idle hidle
  · exact fun _ g hg => .inl (hok.stopped_of_owns hwork hidle hg)
  · exact fun _ hmade => .inr (.inr (hok.tunnelStopped hwork (by rw [hpc]; decide) hmade))
  · rcases hq with rfl | rfl <;> exact fun hc => by cases hc
  · rw [hkind]
    exact fun _ => rfl
  all_goals rcases hq with rfl | rfl <;> exact fun hc => by cases hc

theorem localStep_abort (hpc : (s.calls i).pc = p)
    (hp : (p ≠ .done ∧ p ≠ .swapped) ∧ p ≠ .tunnelled ∧ p ≠ .refused) :
    LocalStep s i (s.abort i) := by
  apply (Releases.nothing s i).abort (atWork_of_pc hpc hp.1)
  rw [hpc]
  exact fun hc => (hc.elim hp.2.1 hp.2.2).elim

theorem localStep_goto (q : PC) (hpc : (s.calls i).pc = p)
    (hq : p.Onward q ∧ (q.holds = true → p.holds = true)) : LocalStep s i (s.goto i q) :=
  (Releases.nothing s i).goto (s.calls i).ctx hpc hq.1 fun hc => .inl (hq.2 hc)

variable {ch : Choice}

theorem localStep_started (h : s.localStep i ch = some t)
    (hpc : (s.calls i).pc = .started) : LocalStep s i t := by
  simp only [State.localStep, hpc] at h
  by_cases hch : ch = .fail
  · rw [if_pos hch, Option.some.injEq] at h
    subst h
    exact localStep_abort hpc (by decide)
  · rw [if_neg hch] at h
    cases hk : (s.calls i).kind with
    | startWebRTC =>
      -- the only step in which a call takes over a context
      simp only [hk, Option.map_eq_some_iff] at h
      obtain ⟨x, -, rfl⟩ := h
      rw [← hk]
      exact (Releases.nothing s i).goto x hpc (by decide) (fun hc => by cases hc)
    | startXray =>
      simp only [hk] at h
      split_ifs at h
      · cases h
        exact localStep_goto .dialing hpc (by decide)
      · cases h
        exact localStep_abort hpc (by decide)
    | manualOffer =>
      simp only [hk, Option.some.injEq] at h
      subst h
      exact localStep_goto .offered hpc (by decide)
    | connectWebRTC | startTunnel | fastReconnect conn =>
      simp only [hk, Option.some.injEq] at h
      subst h
      exact localStep_goto .dialing hpc (by decide)

theorem localStep_refused (h : s.localStep i ch = some t)
    (hpc : (s.calls i).pc = .refused) : LocalStep s i t := by
  have hwork := atWork_of_pc hpc (by decide)
  -- the tunnel that was not installed is stopped before the call fails
  have hstopped : (s.stopTunnel (some i)).tunnelStopped i = true := by
    rw [State.stopTunnel]
    exact Function.update_self i true s.tunnelStopped
  cases hk : (s.calls i).kind with
  | fastReconnect conn =>
    simp only [State.localStep, hpc, hk, Option.some.injEq] at h
    subst h
    rw [← hk]
    exact localStep_dropGroup hpc hk
  | startXray =>
    simp only [State.localStep, hpc, hk, Option.some.injEq] at h
    subst h
    exact (Releases.tunnel.abort hwork fun _ => hstopped).withXray false
  | startWebRTC | connectWebRTC | manualOffer | startTunnel =>
    simp only [State.localStep, hpc, hk, Option.some.injEq] at h
    subst h
    exact Releases.tunnel.abort hwork fun _ => hstopped

theorem localStep_local (h : s.localStep i ch = some t)
    (hconn : (s.calls i).pc = .connected → (s.calls i).kind ≠ .connectWebRTC ∧
      (s.calls i).kind ≠ .manualOffer ∧ ∀ conn, (s.calls i).kind ≠ .fastReconnect conn)
    (hlimit : (s.calls i).pc = .limit → ∃ conn, (s.calls i).kind = .fastReconnect conn) :
    LocalStep s i t := by
  cases hpc : (s.calls i).pc with
  | started => exact localStep_started h hpc
  | dialing =>
    simp only [State.localStep, hpc] at h
    split_ifs at h
    · cases h
      exact localStep_abort hpc (by decide)
    · cases h
      exact localStep_abort hpc (by decide)
    · cases h
      exact ((Releases.nothing s i).goto _ hpc (by decide) fun _ => .inr ‹_›).withXray true
    · cases h
      exact localStep_abort hpc (by decide)
    · cases h
      exact localStep_goto .offered hpc (by decide)
  | offered =>
    simp only [State.localStep, hpc] at h
    split_ifs at h
    · cases h
      exact localStep_abort hpc (by decide)
    · cases h
      exact localStep_newGroup hpc (.inl rfl)
    · cases h
      exact localStep_newGroup hpc (.inr rfl)
  | grouped =>
    simp only [State.localStep, hpc] at h
    split_ifs at h
    · cases h
      exact localStep_abort hpc (by decide)
    · cases h
      exact localStep_refresh hpc
    · cases h
      exact localStep_goto .answering hpc (by decide)
  | answering =>
    simp only [State.localStep, hpc] at h
    split_ifs at h
    · cases h
      exact localStep_abort hpc (by decide)
    · cases h
      exact localStep_goto .connected hpc (by decide)
    · cases h
      exact localStep_goto .waiting hpc (by decide)
  | waiting =>
    simp only [State.localStep, hpc] at h
    split_ifs at h
    · cases h
      exact localStep_abort hpc (by decide)
    · cases h
      exact localStep_goto .connected hpc (by decide)
  | connected =>
    simp only [State.localStep, hpc] at h
    split_ifs at h
    · cases h
      exact (localStep_abort hpc (by decide)).withXray false
    · cases h
      exact localStep_abort hpc (by decide)
    · cases h
      exact localStep_newTunnel hpc (hconn hpc)
  | refused => exact localStep_refused h hpc
  | limit =>
    obtain ⟨conn, hk⟩ := hlimit hpc
    simp only [State.localStep, hpc, Option.some.injEq] at h
    subst h
    apply localStep_limit hpc hk
    split_ifs
    · exact .inl rfl
    · exact .inr rfl
  | tunnelled | failed | stopping | swapped | done => simp [State.localStep, hpc] at h

/-! ## The next step of a call -/

/-- What the next step of the call `i` can be, with the state it leads to. -/
inductive AdvanceCase (s : State) (i : Nat) (ch : Choice) : State → Prop where
  | moves {t : State} (h : LocalStep s i t) : AdvanceCase s i ch t
  | publishes (hpc : (s.calls i).pc = .connected)
      (hkind : (s.calls i).kind = .connectWebRTC ∨ (s.calls i).kind = .manualOffer) :
      AdvanceCase s i ch (s.publish i)
  | installs (hpc : (s.calls i).pc = .tunnelled) (hmay : s.mayInstall i = true) :
      AdvanceCase s i ch (s.install i)
  | cleans (hpc : (s.calls i).pc = .failed) :
      AdvanceCase s i ch ((s.cleanup (s.calls i).kind).goto i .done)
  | resets (hpc : (s.calls i).pc = .stopping) (hkind : (s.calls i).kind = .startTunnel) :
      AdvanceCase s i ch (State.goto { s with clientConnecting := false } i .done)
  | stops (conn : Nat) (hpc : (s.calls i).pc = .stopping)
      (hkind : (s.calls i).kind = .fastReconnect conn) :
      AdvanceCase s i ch ((s.stopClient (ch != .fail)).goto i .done)
  | swaps (conn tun : Nat) (hpc : (s.calls i).pc = .connected)
      (hkind : (s.calls i).kind = .fastReconnect conn) (hrun : s.clientRunning = true)
      (htun : s.activeTunnel = some tun) : AdvanceCase s i ch (s.swapDialStream i)
  | retires (g : GroupId) (hpc : (s.calls i).pc = .swapped)
      (hold : (s.calls i).oldGroup = some g) :
      AdvanceCase s i ch ((s.stopGroup (some g)).goto i .done)

theorem advance_cases (hok : CallOk s i) (h : s.advance i ch = some t) : AdvanceCase s i ch t := by
  have hlocal (hpc : (s.calls i).pc ≠ .connected) (h : s.localStep i ch = some t) :
      AdvanceCase s i ch t :=
    .moves (localStep_local h (fun hc => absurd hc hpc) hok.limit)
  unfold State.advance at h
  cases hpc : (s.calls i).pc with
  | connected =>
    cases hk : (s.calls i).kind with
    | connectWebRTC =>
      simp only [hpc, hk, Option.some.injEq] at h
      subst h
      exact .publishes hpc (.inl hk)
    | manualOffer =>
      simp only [hpc, hk, Option.some.injEq] at h
      subst h
      exact .publishes hpc (.inr hk)
    | fastReconnect conn =>
      simp only [hpc, hk, Option.some.injEq] at h
      subst h
      -- the swap needs a running client with a tunnel
      cases hrun : s.clientRunning with
      | true =>
        cases htun : s.activeTunnel with
        | some tun => exact .swaps conn tun hpc hk hrun htun
        | none =>
          apply AdvanceCase.moves
          simp only [State.swapDialStream, hrun, htun]
          exact localStep_refuse (.inr hpc)
      | false =>
        apply AdvanceCase.moves
        simp only [State.swapDialStream, hrun]
        exact localStep_refuse (.inr hpc)
    | startWebRTC | startXray | startTunnel =>
      simp only [hpc, hk] at h
      exact .moves (localStep_local h (fun _ => by simp [hk]) hok.limit)
  | tunnelled =>
    simp only [hpc, Option.some.injEq] at h
    subst h
    split_ifs with hmay
    · exact .installs hpc hmay
    · exact .moves (localStep_refuse (.inl hpc))
  | failed =>
    simp only [hpc, Option.some.injEq] at h
    subst h
    exact .cleans hpc
  | stopping =>
    -- only `StartTunnel` and reconnects get here
    have hfail := hok.stopping hpc
    cases hk : (s.calls i).kind with
    | fastReconnect conn =>
      simp only [hpc, hk, Option.some.injEq] at h
      subst h
      exact .stops conn hpc hk
    | startTunnel =>
      simp only [hpc, hk, Option.some.injEq] at h
      subst h
      exact .resets hpc hk
    | startWebRTC | startXray | connectWebRTC | manualOffer =>
      rw [hk] at hfail
      cases hfail
  | swapped =>
    cases hold : (s.calls i).oldGroup with
    | none => simp [hpc, hold] at h
    | some g =>
      simp only [hpc, hold, Option.some.injEq] at h
      subst h
      exact .retires g hpc hold
  | done => simp [hpc] at h
  | started | dialing | offered | grouped | answering | waiting | refused | limit =>
    simp only [hpc] at h
    exact hlocal (by rw [hpc]; decide) h

end NatProxy.Client
