import NatProxy.Client.StopClient
import NatProxy.Lib.Linear

/-!
# Who owns what

Three invariants of every run, whatever the order of the steps.

* `Ownership`: a connect attempt is in one pair of hands. It is served by the call that began it, or
  its group is pending, or a `StartTunnel` that took the group serves it.
* `Placement`: a client group that is not in use yet is held by one call or pending, and never
  becomes unused again once it has been the active group.
* `Current`: the active tunnel belongs to an installed connection, and the client is running.

`step_cases` reduces the steps to five: a new attempt, a `StartTunnel`, a new reconnect, a step that
only takes away (`Fades`), and a step inside one call (`Within`).
-/

namespace NatProxy.Client

open Lib

def Kind.reconnects : Kind → Bool
  | .fastReconnect _ => true
  | .startWebRTC | .startXray | .connectWebRTC | .manualOffer | .startTunnel => false

/-! ## Five kinds of steps -/

/-- The step only stops, cancels and clears. -/
structure Fades (s t : State) : Prop extends Frame s t where
  tunnel : ∀ i, t.activeTunnel = some i →
    s.activeTunnel = some i ∧ t.clientRunning = s.clientRunning

/-- The step changes the call `i` only, and has held a group that becomes pending or active. -/
structure Within (s : State) (i : Nat) (t : State) : Prop where
  unfinished : s.Unfinished i
  others : ∀ j, j ≠ i → t.calls j = s.calls j
  nCalls : t.nCalls = s.nCalls
  connectCtx : t.clientConnectCtx = s.clientConnectCtx
  connecting : t.clientConnecting = true → s.clientConnecting = true
  kind : (t.calls i).kind = (s.calls i).kind
  origin : (t.calls i).origin = (s.calls i).origin
  oldGroup : (t.calls i).oldGroup = (s.calls i).oldGroup
  groups : (s.calls i).groups ≤ (t.calls i).groups
  cancelled : ∀ x, t.ctxCancelled x = true →
    s.ctxCancelled x = true ∨ s.clientConnectCancel = some x
  cancel : Drops s.clientConnectCancel t.clientConnectCancel
  held : ∀ g, (t.calls i).group = some g → (s.calls i).group = some g ∨
    (g = ⟨i, (s.calls i).groups⟩ ∧ (s.calls i).groups < (t.calls i).groups)
  pending : ∀ g, t.pendingGroup = some g → s.pendingGroup = some g ∨
    ((s.calls i).group = some g ∧ (s.calls i).kind.failPC = .failed ∧ (t.calls i).group = none ∧
      (t.calls i).pc = .done)
  active : ∀ g, t.activeGroup = some g → s.activeGroup = some g ∨
    ((s.calls i).group = some g ∧ (t.calls i).group = none ∧ t.pendingGroup = s.pendingGroup)
  swapped : (t.calls i).pc = .swapped → t.activeGroup = (s.calls i).group
  tunnel : ∀ k, t.activeTunnel = some k →
    (s.activeTunnel = some k ∧ t.clientRunning = s.clientRunning) ∨
      (k = i ∧ t.clientRunning = true ∧ (t.calls i).installed = true)
  installed : (t.calls i).installed = true → (s.calls i).installed = true ∨ (t.calls i).pc = .done
  groupStays : ∀ g, s.groupStopped g = true → t.groupStopped g = true
  tunnelStays : ∀ j, s.tunnelStopped j = true → t.tunnelStopped j = true

theorem stopClient_fades (s : State) (xrayOk : Bool) : Fades s (s.stopClient xrayOk) := by
  refine ⟨stopClient_frame s xrayOk, fun i hi => ?_⟩
  rcases (stopClient_spec s xrayOk).active with ⟨hs, ht, htun, -⟩ | ⟨-, hnone, -⟩
  · exact ⟨htun ▸ hi, ht.trans hs.symm⟩
  · rw [hnone] at hi
    cases hi

theorem stopGroup_fades (s : State) (g : Option GroupId) : Fades s (s.stopGroup g) := by
  refine ⟨stopGroup_frame s g, fun i hi => ?_⟩
  rw [stopGroup_toGlobals] at hi ⊢
  exact ⟨hi, rfl⟩

theorem cleanup_globals (s : State) (k : Kind) :
    (s.cleanup k).toGlobals =
      { s.toGlobals with
        clientConnecting := false
        clientConnectCancel := none
        pendingGroup :=
          if k = .connectWebRTC ∨ k = .manualOffer then none else s.pendingGroup } := by
  cases k
  all_goals simp [State.cleanup, cancelConnect_toGlobals, State.stopPending]

theorem cleanup_fades (s : State) (k : Kind) : Fades s (s.cleanup k) := by
  refine ⟨cleanup_frame s k, fun i hi => ?_⟩
  rw [cleanup_globals] at hi ⊢
  exact ⟨hi, rfl⟩

variable {c : Call} {i x : Nat} {p : Option Nat} {s t : State}

theorem Within.finish (hunf : s.Unfinished i) (h : Fades s t) :
    Within s i (t.goto i .done) := by
  have hcall : (t.goto i .done).calls i = { s.calls i with pc := .done } := by
    rw [State.goto, setCall_calls_self, h.calls]
  exact
    { unfinished := hunf
      others := fun j hj => by rw [State.goto, setCall_calls_of_ne _ _ hj, h.calls]
      nCalls := h.nCalls
      connectCtx := h.connectCtx
      connecting := h.connecting
      kind := by rw [hcall]
      origin := by rw [hcall]
      oldGroup := by rw [hcall]
      groups := Nat.le_of_eq (by rw [hcall])
      cancelled := h.cancelled
      cancel := h.cancel
      held := fun g hg => .inl (by rwa [hcall] at hg)
      pending := fun g hg => .inl (h.pending.some hg)
      active := fun g hg => .inl (h.activeGroup.some hg)
      swapped := fun hc => by rw [hcall] at hc; cases hc
      tunnel := fun k hk => .inl (h.tunnel k hk)
      installed := fun hi => .inl (by rwa [hcall] at hi)
      groupStays := h.groups
      tunnelStays := h.tunnels }

theorem LocalStep.within (h : LocalStep s i t) : Within s i t where
  unfinished := h.atWork.1
  others := h.others
  nCalls := h.nCalls
  connectCtx := by rw [h.globals]
  connecting := by rw [h.globals]; exact fun hc => hc
  kind := h.kind
  origin := h.origin
  oldGroup := h.oldGroup
  groups := h.groups
  cancelled x hx := .inl (by rw [← h.ctxCancelled]; exact hx)
  cancel := .inr (by rw [h.globals])
  held g hg := by
    rcases h.group with hsame | hnone | ⟨hnew, hlt⟩
    · exact .inl (by rw [← hsame, hg])
    · rw [hnone] at hg
      cases hg
    · rw [hnew, Option.some.injEq] at hg
      exact .inr ⟨hg.symm, hlt⟩
  pending g hg := .inl (by rw [h.globals] at hg; exact hg)
  active g hg := .inl (by rw [h.globals] at hg; exact hg)
  swapped hc := absurd hc h.keeps
  tunnel k hk := .inl (by rw [h.globals] at hk ⊢; exact ⟨hk, rfl⟩)
  installed hi := .inl (by rw [← h.installed]; exact hi)
  groupStays := h.stays
  tunnelStays := h.tunnelStays

theorem Within.handOver {q : PC} {inst : Bool} (hunf : s.Unfinished i)
    (hcalls : t.calls =
      (s.setCall i { s.calls i with pc := q, group := none, installed := inst }).calls)
    (hn : t.nCalls = s.nCalls) (hcctx : t.clientConnectCtx = s.clientConnectCtx)
    (hconn : t.clientConnecting = true → s.clientConnecting = true)
    (hctx : t.ctxCancelled = s.ctxCancelled)
    (hgroups : t.groupStopped = s.groupStopped) (htun : t.tunnelStopped = s.tunnelStopped)
    (hcancel : t.clientConnectCancel = s.clientConnectCancel)
    (hpending : t.pendingGroup = s.pendingGroup ∨
      (t.pendingGroup = (s.calls i).group ∧ (s.calls i).kind.failPC = .failed ∧ q = .done))
    (hactive : (t.activeGroup = s.activeGroup ∧ q ≠ .swapped) ∨
      (t.activeGroup = (s.calls i).group ∧ t.pendingGroup = s.pendingGroup))
    (htunnel : (t.activeTunnel = s.activeTunnel ∧ t.clientRunning = s.clientRunning) ∨
      (t.activeTunnel = some i ∧ t.clientRunning = true ∧ inst = true))
    (hinst : inst = (s.calls i).installed ∨ q = .done) : Within s i t := by
  have hcall : t.calls i = { s.calls i with pc := q, group := none, installed := inst } := by
    rw [hcalls, setCall_calls_self]
  constructor
  case kind | origin | oldGroup => rw [hcall]
  · exact hunf
  · exact fun j hj => by rw [hcalls, setCall_calls_of_ne s _ hj]
  · exact hn
  · exact hcctx
  · exact hconn
  · exact Nat.le_of_eq (by rw [hcall])
  · exact fun x hx => .inl (by rw [← hctx]; exact hx)
  · exact .inr hcancel
  · rw [hcall]
    exact fun g hg => by cases hg
  · grind
  · grind
  · grind
  · grind
  · grind
  · exact fun g hg => by rw [hgroups, hg]
  · exact fun j hj => by rw [htun, hj]

theorem AdvanceCase.within {ch : Choice} (h : AdvanceCase s i ch t) :
    Within s i t := by
  cases h with
  | moves h => exact h.within
  | publishes hpc hkind =>
    have hfail : (s.calls i).kind.failPC = .failed := by
      rcases hkind with hk | hk <;> rw [hk] <;> rfl
    exact .handOver (atWork_of_pc hpc (by decide)).1 rfl rfl rfl (fun hc => hc) rfl rfl rfl rfl
      (.inr ⟨rfl, hfail, rfl⟩) (.inl ⟨rfl, by decide⟩) (.inl ⟨rfl, rfl⟩) (.inl rfl)
  | installs hpc hmay =>
    refine .handOver (atWork_of_pc hpc (by decide)).1 rfl rfl rfl (fun hc => by cases hc)
      rfl rfl rfl rfl (.inl rfl) ?_ (.inr ⟨rfl, rfl, rfl⟩) (.inr rfl)
    simp only [State.install]
    split_ifs
    · exact .inl ⟨rfl, by decide⟩
    · exact .inr ⟨rfl, rfl⟩
  | cleans hpc => exact .finish (atWork_of_pc hpc (by decide)).1 (cleanup_fades s _)
  | resets hpc hkind =>
    exact .finish (atWork_of_pc hpc (by decide)).1
      ⟨resetConnecting_frame s, fun k hk => ⟨hk, rfl⟩⟩
  | stops conn hpc hkind => exact .finish (atWork_of_pc hpc (by decide)).1 (stopClient_fades s _)
  | swaps conn tun hpc hkind hrun htun =>
    simp only [State.swapDialStream, hrun, htun]
    exact .handOver (q := .swapped) (atWork_of_pc hpc (by decide)).1 rfl rfl rfl (fun hc => hc)
      rfl rfl rfl rfl (.inl rfl) (.inr ⟨rfl, rfl⟩) (.inl ⟨rfl, rfl⟩) (.inl rfl)
  | retires g hpc hold =>
    refine .finish ?_ (stopGroup_fades s _)
    rw [State.Unfinished, hpc]
    decide

inductive StepCase (s : State) : State → Prop where
  | attempts (k : Kind) (hk : k.failPC = .failed) (hrun : s.clientRunning = false)
      (hconn : s.clientConnecting = false) : StepCase s (s.beginAttempt k)
  | takes (g : GroupId) (hconn : s.clientConnecting = true) (hpend : s.pendingGroup = some g) :
      StepCase s (s.takePending g)
  | reconnects (conn n : Nat) (pc : PC) (old : Option GroupId) (hpc : pc ≠ .swapped)
      (hold : Drops s.activeGroup old) :
      StepCase s
        { s.enter
            { kind := .fastReconnect conn, pc := pc, origin := s.nCalls, oldGroup := old } with
          reconnectCount := n }
  | fades {t : State} (h : Fades s t) : StepCase s t
  | within (i : Nat) {t : State} (h : Within s i t) : StepCase s t

theorem step_cases {a : Action} (hok : ∀ i, CallOk s i) (h : step s a = some t) :
    StepCase s t := by
  cases a with
  | begin k =>
    cases begin_cases h with
    | attempts k hk hrun hconn => exact .attempts k hk hrun hconn
    | takes g hconn hpend => exact .takes g hconn hpend
    | limited conn hinst =>
      exact .reconnects conn s.reconnectCount .limit none (by decide) (.inl rfl)
    | reconnects conn hinst hrun =>
      exact .reconnects conn (s.reconnectCount + 1) .dialing s.activeGroup (by decide)
        (.inr rfl)
  | stop xrayOk =>
    cases h
    exact .fades (stopClient_fades s xrayOk)
  | monitor =>
    cases h
    exact .fades ⟨resetCount_frame s, fun _ hi => ⟨hi, rfl⟩⟩
  | advance i ch => exact .within i (advance_cases (hok i) h).within

/-! ## Attempts -/

/-- The attempt `x` is in the hands of a call, or its group is pending. -/
def State.serves (s : State) : Option Nat → Nat → Prop
  | none, x => ∃ g, s.pendingGroup = some g ∧ g.owner = x
  | some j, x => s.Unfinished j ∧ (s.calls j).kind.reconnects = false ∧ (s.calls j).origin = x

/-- Every attempt is in one pair of hands. -/
structure Ownership (s : State) : Prop where
  fresh : ∀ j, s.nCalls ≤ j → s.calls j = {} ∧ s.ctxCancelled j = false
  cancel : ∀ x, s.clientConnectCancel = some x → x < s.nCalls ∧ s.clientConnectCtx = some x
  connecting : s.clientConnecting = true → s.clientConnectCtx ≠ none
  served : ∀ p x, s.serves p x → x < s.nCalls
  attempt : ∀ j, s.Unfinished j → (s.calls j).kind.failPC = .failed → (s.calls j).origin = j
  held : ∀ j g, (s.calls j).kind.failPC = .failed → (s.calls j).group = some g → g.owner = j
  once : Linear s.serves

theorem Ownership.lt_of_unfinished (h : Ownership s) {j : Nat} (hj : s.Unfinished j) :
    j < s.nCalls := by
  by_contra hge
  apply hj
  rw [(h.fresh j (Nat.le_of_not_lt hge)).1]

theorem Ownership.ctx_fresh (h : Ownership s)
    (hcancelled : ∀ x, t.ctxCancelled x = true →
      s.ctxCancelled x = true ∨ s.clientConnectCancel = some x)
    {j : Nat} (hj : s.nCalls ≤ j) : t.ctxCancelled j = false := by
  by_contra hc
  rw [Bool.not_eq_false] at hc
  rcases hcancelled j hc with hc | hc
  · rw [(h.fresh j hj).2] at hc
    cases hc
  · exact absurd (h.cancel j hc).1 (Nat.not_lt.2 hj)

theorem Kind.reconnects_of_failPC {k : Kind} (h : k.failPC = .failed) : k.reconnects = false := by
  cases k <;> first | rfl | cases h

theorem Within.serves (hs : Ownership s) (h : Within s i t)
    (hp : t.serves p x) :
    s.serves p x ∨ (p = none ∧ s.serves (some i) x ∧ ¬ t.serves (some i) x) := by
  cases p with
  | some j =>
    left
    obtain ⟨hunf, hkind, horigin⟩ := hp
    by_cases hj : j = i
    · subst hj
      exact ⟨h.unfinished, h.kind ▸ hkind, h.origin ▸ horigin⟩
    · rw [State.Unfinished, h.others j hj] at hunf
      rw [h.others j hj] at hkind horigin
      exact ⟨hunf, hkind, horigin⟩
  | none =>
    obtain ⟨g, hg, rfl⟩ := hp
    -- a group that has just become pending was published by the call
    rcases h.pending g hg with hsame | ⟨hheld, hfail, -, hdone⟩
    · exact .inl ⟨g, hsame, rfl⟩
    · refine .inr ⟨rfl, ⟨h.unfinished, Kind.reconnects_of_failPC hfail, ?_⟩, fun hc => hc.1 hdone⟩
      rw [hs.attempt i h.unfinished hfail, hs.held i g hfail hheld]

theorem Within.serves_of_done (h : Within s i t)
    (hdone : (t.calls i).pc = .done) (hpending : Drops s.pendingGroup t.pendingGroup)
    (hp : t.serves p x) : s.serves p x ∧ p ≠ some i := by
  cases p with
  | none =>
    obtain ⟨g, hg, hx⟩ := hp
    exact ⟨⟨g, hpending.some hg, hx⟩, by simp⟩
  | some j =>
    have hj : j ≠ i := by
      rintro rfl
      exact hp.1 hdone
    rw [State.serves, State.Unfinished, h.others j hj] at hp
    exact ⟨hp, fun hc => hj (Option.some.inj hc)⟩

theorem Frame.serves (h : Frame s t) (hp : t.serves p x) :
    s.serves p x := by
  cases p with
  | none =>
    obtain ⟨g, hg, hx⟩ := hp
    exact ⟨g, h.pending.some hg, hx⟩
  | some j =>
    rw [State.serves, State.Unfinished, h.calls] at hp
    exact hp

theorem serves_enter (hcalls : t.calls = (s.enter c).calls)
    (hpending : Drops s.pendingGroup t.pendingGroup)
    (hp : t.serves p x) :
    s.serves p x ∨ (p = some s.nCalls ∧ c.kind.reconnects = false ∧ x = c.origin) := by
  cases p with
  | none =>
    obtain ⟨g, hg, hx⟩ := hp
    exact .inl ⟨g, hpending.some hg, hx⟩
  | some j =>
    rw [State.serves, State.Unfinished, hcalls] at hp
    by_cases hj : j = s.nCalls
    · subst hj
      rw [enter_calls_self] at hp
      exact .inr ⟨rfl, hp.2.1, hp.2.2.symm⟩
    · rw [enter_calls_of_ne s c hj] at hp
      exact .inl hp

theorem serves_enter_reconnect (hcalls : t.calls = (s.enter c).calls)
    (hpending : t.pendingGroup = s.pendingGroup) (hkind : c.kind.reconnects = true)
    (hp : t.serves p x) : s.serves p x := by
  rcases serves_enter hcalls (.inr hpending) hp with hold | ⟨-, hk, -⟩
  · exact hold
  · rw [hkind] at hk
    cases hk

theorem Ownership.within (hs : Ownership s) (h : Within s i t) :
    Ownership t := by
  have hi := hs.lt_of_unfinished h.unfinished
  constructor
  case fresh =>
    intro j hj
    rw [h.nCalls] at hj
    exact ⟨by rw [h.others j (by omega), (hs.fresh j hj).1], hs.ctx_fresh h.cancelled hj⟩
  case cancel =>
    intro x hx
    rw [h.nCalls, h.connectCtx]
    exact hs.cancel x (h.cancel.some hx)
  case connecting =>
    rw [h.connectCtx]
    exact fun hc => hs.connecting (h.connecting hc)
  case served =>
    intro p x hp
    rw [h.nCalls]
    rcases h.serves hs hp with hp | ⟨-, hp, -⟩
    · exact hs.served p x hp
    · exact hs.served _ x hp
  case attempt =>
    intro j
    by_cases hj : j = i
    · subst hj
      rw [h.kind, h.origin]
      exact fun _ => hs.attempt j h.unfinished
    · rw [State.Unfinished, h.others j hj]
      exact hs.attempt j
  case held =>
    grind [h.kind, h.held, hs.held, h.others]
  case once =>
    refine hs.once.step none fun p x hp => ?_
    exact (h.serves hs hp).imp_right fun ⟨hp, hfrom, hleft⟩ => ⟨hp, .inr ⟨some i, hfrom, hleft⟩⟩

theorem Ownership.fades (hs : Ownership s) (h : Fades s t) : Ownership t := by
  constructor
  case fresh =>
    intro j hj
    rw [h.nCalls] at hj
    exact ⟨by rw [h.calls, (hs.fresh j hj).1], hs.ctx_fresh h.cancelled hj⟩
  case cancel =>
    intro x hx
    rw [h.nCalls, h.connectCtx]
    exact hs.cancel x (h.cancel.some hx)
  case connecting =>
    rw [h.connectCtx]
    exact fun hc => hs.connecting (h.connecting hc)
  case served =>
    intro p x hp
    rw [h.nCalls]
    exact hs.served p x (h.serves hp)
  case attempt =>
    simp only [State.Unfinished, h.calls]
    exact hs.attempt
  case held =>
    rw [h.calls]
    exact hs.held
  case once =>
    exact hs.once.mono fun _ _ hp => h.serves hp

theorem Ownership.enter (hs : Ownership s)
    (hcalls : t.calls = (s.enter c).calls) (hn : t.nCalls = s.nCalls + 1)
    (hctx : t.ctxCancelled = s.ctxCancelled)
    (hcancel : (t.clientConnectCancel = s.clientConnectCancel ∧
        t.clientConnectCtx = s.clientConnectCtx) ∨
      (t.clientConnectCancel = some s.nCalls ∧ t.clientConnectCtx = some s.nCalls))
    (hconn : t.clientConnecting = s.clientConnecting ∨ t.clientConnectCtx = some s.nCalls)
    (hpending : Drops s.pendingGroup t.pendingGroup)
    (hattempt : c.kind.failPC = .failed → c.origin = s.nCalls ∧ c.group = none)
    (horigin : c.kind.reconnects = false →
      c.origin = s.nCalls ∨ (s.serves none c.origin ∧ t.pendingGroup = none)) : Ownership t := by
  have hself : t.calls s.nCalls = c := by rw [hcalls, enter_calls_self]
  have hother : ∀ j, j ≠ s.nCalls → t.calls j = s.calls j := fun j hj => by
    rw [hcalls, enter_calls_of_ne s c hj]
  constructor
  case fresh =>
    grind [hs.fresh]
  case cancel =>
    intro x hx
    rw [hn]
    rcases hcancel with ⟨hc, hcctx⟩ | ⟨hc, hcctx⟩
    · obtain ⟨hlt, hx⟩ := hs.cancel x (by rw [← hc, hx])
      exact ⟨Nat.lt_succ_of_lt hlt, by rw [hcctx, hx]⟩
    · rw [hc, Option.some.injEq] at hx
      subst hx
      exact ⟨Nat.lt_succ_self _, hcctx⟩
  case connecting =>
    grind [hs.connecting]
  case served =>
    intro p x hp
    rw [hn]
    rcases serves_enter hcalls hpending hp with hp | ⟨-, hkind, rfl⟩
    · exact Nat.lt_succ_of_lt (hs.served p x hp)
    · rcases horigin hkind with hnew | ⟨htook, -⟩
      · rw [hnew]
        exact Nat.lt_succ_self _
      · exact Nat.lt_succ_of_lt (hs.served none _ htook)
  case attempt =>
    grind [State.Unfinished, hs.attempt]
  case held =>
    grind [hs.held]
  case once =>
    -- a new pair of hands: for a new attempt, or for one that left the pending group
    refine hs.once.step (some s.nCalls) fun p x hp => ?_
    rcases serves_enter hcalls hpending hp with hold | ⟨hat, hkind, rfl⟩
    · exact .inl hold
    · refine .inr ⟨hat, ?_⟩
      rcases horigin hkind with hnew | ⟨htook, hnone⟩
      · left
        rw [hnew]
        exact fun q hq => Nat.lt_irrefl _ (hs.served q _ hq)
      · right
        refine ⟨none, htook, ?_⟩
        rintro ⟨g, hg, -⟩
        rw [hnone] at hg
        cases hg

theorem StepCase.ownership (hs : Ownership s) (h : StepCase s t) : Ownership t := by
  cases h with
  | attempts k hk hrun hconn =>
    exact hs.enter rfl rfl rfl (.inr ⟨rfl, rfl⟩) (.inr rfl) (.inr rfl) (fun _ => ⟨rfl, rfl⟩)
      (fun _ => .inl rfl)
  | takes g hconn hpend =>
    exact hs.enter rfl rfl rfl (.inl ⟨rfl, rfl⟩) (.inl rfl) (.inl rfl) (fun hc => by cases hc)
      (fun _ => .inr ⟨⟨g, hpend, rfl⟩, rfl⟩)
  | reconnects conn n pc old hpc hold =>
    exact hs.enter rfl rfl rfl (.inl ⟨rfl, rfl⟩) (.inl rfl) (.inr rfl) (fun hc => by cases hc)
      (fun hc => by cases hc)
  | fades h => exact hs.fades h
  | within i h => exact hs.within h

/-! ## Groups -/

/-- Where a client group that is not in use yet can be: with a call, or pending. -/
def State.unused (s : State) : Option Nat → GroupId → Prop
  | none, g => s.pendingGroup = some g
  | some j, g => (s.calls j).group = some g

/-- The group is active, or was when a reconnect set out to replace it. -/
def State.Used (s : State) (g : GroupId) : Prop :=
  s.activeGroup = some g ∨ ∃ j, (s.calls j).oldGroup = some g

/-- A group is in one place, and does not come back. -/
structure Placement (s : State) : Prop where
  made : ∀ g, ((∃ p, s.unused p g) ∨ s.Used g) → g.index < (s.calls g.owner).groups
  once : Linear s.unused
  used : ∀ g, s.Used g → ∀ p, ¬ s.unused p g
  swapped : ∀ j g, (s.calls j).pc = .swapped → (s.calls j).oldGroup = some g →
    s.activeGroup ≠ some g

theorem Placement.fades (hs : Placement s) (h : Fades s t) : Placement t := by
  have hunused : ∀ p g, t.unused p g → s.unused p g := by
    rintro (_ | j) g hp
    · exact h.pending.some hp
    · rw [State.unused, h.calls] at hp
      exact hp
  have hused : ∀ g, t.Used g → s.Used g := by
    rintro g (hg | ⟨j, hg⟩)
    · exact .inl (h.activeGroup.some hg)
    · exact .inr ⟨j, by rw [← h.calls, hg]⟩
  constructor
  case made =>
    intro g hg
    rw [h.calls]
    exact hs.made g (hg.imp (fun ⟨p, hp⟩ => ⟨p, hunused p g hp⟩) (hused g))
  case once =>
    exact hs.once.mono hunused
  case used =>
    exact fun g hg p hp => hs.used g (hused g hg) p (hunused p g hp)
  case swapped =>
    intro j g
    rw [h.calls]
    exact fun hpc hold hactive => hs.swapped j g hpc hold (h.activeGroup.some hactive)

theorem Placement.enter (hs : Placement s) (hfresh : s.calls s.nCalls = {})
    (hcalls : t.calls = (s.enter c).calls) (hnone : c.groups = 0)
    (hpending : Drops s.pendingGroup t.pendingGroup) (hactive : t.activeGroup = s.activeGroup)
    (hgroup : ∀ g, c.group = some g → s.pendingGroup = some g ∧ t.pendingGroup = none)
    (hpc : c.pc ≠ .swapped) (hold : Drops s.activeGroup c.oldGroup) : Placement t := by
  have hself : t.calls s.nCalls = c := by rw [hcalls, enter_calls_self]
  have hother : ∀ j, j ≠ s.nCalls → t.calls j = s.calls j := fun j hj => by
    rw [hcalls, enter_calls_of_ne s c hj]
  have hgroups : ∀ x, (t.calls x).groups = (s.calls x).groups := by
    intro x
    by_cases hx : x = s.nCalls
    · subst hx
      rw [hself, hfresh, hnone]
    · rw [hother x hx]
  have hunused : ∀ p g, t.unused p g → s.unused p g ∨
      (p = some s.nCalls ∧ s.unused none g ∧ ¬ t.unused none g) := by
    rintro (_ | j) g hp
    · exact .inl (hpending.some hp)
    · grind [State.unused]
  have hused : ∀ g, t.Used g → s.Used g := by
    rintro g (hg | ⟨j, hg⟩)
    · exact .inl (by rw [← hactive, hg])
    · by_cases hj : j = s.nCalls
      · subst hj
        rw [hself] at hg
        exact .inl (hold.some hg)
      · rw [hother j hj] at hg
        exact .inr ⟨j, hg⟩
  constructor
  case made =>
    intro g hg
    rw [hgroups]
    apply hs.made g
    rcases hg with ⟨p, hp⟩ | hg
    · grind
    · exact .inr (hused g hg)
  case once =>
    refine hs.once.step (some s.nCalls) fun p g hp => ?_
    exact (hunused p g hp).imp_right fun ⟨hat, hfrom, hleft⟩ => ⟨hat, .inr ⟨none, hfrom, hleft⟩⟩
  case used =>
    grind [hs.used]
  case swapped =>
    grind [hs.swapped]

theorem Within.unused (h : Within s i t) {g : GroupId}
    (hp : t.unused p g) : s.unused p g ∨
      (p = none ∧ s.unused (some i) g ∧ (t.calls i).group = none) ∨
      (p = some i ∧ g = ⟨i, (s.calls i).groups⟩ ∧ (s.calls i).groups < (t.calls i).groups) := by
  rcases p with _ | j
  · rcases h.pending g hp with hp | ⟨hp, -, hnone, -⟩
    · exact .inl hp
    · exact .inr (.inl ⟨rfl, hp, hnone⟩)
  · grind [State.unused, h.held, h.others]

theorem Within.oldGroup_eq (h : Within s i t) (j : Nat) :
    (t.calls j).oldGroup = (s.calls j).oldGroup := by
  by_cases hj : j = i
  · subst hj
    exact h.oldGroup
  · rw [h.others j hj]

theorem Within.used (h : Within s i t) {g : GroupId} (hg : t.Used g) :
    s.Used g ∨
      (s.unused (some i) g ∧ (t.calls i).group = none ∧ t.pendingGroup = s.pendingGroup) := by
  rcases hg with hg | ⟨j, hg⟩
  · exact (h.active g hg).imp_left .inl
  · exact .inl (.inr ⟨j, by rw [← h.oldGroup_eq j, hg]⟩)

theorem Placement.within (hs : Placement s) (h : Within s i t) :
    Placement t := by
  have hgroups : ∀ x, (s.calls x).groups ≤ (t.calls x).groups := by
    intro x
    by_cases hx : x = i
    · subst hx
      exact h.groups
    · exact Nat.le_of_eq (by rw [h.others x hx])
  -- a group of the call that did not exist before the step is in no place then
  have hnew : ∀ g : GroupId, g = ⟨i, (s.calls i).groups⟩ → ¬ ((∃ p, s.unused p g) ∨ s.Used g) := by
    rintro g rfl hg
    exact Nat.lt_irrefl _ (hs.made _ hg)
  constructor
  case made =>
    intro g hg
    have hkept (hg : (∃ p, s.unused p g) ∨ s.Used g) : g.index < (t.calls g.owner).groups :=
      Nat.lt_of_lt_of_le (hs.made g hg) (hgroups g.owner)
    rcases hg with ⟨p, hp⟩ | hg
    · rcases h.unused hp with hp | ⟨-, hp, -⟩ | ⟨-, rfl, hlt⟩
      · exact hkept (.inl ⟨p, hp⟩)
      · exact hkept (.inl ⟨_, hp⟩)
      · exact hlt
    · grind [h.used]
  case once =>
    -- the one place that can be new: pending if the call has let go of its group, else the call
    cases hheld : (t.calls i).group with
    | none =>
      refine hs.once.step none fun p g hp => ?_
      have hempty : ¬ t.unused (some i) g := by
        rw [State.unused, hheld]
        exact fun hc => by cases hc
      rcases h.unused hp with hp | ⟨hat, hfrom, -⟩ | ⟨rfl, -, -⟩
      · exact .inl hp
      · exact .inr ⟨hat, .inr ⟨_, hfrom, hempty⟩⟩
      · exact absurd hp hempty
    | some g' =>
      refine hs.once.step (some i) fun p g hp => ?_
      rcases h.unused hp with hp | ⟨-, -, hnone⟩ | ⟨hat, hg, -⟩
      · exact .inl hp
      · rw [hnone] at hheld
        cases hheld
      · exact .inr ⟨hat, .inl fun q hq => hnew g hg (.inl ⟨q, hq⟩)⟩
  case used =>
    intro g hg p hp
    rcases h.used hg with hg | ⟨hfrom, hnone, hpend⟩
    · rcases h.unused hp with hp | ⟨-, hp, -⟩ | ⟨-, hnewg, -⟩
      · exact hs.used g hg p hp
      · exact hs.used g hg _ hp
      · exact hnew g hnewg (.inr hg)
    · -- the group left the call `i` to become active, so it is in no other place
      have hp' : s.unused p g := by
        cases p with
        | none =>
          rw [State.unused, hpend] at hp
          exact hp
        | some j =>
          grind [State.unused, h.others]
      have hat := hs.once p (some i) g hp' hfrom
      rw [hat, State.unused, hnone] at hp
      cases hp
  case swapped =>
    intro j g hpc holdg hactive
    rw [h.oldGroup_eq j] at holdg
    have hnot := hs.used g (.inr ⟨j, holdg⟩)
    by_cases hj : j = i
    · -- the active group is now the new one, which was unused
      subst hj
      rw [h.swapped hpc] at hactive
      exact hnot (some j) hactive
    · rw [h.others j hj] at hpc
      rcases h.active g hactive with hsame | ⟨hfrom, -⟩
      · exact hs.swapped j g hpc holdg hsame
      · exact hnot (some i) hfrom

theorem StepCase.placement (hs : Placement s) (hown : Ownership s)
    (h : StepCase s t) : Placement t := by
  have hfresh := (hown.fresh s.nCalls (Nat.le_refl _)).1
  cases h with
  | attempts k hk hrun hconn =>
    exact hs.enter hfresh rfl rfl (.inr rfl) rfl (fun _ hg => by cases hg) (by simp) (.inl rfl)
  | takes g hconn hpend =>
    refine hs.enter hfresh rfl rfl (.inl rfl) rfl (fun g' hg => ?_) (by simp) (.inl rfl)
    rw [← hg]
    exact ⟨hpend, rfl⟩
  | reconnects conn n pc old hpc hold =>
    exact hs.enter hfresh rfl rfl (.inr rfl) rfl (fun _ hg => by cases hg) hpc hold
  | fades h => exact hs.fades h
  | within i h => exact hs.within h

/-! ## The current connection -/

/-- The active tunnel belongs to an installed connection, and the client is running. -/
structure Current (s : State) : Prop where
  running : ∀ i, s.activeTunnel = some i → s.clientRunning = true ∧ (s.calls i).installed = true
  installed : ∀ i, (s.calls i).installed = true → (s.calls i).pc = .done

theorem Current.of_others (hs : Current s) (hown : Ownership s)
    (hcalls : ∀ i, i < s.nCalls → t.calls i = s.calls i)
    (hnew : ∀ i, s.nCalls ≤ i → (t.calls i).installed = false)
    (htunnel : ∀ i, t.activeTunnel = some i →
      s.activeTunnel = some i ∧ t.clientRunning = s.clientRunning) : Current t := by
  -- a call that does not exist yet has installed nothing
  have hold : ∀ i, (s.calls i).installed = true → i < s.nCalls := by
    intro i hi
    by_contra hge
    rw [(hown.fresh i (Nat.le_of_not_lt hge)).1] at hi
    cases hi
  constructor
  · grind [hs.running]
  · grind [hs.installed]

theorem Current.enter (hs : Current s) (hown : Ownership s)
    (hcalls : t.calls = (s.enter c).calls) (hinst : c.installed = false)
    (htunnel : t.activeTunnel = s.activeTunnel) (hrun : t.clientRunning = s.clientRunning) :
    Current t := by
  apply hs.of_others hown
  · intro i hi
    rw [hcalls, enter_calls_of_ne s c (Nat.ne_of_lt hi)]
  · intro i hi
    rw [hcalls]
    by_cases hn : i = s.nCalls
    · subst hn
      rw [enter_calls_self, hinst]
    · rw [enter_calls_of_ne s c hn, (hown.fresh i hi).1]
  · exact fun i hi => ⟨by rw [← htunnel, hi], hrun⟩

theorem StepCase.current (hs : Current s) (hown : Ownership s) (h : StepCase s t) :
    Current t := by
  cases h with
  | attempts k hk hrun hconn | takes g hconn hpend | reconnects conn n pc old hpc hold =>
    exact hs.enter hown rfl rfl rfl rfl
  | fades h =>
    refine hs.of_others hown (fun i _ => by rw [h.calls]) (fun i hi => ?_) h.tunnel
    rw [h.calls, (hown.fresh i hi).1]
  | within i h =>
    constructor
    · intro k hk
      rcases h.tunnel k hk with ⟨hk, hrun⟩ | ⟨rfl, hrun, hinst⟩
      · obtain ⟨hrun', hinst⟩ := hs.running k hk
        -- an installed call has returned, so it is not the one that moves
        have hne : k ≠ i := by
          rintro rfl
          exact h.unfinished (hs.installed k hinst)
        exact ⟨hrun.trans hrun', by rw [h.others k hne, hinst]⟩
      · exact ⟨hrun, hinst⟩
    · intro k hk
      by_cases hki : k = i
      · subst hki
        rcases h.installed hk with hinst | hdone
        · exact absurd (hs.installed k hinst) h.unfinished
        · exact hdone
      · rw [h.others k hki] at hk ⊢
        exact hs.installed k hk

/-! ## What a step leaves alone -/

theorem StepCase.stays (h : StepCase s t) :
    (∀ g, s.groupStopped g = true → t.groupStopped g = true) ∧
      (∀ i, s.tunnelStopped i = true → t.tunnelStopped i = true) ∧ s.nCalls ≤ t.nCalls := by
  cases h with
  | attempts | takes | reconnects => exact ⟨fun _ hg => hg, fun _ hi => hi, Nat.le_succ _⟩
  | fades h => exact ⟨h.groups, h.tunnels, Nat.le_of_eq h.nCalls.symm⟩
  | within i h => exact ⟨h.groupStays, h.tunnelStays, Nat.le_of_eq h.nCalls.symm⟩

theorem step_calls_of_ne {a : Action} (hok : ∀ i, CallOk s i) (h : step s a = some t)
    (hi : i < s.nCalls) (ha : ∀ ch, a ≠ .advance i ch) : t.calls i = s.calls i := by
  have hne : i ≠ s.nCalls := Nat.ne_of_lt hi
  cases a with
  | begin k => cases begin_cases h <;> exact setCall_calls_of_ne s _ hne
  | stop xrayOk =>
    cases h
    rw [(stopClient_frame s xrayOk).calls]
  | monitor =>
    cases h
    rfl
  | advance j ch =>
    apply (advance_cases (hok j) h).within.others
    rintro rfl
    exact ha ch rfl

/-! ## Every run -/

structure Sound (s : State) : Prop where
  calls : ∀ i, CallOk s i
  ownership : Ownership s
  placement : Placement s
  current : Current s

theorem sound_init : Sound {} where
  calls _ := CallOk.of_free rfl (.inl rfl)
  ownership := by
    refine ⟨fun _ _ => ⟨rfl, rfl⟩, ?_, ?_, ?_, ?_, ?_, ?_⟩
    · exact fun x hx => by cases hx
    · exact fun hc => by cases hc
    · rintro (_ | j) x hp
      · obtain ⟨g, hg, -⟩ := hp
        cases hg
      · exact absurd rfl hp.1
    · exact fun j hj => absurd rfl hj
    · exact fun j g _ hg => by cases hg
    · rintro (_ | j) q x hp
      · obtain ⟨g, hg, -⟩ := hp
        cases hg
      · exact absurd rfl hp.1
  placement := by
    have hunused : ∀ p g, ¬ State.unused {} p g := by
      rintro (_ | j) g hp <;> cases hp
    have hused : ∀ g, ¬ State.Used {} g := by
      rintro g (hg | ⟨j, hg⟩) <;> cases hg
    exact ⟨fun g hg => (hg.elim (fun ⟨p, hp⟩ => hunused p g hp) (hused g)).elim,
      fun p q g hp => (hunused p g hp).elim, fun g hg => (hused g hg).elim,
      fun j g hpc => by cases hpc⟩
  current := ⟨(fun i hi => by cases hi), (fun i hi => by cases hi)⟩

theorem step_sound {a : Action} (hs : Sound s) (h : step s a = some t) : Sound t := by
  have hcase := step_cases hs.calls h
  exact ⟨step_callOk hs.calls h, hcase.ownership hs.ownership,
    hcase.placement hs.placement hs.ownership, hcase.current hs.current hs.ownership⟩

/-- **Every reachable state is sound**, whatever condition the steps meet. -/
theorem sound_of_reachable {ok : State → Action → Prop} (h : Reachable ok s) :
    Sound s :=
  h.invariant Sound sound_init fun _ _ _ hs _ hstep => step_sound hs hstep

end NatProxy.Client
