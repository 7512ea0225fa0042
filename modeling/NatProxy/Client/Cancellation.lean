import NatProxy.Client.Ownership

/-!
# What a cancelled attempt can still do

`StopClient` cancels the context of the attempt that is connecting, but `ConnectWebRTC`,
`ProcessManualOffer` and `StartTunnel` do not look at it again before they publish their group or
install their tunnel, `startClientXray` only looks at `clientConnecting`, and a late cleanup resets
the globals of whatever attempt is connecting by then. `Checked` is the condition on a step that is
missing in the code. Under it the attempt that is not cancelled is always the one that the globals
speak about (`Tracked`), so `StopClient` reaches it, and what it cancels stays cancelled
(`stopClient_final`). Without it a stopped client comes back (`stoppedRun_comes_back`).
-/

namespace NatProxy.Client

open Lib

/-! ## The missing checks -/

/-- The next step of the call makes its group pending or its tunnel active. -/
def State.HandsOver (s : State) (i : Nat) : Prop :=
  ((s.calls i).pc = .connected ∧
      ((s.calls i).kind = .connectWebRTC ∨ (s.calls i).kind = .manualOffer)) ∨
    ((s.calls i).pc = .tunnelled ∧ s.mayInstall i = true)

/-- The next step of the call resets the globals after a failure. -/
def State.CleansUp (s : State) (i : Nat) : Prop :=
  (s.calls i).pc = .failed ∨ ((s.calls i).pc = .stopping ∧ (s.calls i).kind = .startTunnel)

/-- The check of the context that the steps of a call leave out. -/
def Checked (s : State) : Action → Prop
  | .advance i _ =>
    (s.HandsOver i → s.ctxCancelled (s.calls i).origin = false) ∧
      (s.CleansUp i → s.clientConnectCtx = some (s.calls i).origin ∨
        (s.clientConnecting = false ∧ s.pendingGroup = none))
  | .begin _ | .stop _ | .monitor => True

instance (s : State) (i : Nat) : Decidable (s.HandsOver i) := inferInstanceAs (Decidable (_ ∨ _))

instance (s : State) (i : Nat) : Decidable (s.CleansUp i) := inferInstanceAs (Decidable (_ ∨ _))

instance (s : State) : (a : Action) → Decidable (Checked s a)
  | .advance _ _ => inferInstanceAs (Decidable (_ ∧ _))
  | .begin _ | .stop _ | .monitor => isTrue trivial

/-! ## The attempt that is not cancelled -/

/-- An attempt that is not cancelled is the one that the globals speak about. -/
structure Tracked (s : State) : Prop where
  live : ∀ p x, s.serves p x → s.ctxCancelled x = false →
    s.clientConnectCancel = some x ∧ s.clientConnecting = true ∧ s.clientRunning = false
  pending : ∀ g, s.pendingGroup = some g → s.ctxCancelled g.owner = false

variable {a : Action} {i : Nat} {s t : State}

theorem Tracked.keep (h : Tracked s)
    (hserves : ∀ p x, t.serves p x → ∃ q, s.serves q x) (hctx : t.ctxCancelled = s.ctxCancelled)
    (hcancel : t.clientConnectCancel = s.clientConnectCancel)
    (hconn : t.clientConnecting = s.clientConnecting) (hrun : t.clientRunning = s.clientRunning)
    (hpending : ∀ g, t.pendingGroup = some g → s.ctxCancelled g.owner = false) : Tracked t := by
  constructor
  · grind [h.live]
  · rw [hctx]
    exact hpending

theorem Tracked.connecting_of_pending (h : Tracked s) {g : GroupId}
    (hg : s.pendingGroup = some g) :
    s.clientConnectCancel = some g.owner ∧ s.clientConnecting = true :=
  let hlive := h.live none g.owner ⟨g, hg, rfl⟩ (h.pending g hg)
  ⟨hlive.1, hlive.2.1⟩

theorem Tracked.beginAttempt (h : Tracked s) {k : Kind}
    (hrun : s.clientRunning = false) (hconn : s.clientConnecting = false) :
    Tracked (s.beginAttempt k) := by
  constructor
  · intro p x hp hx
    rcases serves_enter (s := s) (t := s.beginAttempt k) rfl (.inr rfl) hp with hold | ⟨-, -, rfl⟩
    · have hlive := h.live p x hold hx
      rw [hconn] at hlive
      cases hlive.2.1
    · exact ⟨rfl, rfl, hrun⟩
  · exact h.pending

theorem Tracked.stopClient_cancels (h : Tracked s) (xrayOk : Bool) :
    (s.stopClient xrayOk).pendingGroup = none ∧
      ∀ p x, (s.stopClient xrayOk).serves p x → (s.stopClient xrayOk).ctxCancelled x = true := by
  have hspec := stopClient_spec s xrayOk
  have hframe := stopClient_frame s xrayOk
  constructor
  · cases hconn : s.clientConnecting with
    | true => exact hspec.pending hconn
    | false =>
      rw [hspec.idle hconn]
      cases hg : s.pendingGroup with
      | none => rfl
      | some g =>
        have hc := (h.connecting_of_pending hg).2
        rw [hconn] at hc
        cases hc
  · intro p x hp
    cases hx : s.ctxCancelled x with
    | true => exact hframe.ctxs x hx
    | false =>
      -- the attempt is the one that the globals speak about, so its context is cancelled now
      obtain ⟨hcancel, hconn, -⟩ := h.live p x (hframe.serves hp) hx
      exact hspec.cancels hconn x hcancel

theorem Tracked.stopClient (h : Tracked s) (xrayOk : Bool) :
    Tracked (s.stopClient xrayOk) := by
  obtain ⟨hpending, hcancelled⟩ := h.stopClient_cancels xrayOk
  constructor
  · intro p x hp hx
    rw [hcancelled p x hp] at hx
    cases hx
  · intro g hg
    rw [hpending] at hg
    cases hg

theorem cleanup_ctxCancelled (s : State) (k : Kind) (x : Nat) :
    (s.cleanup k).ctxCancelled x = true ↔
      s.ctxCancelled x = true ∨ s.clientConnectCancel = some x := by
  cases k
  all_goals simp [State.cleanup, cancelConnect_ctxCancelled, State.stopPending]

theorem Sound.serves_of_handsOver (hs : Sound s) (h : s.HandsOver i) :
    s.serves (some i) (s.calls i).origin := by
  rcases h with ⟨hpc, hkind⟩ | ⟨hpc, -⟩
  · refine ⟨(atWork_of_pc hpc (by decide)).1, ?_, rfl⟩
    rcases hkind with hk | hk <;> rw [hk] <;> rfl
  · refine ⟨(atWork_of_pc hpc (by decide)).1, ?_, rfl⟩
    have hnot := ((hs.calls i).tunnelled hpc).2.2
    cases hkind : (s.calls i).kind with
    | fastReconnect conn => exact absurd hkind (hnot conn)
    | _ => rfl

theorem Tracked.unserved (hs : Sound s)
    (hk : (s.calls i).kind.reconnects = false) (hwithin : Within s i t)
    (hdone : (t.calls i).pc = .done) (hpending : Drops s.pendingGroup t.pendingGroup)
    {p : Option Nat} {x : Nat} (hp : t.serves p x) :
    s.serves p x ∧ x ≠ (s.calls i).origin := by
  obtain ⟨hold, hne⟩ := hwithin.serves_of_done hdone hpending hp
  refine ⟨hold, ?_⟩
  rintro rfl
  exact hne (hs.ownership.once p (some i) _ hold ⟨hwithin.unfinished, hk, rfl⟩)

theorem Tracked.install (hs : Sound s) (h : Tracked s)
    (hpc : (s.calls i).pc = .tunnelled) (hmay : s.mayInstall i = true)
    (hok : s.ctxCancelled (s.calls i).origin = false) : Tracked (s.install i) := by
  have hwithin := (AdvanceCase.installs hpc hmay : AdvanceCase s i .ok _).within
  have hserves := hs.serves_of_handsOver (.inr ⟨hpc, hmay⟩)
  have hdone : ((s.install i).calls i).pc = .done := by
    rw [show (s.install i).calls i = _ from setCall_calls_self s i _]
  -- the call works for the attempt that the globals speak about
  have hlive := h.live (some i) _ hserves hok
  constructor
  · intro p x hp hx
    obtain ⟨hold, hne⟩ := Tracked.unserved hs hserves.2.1 hwithin hdone (.inr rfl) hp
    have hother := (h.live p x hold hx).1
    rw [hlive.1, Option.some.injEq] at hother
    exact absurd hother.symm hne
  · exact h.pending

theorem Tracked.cleanup (hs : Sound s) (h : Tracked s)
    (hpc : (s.calls i).pc = .failed)
    (hok : s.clientConnectCtx = some (s.calls i).origin ∨
      (s.clientConnecting = false ∧ s.pendingGroup = none)) :
    Tracked ((s.cleanup (s.calls i).kind).goto i .done) := by
  have hwithin := (AdvanceCase.cleans hpc : AdvanceCase s i .ok _).within
  have hk := Kind.reconnects_of_failPC ((hs.calls i).failed hpc)
  have hframe := cleanup_frame s (s.calls i).kind
  have hdone : (((s.cleanup (s.calls i).kind).goto i .done).calls i).pc = .done := by
    rw [State.goto, setCall_calls_self]
  have hcancelled := cleanup_ctxCancelled s (s.calls i).kind
  constructor
  · -- the cleanup cancels the attempt that the globals speak about, whichever it is
    intro p x hp hx
    obtain ⟨hold, -⟩ := Tracked.unserved hs hk hwithin hdone hframe.pending hp
    have hx' : s.ctxCancelled x = false := by
      by_contra hc
      rw [Bool.not_eq_false] at hc
      rw [show ((s.cleanup (s.calls i).kind).goto i .done).ctxCancelled x = true from
        hframe.ctxs x hc] at hx
      cases hx
    rw [show ((s.cleanup (s.calls i).kind).goto i .done).ctxCancelled x = true from
      (hcancelled x).2 (.inr (h.live p x hold hx').1)] at hx
    cases hx
  · intro g hg
    -- only `StartClient` leaves a pending group behind, and then it is not this attempt that the
    -- globals speak about
    exfalso
    have hg' : s.pendingGroup = some g := hframe.pending.some hg
    obtain ⟨-, hne⟩ := Tracked.unserved hs hk hwithin hdone hframe.pending (p := none)
      (x := g.owner) ⟨g, hg, rfl⟩
    rcases hok with hctx | ⟨-, hnone⟩
    · rw [(hs.ownership.cancel _ (h.connecting_of_pending hg').1).2, Option.some.injEq] at hctx
      exact hne hctx
    · rw [hnone] at hg'
      cases hg'

theorem Tracked.reset (hs : Sound s) (h : Tracked s)
    (hpc : (s.calls i).pc = .stopping) (hkind : (s.calls i).kind = .startTunnel)
    (hok : s.clientConnectCtx = some (s.calls i).origin ∨
      (s.clientConnecting = false ∧ s.pendingGroup = none)) :
    Tracked (State.goto { s with clientConnecting := false } i .done) := by
  have hwithin := (AdvanceCase.resets hpc hkind : AdvanceCase s i .ok _).within
  have hk : (s.calls i).kind.reconnects = false := by
    rw [hkind]
    rfl
  have hdone : ((State.goto { s with clientConnecting := false } i .done).calls i).pc = .done := by
    rw [State.goto, setCall_calls_self]
  constructor
  · intro p x hp hx
    obtain ⟨hold, hne⟩ := Tracked.unserved hs hk hwithin hdone (.inr rfl) hp
    obtain ⟨hcancel, hconn, -⟩ := h.live p x hold hx
    rcases hok with hctx | ⟨hidle, -⟩
    · rw [(hs.ownership.cancel x hcancel).2, Option.some.injEq] at hctx
      exact absurd hctx hne
    · rw [hidle] at hconn
      cases hconn
  · exact h.pending

theorem serves_of_goto_done {p : Option Nat} {x : Nat}
    (h : (s.goto i .done).serves p x) : s.serves p x := by
  cases p with
  | none => exact h
  | some j =>
    have hj : j ≠ i := by
      rintro rfl
      apply h.1
      rw [State.goto, setCall_calls_self]
    rw [State.serves, State.Unfinished, State.goto, setCall_calls_of_ne _ _ hj] at h
    exact h

theorem Within.exists_serves (hs : Ownership s) (h : Within s i t)
    {p : Option Nat} {x : Nat} (hp : t.serves p x) : ∃ q, s.serves q x := by
  rcases h.serves hs hp with hp | ⟨-, hp, -⟩
  · exact ⟨p, hp⟩
  · exact ⟨some i, hp⟩

theorem step_tracked (hs : Sound s) (h : Tracked s) (hok : Checked s a)
    (hstep : step s a = some t) : Tracked t := by
  cases a with
  | begin k =>
    cases begin_cases hstep with
    | attempts k hk hrun hconn => exact h.beginAttempt hrun hconn
    | takes g hconn hpend =>
      refine h.keep (fun p x hp => ?_) rfl rfl rfl rfl (fun g' hg => by cases hg)
      -- the attempt passes from the pending group to the new call
      rcases serves_enter (t := s.takePending g) rfl (.inl rfl) hp with hp | ⟨-, -, rfl⟩
      · exact ⟨p, hp⟩
      · exact ⟨none, g, hpend, rfl⟩
    | limited conn hinst | reconnects conn hinst hrun =>
      exact h.keep (fun p x hp => ⟨p, serves_enter_reconnect (s := s) rfl rfl rfl hp⟩)
        rfl rfl rfl rfl h.pending
  | stop xrayOk =>
    cases hstep
    exact h.stopClient xrayOk
  | monitor =>
    cases hstep
    exact h.keep (fun p x hp => ⟨p, (resetCount_frame s).serves hp⟩) rfl rfl rfl rfl h.pending
  | advance i ch =>
    obtain ⟨hhands, hcleans⟩ := hok
    have hcase := advance_cases (hs.calls i) hstep
    have hserves := fun p x => hcase.within.exists_serves hs.ownership (p := p) (x := x)
    cases hcase with
    | moves hmove =>
      refine h.keep hserves hmove.ctxCancelled ?_ ?_ ?_ ?_ <;> rw [hmove.globals]
      exact h.pending
    | publishes hpc hkind =>
      refine h.keep hserves rfl rfl rfl rfl fun g hg => ?_
      have hfail : (s.calls i).kind.failPC = .failed := by
        rcases hkind with hk | hk <;> rw [hk] <;> rfl
      -- the published group was made by the call itself, for its own attempt
      have horigin := hs.ownership.attempt i (atWork_of_pc hpc (by decide)).1 hfail
      rw [hs.ownership.held i g hfail hg, ← horigin]
      exact hhands (.inl ⟨hpc, hkind⟩)
    | installs hpc hmay => exact h.install hs hpc hmay (hhands (.inr ⟨hpc, hmay⟩))
    | cleans hpc => exact h.cleanup hs hpc (hcleans (.inl hpc))
    | resets hpc hkind => exact h.reset hs hpc hkind (hcleans (.inr ⟨hpc, hkind⟩))
    | stops conn hpc hkind =>
      have hstop := h.stopClient (ch != .fail)
      exact hstop.keep (fun p x hp => ⟨p, serves_of_goto_done hp⟩) rfl rfl rfl rfl hstop.pending
    | swaps conn tun hpc hkind hrun htun =>
      simp only [State.swapDialStream, hrun, htun] at hserves ⊢
      exact h.keep hserves rfl rfl rfl rfl h.pending
    | retires g hpc hold =>
      exact h.keep hserves rfl rfl rfl rfl h.pending

/-! ## After `StopClient` -/

/-- A call of `StopClient`, also one by a reconnect. -/
def Action.StopsClient (s : State) : Action → Prop
  | .stop _ => True
  | .advance i _ => (s.calls i).pc = .stopping ∧ (s.calls i).kind.reconnects = true
  | .begin _ | .monitor => False

/-- If xray is running, `xray.StopXray` reports no error. -/
def Action.XrayStops (s : State) : Action → Prop
  | .stop xrayOk => s.xrayRunning = true → xrayOk = true
  | .advance _ ch => s.xrayRunning = true → ch ≠ .fail
  | .begin _ | .monitor => True

def Action.BeginsAttempt : Action → Prop
  | .begin k => k.reconnects = false
  | .stop _ | .advance _ _ | .monitor => False

instance : (a : Action) → Decidable a.BeginsAttempt
  | .begin _ => inferInstanceAs (Decidable (_ = _))
  | .stop _ | .advance _ _ | .monitor => isFalse fun h => h

/-- Everything that the call started or took is stopped. -/
def State.Cleared (s : State) (i : Nat) : Prop :=
  (∀ g, (s.calls i).Owns i g → s.groupStopped g = true) ∧
    ((s.calls i).tunnel = true → s.tunnelStopped i = true)

/-- What a `StopClient` that led to `t` promises about a later state `u`. -/
def StopIsFinal (t u : State) : Prop :=
  u.clientRunning = false ∧ u.pendingGroup = none ∧
    ∀ i, t.Unfinished i → (t.calls i).kind.reconnects = false → ¬ u.Unfinished i → u.Cleared i

/-- No attempt is left that could come back. -/
structure Settled (s : State) : Prop where
  running : s.clientRunning = false
  pending : s.pendingGroup = none
  cancelled : ∀ p x, s.serves p x → s.ctxCancelled x = true

theorem Settled.keep (h : Settled s) (hrun : t.clientRunning = s.clientRunning)
    (hpending : Drops s.pendingGroup t.pendingGroup)
    (hserves : ∀ p x, t.serves p x → ∃ q, s.serves q x)
    (hctx : ∀ x, s.ctxCancelled x = true → t.ctxCancelled x = true) : Settled t := by
  constructor
  case running =>
    rw [hrun, h.running]
  case pending =>
    cases hg : t.pendingGroup with
    | none => rfl
    | some g =>
      have hs := hpending.some hg
      rw [h.pending] at hs
      cases hs
  case cancelled =>
    intro p x hp
    obtain ⟨q, hq⟩ := hserves p x hp
    exact hctx x (h.cancelled q x hq)

theorem Settled.frame (h : Settled s) (hf : Frame s t)
    (hrun : t.clientRunning = s.clientRunning) : Settled t :=
  h.keep hrun hf.pending (fun p _ hp => ⟨p, hf.serves hp⟩) hf.ctxs

theorem Settled.gotoDone (h : Settled s) (i : Nat) : Settled (s.goto i .done) :=
  h.keep rfl (.inr rfl) (fun p _ hp => ⟨p, serves_of_goto_done hp⟩) (fun _ hx => hx)

theorem Settled.stopClient (h : Settled s) (xrayOk : Bool) :
    Settled (s.stopClient xrayOk) := by
  apply h.frame (stopClient_frame s xrayOk)
  rcases (stopClient_spec s xrayOk).active with ⟨hs, ht, -, -⟩ | ⟨hrun, -, -⟩
  · rw [hs, ht]
  · rw [h.running] at hrun
    cases hrun

theorem Settled.not_handsOver (hs : Sound s) (h : Settled s) {ch : Choice}
    (hok : Checked s (.advance i ch)) : ¬ s.HandsOver i := by
  intro hhands
  have hcancelled := h.cancelled _ _ (hs.serves_of_handsOver hhands)
  rw [hok.1 hhands] at hcancelled
  cases hcancelled

theorem step_settled (hs : Sound s) (h : Settled s) (hok : Checked s a)
    (hno : ¬ a.BeginsAttempt) (hstep : step s a = some t) : Settled t := by
  cases a with
  | begin k =>
    cases begin_cases hstep with
    | attempts k hk hrun hconn => exact absurd (Kind.reconnects_of_failPC hk) hno
    | takes g hconn hpend => exact absurd rfl hno
    | limited conn hinst =>
      exact h.keep rfl (.inr rfl)
        (fun p x hp => ⟨p, serves_enter_reconnect (s := s) rfl rfl rfl hp⟩) (fun _ hx => hx)
    | reconnects conn hinst hrun =>
      -- below the limit only while the client is running
      rw [h.running] at hrun
      cases hrun
  | stop xrayOk =>
    cases hstep
    exact h.stopClient xrayOk
  | monitor =>
    cases hstep
    exact h.frame (resetCount_frame s) rfl
  | advance i ch =>
    have hnot := h.not_handsOver hs hok
    have hcase := advance_cases (hs.calls i) hstep
    have hserves := fun p x => hcase.within.exists_serves hs.ownership (p := p) (x := x)
    cases hcase with
    | moves hmove =>
      refine h.keep ?_ (.inr ?_) hserves ?_
      · rw [hmove.globals]
      · rw [hmove.globals]
      · rw [hmove.ctxCancelled]
        exact fun _ hx => hx
    | publishes hpc hkind => exact absurd (.inl ⟨hpc, hkind⟩) hnot
    | installs hpc hmay => exact absurd (.inr ⟨hpc, hmay⟩) hnot
    | cleans hpc => exact (h.frame (cleanup_frame s _) (by rw [cleanup_globals])).gotoDone i
    | resets hpc hkind =>
      exact (h.frame (resetConnecting_frame s) rfl).gotoDone i
    | stops conn hpc hkind => exact (h.stopClient _).gotoDone i
    | swaps conn tun hpc hkind hrun htun =>
      rw [h.running] at hrun
      cases hrun
    | retires g hpc hold => exact (h.frame (stopGroup_frame s _) rfl).gotoDone i

/-! ### The calls that were under way -/

theorem State.Cleared.of_eq (h : s.Cleared i)
    (hgroups : (t.calls i).groups = (s.calls i).groups)
    (htaken : (t.calls i).taken = (s.calls i).taken)
    (htunnel : (t.calls i).tunnel = (s.calls i).tunnel)
    (hgroup : ∀ g, s.groupStopped g = true → t.groupStopped g = true)
    (htun : s.tunnelStopped i = true → t.tunnelStopped i = true) : t.Cleared i := by
  constructor
  · intro g hg
    rw [Call.Owns, hgroups, htaken] at hg
    exact hgroup g (h.1 g hg)
  · rw [htunnel]
    exact fun hmade => htun (h.2 hmade)

theorem CallOk.cleared (h : CallOk s i)
    (hpc : (s.calls i).pc = .failed ∨ (s.calls i).pc = .stopping) : s.Cleared i := by
  have hwork : s.AtWork i := by
    rcases hpc with hpc | hpc <;> exact atWork_of_pc hpc (by decide)
  constructor
  · refine fun g hg => h.stopped_of_owns hwork ?_ hg
    rcases hpc with hpc | hpc <;> rw [hpc] <;> rfl
  · refine h.tunnelStopped hwork ?_
    rcases hpc with hpc | hpc <;> rw [hpc] <;> decide

/-- The attempt's call is still under way, or has returned with everything stopped. -/
def State.Followed (s : State) (i : Nat) : Prop :=
  i < s.nCalls ∧ (s.calls i).kind.reconnects = false ∧
    (s.Unfinished i ∨ ((s.calls i).pc = .done ∧ s.Cleared i))

theorem step_followed (hs : Sound s) (h : Settled s) (hok : Checked s a)
    (hstep : step s a = some t) (hi : s.Followed i) : t.Followed i := by
  obtain ⟨hlt, hkind, hunf⟩ := hi
  obtain ⟨hgroups, htunnels, hn⟩ := (step_cases hs.calls hstep).stays
  by_cases ha : ∃ ch, a = .advance i ch
  · obtain ⟨ch, rfl⟩ := ha
    have hnot := h.not_handsOver hs hok
    have hnotRe (conn : Nat) : (s.calls i).kind ≠ .fastReconnect conn := by
      intro hc
      rw [hc] at hkind
      cases hkind
    -- the call itself moves: it fails, or it goes on
    have hcase := advance_cases (hs.calls i) hstep
    refine ⟨Nat.lt_of_lt_of_le hlt hn, by rw [hcase.within.kind, hkind], ?_⟩
    have hfinish {u : State} (hframe : Frame s u)
        (hpc : (s.calls i).pc = .failed ∨ (s.calls i).pc = .stopping) :
        ((u.goto i .done).calls i).pc = .done ∧ (u.goto i .done).Cleared i := by
      have hcall : (u.goto i .done).calls i = { s.calls i with pc := .done } := by
        rw [State.goto, setCall_calls_self, hframe.calls]
      refine ⟨by rw [hcall], ?_⟩
      refine ((hs.calls i).cleared hpc).of_eq ?_ ?_ ?_ hframe.groups (hframe.tunnels i)
      all_goals rw [hcall]
    cases hcase with
    | moves hmove =>
      left
      intro hdone
      obtain ⟨conn, hconn⟩ := hmove.returns hdone
      exact hnotRe conn hconn
    | publishes hpc hk => exact absurd (.inl ⟨hpc, hk⟩) hnot
    | installs hpc hmay => exact absurd (.inr ⟨hpc, hmay⟩) hnot
    | cleans hpc => exact .inr (hfinish (cleanup_frame s _) (.inl hpc))
    | resets hpc hk => exact .inr (hfinish (resetConnecting_frame s) (.inr hpc))
    | stops conn hpc hk | swaps conn tun hpc hk hrun htun => exact absurd hk (hnotRe conn)
    | retires g hpc hold =>
      obtain ⟨conn, hconn⟩ := (hs.calls i).swapped hpc
      exact absurd hconn (hnotRe conn)
  · rw [not_exists] at ha
    have hcall := step_calls_of_ne hs.calls hstep hlt ha
    refine ⟨Nat.lt_of_lt_of_le hlt hn, by rw [hcall, hkind], ?_⟩
    rw [State.Unfinished, hcall]
    refine hunf.imp_right ?_
    rintro ⟨hdone, hcleared⟩
    refine ⟨hdone, ?_⟩
    exact hcleared.of_eq (by rw [hcall]) (by rw [hcall]) (by rw [hcall]) hgroups (htunnels i)

theorem tracked_of_reachable (h : Reachable Checked s) : Tracked s := by
  have hboth := h.invariant (fun s => Sound s ∧ Tracked s) ?_
    fun s a t hs hok hstep => ⟨step_sound hs.1 hstep, step_tracked hs.1 hs.2 hok hstep⟩
  · exact hboth.2
  · refine ⟨sound_init, ?_, ?_⟩
    · rintro (_ | j) x hp
      · obtain ⟨g, hg, -⟩ := hp
        cases hg
      · exact absurd rfl hp.1
    · exact fun g hg => by cases hg

theorem settled_of_stop (h : Tracked s)
    (hstop : a.StopsClient s) (hxray : a.XrayStops s) (hstep : step s a = some t) : Settled t := by
  have hstopped (xrayOk : Bool) (hx : s.xrayRunning = true → xrayOk = true) :
      Settled (s.stopClient xrayOk) := by
    obtain ⟨hpending, hcancelled⟩ := h.stopClient_cancels xrayOk
    exact ⟨(stopClient_spec s xrayOk).running hx, hpending, hcancelled⟩
  cases a with
  | stop xrayOk =>
    cases hstep
    exact hstopped xrayOk hxray
  | advance i ch =>
    obtain ⟨hpc, hk⟩ := hstop
    cases hkind : (s.calls i).kind with
    | fastReconnect conn =>
      simp only [step, State.advance, hpc, hkind, Option.some.injEq] at hstep
      subst hstep
      exact (hstopped _ fun hx => by simpa using hxray hx).gotoDone i
    | _ =>
      rw [hkind] at hk
      cases hk
  | begin k | monitor => exact hstop.elim

/-- **Cancellation is final**, if all steps meet `Checked` and xray stops. -/
theorem stopClient_final {s t u : State} {a : Action} (hs : Reachable Checked s)
    (hstop : a.StopsClient s) (hxray : a.XrayStops s) (hstep : step s a = some t)
    (hu : Reaches step (fun s a => Checked s a ∧ ¬ a.BeginsAttempt) t u) : StopIsFinal t u := by
  have hsound := sound_of_reachable hs
  have hsettled := settled_of_stop (tracked_of_reachable hs) hstop hxray hstep
  -- from the `StopClient` on: nothing comes back, and each call is followed until it returns
  have hfinal := hu.invariant
    (fun u => Sound u ∧ Settled u ∧
      ∀ i, t.Unfinished i → (t.calls i).kind.reconnects = false → u.Followed i) ?_ ?_
  · obtain ⟨-, hset, hfollowed⟩ := hfinal
    refine ⟨hset.running, hset.pending, fun i hunf hkind hret => ?_⟩
    obtain ⟨-, -, hunf' | ⟨-, hcleared⟩⟩ := hfollowed i hunf hkind
    · exact absurd hunf' hret
    · exact hcleared
  · have hsound' := step_sound hsound hstep
    refine ⟨hsound', hsettled, fun i hunf hkind => ?_⟩
    exact ⟨hsound'.ownership.lt_of_unfinished hunf, hkind, .inl hunf⟩
  · rintro s a t ⟨hs, hset, hfollowed⟩ ⟨hok, hno⟩ hstep
    exact ⟨step_sound hs hstep, step_settled hs hset hok hno hstep,
      fun i hunf hkind => step_followed hs hset hok hstep (hfollowed i hunf hkind)⟩

theorem stopClient_final_connect :
    ∃ s t u, run step {} (.begin .connectWebRTC :: List.replicate 4 (.advance 0 .ok)) = some s ∧
      s.Unfinished 0 ∧ step s (.stop true) = some t ∧
      run step t [.advance 0 .ok, .advance 0 .ok] = some u ∧ ¬ u.Unfinished 0 ∧
      StopIsFinal t u := by
  refine ⟨_, _, _, rfl, by decide, rfl, rfl, by decide, ?_⟩
  refine stopClient_final (a := .stop true)
    (reaches_of_allSteps
      (?_ : run step _ (.begin .connectWebRTC :: List.replicate 4 (.advance 0 .ok)) = _)
      (by decide))
    trivial (fun _ => rfl) rfl
    (reaches_of_allSteps (?_ : run step _ [.advance 0 .ok, .advance 0 .ok] = _) (by decide))
  · rfl
  · rfl

/-! ## What happens without the checks -/

/-- The call `i` is about to hand something over when `StopClient` runs. -/
def LateHandOver (before : List Action) (i : Nat) : Prop :=
  ∃ s t u, run step {} before = some s ∧ s.Unfinished i ∧ (s.calls i).kind.reconnects = false ∧
    step s (.stop true) = some t ∧ step t (.advance i .ok) = some u ∧ ¬ StopIsFinal t u

def connectRun : List Action := .begin .connectWebRTC :: List.replicate 6 (.advance 0 .ok)

def startTunnelRun : List Action :=
  connectRun ++ [.advance 0 .ok, .begin .startTunnel, .advance 1 .ok, .advance 1 .ok]

theorem stoppedRun_comes_back : LateHandOver connectRun 0 ∧ LateHandOver startTunnelRun 1 := by
  constructor
  · refine ⟨_, _, _, rfl, by decide, rfl, rfl, rfl, ?_⟩
    rintro ⟨-, hpending, -⟩
    cases hpending
  · refine ⟨_, _, _, rfl, by decide, rfl, rfl, rfl, ?_⟩
    rintro ⟨hrunning, -⟩
    cases hrunning

end NatProxy.Client
