import NatProxy.Client.Cancellation

/-!
# Whose state the cleanup of an attempt touches

The deferred cleanups of `StartClient`, `ConnectWebRTC` and `ProcessManualOffer` reset
`clientConnecting`, call `clientConnectCancel` and stop the pending group without asking whose
these are. `cleanup_keeps_iff` says exactly when that leaves every other attempt alone. A tunnel
that is not the active one any more but still runs is the other half: `OneTunnel` holds along every
run whose steps meet `Checked`. Without these conditions a late cleanup cancels the attempt that
came after it, and two attempts install a tunnel each (`overlappingRun_interferes`).
-/

namespace NatProxy.Client

open Lib

/-- The globals of the attempt `b`, its context and its groups stay. -/
structure KeepsAttempt (b : Nat) (s t : State) : Prop where
  connecting : s.clientConnectCtx = some b → t.clientConnecting = s.clientConnecting
  ctx : s.clientConnectCtx = some b → t.clientConnectCtx = some b
  cancel : s.clientConnectCancel = some b → t.clientConnectCancel = some b
  cancelled : t.ctxCancelled b = s.ctxCancelled b
  pending : ∀ g, s.pendingGroup = some g → g.owner = b → t.pendingGroup = some g
  groups : ∀ g : GroupId, g.owner = b → t.groupStopped g = s.groupStopped g

/-- The globals are those of the attempt `i`, or clear, and the cleanup would stop no pending group.
-/
def State.OwnCleanup (s : State) (i : Nat) : Prop :=
  (s.clientConnectCtx = some i ∨ (s.clientConnecting = false ∧ s.clientConnectCancel = none)) ∧
    ((s.calls i).kind = .connectWebRTC ∨ (s.calls i).kind = .manualOffer → s.pendingGroup = none)

theorem cleanup_groupStopped (s : State) (k : Kind) (g : GroupId) :
    (s.cleanup k).groupStopped g = true ↔ s.groupStopped g = true ∨
      ((k = .connectWebRTC ∨ k = .manualOffer) ∧ s.pendingGroup = some g) := by
  have hcancel (u : State) : u.cancelConnect.groupStopped = u.groupStopped := by
    unfold State.cancelConnect
    cases u.clientConnectCancel <;> rfl
  cases k
  all_goals simp [State.cleanup, hcancel, State.stopPending, stopGroup_groupStopped]

variable {s : State} {i : Nat}

theorem Sound.serves_of_failed (hs : Sound s) (hpc : (s.calls i).pc = .failed) :
    s.serves (some i) i := by
  have hunf := (atWork_of_pc hpc (by decide)).1
  have hfail := (hs.calls i).failed hpc
  exact ⟨hunf, Kind.reconnects_of_failPC hfail, hs.ownership.attempt i hunf hfail⟩

theorem KeepsAttempt.of_ownCleanup {b : Nat} (hs : Sound s) (hb : b ≠ i)
    (hown : s.OwnCleanup i) : KeepsAttempt b s ((s.cleanup (s.calls i).kind).goto i .done) := by
  obtain ⟨hglobals, hpending⟩ := hown
  have hglob := cleanup_globals s (s.calls i).kind
  -- the cancel function in the globals is not that of `b`
  have hnotCancel : s.clientConnectCancel ≠ some b := by
    intro hc
    rcases hglobals with hctx | ⟨-, hnone⟩
    · rw [(hs.ownership.cancel b hc).2, Option.some.injEq] at hctx
      exact hb hctx
    · rw [hnone] at hc
      cases hc
  constructor
  case connecting =>
    intro hctx
    show (s.cleanup _).clientConnecting = _
    rcases hglobals with hctx' | ⟨hidle, -⟩
    · rw [hctx', Option.some.injEq] at hctx
      exact absurd hctx.symm hb
    · rw [hglob, hidle]
  case ctx =>
    intro hctx
    show (s.cleanup _).clientConnectCtx = _
    rw [hglob, hctx]
  case cancel =>
    exact fun hc => absurd hc hnotCancel
  case cancelled =>
    show (s.cleanup _).ctxCancelled b = _
    apply Bool.eq_iff_iff.2
    rw [cleanup_ctxCancelled]
    simp [hnotCancel]
  case pending =>
    intro g hg _
    show (s.cleanup _).pendingGroup = _
    have hkind : ¬ ((s.calls i).kind = .connectWebRTC ∨ (s.calls i).kind = .manualOffer) := by
      intro hk
      rw [hpending hk] at hg
      cases hg
    rw [hglob]
    simp only [if_neg hkind, hg]
  case groups =>
    intro g _
    show (s.cleanup _).groupStopped g = _
    apply Bool.eq_iff_iff.2
    rw [cleanup_groupStopped, or_iff_left_iff_imp]
    rintro ⟨hk, hg⟩
    rw [hpending hk] at hg
    cases hg

theorem ownCleanup_of_keepsAttempt (hs : Sound s) (hpc : (s.calls i).pc = .failed)
    (hkeeps : ∀ b, b ≠ i → KeepsAttempt b s ((s.cleanup (s.calls i).kind).goto i .done)) :
    s.OwnCleanup i := by
  have hglob := cleanup_globals s (s.calls i).kind
  constructor
  · by_cases hctx : s.clientConnectCtx = some i
    · exact .inl hctx
    · -- the globals are those of another attempt, or nothing has begun yet
      have hother (b : Nat) (hb : s.clientConnectCtx = some b) : b ≠ i := by
        rintro rfl
        exact hctx hb
      refine .inr ⟨?_, ?_⟩
      · by_contra hc
        rw [Bool.not_eq_false] at hc
        obtain ⟨b, hb⟩ := Option.ne_none_iff_exists'.1 (hs.ownership.connecting hc)
        have hsame := (hkeeps b (hother b hb)).connecting hb
        rw [hc, show (State.goto _ i .done).clientConnecting = false from congrArg _ hglob] at hsame
        cases hsame
      · cases hc : s.clientConnectCancel with
        | none => rfl
        | some b =>
          have hsame := (hkeeps b (hother b (hs.ownership.cancel b hc).2)).cancel hc
          rw [show (State.goto _ i .done).clientConnectCancel = none from congrArg _ hglob]
            at hsame
          cases hsame
  · intro hk
    cases hg : s.pendingGroup with
    | none => rfl
    | some g =>
      -- the pending group is not this attempt's, whose call has not returned
      have hb : g.owner ≠ i := by
        intro heq
        have hat := hs.ownership.once none (some i) i ⟨g, hg, heq⟩ (hs.serves_of_failed hpc)
        cases hat
      have hsame := (hkeeps g.owner hb).pending g hg rfl
      rw [show (State.goto _ i .done).pendingGroup = _ from congrArg _ hglob, if_pos hk] at hsame
      cases hsame

/-! ## Tunnels that nobody can stop -/

/-- An installed tunnel that runs is the active one. -/
def OneTunnel (s : State) : Prop :=
  ∀ i, (s.calls i).installed = true → s.tunnelStopped i = false → s.activeTunnel = some i

variable {t : State}

theorem OneTunnel.keep (h : OneTunnel s)
    (hinst : ∀ i, (t.calls i).installed = true → (s.calls i).installed = true)
    (htun : ∀ i, s.tunnelStopped i = true → t.tunnelStopped i = true)
    (hactive : t.activeTunnel = s.activeTunnel) : OneTunnel t := by
  intro i hi hrun
  rw [hactive]
  apply h i (hinst i hi)
  by_contra hc
  rw [Bool.not_eq_false] at hc
  rw [htun i hc] at hrun
  cases hrun

theorem OneTunnel.stopClient (hs : Sound s) (h : OneTunnel s) (xrayOk : Bool) :
    OneTunnel (s.stopClient xrayOk) := by
  intro i hi hrun
  exfalso
  have hframe := stopClient_frame s xrayOk
  rw [hframe.calls] at hi
  have hrun' : s.tunnelStopped i = false := by
    by_contra hc
    rw [Bool.not_eq_false] at hc
    rw [hframe.tunnels i hc] at hrun
    cases hrun
  -- a tunnel that still runs was the active one of a running client
  have hactive := h i hi hrun'
  rw [(stopClient_spec s xrayOk).tunnel (hs.current.running i hactive).1 i hactive] at hrun
  cases hrun

theorem installed_of_setCall {c : Call} (hc : c.installed = true → (s.calls i).installed = true)
    (j : Nat) (h : ((s.setCall i c).calls j).installed = true) : (s.calls j).installed = true := by
  by_cases hj : j = i
  · subst hj
    rw [setCall_calls_self] at h
    exact hc h
  · rw [setCall_calls_of_ne _ _ hj] at h
    exact h

theorem step_oneTunnel {a : Action} (hs : Sound s) (htr : Tracked s) (h : OneTunnel s)
    (hok : Checked s a) (hstep : step s a = some t) : OneTunnel t := by
  obtain ⟨-, htunnels, -⟩ := (step_cases hs.calls hstep).stays
  cases a with
  | begin k =>
    cases begin_cases hstep <;>
      exact h.keep (installed_of_setCall fun hc => by cases hc) htunnels rfl
  | stop xrayOk =>
    cases hstep
    exact h.stopClient hs xrayOk
  | monitor =>
    cases hstep
    exact h.keep (fun _ hi => hi) htunnels rfl
  | advance i ch =>
    cases advance_cases (hs.calls i) hstep with
    | moves hmove =>
      refine h.keep (fun j hj => ?_) htunnels (by rw [hmove.globals])
      by_cases hji : j = i
      · subst hji
        rw [← hmove.installed, hj]
      · rw [← hmove.others j hji, hj]
    | publishes hpc hkind | resets hpc hkind | retires g hpc hold =>
      exact h.keep (installed_of_setCall fun hc => hc) htunnels rfl
    | installs hpc hmay =>
      intro j hj hrun
      by_cases hji : j = i
      · rw [hji]
        rfl
      · -- an older tunnel would be the active one, and then the client would be running
        exfalso
        rw [show (s.install i).calls j = s.calls j from setCall_calls_of_ne s _ hji] at hj
        have hactive := (hs.current.running j (h j hj hrun)).1
        have hlive := htr.live _ _ (hs.serves_of_handsOver (.inr ⟨hpc, hmay⟩))
          (hok.1 (.inr ⟨hpc, hmay⟩))
        rw [hlive.2.2] at hactive
        cases hactive
    | cleans hpc =>
      refine h.keep (fun j hj => ?_) htunnels ?_
      · rw [← (cleanup_frame s (s.calls i).kind).calls]
        refine installed_of_setCall ?_ j hj
        exact fun hc => hc
      · show (s.cleanup _).activeTunnel = _
        rw [cleanup_globals]
    | stops conn hpc hkind =>
      exact (h.stopClient hs _).keep (installed_of_setCall fun hc => hc) (fun _ hj => hj) rfl
    | swaps conn tun hpc hkind hrun htun =>
      simp only [State.swapDialStream, hrun, htun] at htunnels ⊢
      exact h.keep (installed_of_setCall fun hc => hc) htunnels rfl

theorem oneTunnel_of_reachable (h : Reachable Checked s) : OneTunnel s := by
  have hall := h.invariant (fun s => Sound s ∧ Tracked s ∧ OneTunnel s) ?_ ?_
  · exact hall.2.2
  · exact ⟨sound_init, tracked_of_reachable Relation.ReflTransGen.refl, fun i hi => by cases hi⟩
  · rintro s a t ⟨hs, htr, hone⟩ hok hstep
    exact ⟨step_sound hs hstep, step_tracked hs htr hok hstep, step_oneTunnel hs htr hone hok hstep⟩

/-! ## The cleanup, and the tunnels -/

/-- A cleanup leaves the other attempts alone. -/
def CleanupKeeps (s : State) : Action → Prop
  | .advance i ch => (s.calls i).pc = .failed →
      ∀ t, step s (.advance i ch) = some t → ∀ b, b ≠ i → KeepsAttempt b s t
  | _ => True

/-- A cleanup finds the globals of its own attempt. -/
def CleanupOwn (s : State) : Action → Prop
  | .advance i _ => (s.calls i).pc = .failed → s.OwnCleanup i
  | _ => True

instance (s : State) : (a : Action) → Decidable (CleanupOwn s a)
  | .advance _ _ => inferInstanceAs (Decidable (_ → _ ∧ _))
  | .begin _ | .stop _ | .monitor => isTrue trivial

theorem cleanup_step_iff {a : Action} (hs : Sound s) (hstep : step s a = some t) :
    CleanupKeeps s a ↔ CleanupOwn s a := by
  cases a with
  | advance i ch =>
    refine imp_congr_right fun hpc => ?_
    simp only [step, State.advance, hpc, Option.some.injEq, forall_eq']
    constructor
    · exact ownCleanup_of_keepsAttempt hs hpc
    · exact fun hown b hb => KeepsAttempt.of_ownCleanup hs hb hown
  | begin k | stop xrayOk | monitor => exact Iff.rfl

/-- **When cleanups leave every other attempt alone**, and one tunnel runs. -/
theorem cleanup_keeps_iff (acts : List Action) :
    (AllSteps step CleanupKeeps {} acts ↔ AllSteps step CleanupOwn {} acts) ∧
      (AllSteps step Checked {} acts → AllStates step OneTunnel {} acts) := by
  constructor
  · exact allSteps_congr (fun _ _ _ hs hstep => step_sound hs hstep)
      (fun _ _ _ hs hstep => cleanup_step_iff hs hstep) acts {} sound_init
  · exact allStates_of_allSteps fun _ hs => oneTunnel_of_reachable hs

def soloRun : List Action :=
  [.begin .connectWebRTC, .advance 0 .fail, .advance 0 .ok, .begin .startWebRTC] ++
    List.replicate 8 (.advance 1 .ok)

theorem cleanup_keeps_iff_alone :
    ∃ t, run step {} soloRun = some t ∧ t.activeTunnel = some 1 ∧
      AllSteps step CleanupKeeps {} soloRun ∧ AllStates step OneTunnel {} soloRun := by
  obtain ⟨hkeeps, htunnels⟩ := cleanup_keeps_iff soloRun
  exact ⟨_, rfl, rfl, hkeeps.2 (by decide), htunnels (by decide)⟩

/-- A `ConnectWebRTC` is stopped, and sees it when another one has begun. -/
def overlappingRun : List Action :=
  [.begin .connectWebRTC, .advance 0 .ok, .stop true, .begin .connectWebRTC, .advance 0 .ok]

/-- An xray client is stopped when its tunnel is made; `StartClient` begins again, and both calls
install their tunnels. -/
def twoTunnelsRun : List Action :=
  .begin .startXray :: List.replicate 3 (.advance 0 .ok) ++
    [.stop true, .begin .startWebRTC, .advance 0 .ok] ++ List.replicate 8 (.advance 1 .ok)

theorem overlappingRun_interferes :
    (∃ s t, run step {} overlappingRun = some s ∧ (s.calls 0).pc = .failed ∧ s.Unfinished 1 ∧
      s.ctxCancelled 1 = false ∧ step s (.advance 0 .ok) = some t ∧ t.ctxCancelled 1 = true ∧
      ¬ KeepsAttempt 1 s t) ∧
    ∃ s, run step {} twoTunnelsRun = some s ∧ s.activeTunnel = some 1 ∧ ¬ OneTunnel s := by
  constructor
  · refine ⟨_, _, rfl, rfl, by decide, rfl, rfl, rfl, fun hkeeps => ?_⟩
    have hsame := hkeeps.connecting rfl
    cases hsame
  · refine ⟨_, rfl, rfl, fun hone => ?_⟩
    have hactive := hone 0 rfl rfl
    cases hactive

end NatProxy.Client
