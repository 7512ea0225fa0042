import NatProxy.Client.Ownership

/-!
# Whose connection a fast reconnect touches

`attemptFastReconnect` is started by an ICE failure of one connection and then runs without the
mutex for a long time. When it comes back it looks at `clientRunning` and `activeTunnel`, which may
be those of another connection by then, and every failure exit calls `StopClient`.
`reconnect_step_iff` says exactly when a step of a reconnect leaves the other connections alone
(`OwnReconnect`), and `reconnect_leaves_iff` says it of whole runs. Otherwise the reconnect stops or
takes over the next connection (`staleReconnect_interferes`).
-/

namespace NatProxy.Client

open Lib

/-- A current connection other than `conn`, and a connecting attempt, are the same after the step.
-/
structure LeavesOthers (conn : Nat) (s t : State) : Prop where
  current : ∀ b, b ≠ conn → s.activeTunnel = some b →
    t.activeTunnel = some b ∧ t.clientRunning = s.clientRunning ∧ t.activeGroup = s.activeGroup ∧
      t.dialStream b = s.dialStream b ∧ t.tunnelStopped b = s.tunnelStopped b ∧
      ∀ g, s.activeGroup = some g → t.groupStopped g = s.groupStopped g
  connecting : s.clientConnecting = true →
    t.clientConnecting = true ∧ t.clientConnectCancel = s.clientConnectCancel ∧
      t.ctxCancelled = s.ctxCancelled ∧ t.pendingGroup = s.pendingGroup ∧
      ∀ g, s.pendingGroup = some g → t.groupStopped g = s.groupStopped g

/-- What the reconnect `r` lets go of is stopped, or the active group of `conn`. -/
def HandsBack (conn r : Nat) (s t : State) : Prop :=
  s.AtWork r → ¬ t.AtWork r → ∀ g, (t.calls r).Owns r g →
    t.groupStopped g = true ∨ (t.activeGroup = some g ∧ t.activeTunnel = some conn)

/-- At its `StopClient` no attempt is connecting; at this and at the swap of the dialer the current
connection is its own. -/
def State.OwnReconnect (s : State) (r conn : Nat) : Prop :=
  ((s.calls r).pc = .stopping → s.clientConnecting = false) ∧
    ((s.calls r).pc = .stopping ∨ (s.calls r).pc = .connected →
      ∀ b, s.activeTunnel = some b → b = conn)

instance (s : State) (r conn : Nat) : Decidable (s.OwnReconnect r conn) :=
  have : Decidable (∀ b, s.activeTunnel = some b → b = conn) :=
    inferInstanceAs (Decidable (∀ b ∈ s.activeTunnel, b = conn))
  inferInstanceAs (Decidable (_ ∧ _))

/-! ## Steps that leave the others alone -/

variable {s t : State} {r conn : Nat}

theorem LocalStep.leavesOthers (hs : Sound s) (h : LocalStep s r t) : LeavesOthers conn s t := by
  have hstopped (g : GroupId) (hg : (s.calls r).group ≠ some g) :
      t.groupStopped g = s.groupStopped g := by
    apply Bool.eq_iff_iff.2
    constructor
    · exact fun hstop => (h.stops g hstop).resolve_right hg
    · exact h.stays g
  constructor
  · intro b _ hb
    -- the call that installed the current connection has returned
    have hbr : b ≠ r := by
      rintro rfl
      exact h.atWork.1 (hs.current.installed b (hs.current.running b hb).2)
    rw [h.globals]
    refine ⟨hb, rfl, rfl, h.dialStream b hbr, h.tunnels b hbr, fun g hg => hstopped g ?_⟩
    exact fun hheld => hs.placement.used g (.inl hg) (some r) hheld
  · intro hconn
    rw [h.globals]
    refine ⟨hconn, rfl, h.ctxCancelled, rfl, fun g hg => hstopped g ?_⟩
    intro hheld
    have hat := hs.placement.once none (some r) g hg hheld
    cases hat

theorem LocalStep.handsBack (hok : CallOk s r) (h : LocalStep s r t) : HandsBack conn r s t := by
  intro _ hfree g hg
  have hdone : (t.calls r).pc = .done := by
    by_contra hne
    exact hfree ⟨hne, h.keeps⟩
  exact .inl (h.released hok hdone g hg)

theorem retire_leavesOthers {g : GroupId} (hs : Sound s)
    (hpc : (s.calls r).pc = .swapped) (hold : (s.calls r).oldGroup = some g) :
    LeavesOthers conn s ((s.stopGroup (some g)).goto r .done) := by
  have hstopped (g' : GroupId) (hg' : g' ≠ g) :
      (s.stopGroup (some g)).groupStopped g' = s.groupStopped g' := by
    apply Bool.eq_iff_iff.2
    rw [stopGroup_groupStopped]
    simp [Ne.symm hg']
  constructor
  · intro b _ hb
    refine ⟨hb, rfl, rfl, rfl, rfl, fun g' hg' => hstopped g' ?_⟩
    rintro rfl
    exact hs.placement.swapped r g' hpc hold hg'
  · intro hconn
    refine ⟨hconn, rfl, rfl, rfl, fun g' hg' => hstopped g' ?_⟩
    rintro rfl
    exact hs.placement.used g' (.inr ⟨r, hold⟩) none hg'

/-! ## `StopClient` and the swap -/

theorem stop_handsBack (hok : CallOk s r) (xrayOk : Bool) (hpc : (s.calls r).pc = .stopping) :
    HandsBack conn r s ((s.stopClient xrayOk).goto r .done) := by
  intro hwork _ g hg
  have hframe := stopClient_frame s xrayOk
  rw [State.goto, setCall_calls_self, hframe.calls] at hg
  exact .inl (hframe.groups g (hok.stopped_of_owns hwork (by rw [hpc]; rfl) hg))

theorem stop_leavesOthers_iff (hs : Sound s) (xrayOk : Bool) :
    LeavesOthers conn s ((s.stopClient xrayOk).goto r .done) ↔
      s.clientConnecting = false ∧ ∀ b, s.activeTunnel = some b → b = conn := by
  have hspec := stopClient_spec s xrayOk
  constructor
  · intro h
    constructor
    · by_contra hc
      rw [Bool.not_eq_false] at hc
      have hsame := (h.connecting hc).1
      rw [show (State.goto _ r .done).clientConnecting = false from hspec.connecting] at hsame
      cases hsame
    · intro b hb
      by_contra hne
      have hsame := (h.current b hne hb).1
      rcases hspec.active with ⟨hrun, -⟩ | ⟨-, hnone, -⟩
      · rw [(hs.current.running b hb).1] at hrun
        cases hrun
      · rw [show (State.goto _ r .done).activeTunnel = none from hnone] at hsame
        cases hsame
  · rintro ⟨hidle, hown⟩
    constructor
    · exact fun b hne hb => absurd (hown b hb) hne
    · intro hc
      rw [hidle] at hc
      cases hc

theorem swap_iff {tun : Nat} (hs : Sound s) (hpc : (s.calls r).pc = .connected)
    (hkind : (s.calls r).kind = .fastReconnect conn) (hrun : s.clientRunning = true)
    (htun : s.activeTunnel = some tun) :
    (LeavesOthers conn s (s.swapDialStream r) ∧ HandsBack conn r s (s.swapDialStream r)) ↔
      tun = conn := by
  simp only [State.swapDialStream, hrun, htun]
  constructor
  · rintro ⟨h, -⟩
    by_contra hne
    -- the group of the reconnect would have to be the active one already
    have hsame := (h.current tun hne htun).2.2.1
    rcases (hs.calls r).holding (by rw [hpc]; rfl) with hx | hheld
    · rw [hkind] at hx
      cases hx
    · obtain ⟨g, hg⟩ := Option.ne_none_iff_exists'.1 hheld
      have hactive : s.activeGroup = some g := by
        rw [← hsame]
        exact hg
      exact hs.placement.used g (.inl hactive) (some r) hg
  · rintro rfl
    refine ⟨⟨fun b hne hb => ?_, fun hc => ⟨hc, rfl, rfl, rfl, fun _ _ => rfl⟩⟩, ?_⟩
    · rw [htun, Option.some.injEq] at hb
      exact absurd hb.symm hne
    · intro hwork _ g hg
      rw [show (State.setCall s r _).calls r = _ from setCall_calls_self s r _] at hg
      -- the last group is the new dialer, the ones before it are stopped
      rcases (hs.calls r).kept hwork g hg with hstop | hheld
      · exact .inl hstop
      · exact .inr ⟨hheld, htun⟩

/-! ## Every step of a reconnect -/

theorem reconnect_leaves_of_local {ch : Choice} (hs : Sound s)
    (hkind : (s.calls r).kind = .fastReconnect conn) (hstep : step s (.advance r ch) = some t)
    (hstop : (s.calls r).pc ≠ .stopping)
    (hswap : (s.calls r).pc = .connected → s.activeTunnel = none) :
    LeavesOthers conn s t ∧ HandsBack conn r s t := by
  have hok := hs.calls r
  cases advance_cases hok hstep with
  | moves hmove => exact ⟨hmove.leavesOthers hs, hmove.handsBack hok⟩
  | retires g hpc hold =>
    exact ⟨retire_leavesOthers hs hpc hold, fun hwork => absurd hpc hwork.2⟩
  | publishes hpc hk => rcases hk with hk | hk <;> rw [hk] at hkind <;> cases hkind
  | installs hpc hmay => exact absurd hkind ((hok.tunnelled hpc).2.2 conn)
  | cleans hpc =>
    have hfail := hok.failed hpc
    rw [hkind] at hfail
    cases hfail
  | resets hpc hk | stops conn' hpc hk => exact absurd hpc hstop
  | swaps conn' tun hpc hk hrun htun =>
    rw [hswap hpc] at htun
    cases htun

theorem reconnect_step_iff {ch : Choice} (hs : Sound s)
    (hkind : (s.calls r).kind = .fastReconnect conn) (hstep : step s (.advance r ch) = some t) :
    (LeavesOthers conn s t ∧ HandsBack conn r s t) ↔ s.OwnReconnect r conn := by
  -- the two steps that reach beyond the reconnect, `StopClient` and the swap, and all others
  by_cases hstop : (s.calls r).pc = .stopping
  · simp only [step, State.advance, hstop, hkind, Option.some.injEq] at hstep
    subst hstep
    rw [and_iff_left (stop_handsBack (hs.calls r) _ hstop), stop_leavesOthers_iff hs,
      State.OwnReconnect, hstop]
    simp
  · cases htun : s.activeTunnel with
    | none =>
      refine iff_of_true (reconnect_leaves_of_local hs hkind hstep hstop fun _ => htun) ?_
      rw [State.OwnReconnect, htun]
      exact ⟨fun hc => absurd hc hstop, fun _ b hb => by cases hb⟩
    | some tun =>
      by_cases hconn : (s.calls r).pc = .connected
      · have hrun := (hs.current.running tun htun).1
        simp only [step, State.advance, hconn, hkind, Option.some.injEq] at hstep
        subst hstep
        rw [swap_iff hs hconn hkind hrun htun, State.OwnReconnect, hconn, htun]
        simp
      · refine iff_of_true (reconnect_leaves_of_local hs hkind hstep hstop
          fun hc => absurd hc hconn) ?_
        exact ⟨fun hc => absurd hc hstop, fun hc => (hc.elim hstop hconn).elim⟩

/-- A reconnect leaves the other connections alone. -/
def ReconnectLeaves (s : State) : Action → Prop
  | .advance r ch => ∀ conn, (s.calls r).kind = .fastReconnect conn →
      ∀ t, step s (.advance r ch) = some t → LeavesOthers conn s t ∧ HandsBack conn r s t
  | _ => True

/-- A reconnect finds its own connection. -/
def ReconnectOwn (s : State) : Action → Prop
  | .advance r _ => ∀ conn, (s.calls r).kind = .fastReconnect conn → s.OwnReconnect r conn
  | _ => True

instance (s : State) : (a : Action) → Decidable (ReconnectOwn s a)
  | .advance r _ =>
    match h : (s.calls r).kind with
    | .fastReconnect conn =>
      decidable_of_iff (s.OwnReconnect r conn) (by simp [ReconnectOwn, h])
    | .startXray | .startWebRTC | .connectWebRTC | .manualOffer | .startTunnel =>
      isTrue (by simp [ReconnectOwn, h])
  | .begin _ | .stop _ | .monitor => isTrue trivial

/-- **When reconnects leave the other connections alone** and lose no group. -/
theorem reconnect_leaves_iff (acts : List Action) :
    AllSteps step ReconnectLeaves {} acts ↔ AllSteps step ReconnectOwn {} acts := by
  refine allSteps_congr (fun _ _ _ hs hstep => step_sound hs hstep) ?_ acts {} sound_init
  intro s a t hs hstep
  cases a with
  | advance r ch =>
    refine forall_congr' fun conn => imp_congr_right fun hkind => ?_
    rw [← reconnect_step_iff hs hkind hstep]
    constructor
    · exact fun h => h t hstep
    · intro h u hu
      rw [hstep, Option.some.injEq] at hu
      exact hu ▸ h
  | begin k | stop xrayOk | monitor => exact Iff.rfl

def reconnectRun : List Action :=
  .begin .startWebRTC :: List.replicate 8 (.advance 0 .ok) ++
    .begin (.fastReconnect 0) :: List.replicate 5 (.advance 1 .ok)

theorem reconnect_leaves_iff_own :
    ∃ t, run step {} reconnectRun = some t ∧ t.dialStream 0 = some ⟨1, 0⟩ ∧
      AllSteps step ReconnectLeaves {} reconnectRun :=
  ⟨_, rfl, rfl, (reconnect_leaves_iff reconnectRun).2 (by decide)⟩

/-! ## A stale reconnect -/

/-- The client is stopped during a reconnect, and a second connection installed. -/
def staleRun : List Action :=
  .begin .startWebRTC :: List.replicate 8 (.advance 0 .ok) ++
    [.begin (.fastReconnect 0), .stop true, .begin .startWebRTC] ++
    List.replicate 8 (.advance 2 .ok)

theorem staleReconnect_interferes :
    (∃ s t, run step {} (staleRun ++ [.advance 1 .fail]) = some s ∧ s.activeTunnel = some 2 ∧
      step s (.advance 1 .ok) = some t ∧ t.tunnelStopped 2 = true ∧ ¬ LeavesOthers 0 s t) ∧
    ∃ s t, run step {} (staleRun ++ List.replicate 4 (.advance 1 .ok)) = some s ∧
      s.activeTunnel = some 2 ∧ step s (.advance 1 .ok) = some t ∧
      t.dialStream 2 = some ⟨1, 0⟩ ∧ ¬ LeavesOthers 0 s t ∧ ¬ HandsBack 0 1 s t := by
  constructor
  · refine ⟨_, _, rfl, rfl, rfl, rfl, fun hleaves => ?_⟩
    have hsame := (hleaves.current 2 (by decide) rfl).1
    cases hsame
  · refine ⟨_, _, rfl, rfl, rfl, rfl, fun hleaves => ?_, fun hback => ?_⟩
    · have hsame := (hleaves.current 2 (by decide) rfl).2.2.1
      cases hsame
    · have hwork : ∀ s : State, (s.calls 1).pc = .connected → s.AtWork 1 := fun s hpc =>
        atWork_of_pc hpc (by decide)
      rcases hback (hwork _ rfl) (fun hc => hc.2 rfl) ⟨1, 0⟩ (.inl ⟨rfl, by decide⟩) with
        hstop | ⟨-, htun⟩
      · cases hstop
      · cases htun

end NatProxy.Client
