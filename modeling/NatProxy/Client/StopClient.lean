import NatProxy.Client.Sections

/-!
# `StopClient` and the calls around it

`StopClient` and the deferred cleanups act on the globals and on the objects these point to; they
leave the calls and the dialers alone and only ever stop or cancel (`Frame`). `stopClient_spec` says
what `StopClient` leaves behind: no attempt is connecting, an attempt that was connecting has its
context cancelled, and unless xray refuses to stop, nothing is running. No step makes a call lose
what it owns (`step_callOk`).
-/

namespace NatProxy.Client

open Lib

/-! ## What `StopClient` and the cleanup leave alone -/

/-- A pointer is kept or cleared. -/
def Drops {α : Type} (a b : Option α) : Prop := b = none ∨ b = a

theorem Drops.some {α : Type} {a b : Option α} {x : α} (h : Drops a b) (hb : b = .some x) :
    a = .some x := by
  rcases h with h | h
  · rw [h] at hb
    cases hb
  · rw [← h, hb]

theorem Drops.trans {α : Type} {a b c : Option α} (h : Drops a b) (h' : Drops b c) : Drops a c := by
  rcases h' with h' | rfl
  · exact .inl h'
  · exact h

/-- Calls and dialers are the same; the rest is at most cleared, stopped or cancelled. -/
structure Frame (s t : State) : Prop where
  calls : t.calls = s.calls
  nCalls : t.nCalls = s.nCalls
  connectCtx : t.clientConnectCtx = s.clientConnectCtx
  connecting : t.clientConnecting = true → s.clientConnecting = true
  dialStream : t.dialStream = s.dialStream
  groups : ∀ g, s.groupStopped g = true → t.groupStopped g = true
  tunnels : ∀ i, s.tunnelStopped i = true → t.tunnelStopped i = true
  ctxs : ∀ x, s.ctxCancelled x = true → t.ctxCancelled x = true
  cancelled : ∀ x, t.ctxCancelled x = true →
    s.ctxCancelled x = true ∨ s.clientConnectCancel = some x
  cancel : Drops s.clientConnectCancel t.clientConnectCancel
  pending : Drops s.pendingGroup t.pendingGroup
  activeGroup : Drops s.activeGroup t.activeGroup

theorem Frame.refl (s : State) : Frame s s where
  calls := rfl
  nCalls := rfl
  connectCtx := rfl
  connecting h := h
  dialStream := rfl
  groups _ h := h
  tunnels _ h := h
  ctxs _ h := h
  cancelled _ h := .inl h
  cancel := .inr rfl
  pending := .inr rfl
  activeGroup := .inr rfl

variable {i : Nat} {s t : State}

theorem Frame.trans {u : State} (h : Frame s t) (h' : Frame t u) : Frame s u where
  calls := h'.calls.trans h.calls
  nCalls := h'.nCalls.trans h.nCalls
  connectCtx := h'.connectCtx.trans h.connectCtx
  connecting hc := h.connecting (h'.connecting hc)
  dialStream := h'.dialStream.trans h.dialStream
  groups g hg := h'.groups g (h.groups g hg)
  tunnels i hi := h'.tunnels i (h.tunnels i hi)
  ctxs x hx := h'.ctxs x (h.ctxs x hx)
  cancelled x hx := (h'.cancelled x hx).elim (h.cancelled x) (fun hx => .inr (h.cancel.some hx))
  cancel := h.cancel.trans h'.cancel
  pending := h.pending.trans h'.pending
  activeGroup := h.activeGroup.trans h'.activeGroup

theorem Frame.assign {u : State} (h : Frame s t)
    (hrest : u = { t with toGlobals := u.toGlobals, xrayRunning := u.xrayRunning })
    (hctx : u.clientConnectCtx = t.clientConnectCtx)
    (hconn : u.clientConnecting = false ∨ u.clientConnecting = t.clientConnecting)
    (hcancel : u.clientConnectCancel = t.clientConnectCancel)
    (hpending : Drops t.pendingGroup u.pendingGroup) (hactive : Drops t.activeGroup u.activeGroup) :
    Frame s u where
  calls := by rw [hrest]; exact h.calls
  nCalls := by rw [hrest]; exact h.nCalls
  connectCtx := hctx.trans h.connectCtx
  connecting hc := by
    rcases hconn with hfalse | hsame
    · rw [hfalse] at hc
      cases hc
    · exact h.connecting (by rw [← hsame, hc])
  dialStream := by rw [hrest]; exact h.dialStream
  groups := by rw [hrest]; exact h.groups
  tunnels := by rw [hrest]; exact h.tunnels
  ctxs := by rw [hrest]; exact h.ctxs
  cancelled := by rw [hrest]; exact h.cancelled
  cancel := by rw [hcancel]; exact h.cancel
  pending := h.pending.trans hpending
  activeGroup := h.activeGroup.trans hactive

theorem resetConnecting_frame (s : State) : Frame s { s with clientConnecting := false } :=
  (Frame.refl s).assign rfl rfl (.inl rfl) rfl (.inr rfl) (.inr rfl)

theorem resetCount_frame (s : State) : Frame s { s with reconnectCount := 0 } :=
  (Frame.refl s).assign rfl rfl (.inr rfl) rfl (.inr rfl) (.inr rfl)

theorem stopGroup_frame (s : State) (g : Option GroupId) : Frame s (s.stopGroup g) := by
  have hglob := stopGroup_toGlobals s g
  constructor
  case calls =>
    exact stopGroup_calls s g
  case nCalls =>
    exact stopGroup_nCalls s g
  case connectCtx =>
    rw [hglob]
  case connecting =>
    rw [hglob]
    exact fun hc => hc
  case dialStream =>
    exact stopGroup_dialStream s g
  case groups =>
    exact fun g' hg => (stopGroup_groupStopped s g g').2 (.inl hg)
  case tunnels =>
    exact fun i hi => by rw [stopGroup_tunnelStopped]; exact hi
  case ctxs =>
    exact fun x hx => by rw [stopGroup_ctxCancelled]; exact hx
  case cancelled =>
    exact fun x hx => .inl (by rw [stopGroup_ctxCancelled] at hx; exact hx)
  case cancel =>
    exact .inr (by rw [hglob])
  case pending =>
    exact .inr (by rw [hglob])
  case activeGroup =>
    exact .inr (by rw [hglob])

theorem stopTunnel_toGlobals (s : State) (t : Option Nat) :
    (s.stopTunnel t).toGlobals = s.toGlobals := by
  cases t <;> rfl

theorem stopTunnel_tunnelStopped (s : State) (t : Option Nat) (i : Nat) :
    (s.stopTunnel t).tunnelStopped i = true ↔ s.tunnelStopped i = true ∨ t = some i := by
  cases t with
  | none => simp [State.stopTunnel]
  | some t =>
    rw [State.stopTunnel]
    by_cases h : i = t
    · subst h
      simp
    · simp [Function.update_of_ne h, Ne.symm h]

theorem stopTunnel_frame (s : State) (t : Option Nat) : Frame s (s.stopTunnel t) := by
  cases t with
  | none => exact Frame.refl s
  | some t =>
    exact { Frame.refl s with
      tunnels := fun i hi => (stopTunnel_tunnelStopped s (some t) i).2 (.inl hi) }

theorem cancelConnect_toGlobals (s : State) :
    s.cancelConnect.toGlobals = { s.toGlobals with clientConnectCancel := none } := by
  unfold State.cancelConnect
  cases h : s.clientConnectCancel with
  | none =>
    dsimp only
    rw [← h]
  | some x => rfl

theorem cancelConnect_ctxCancelled (s : State) (x : Nat) :
    s.cancelConnect.ctxCancelled x = true ↔
      s.ctxCancelled x = true ∨ s.clientConnectCancel = some x := by
  unfold State.cancelConnect
  cases h : s.clientConnectCancel with
  | none => simp
  | some y =>
    by_cases hx : x = y
    · subst hx
      simp
    · simp [Function.update_of_ne hx, Ne.symm hx]

theorem cancelConnect_frame (s : State) : Frame s s.cancelConnect := by
  have hglob := cancelConnect_toGlobals s
  constructor
  case groups | tunnels | calls | nCalls | dialStream =>
    unfold State.cancelConnect
    cases s.clientConnectCancel <;> first | rfl | exact fun _ h => h
  · rw [hglob]
  · rw [hglob]
    exact fun hc => hc
  · exact fun x hx => (cancelConnect_ctxCancelled s x).2 (.inl hx)
  · exact fun x hx => (cancelConnect_ctxCancelled s x).1 hx
  · exact .inl (by rw [hglob])
  · exact .inr (by rw [hglob])
  · exact .inr (by rw [hglob])

theorem stopPending_frame (s : State) : Frame s s.stopPending :=
  (stopGroup_frame s s.pendingGroup).assign rfl rfl (.inr rfl) rfl (.inl rfl) (.inr rfl)

theorem cancelMidConnect_frame (s : State) : Frame s s.cancelMidConnect := by
  unfold State.cancelMidConnect
  split_ifs
  · exact ((cancelConnect_frame s).trans (stopPending_frame _)).trans (resetConnecting_frame _)
  · exact Frame.refl s

theorem stopEngine_frame (s : State) (xrayOk : Bool) : Frame s (s.stopEngine xrayOk) := by
  unfold State.stopEngine
  split
  · exact ((stopGroup_frame s _).trans (cancelConnect_frame _)).assign
      rfl rfl (.inr rfl) rfl (.inr rfl) (.inl rfl)
  · split_ifs
    · exact (Frame.refl s).assign rfl rfl (.inr rfl) rfl (.inr rfl) (.inr rfl)
    · exact (cancelConnect_frame s).assign rfl rfl (.inr rfl) rfl (.inr rfl) (.inr rfl)

theorem stopRunning_frame (s : State) (xrayOk : Bool) : Frame s (s.stopRunning xrayOk) := by
  unfold State.stopRunning
  split_ifs
  · exact Frame.refl s
  · have htun : Frame s { s.stopTunnel s.activeTunnel with activeTunnel := none } :=
      (stopTunnel_frame s s.activeTunnel).assign rfl rfl (.inr rfl) rfl (.inr rfl) (.inr rfl)
    exact htun.trans (stopEngine_frame _ xrayOk)

theorem stopClient_frame (s : State) (xrayOk : Bool) : Frame s (s.stopClient xrayOk) :=
  (cancelMidConnect_frame s).trans (stopRunning_frame _ xrayOk)

theorem cleanup_frame (s : State) (k : Kind) : Frame s (s.cleanup k) := by
  have hdefault : Frame s { s.cancelConnect with clientConnecting := false } :=
    (cancelConnect_frame s).trans (resetConnecting_frame _)
  have hpending : Frame s { s.stopPending.cancelConnect with clientConnecting := false } :=
    ((stopPending_frame s).trans (cancelConnect_frame _)).trans (resetConnecting_frame _)
  cases k with
  | connectWebRTC | manualOffer => exact hpending
  | startWebRTC | startXray | startTunnel | fastReconnect _ => exact hdefault

/-! ### The globals after `StopClient` -/

theorem cancelMidConnect_globals (s : State) :
    s.cancelMidConnect.toGlobals =
      if s.clientConnecting then
        { s.toGlobals with
          clientConnectCancel := none, pendingGroup := none, clientConnecting := false }
      else s.toGlobals := by
  unfold State.cancelMidConnect
  split_ifs with h
  · have hg : s.cancelConnect.stopPending.toGlobals =
        { s.cancelConnect.toGlobals with pendingGroup := none } := by
      rw [State.stopPending]
      dsimp only
      rw [stopGroup_toGlobals]
    dsimp only
    rw [hg, cancelConnect_toGlobals]
  · rfl

theorem stopEngine_cases (s : State) (xrayOk : Bool) :
    (s.stopEngine xrayOk).toGlobals =
        { s.toGlobals with
          activeGroup := none, clientRunning := false, reconnectCount := 0
          clientConnectCancel := none } ∨
      (s.xrayRunning = true ∧ xrayOk = false ∧ s.activeGroup = none ∧
        (s.stopEngine xrayOk).toGlobals = s.toGlobals) := by
  unfold State.stopEngine
  cases hg : s.activeGroup with
  | some g =>
    left
    dsimp only
    rw [cancelConnect_toGlobals, stopGroup_toGlobals]
  | none =>
    dsimp only
    split_ifs with hx
    · exact .inr ⟨hx.1, hx.2, rfl, rfl⟩
    · left
      rw [cancelConnect_toGlobals, ← hg]

/-- The globals are kept, cleared, or, when xray does not stop, only the tunnel is gone. -/
theorem stopRunning_cases (s : State) (xrayOk : Bool) :
    (s.clientRunning = false ∧ s.stopRunning xrayOk = s) ∨
      (s.clientRunning = true ∧
        (s.stopRunning xrayOk).toGlobals =
          { s.toGlobals with
            activeTunnel := none, activeGroup := none, clientRunning := false, reconnectCount := 0
            clientConnectCancel := none }) ∨
      (s.clientRunning = true ∧ s.xrayRunning = true ∧ xrayOk = false ∧ s.activeGroup = none ∧
        (s.stopRunning xrayOk).toGlobals = { s.toGlobals with activeTunnel := none }) := by
  cases hrun : s.clientRunning with
  | false => exact .inl ⟨rfl, if_pos hrun⟩
  | true =>
    -- the tunnel goes first, then the engine
    right
    rw [State.stopRunning, if_neg (by rw [hrun]; decide)]
    -- after the tunnel is stopped
    generalize hb : ({ s.stopTunnel s.activeTunnel with activeTunnel := none } : State) = b
    have hglob : b.toGlobals = { s.toGlobals with activeTunnel := none } := by
      rw [← hb]
      dsimp only
      rw [stopTunnel_toGlobals]
    have hxray : b.xrayRunning = s.xrayRunning := by
      rw [← hb]
      cases s.activeTunnel <;> rfl
    rcases stopEngine_cases b xrayOk with hall | ⟨hx, hxok, hgroup, hsame⟩
    · left
      refine ⟨rfl, ?_⟩
      rw [hall, hglob]
    · simp_all

theorem stopRunning_stops_tunnel (s : State) (xrayOk : Bool) (hrun : s.clientRunning = true)
    (hi : s.activeTunnel = some i) : (s.stopRunning xrayOk).tunnelStopped i = true := by
  rw [State.stopRunning, if_neg (by rw [hrun]; decide)]
  apply (stopEngine_frame _ xrayOk).tunnels
  exact (stopTunnel_tunnelStopped s _ i).2 (.inr hi)

theorem cancelMidConnect_ctxCancelled (s : State) (x : Nat) :
    s.cancelMidConnect.ctxCancelled x = true ↔ s.ctxCancelled x = true ∨
      (s.clientConnecting = true ∧ s.clientConnectCancel = some x) := by
  unfold State.cancelMidConnect
  split_ifs with h
  · rw [h]
    have hctx : s.cancelConnect.stopPending.ctxCancelled = s.cancelConnect.ctxCancelled :=
      stopGroup_ctxCancelled _ _
    simpa [hctx] using cancelConnect_ctxCancelled s x
  · simp [h]

theorem cancelMidConnect_xrayRunning (s : State) :
    s.cancelMidConnect.xrayRunning = s.xrayRunning := by
  unfold State.cancelMidConnect
  split_ifs
  · show (s.cancelConnect.stopGroup _).xrayRunning = _
    unfold State.cancelConnect
    cases s.clientConnectCancel <;> cases s.pendingGroup <;> rfl
  · rfl

structure StopSpec (s t : State) (xrayOk : Bool) : Prop where
  connecting : t.clientConnecting = false
  pending : s.clientConnecting = true → t.pendingGroup = none
  idle : s.clientConnecting = false → t.pendingGroup = s.pendingGroup
  cancels : s.clientConnecting = true → ∀ x, s.clientConnectCancel = some x →
    t.ctxCancelled x = true
  running : (s.xrayRunning = true → xrayOk = true) → t.clientRunning = false
  active : (s.clientRunning = false ∧ t.clientRunning = false ∧ t.activeTunnel = s.activeTunnel ∧
      t.activeGroup = s.activeGroup) ∨
    (s.clientRunning = true ∧ t.activeTunnel = none ∧ t.activeGroup = none)
  tunnel : s.clientRunning = true → ∀ i, s.activeTunnel = some i → t.tunnelStopped i = true

theorem stopRunning_spec (xrayOk : Bool) (hconn : s.clientConnecting = false) :
    StopSpec s (s.stopRunning xrayOk) xrayOk := by
  have hbusy {p : Prop} : s.clientConnecting = true → p := by
    rw [hconn]
    exact fun h => by cases h
  have htun := fun hrun i => stopRunning_stops_tunnel s xrayOk hrun (i := i)
  rcases stopRunning_cases s xrayOk with ⟨hrun, heq⟩ | ⟨hrun, hglob⟩ |
    ⟨hrun, hx, hxok, hgroup, hglob⟩
  · rw [heq] at htun ⊢
    exact ⟨hconn, hbusy, fun _ => rfl, hbusy, fun _ => hrun, .inl ⟨hrun, hrun, rfl, rfl⟩, htun⟩
  · refine ⟨?_, hbusy, fun _ => ?_, hbusy, fun _ => ?_, .inr ⟨hrun, ?_, ?_⟩, htun⟩
    all_goals rw [hglob]
    exact hconn
  · refine ⟨?_, hbusy, fun _ => ?_, hbusy, fun h => ?_, .inr ⟨hrun, ?_, ?_⟩, htun⟩
    · rw [hglob]
      exact hconn
    · rw [hglob]
    · rw [h hx] at hxok
      cases hxok
    · rw [hglob]
    · rw [hglob]
      exact hgroup

theorem stopClient_spec (s : State) (xrayOk : Bool) : StopSpec s (s.stopClient xrayOk) xrayOk := by
  rw [State.stopClient]
  cases hconn : s.clientConnecting with
  | false =>
    rw [State.cancelMidConnect, if_neg (by rw [hconn]; decide)]
    exact stopRunning_spec xrayOk hconn
  | true =>
    -- the attempt is cancelled, and the second half starts from there
    have hglob := cancelMidConnect_globals s
    rw [if_pos hconn] at hglob
    have hidle : s.cancelMidConnect.clientConnecting = false := by rw [hglob]
    have hrun : s.cancelMidConnect.clientRunning = s.clientRunning := by rw [hglob]
    have htun : s.cancelMidConnect.activeTunnel = s.activeTunnel := by rw [hglob]
    have hgroup : s.cancelMidConnect.activeGroup = s.activeGroup := by rw [hglob]
    have hspec := stopRunning_spec xrayOk hidle
    constructor
    · exact hspec.connecting
    · intro _
      rw [hspec.idle hidle, hglob]
    · rw [hconn]
      exact fun h => by cases h
    · intro _ x hx
      apply (stopRunning_frame _ xrayOk).ctxs
      exact (cancelMidConnect_ctxCancelled s x).2 (.inr ⟨hconn, hx⟩)
    · rw [← cancelMidConnect_xrayRunning]
      exact hspec.running
    · rw [← hrun, ← htun, ← hgroup]
      exact hspec.active
    · rw [← hrun, ← htun]
      exact hspec.tunnel

/-! ## No call loses what it owns -/

theorem CallOk.of_eq (h : CallOk s i) (hcall : t.calls i = s.calls i)
    (hgroups : ∀ g, s.groupStopped g = true → t.groupStopped g = true)
    (htun : s.tunnelStopped i = true → t.tunnelStopped i = true) : CallOk t i := by
  constructor
  all_goals simp only [State.AtWork, hcall]
  · exact h.idle
  · intro hwork g hg
    exact (h.kept hwork g hg).imp_left (hgroups g)
  · intro hwork hmade
    exact (h.tunnel hwork hmade).imp_right (Or.imp_right htun)
  · exact h.failed
  · exact h.stopping
  · exact h.tunnelled
  · exact h.limit
  · exact h.holding
  · exact h.swapped

theorem CallOk.of_free (hgroup : (s.calls i).group = none)
    (hpc : (s.calls i).pc = .done ∨
      ((s.calls i).pc = .swapped ∧ ∃ conn, (s.calls i).kind = .fastReconnect conn)) :
    CallOk s i := by
  have hfree : ¬ s.AtWork i := fun h => hpc.elim h.1 (fun hc => h.2 hc.1)
  refine CallOk.of_call rfl ?_ (fun _ => hgroup) (fun h => absurd h hfree)
    (fun h => absurd h hfree) (fun hc => ?_) (fun hc => ?_)
  · rcases hpc with hpc | ⟨hpc, -⟩ <;> rw [hpc] <;> decide
  · rcases hpc with hpc | ⟨hpc, -⟩ <;> rw [hpc] at hc <;> cases hc
  · rcases hpc with hpc | ⟨-, hconn⟩
    · rw [hpc] at hc
      exact absurd hc (by decide)
    · exact hconn

theorem CallOk.frame (h : CallOk s i) (hf : Frame s t) : CallOk t i :=
  h.of_eq (by rw [hf.calls]) hf.groups (hf.tunnels i)

theorem CallOk.finish {j : Nat} (h : ∀ k, CallOk s k)
    (hpc : (s.calls i).pc.holds = false) (hf : Frame s t) : CallOk (t.goto i .done) j := by
  by_cases hj : j = i
  · subst hj
    apply CallOk.of_free
    · rw [State.goto, setCall_calls_self, hf.calls]
      exact (h j).idle hpc
    · exact .inl (by rw [State.goto, setCall_calls_self])
  · exact ((h j).frame hf).of_eq (setCall_calls_of_ne t _ hj) (fun _ hg => hg) (fun ht => ht)

theorem CallOk.handOver {j : Nat} {c : Call} (h : ∀ k, CallOk s k)
    (hcalls : t.calls = (s.setCall i c).calls) (hgroups : t.groupStopped = s.groupStopped)
    (htun : t.tunnelStopped = s.tunnelStopped) (hgroup : c.group = none)
    (hpc : c.pc = .done ∨ (c.pc = .swapped ∧ ∃ conn, c.kind = .fastReconnect conn)) :
    CallOk t j := by
  by_cases hj : j = i
  · grind [CallOk.of_free, setCall_calls_self]
  · apply (h j).of_eq
    · rw [hcalls, setCall_calls_of_ne s _ hj]
    · exact fun _ hg => by rw [hgroups]; exact hg
    · exact fun ht => by rw [htun]; exact ht

/-! ## The first section of a call -/

/-- The first section of a call. `failPC = failed` singles out the attempts with a context of their
own. -/
inductive BeginCase (s : State) : Kind → State → Prop where
  | attempts (k : Kind) (hk : k.failPC = .failed) (hrun : s.clientRunning = false)
      (hconn : s.clientConnecting = false) : BeginCase s k (s.beginAttempt k)
  | takes (g : GroupId) (hconn : s.clientConnecting = true) (hpend : s.pendingGroup = some g) :
      BeginCase s .startTunnel (s.takePending g)
  | limited (conn : Nat) (hinst : (s.calls conn).installed = true) :
      BeginCase s (.fastReconnect conn)
        (s.enter { kind := .fastReconnect conn, pc := .limit, origin := s.nCalls })
  | reconnects (conn : Nat) (hinst : (s.calls conn).installed = true)
      (hrun : s.clientRunning = true) :
      BeginCase s (.fastReconnect conn) (s.beginReconnect conn)

theorem begin_cases {k : Kind} (h : s.begin k = some t) : BeginCase s k t := by
  have hattempt (k : Kind) (hk : k.failPC = .failed)
      (h : (if s.clientRunning = true ∨ s.clientConnecting = true then none
        else some (s.beginAttempt k)) = some t) : BeginCase s k t := by
    split_ifs at h with hbusy
    cases h
    rw [not_or, Bool.not_eq_true, Bool.not_eq_true] at hbusy
    exact .attempts k hk hbusy.1 hbusy.2
  cases k with
  | startWebRTC | startXray | connectWebRTC | manualOffer => exact hattempt _ rfl h
  | startTunnel =>
    cases hconn : s.clientConnecting with
    | false => simp [State.begin, hconn] at h
    | true =>
      cases hpend : s.pendingGroup with
      | none => simp [State.begin, hconn, hpend] at h
      | some g =>
        simp only [State.begin, hconn, hpend, Option.some.injEq] at h
        subst h
        exact .takes g hconn hpend
  | fastReconnect conn =>
    simp only [State.begin] at h
    split_ifs at h with hinst hlimit
    · cases h
      rw [not_or, Bool.not_eq_false] at hinst
      exact .limited conn hinst.1
    · cases h
      rw [not_or, Bool.not_eq_false] at hinst
      rw [not_or, Bool.not_eq_false] at hlimit
      exact .reconnects conn hinst.1 hlimit.1

theorem enter_calls_self (s : State) (c : Call) : (s.enter c).calls s.nCalls = c :=
  setCall_calls_self s s.nCalls c

theorem enter_calls_of_ne (s : State) (c : Call) {j : Nat} (h : j ≠ s.nCalls) :
    (s.enter c).calls j = s.calls j :=
  setCall_calls_of_ne s c h

theorem CallOk.enter {c : Call} (h : ∀ i, CallOk s i)
    (hcalls : t.calls = (s.enter c).calls) (hgroups : t.groupStopped = s.groupStopped)
    (htun : t.tunnelStopped = s.tunnelStopped) (hnone : c.groups = 0) (htaken : c.taken = c.group)
    (htunnel : c.tunnel = false) (hholds : c.pc.holds = c.group.isSome) (hpc : ¬ c.pc.Special)
    (hreconnect : c.pc = .limit ∨ c.pc = .swapped → ∃ conn, c.kind = .fastReconnect conn) :
    ∀ i, CallOk t i := by
  intro i
  by_cases hi : i = s.nCalls
  · subst hi
    refine CallOk.of_call (by rw [hcalls, enter_calls_self]) hpc ?_ ?_ (fun _ hmade => ?_) ?_
      hreconnect
    · rw [hholds]
      exact Option.isSome_eq_false_iff.trans Option.isNone_iff_eq_none |>.1
    · -- it has started no group yet, and holds the one it took
      rintro - g (⟨-, hlt⟩ | hg)
      · rw [hnone] at hlt
        exact absurd hlt (Nat.not_lt_zero _)
      · exact .inr (by rw [← htaken, hg])
    · rw [htunnel] at hmade
      cases hmade
    · rw [hholds]
      exact fun hc => .inr (Option.isSome_iff_ne_none.1 hc)
  · apply (h i).of_eq
    · rw [hcalls, enter_calls_of_ne s c hi]
    · rw [hgroups]
      exact fun _ hg => hg
    · rw [htun]
      exact fun ht => ht

/-! ## One step -/

theorem step_callOk {a : Action} (hs : ∀ i, CallOk s i) (h : step s a = some t) :
    ∀ i, CallOk t i := by
  cases a with
  | begin k =>
    cases begin_cases h with
    | attempts k hk hrun hconn | takes g hconn hpend | reconnects conn hinst hrun =>
      exact CallOk.enter hs rfl rfl rfl rfl rfl rfl rfl (by simp [PC.Special]) (by simp)
    | limited conn hinst =>
      exact CallOk.enter hs rfl rfl rfl rfl rfl rfl rfl (by simp [PC.Special])
        (fun _ => ⟨conn, rfl⟩)
  | stop xrayOk =>
    cases h
    exact fun i => (hs i).frame (stopClient_frame s xrayOk)
  | monitor =>
    cases h
    exact fun i => (hs i).of_eq rfl (fun _ hg => hg) (fun ht => ht)
  | advance i ch =>
    intro j
    cases advance_cases (hs i) h with
    | moves hmove =>
      -- another call only sees that more is stopped than before
      by_cases hj : j = i
      · subst hj
        exact hmove.ok (hs j)
      · exact (hs j).of_eq (hmove.others j hj) hmove.stays (hmove.tunnelStays j)
    | publishes hpc hkind | installs hpc hmay => exact CallOk.handOver hs rfl rfl rfl rfl (.inl rfl)
    | cleans hpc => exact CallOk.finish hs (by rw [hpc]; rfl) (cleanup_frame s _)
    | resets hpc hkind =>
      exact CallOk.finish hs (by rw [hpc]; rfl) (resetConnecting_frame s)
    | stops conn hpc hkind => exact CallOk.finish hs (by rw [hpc]; rfl) (stopClient_frame s _)
    | swaps conn tun hpc hkind hrun htun =>
      simp only [State.swapDialStream, hrun, htun]
      exact CallOk.handOver hs rfl rfl rfl rfl (.inr ⟨rfl, conn, hkind⟩)
    | retires g hpc hold => exact CallOk.finish hs (by rw [hpc]; rfl) (stopGroup_frame s _)

end NatProxy.Client
