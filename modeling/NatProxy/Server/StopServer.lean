import NatProxy.Server.AcceptLoop

/-!
# What `StopServer` leaves behind

After `StopServer` has returned, no group may be active or draining until a server is started again,
every group that an accept loop has made is stopped, or about to be, and a later server keeps its
own active group (`NothingLeft`).

The accept loop looks at `serverRunning` before it makes the next group, and not again before it
swaps it in. The property holds in all states of a run exactly if no loop swaps after its context
was cancelled (`nothingLeft_iff`). A server stopped in between leaves a group that nobody stops
(`stopBeforeSwap_leaves`).
-/

namespace NatProxy.Server.AcceptLoop

open Lib WebRTC.Group Function List

/-! ## Facts that hold in every run -/

/-- Whatever the loops do, only that of the running server has a context that is not cancelled. -/
structure Inv (s : State) : Prop where
  live : ∀ i, (s.loops i).live = true → s.serverRunning = true ∧ s.serverMethod = .holepunch ∧
    s.serverCancel = some i ∧ s.latest = some i ∧ s.stopReturned = false
  notRunning : s.serverRunning = false → s.stopReturned = true
  cancelled : ∀ i, s.latest = some i → (s.loops i).live = false → s.stopReturned = true
  method : s.serverRunning = true → (s.serverMethod = .holepunch ↔ s.latest ≠ none)
  prev : ∀ i, (s.loops i).prevWrtcGroup = none
  unused : ∀ i, s.started ≤ i → s.loops i = {}

theorem inv_init : Inv {} where
  live _ h := by cases h
  notRunning _ := rfl
  cancelled _ h := by cases h
  method h := by cases h
  prev _ := rfl
  unused _ _ := rfl

variable {i : Nat} {s t : State}

theorem Inv.dead (hs : Inv s) (h : s.serverRunning = false ∨ s.serverCancel ≠ some i) :
    (s.loops i).live = false := by
  rw [← Bool.not_eq_true]
  intro hlive
  obtain ⟨hrun, -, hcancel, -⟩ := hs.live i hlive
  rcases h with h | h
  · rw [hrun] at h
    cases h
  · exact h hcancel

/-- What a step of the loop `i` leaves alone. -/
structure LoopStep (s : State) (i : Nat) (t : State) : Prop where
  serverRunning : t.serverRunning = s.serverRunning
  serverMethod : t.serverMethod = s.serverMethod
  serverCancel : t.serverCancel = s.serverCancel
  latest : t.latest = s.latest
  stopReturned : t.stopReturned = s.stopReturned
  started : t.started = s.started
  running : (s.loops i).pc ≠ .done
  live : (t.loops i).live = (s.loops i).live
  prev : (t.loops i).prevWrtcGroup = (s.loops i).prevWrtcGroup
  others : ∀ j, j ≠ i → t.loops j = s.loops j

theorem loopStep_of {l : Loop} (hrun : (s.loops i).pc ≠ .done)
    (ht : t = { s with
      groups := t.groups
      activeWebRTCServerGroup := t.activeWebRTCServerGroup
      drainingWebRTCServerGroups := t.drainingWebRTCServerGroups
      loops := update s.loops i l })
    (hlive : l.live = (s.loops i).live) (hprev : l.prevWrtcGroup = (s.loops i).prevWrtcGroup) :
    LoopStep s i t := by
  have hloops : t.loops = update s.loops i l := congrArg State.loops ht
  constructor
  case serverRunning => rw [ht]
  case serverMethod => rw [ht]
  case serverCancel => rw [ht]
  case latest => rw [ht]
  case stopReturned => rw [ht]
  case started => rw [ht]
  case running => exact hrun
  case live => rw [hloops, update_self, hlive]
  case prev => rw [hloops, update_self, hprev]
  case others => exact fun j hj => by rw [hloops, update_of_ne hj]

theorem swapGroups_loopStep {n : Nat} (hpc : (s.loops i).pc = .swap n)
    (alive : List GroupId) : LoopStep s i (s.swapGroups i n alive) := by
  have hrun : (s.loops i).pc ≠ .done := hpc.trans_ne PC.noConfusion
  rw [State.swapGroups]
  split
  · exact loopStep_of hrun rfl rfl rfl
  · exact loopStep_of hrun rfl rfl rfl

variable {pion : Pion}

theorem AdvanceCase.loopStep {c : Choice}
    (h : AdvanceCase pion s i c t) : LoopStep s i t := by
  have hrun : ∀ {pc : PC}, (s.loops i).pc = pc → pc ≠ .done → (s.loops i).pc ≠ .done :=
    fun h hne => h.trans_ne hne
  cases h with
  | moves pc h => exact loopStep_of h.running rfl rfl rfl
  | rePost h | cleanup h | accept answers pc h _ | startFailed attempt h _ | started attempt h
  | noSrflx attempt h pc _ _ | posted n h | postFailed n h _ =>
    exact loopStep_of (hrun h PC.noConfusion) rfl rfl rfl
  | swap n h => exact swapGroups_loopStep h c.alive

theorem LoopStep.inv (h : LoopStep s i t) (hs : Inv s) : Inv t := by
  have hlive : ∀ j, (t.loops j).live = (s.loops j).live := by
    intro j
    by_cases hj : j = i
    · rw [hj, h.live]
    · rw [h.others j hj]
  constructor
  case live =>
    intro j hj
    rw [h.serverRunning, h.serverMethod, h.serverCancel, h.latest, h.stopReturned]
    exact hs.live j (hlive j ▸ hj)
  case notRunning =>
    rw [h.serverRunning, h.stopReturned]
    exact hs.notRunning
  case cancelled =>
    intro j hj hdead
    rw [h.stopReturned]
    exact hs.cancelled j (h.latest ▸ hj) (hlive j ▸ hdead)
  case method =>
    rw [h.serverRunning, h.serverMethod, h.latest]
    exact hs.method
  case prev =>
    intro j
    by_cases hj : j = i
    · rw [hj, h.prev, hs.prev]
    · rw [h.others j hj, hs.prev]
  case unused =>
    intro j hj
    rw [h.started] at hj
    -- a loop that takes a step has been started
    have hne : j ≠ i := by
      rintro rfl
      apply h.running
      rw [hs.unused j hj]
    rw [h.others j hne, hs.unused j hj]

theorem Inv.startHolepunch (hs : Inv s) (hrun : s.serverRunning = false) (npc : Nat) :
    Inv (s.startHolepunch npc) := by
  constructor
  case live =>
    intro j hj
    by_cases hnew : j = s.started
    · subst hnew
      exact ⟨rfl, rfl, rfl, rfl, rfl⟩
    · -- no other loop has a context that is not cancelled
      rw [startHolepunch_loops_of_ne s npc hnew, hs.dead (.inl hrun)] at hj
      cases hj
  case notRunning => exact fun h => Bool.noConfusion h
  case cancelled =>
    intro j hj hcancelled
    cases hj
    rw [startHolepunch_loops_self] at hcancelled
    cases hcancelled
  case method => exact fun _ => ⟨fun _ => Option.some_ne_none _, fun _ => rfl⟩
  case prev =>
    intro j
    by_cases hnew : j = s.started
    · rw [hnew, startHolepunch_loops_self]
    · rw [startHolepunch_loops_of_ne s npc hnew]
      exact hs.prev j
  case unused =>
    intro j hj
    have hlt : s.started < j := hj
    rw [startHolepunch_loops_of_ne s npc (Nat.ne_of_gt hlt)]
    exact hs.unused j (Nat.le_of_lt hlt)

theorem Inv.startPortMapped (hs : Inv s) (hrun : s.serverRunning = false) :
    Inv s.startPortMapped where
  live j hj := absurd ((hs.dead (.inl hrun)).symm.trans hj) Bool.false_ne_true
  notRunning h := by cases h
  cancelled j hj := by cases hj
  method _ := ⟨fun h => (by cases h), fun h => absurd rfl h⟩
  prev := hs.prev
  unused := hs.unused

theorem Inv.cancelLoop_loops (hs : Inv s) :
    ∀ j, s.cancelLoop.loops j = { s.loops j with live := false } := by
  intro j
  rw [State.cancelLoop]
  cases hcancel : s.serverCancel with
  | none =>
    show s.loops j = _
    rw [← hs.dead (.inr (by rw [hcancel]; exact nofun))]
  | some i =>
    show (s.setLoop i { s.loops i with live := false }).loops j = _
    by_cases hj : j = i
    · rw [hj, setLoop_loops_self]
    · rw [setLoop_loops_of_ne _ _ hj, ← hs.dead (.inr fun h => hj ?_)]
      exact (Option.some.inj (hcancel.symm.trans h)).symm

/-- All contexts are cancelled, a holepunch server has its groups stopped and the globals cleared;
none runs on unless xray could not be stopped. -/
structure Stops (s t : State) : Prop where
  loops : ∀ j, t.loops j = { s.loops j with live := false }
  stopReturned : t.stopReturned = true
  latest : t.latest = s.latest
  started : t.started = s.started
  method : t.serverRunning = true → s.serverRunning = true ∧ t.serverMethod = s.serverMethod
  cleared : s.serverRunning = true ∧ s.serverMethod = .holepunch →
    t.activeWebRTCServerGroup = none ∧ t.drainingWebRTCServerGroups = [] ∧
      t.groups = (s.stopGroups
        (s.activeWebRTCServerGroup.toList ++ s.drainingWebRTCServerGroups)).groups
  kept : ¬ (s.serverRunning = true ∧ s.serverMethod = .holepunch) →
    t.activeWebRTCServerGroup = s.activeWebRTCServerGroup ∧
      t.drainingWebRTCServerGroups = s.drainingWebRTCServerGroups ∧ t.groups = s.groups

theorem cancelLoop_eq (s : State) :
    s.cancelLoop = { s with loops := s.cancelLoop.loops, serverCancel := none } := by
  rw [State.cancelLoop]
  cases hcancel : s.serverCancel with
  | none =>
    show s = { s with serverCancel := none }
    rw [← hcancel]
  | some i => rfl

theorem Inv.stops (hs : Inv s) (xrayOk : Bool) : Stops s (s.stopServer xrayOk) := by
  rw [State.stopServer]
  by_cases hrun : s.serverRunning = false
  · rw [if_pos hrun]
    have hstopped : ¬ (s.serverRunning = true ∧ s.serverMethod = .holepunch) := by
      rw [hrun]
      exact fun h => Bool.noConfusion h.1
    refine ⟨fun j => ?_, rfl, rfl, rfl, fun h => ⟨h, rfl⟩, fun h => absurd h hstopped,
      fun _ => ⟨rfl, rfl, rfl⟩⟩
    show s.loops j = _
    rw [← hs.dead (.inl hrun)]
  · rw [if_neg hrun]
    have hrunning : s.serverRunning = true := by
      rw [← Bool.not_eq_false]
      exact hrun
    have hloops := hs.cancelLoop_loops
    rw [cancelLoop_eq]
    by_cases hmethod : s.serverMethod = .holepunch
    · simp only [hmethod, if_true]
      exact ⟨hloops, rfl, rfl, rfl, fun h => Bool.noConfusion h, fun _ => ⟨rfl, rfl, rfl⟩,
        fun h => absurd ⟨hrunning, hmethod⟩ h⟩
    · simp only [hmethod, if_false]
      cases xrayOk with
      | true =>
        exact ⟨hloops, rfl, rfl, rfl, fun h => Bool.noConfusion h,
          fun h => absurd h.2 hmethod, fun _ => ⟨rfl, rfl, rfl⟩⟩
      | false =>
        exact ⟨hloops, rfl, rfl, rfl, fun _ => ⟨hrunning, rfl⟩,
          fun h => absurd h.2 hmethod, fun _ => ⟨rfl, rfl, rfl⟩⟩

theorem Stops.inv (h : Stops s t) (hs : Inv s) : Inv t where
  live j hj := by
    rw [h.loops j] at hj
    cases hj
  notRunning _ := h.stopReturned
  cancelled _ _ _ := h.stopReturned
  method hrun := by
    obtain ⟨hrunning, hsame⟩ := h.method hrun
    rw [hsame, h.latest]
    exact hs.method hrunning
  prev j := by
    rw [h.loops j]
    exact hs.prev j
  unused j hj := by
    rw [h.started] at hj
    rw [h.loops j, hs.unused j hj]

theorem step_inv {a : Action} (hs : Inv s) (h : step pion s a = some t) : Inv t := by
  cases a with
  | startHolepunch npc =>
    obtain ⟨hrun, rfl⟩ := of_unless h
    exact hs.startHolepunch (Bool.eq_false_iff.2 hrun) npc
  | startPortMapped =>
    obtain ⟨hrun, rfl⟩ := of_unless h
    exact hs.startPortMapped (Bool.eq_false_iff.2 hrun)
  | stopServer xrayOk =>
    cases h
    exact (hs.stops xrayOk).inv hs
  | advance i c => exact (advance_cases pion (hs.prev i) h).loopStep.inv hs

/-! ## Nothing is left behind -/

/-- The group `⟨i, k⟩` is stopped, or will be, by `StopServer`, the draining or its loop. -/
def Kept (s : State) (i k : Nat) : Prop :=
  Stopped (s.groups ⟨i, k⟩) ∨ s.activeWebRTCServerGroup = some ⟨i, k⟩ ∨
    ⟨i, k⟩ ∈ s.drainingWebRTCServerGroups ∨ (s.loops i).pc.newGroup = some k

/-- No group is left that nobody stops. -/
structure NothingLeft (s : State) : Prop where
  /-- after `StopServer` has returned, nothing is active or draining -/
  cleared : s.stopReturned = true →
    s.activeWebRTCServerGroup = none ∧ s.drainingWebRTCServerGroups = []
  /-- every group that was made is stopped or will be -/
  kept : ∀ i k, k < (s.loops i).created → Kept s i k
  /-- what is active or draining belongs to the server that was started last -/
  own : ∀ g, s.activeWebRTCServerGroup = some g ∨ g ∈ s.drainingWebRTCServerGroups →
    s.latest = some g.owner
  /-- a running server's active group is that of its own loop -/
  current : ∀ i, (s.loops i).live = true →
    s.activeWebRTCServerGroup = some ⟨i, (s.loops i).wrtcGroup⟩

/-- A loop swaps only while its context is not cancelled. -/
def SwapsOwn (s : State) : Action → Prop
  | .advance i _ => ∀ n, (s.loops i).pc = .swap n → (s.loops i).live = true
  | .startHolepunch _ | .startPortMapped | .stopServer _ => True

theorem nothingLeft_init : NothingLeft {} where
  cleared _ := ⟨rfl, rfl⟩
  kept _ _ h := by cases h
  own _ h := by
    rcases h with h | h
    · cases h
    · cases h
  current _ h := by cases h

/-- A step of the loop `i` that leaves the globals alone, keeps stopped groups stopped, and loses
neither the group in its hand nor one that it makes. -/
theorem NothingLeft.setLoop (hs : NothingLeft s) {u : State} {l : Loop}
    (hu : u = { s with groups := u.groups })
    (hgroups : ∀ j k, k < (s.loops j).created → Stopped (s.groups ⟨j, k⟩) →
      Stopped (u.groups ⟨j, k⟩))
    (hlive : l.live = (s.loops i).live) (hwrtc : l.wrtcGroup = (s.loops i).wrtcGroup)
    (hmade : ∀ k, k < l.created → k < (s.loops i).created ∨
      Stopped (u.groups ⟨i, k⟩) ∨ l.pc.newGroup = some k)
    (hhand : ∀ k, (s.loops i).pc.newGroup = some k →
      Stopped (u.groups ⟨i, k⟩) ∨ l.pc.newGroup = some k) :
    NothingLeft (u.setLoop i l) := by
  have hactive : u.activeWebRTCServerGroup = s.activeWebRTCServerGroup := by rw [hu]
  have hdraining : u.drainingWebRTCServerGroups = s.drainingWebRTCServerGroups := by rw [hu]
  have hstopReturned : u.stopReturned = s.stopReturned := by rw [hu]
  have hlatest : u.latest = s.latest := by rw [hu]
  have hother : ∀ j, j ≠ i → (u.setLoop i l).loops j = s.loops j := by
    intro j hj
    rw [setLoop_loops_of_ne _ _ hj, hu]
  have hkept : ∀ k, Stopped (u.groups ⟨i, k⟩) ∨ l.pc.newGroup = some k →
      Kept (u.setLoop i l) i k := by
    rintro k (hstopped | hnew)
    · exact .inl hstopped
    · refine .inr (.inr (.inr ?_))
      rw [setLoop_loops_self, hnew]
  have hold : ∀ j k, k < (s.loops j).created → Kept (u.setLoop i l) j k := by
    intro j k hk
    rcases hs.kept j k hk with hstopped | hact | hdr | hnew
    · exact .inl (hgroups j k hk hstopped)
    · exact .inr (.inl (hactive.trans hact))
    · exact .inr (.inr (.inl (hdraining ▸ hdr)))
    · by_cases hj : j = i
      · subst hj
        exact hkept k (hhand k hnew)
      · refine .inr (.inr (.inr ?_))
        rw [hother j hj, hnew]
  constructor
  case cleared =>
    intro hstop
    obtain ⟨hact, hdr⟩ := hs.cleared (hstopReturned.symm.trans hstop)
    exact ⟨hactive.trans hact, hdraining.trans hdr⟩
  case kept =>
    intro j k hk
    by_cases hj : j = i
    · subst hj
      rw [setLoop_loops_self] at hk
      exact (hmade k hk).elim (hold j k) (hkept k)
    · rw [hother j hj] at hk
      exact hold j k hk
  case own =>
    exact fun g hg => hlatest.trans
      (hs.own g (hg.imp hactive.symm.trans fun hdr => hdraining ▸ hdr))
  case current =>
    intro j hj
    show u.activeWebRTCServerGroup = _
    rw [hactive]
    by_cases hji : j = i
    · subst hji
      rw [setLoop_loops_self] at hj ⊢
      rw [hwrtc]
      exact hs.current j (hlive ▸ hj)
    · rw [hother j hji] at hj ⊢
      exact hs.current j hj

theorem stopped_setGroup {f g : GroupId} {servers : ServerGroup}
    (h : f = g → Stopped (s.groups g) → Stopped servers) (hf : Stopped (s.groups f)) :
    Stopped ((s.setGroup g servers).groups f) := by
  by_cases hfg : f = g
  · subst hfg
    rw [setGroup_groups_self]
    exact h rfl hf
  · rw [setGroup_groups_of_ne _ _ hfg]
    exact hf

theorem stopped_stopGroups {gs : List GroupId} {g : GroupId}
    (h : Stopped (s.groups g) ∨ g ∈ gs) : Stopped ((s.stopGroups gs).groups g) := by
  show Stopped (if g ∈ gs then stop (s.groups g) else s.groups g)
  split
  · exact stopped_stop _
  · next hnot =>
      rcases h with h | h
      · exact h
      · exact absurd h hnot

theorem NothingLeft.cleanupDraining (hs : NothingLeft s) (alive : List GroupId) :
    NothingLeft (s.cleanupDraining alive) where
  cleared hstop := by
    obtain ⟨hactive, hdraining⟩ := hs.cleared hstop
    refine ⟨hactive, ?_⟩
    show s.drainingWebRTCServerGroups.filter (· ∈ alive) = []
    rw [hdraining]
    rfl
  kept j k hk := by
    rcases hs.kept j k hk with hstopped | hactive | hdraining | hhand
    · exact .inl (stopped_stopGroups (.inl hstopped))
    · exact .inr (.inl hactive)
    · by_cases halive : (⟨j, k⟩ : GroupId) ∈ alive
      · exact .inr (.inr (.inl (mem_filter.2 ⟨hdraining, decide_eq_true halive⟩)))
      · refine .inl (stopped_stopGroups (.inr (mem_filter.2 ⟨hdraining, ?_⟩)))
        exact decide_eq_true halive
    · exact .inr (.inr (.inr hhand))
  own g hg := hs.own g (hg.imp_right fun hdraining => (mem_filter.1 hdraining).1)
  current := hs.current

theorem AdvanceCase.nothingLeft {c : Choice} (h : AdvanceCase pion s i c t)
    (hs : NothingLeft s) (hswap : ∀ n, (s.loops i).pc ≠ .swap n) : NothingLeft t := by
  -- a place without a new group has none to lose
  have hnone : ∀ {pc : PC}, (s.loops i).pc = pc → pc.newGroup = none →
      ∀ k {P : Prop}, (s.loops i).pc.newGroup = some k → P := by
    intro pc hpc hpcnone k P hk
    rw [hpc, hpcnone] at hk
    cases hk
  -- the group that the loop makes next is none of the groups made so far
  have hfresh : ∀ {j k : Nat} {servers : ServerGroup}, k < (s.loops j).created →
      Stopped (s.groups ⟨j, k⟩) →
      Stopped ((s.setGroup ⟨i, (s.loops i).created⟩ servers).groups ⟨j, k⟩) := by
    intro j k servers hk hstopped
    refine stopped_setGroup (fun heq => ?_) hstopped
    cases heq
    exact absurd hk (Nat.lt_irrefl _)
  cases h with
  | moves pc h =>
    refine hs.setLoop rfl (fun _ _ _ h => h) rfl rfl (fun k hk => .inl hk) ?_
    intro k hk
    exact .inr (h.newGroup.trans hk)
  | rePost h | startFailed attempt h _ =>
    exact hs.setLoop rfl (fun _ _ _ h => h) rfl rfl (fun k hk => .inl hk)
      fun k => hnone h rfl k
  | cleanup h =>
    exact (hs.cleanupDraining c.alive).setLoop rfl (fun _ _ _ h => h) rfl rfl
      (fun k hk => .inl hk) fun k => hnone h rfl k
  | accept answers pc h _ =>
    refine hs.setLoop rfl (fun j k _ hstopped => ?_) rfl rfl (fun k hk => .inl hk)
      fun k => hnone h rfl k
    refine stopped_setGroup (fun _ hold => ?_) hstopped
    rw [hold.acceptAnswers]
    exact hold
  | started attempt h =>
    refine hs.setLoop rfl (fun j k hk => hfresh hk) rfl rfl (fun k hk => ?_)
      fun k => hnone h rfl k
    rcases Nat.lt_succ_iff_lt_or_eq.1 hk with hk | rfl
    · exact .inl hk
    · exact .inr (.inr rfl)
  | noSrflx attempt h pc _ _ =>
    refine hs.setLoop rfl (fun j k hk => hfresh hk) rfl rfl (fun k hk => ?_)
      fun k => hnone h rfl k
    rcases Nat.lt_succ_iff_lt_or_eq.1 hk with hk | rfl
    · exact .inl hk
    · refine .inr (.inl ?_)
      rw [setGroup_groups_self]
      exact stopped_stop _
  | posted n h =>
    refine hs.setLoop rfl (fun _ _ _ h => h) rfl rfl (fun k hk => .inl hk) ?_
    intro k hk
    rw [h] at hk
    exact .inr hk
  | postFailed n h _ =>
    refine hs.setLoop rfl (fun j k _ hstopped => ?_) rfl rfl (fun k hk => .inl hk) ?_
    · exact stopped_setGroup (fun _ _ => stopped_stop _) hstopped
    · intro k hk
      rw [h] at hk
      cases hk
      refine .inl ?_
      rw [State.stopGroup, setGroup_groups_self]
      exact stopped_stop _
  | swap n h => exact absurd h (hswap n)

theorem swapGroups_old (s : State) (i n : Nat) (alive : List GroupId) :
    (∀ g, g ∈ (s.swapGroups i n alive).drainingWebRTCServerGroups →
      g ∈ s.drainingWebRTCServerGroups ∨ g = ⟨i, (s.loops i).wrtcGroup⟩) ∧
    (∀ g, g ∈ s.drainingWebRTCServerGroups →
      g ∈ (s.swapGroups i n alive).drainingWebRTCServerGroups) ∧
    (∀ g, Stopped (s.groups g) → Stopped ((s.swapGroups i n alive).groups g)) ∧
    (⟨i, (s.loops i).wrtcGroup⟩ ∈ (s.swapGroups i n alive).drainingWebRTCServerGroups ∨
      Stopped ((s.swapGroups i n alive).groups ⟨i, (s.loops i).wrtcGroup⟩)) := by
  rw [State.swapGroups]
  split
  · refine ⟨fun g hg => ?_, fun g hg => mem_append_left _ hg, fun g hg => hg,
      .inl (mem_append_right _ mem_cons_self)⟩
    rcases mem_append.1 hg with hold | hnew
    · exact .inl hold
    · exact .inr (mem_singleton.1 hnew)
  · refine ⟨fun g hg => .inl hg, fun g hg => hg,
      fun g hg => stopped_setGroup (fun _ _ => stopped_stop _) hg, .inr ?_⟩
    show Stopped ((s.stopGroup _).groups _)
    rw [State.stopGroup, setGroup_groups_self]
    exact stopped_stop _

theorem NothingLeft.swap (hs : NothingLeft s) (hinv : Inv s) {n : Nat}
    (hpc : (s.loops i).pc = .swap n) (hlive : (s.loops i).live = true) (alive : List GroupId) :
    NothingLeft (s.swapGroups i n alive) := by
  obtain ⟨-, -, -, hlatest, hstop⟩ := hinv.live i hlive
  have hframe := swapGroups_loopStep hpc alive
  obtain ⟨hdrained, hdraining, hstopped, hold⟩ := swapGroups_old s i n alive
  constructor
  case cleared =>
    intro hreturned
    rw [hframe.stopReturned, hstop] at hreturned
    cases hreturned
  case kept =>
    intro j k hk
    have hk' : k < (s.loops j).created := by
      by_cases hj : j = i
      · rw [hj, swapGroups_loops_self] at hk
        rw [hj]
        exact hk
      · rw [hframe.others j hj] at hk
        exact hk
    rcases hs.kept j k hk' with hst | hactive | hdr | hhand
    · exact .inl (hstopped _ hst)
    · -- the group that was active is the old one
      rw [hs.current i hlive] at hactive
      cases hactive
      rcases hold with hold | hold
      · exact .inr (.inr (.inl hold))
      · exact .inl hold
    · exact .inr (.inr (.inl (hdraining _ hdr)))
    · by_cases hj : j = i
      · subst hj
        rw [hpc] at hhand
        cases hhand
        exact .inr (.inl rfl)
      · refine .inr (.inr (.inr ?_))
        rw [hframe.others j hj, hhand]
  case own =>
    rintro g (hactive | hdr)
    · cases hactive
      rw [hframe.latest, hlatest]
    · grind [hframe.latest, hs.own]
  case current =>
    intro j hj
    by_cases hji : j = i
    · rw [hji, swapGroups_loops_self]
      rfl
    · rw [hframe.others j hji] at hj
      have hother := (hinv.live j hj).2.2.2.1
      rw [hlatest] at hother
      exact absurd (Option.some.inj hother).symm hji

theorem not_nothingLeft_swap (hinv : Inv s) {n : Nat}
    (hpc : (s.loops i).pc = .swap n) (hdead : (s.loops i).live = false) (alive : List GroupId) :
    ¬ NothingLeft (s.swapGroups i n alive) := by
  intro ht
  have hframe := swapGroups_loopStep hpc alive
  have hlatest := ht.own ⟨i, n⟩ (.inl rfl)
  rw [hframe.latest] at hlatest
  have hreturned := hinv.cancelled i hlatest hdead
  rw [← hframe.stopReturned] at hreturned
  have hnone := (ht.cleared hreturned).1
  cases hnone

theorem NothingLeft.startHolepunch (hs : NothingLeft s) (hinv : Inv s)
    (hrun : s.serverRunning = false) (npc : Nat) : NothingLeft (s.startHolepunch npc) := by
  obtain ⟨hactive, hdraining⟩ := hs.cleared (hinv.notRunning hrun)
  have hgroups : ∀ g : GroupId, g.owner ≠ s.started →
      (s.startHolepunch npc).groups g = s.groups g := by
    intro g hg
    refine setGroup_groups_of_ne s _ ?_
    rintro rfl
    exact hg rfl
  constructor
  case cleared => exact fun h => Bool.noConfusion h
  case kept =>
    intro j k hk
    by_cases hj : j = s.started
    · subst hj
      rw [startHolepunch_loops_self] at hk
      have hzero : k = 0 := Nat.lt_one_iff.1 hk
      rw [hzero]
      exact .inr (.inl rfl)
    · rw [startHolepunch_loops_of_ne s npc hj] at hk
      rcases hs.kept j k hk with hst | hact | hdr | hhand
      · refine .inl ?_
        rw [hgroups ⟨j, k⟩ hj]
        exact hst
      · rw [hactive] at hact
        cases hact
      · rw [hdraining] at hdr
        cases hdr
      · refine .inr (.inr (.inr ?_))
        rw [startHolepunch_loops_of_ne s npc hj, hhand]
  case own =>
    rintro g (hact | hdr)
    · cases hact
      rfl
    · have hdr' : g ∈ s.drainingWebRTCServerGroups := hdr
      rw [hdraining] at hdr'
      cases hdr'
  case current =>
    intro j hj
    by_cases hnew : j = s.started
    · rw [hnew, startHolepunch_loops_self]
      rfl
    · rw [startHolepunch_loops_of_ne s npc hnew, hinv.dead (.inl hrun)] at hj
      cases hj

theorem NothingLeft.startPortMapped (hs : NothingLeft s) (hinv : Inv s)
    (hrun : s.serverRunning = false) : NothingLeft s.startPortMapped := by
  obtain ⟨hactive, hdraining⟩ := hs.cleared (hinv.notRunning hrun)
  constructor
  case cleared => exact fun h => Bool.noConfusion h
  case kept => exact hs.kept
  case own =>
    rintro g (hact | hdr)
    · have hact' : s.activeWebRTCServerGroup = some g := hact
      rw [hactive] at hact'
      cases hact'
    · have hdr' : g ∈ s.drainingWebRTCServerGroups := hdr
      rw [hdraining] at hdr'
      cases hdr'
  case current => exact hs.current

theorem NothingLeft.stops (hs : NothingLeft s) (hinv : Inv s) (h : Stops s t) :
    NothingLeft t := by
  have hloops : ∀ j, (t.loops j).created = (s.loops j).created ∧
      (t.loops j).pc = (s.loops j).pc := by
    intro j
    rw [h.loops j]
    exact ⟨rfl, rfl⟩
  have hempty : t.activeWebRTCServerGroup = none ∧ t.drainingWebRTCServerGroups = [] := by
    by_cases hpunch : s.serverRunning = true ∧ s.serverMethod = .holepunch
    · obtain ⟨hactive, hdraining, -⟩ := h.cleared hpunch
      exact ⟨hactive, hdraining⟩
    · obtain ⟨hactive, hdraining, -⟩ := h.kept hpunch
      rw [hactive, hdraining]
      cases hrun : s.serverRunning with
      | false => exact hs.cleared (hinv.notRunning hrun)
      | true =>
        -- a server with a port mapping has no loop, so that nothing can be its own
        have hnone : s.latest = none := by
          by_contra hlatest
          exact hpunch ⟨hrun, (hinv.method hrun).2 hlatest⟩
        have hown : ∀ g, ¬ (s.activeWebRTCServerGroup = some g ∨
            g ∈ s.drainingWebRTCServerGroups) := by
          intro g hg
          have hlatest := hs.own g hg
          rw [hnone] at hlatest
          cases hlatest
        refine ⟨?_, eq_nil_iff_forall_not_mem.2 fun g hg => hown g (.inr hg)⟩
        cases hact : s.activeWebRTCServerGroup with
        | none => rfl
        | some g => exact absurd (.inl hact) (hown g)
  constructor
  case cleared => exact fun _ => hempty
  case kept =>
    intro j k hk
    rw [(hloops j).1] at hk
    by_cases hpunch : s.serverRunning = true ∧ s.serverMethod = .holepunch
    · obtain ⟨-, -, hgroups⟩ := h.cleared hpunch
      rw [Kept, hgroups]
      rcases hs.kept j k hk with hst | hact | hdr | hhand
      · exact .inl (stopped_stopGroups (.inl hst))
      · refine .inl (stopped_stopGroups (.inr (mem_append_left _ ?_)))
        rw [hact]
        exact mem_cons_self
      · exact .inl (stopped_stopGroups (.inr (mem_append_right _ hdr)))
      · refine .inr (.inr (.inr ?_))
        rw [(hloops j).2, hhand]
    · obtain ⟨hactive, hdraining, hgroups⟩ := h.kept hpunch
      rw [Kept, hactive, hdraining, hgroups, (hloops j).2]
      exact hs.kept j k hk
  case own =>
    rw [hempty.1, hempty.2]
    rintro g (hact | hdr)
    · cases hact
    · cases hdr
  case current =>
    intro j hj
    rw [h.loops j] at hj
    cases hj

/-- **One step** keeps it exactly if it is no swap by a loop with a cancelled context. -/
theorem step_nothingLeft_iff {a : Action} (hinv : Inv s) (hs : NothingLeft s)
    (h : step pion s a = some t) : NothingLeft t ↔ SwapsOwn s a := by
  cases a with
  | startHolepunch npc =>
    obtain ⟨hrun, rfl⟩ := of_unless h
    exact iff_of_true (hs.startHolepunch hinv (Bool.eq_false_iff.2 hrun) npc) trivial
  | startPortMapped =>
    obtain ⟨hrun, rfl⟩ := of_unless h
    exact iff_of_true (hs.startPortMapped hinv (Bool.eq_false_iff.2 hrun)) trivial
  | stopServer xrayOk =>
    cases h
    exact iff_of_true (hs.stops hinv (hinv.stops xrayOk)) trivial
  | advance i c =>
    by_cases hswap : ∃ n, (s.loops i).pc = .swap n
    · obtain ⟨n, hn⟩ := hswap
      have ht : t = s.swapGroups i n c.alive := by
        rw [step, State.advance, hn] at h
        exact (Option.some.inj h).symm
      rw [ht]
      cases hlive : (s.loops i).live with
      | true => exact iff_of_true (hs.swap hinv hn hlive c.alive) fun _ _ => hlive
      | false =>
        refine iff_of_false (not_nothingLeft_swap hinv hn hlive c.alive) fun hok => ?_
        exact Bool.false_ne_true (hlive.symm.trans (hok n hn))
    · have hnot : ∀ n, (s.loops i).pc ≠ .swap n := fun n hn => hswap ⟨n, hn⟩
      exact iff_of_true ((advance_cases pion (hinv.prev i) h).nothingLeft hs hnot)
        fun n hn => absurd hn (hnot n)

/-- **When nothing is left behind**: no loop swaps after its context was cancelled. -/
theorem nothingLeft_iff (pion : Pion) (acts : List Action) :
    AllStates (step pion) NothingLeft {} acts ↔ AllSteps (step pion) SwapsOwn {} acts :=
  allStates_iff_allSteps (fun _ _ _ hs h => step_inv hs h)
    (fun _ _ _ hinv hs h => step_nothingLeft_iff hinv hs h) acts {} inv_init nothingLeft_init

def connectedRun : List Action :=
  [.startHolepunch 1, .advance 0 {}, .advance 0 {}, .advance 0 { answers := [demoAnswer] },
    .advance 0 {}, .advance 0 {}, .advance 0 {}, .advance 0 {}]

def swapRun : List Action :=
  [.advance 0 {}, .advance 0 {}, .advance 0 {}, .advance 0 {}, .advance 0 {}, .advance 0 {}]

theorem stopBeforeSwap_leaves :
    (run (step demoPion) {} (connectedRun ++ [.stopServer true] ++ swapRun)).map
        (fun t => (t.serverRunning, t.activeWebRTCServerGroup,
          decide (Stopped (t.groups ⟨0, 1⟩)), (t.loops 0).pc)) =
      some (false, some ⟨0, 1⟩, false, .done) ∧
    (run (step demoPion) {}
        (connectedRun ++ [.stopServer true, .startHolepunch 1] ++ swapRun)).map
        (fun t => (t.latest, t.activeWebRTCServerGroup)) = some (some 1, some ⟨0, 1⟩) ∧
    (run (step demoPion) {} (connectedRun ++ [.stopServer true, .startHolepunch 1] ++ swapRun ++
        [.stopServer true])).map
        (fun t => (t.activeWebRTCServerGroup, decide (Stopped (t.groups ⟨1, 0⟩)))) =
      some (none, false) := by
  decide

end NatProxy.Server.AcceptLoop
