import NatProxy.Server.StopServer

/-!
# The group that waits for clients

Each time the accept loop waits for answers while its server is running, its group should be fresh,
not stopped and without any answer, and the offers last posted should be those of the group
(`WaitsFresh`).

A group that was answered is replaced before the next wait, but the loop goes back to the wait with
the old one if making the new group or posting its offers fails, and also after a list of answers
that is refused when one of them is set already. Without these three failures the group is fresh at
every wait (`waits_with_freshGroup`); `transientFailure_sticks` shows what each of them leaves.
-/

namespace NatProxy.Server.AcceptLoop

open Lib WebRTC.Group

variable {pion : Pion}

/-! ## Where the groups are -/

/-- The group that the loop `i` waits with, the new one in hand and the draining ones are all
different. -/
structure LoopPlaced (draining : List GroupId) (i : Nat) (l : Loop) : Prop where
  draining : ∀ n, ⟨i, n⟩ ∈ draining →
    n < l.created ∧ n ≠ l.wrtcGroup ∧ l.pc.newGroup ≠ some n
  inHand : ∀ n, l.pc.newGroup = some n → n < l.created ∧ n ≠ l.wrtcGroup
  wrtcGroup : l.pc ≠ .done → l.wrtcGroup < l.created

def Placed (s : State) : Prop := ∀ i, LoopPlaced s.drainingWebRTCServerGroups i (s.loops i)

theorem placed_init : Placed {} := fun _ =>
  ⟨fun _ h => (by cases h), fun _ h => (by cases h), fun h => absurd rfl h⟩

variable {c : Choice} {i : Nat} {s t : State}

theorem Placed.setLoop {u : State} {l : Loop} (hs : Placed s)
    (hu : u = { s with groups := u.groups }) (hrun : (s.loops i).pc ≠ .done)
    (hwrtc : l.wrtcGroup = (s.loops i).wrtcGroup) (hcreated : (s.loops i).created ≤ l.created)
    (hhand : ∀ n, l.pc.newGroup = some n → (s.loops i).pc.newGroup = some n ∨
      (s.loops i).created ≤ n ∧ n < l.created) :
    Placed (u.setLoop i l) := by
  have hsame : (u.setLoop i l).drainingWebRTCServerGroups = s.drainingWebRTCServerGroups := by
    rw [hu]
    rfl
  intro j
  rw [hsame]
  by_cases hj : j = i
  · subst hj
    rw [setLoop_loops_self]
    have hold := (hs j).wrtcGroup hrun
    constructor
    case draining =>
      intro n hn
      obtain ⟨hlt, hne, hnot⟩ := (hs j).draining n hn
      refine ⟨Nat.lt_of_lt_of_le hlt hcreated, by rw [hwrtc]; exact hne, fun hnew => ?_⟩
      rcases hhand n hnew with hnew | ⟨hge, -⟩
      · exact hnot hnew
      · omega
    case inHand =>
      intro n hn
      rw [hwrtc]
      rcases hhand n hn with hn | ⟨hge, hlt⟩
      · obtain ⟨hlt, hne⟩ := (hs j).inHand n hn
        exact ⟨Nat.lt_of_lt_of_le hlt hcreated, hne⟩
      · exact ⟨hlt, by omega⟩
    case wrtcGroup =>
      rw [hwrtc]
      exact fun _ => Nat.lt_of_lt_of_le hold hcreated
  · rw [setLoop_loops_of_ne _ _ hj, hu]
    exact hs j

theorem Placed.cleanupDraining (hs : Placed s) (alive : List GroupId) :
    Placed (s.cleanupDraining alive) := fun i =>
  { hs i with draining := fun n hn => (hs i).draining n (List.mem_filter.1 hn).1 }

theorem Placed.swap (hs : Placed s) {n : Nat} (hpc : (s.loops i).pc = .swap n)
    (alive : List GroupId) : Placed (s.swapGroups i n alive) := by
  have hframe := swapGroups_loopStep hpc alive
  obtain ⟨hdrained, -, -, -⟩ := swapGroups_old s i n alive
  have hnew : (s.loops i).pc.newGroup = some n := by rw [hpc]; rfl
  obtain ⟨hlt, hne⟩ := (hs i).inHand n hnew
  intro j
  by_cases hj : j = i
  · subst hj
    rw [swapGroups_loops_self]
    refine ⟨fun m hm => ?_, fun m hm => (by cases hm), fun _ => hlt⟩
    rcases hdrained _ hm with hm | hm
    · obtain ⟨hmlt, -, hnot⟩ := (hs j).draining m hm
      refine ⟨hmlt, fun heq => hnot ?_, fun h => (by cases h)⟩
      rw [hnew, heq]
    · -- the old group
      cases hm
      exact ⟨(hs j).wrtcGroup hframe.running, fun h => hne h.symm, fun h => (by cases h)⟩
  · rw [hframe.others j hj]
    refine { hs j with draining := fun m hm => (hs j).draining m ?_ }
    rcases hdrained _ hm with hm | hm
    · exact hm
    · exact absurd (congrArg GroupId.owner hm) hj

theorem AdvanceCase.placed (h : AdvanceCase pion s i c t)
    (hs : Placed s) : Placed t := by
  have hrun := h.loopStep.running
  cases h with
  | moves pc h =>
    refine hs.setLoop rfl hrun rfl (Nat.le_refl _) fun n hn => .inl ?_
    exact h.newGroup.symm.trans hn
  | rePost h => exact hs.setLoop rfl hrun rfl (Nat.le_refl _) fun n hn => (by cases hn)
  | cleanup h =>
    exact (hs.cleanupDraining c.alive).setLoop rfl hrun rfl (Nat.le_refl _)
      fun n hn => (by cases hn)
  | accept answers pc h hpc =>
    refine hs.setLoop rfl hrun rfl (Nat.le_refl _) fun n hn => ?_
    rw [hpc] at hn
    split at hn
    · cases hn
    · cases hn
  | startFailed attempt h _ | postFailed n h _ =>
    exact hs.setLoop rfl hrun rfl (Nat.le_refl _) fun n hn => (by cases hn)
  | started attempt h =>
    refine hs.setLoop rfl hrun rfl (Nat.le_succ _) fun n hn => .inr ?_
    cases hn
    exact ⟨Nat.le_refl _, Nat.lt_succ_self _⟩
  | noSrflx attempt h pc hpc _ =>
    refine hs.setLoop rfl hrun rfl (Nat.le_succ _) fun n hn => ?_
    rw [hpc] at hn
    split at hn
    · cases hn
    · cases hn
  | posted n h =>
    refine hs.setLoop rfl hrun rfl (Nat.le_refl _) fun m hm => .inl ?_
    rw [h]
    exact hm
  | swap n h => exact hs.swap h c.alive

theorem Placed.startHolepunch (hs : Placed s) (hinv : Inv s) (npc : Nat) :
    Placed (s.startHolepunch npc) := by
  intro j
  by_cases hj : j = s.started
  · subst hj
    rw [startHolepunch_loops_self]
    refine ⟨fun n hn => ?_, fun n hn => (by cases hn), fun _ => Nat.zero_lt_one⟩
    -- a loop that was never started has no groups
    have hlt := ((hs s.started).draining n hn).1
    rw [hinv.unused _ (Nat.le_refl _)] at hlt
    exact absurd hlt (Nat.not_lt_zero _)
  · rw [startHolepunch_loops_of_ne s npc hj]
    exact hs j

theorem Placed.stops (hs : Placed s) (h : Stops s t) : Placed t := by
  have hdraining : ∀ g ∈ t.drainingWebRTCServerGroups, g ∈ s.drainingWebRTCServerGroups := by
    intro g hg
    by_cases hpunch : s.serverRunning = true ∧ s.serverMethod = .holepunch
    · rw [(h.cleared hpunch).2.1] at hg
      cases hg
    · rw [(h.kept hpunch).2.1] at hg
      exact hg
  intro i
  rw [h.loops]
  obtain ⟨hdrains, hhand, hwrtc⟩ := hs i
  exact ⟨fun n hn => hdrains n (hdraining _ hn), hhand, hwrtc⟩

/-! ## The groups of a running server -/

/-- The group of a running server that waits for a client is fresh and posted, and so is the new
group in hand. -/
structure LoopFresh (s : State) (i : Nat) : Prop where
  ready : (s.loops i).pc.ready = true → Fresh (s.groups ⟨i, (s.loops i).wrtcGroup⟩) ∧
    (s.loops i).posted = (s.loops i).wrtcGroup ∧
    (s.loops i).currentOffers = (s.loops i).wrtcGroup
  inHand : ∀ n, (s.loops i).pc.newGroup = some n → Fresh (s.groups ⟨i, n⟩)
  swap : ∀ n, (s.loops i).pc = .swap n → (s.loops i).posted = n ∧ (s.loops i).currentOffers = n

/-- The step is no failure after which the loop waits again with a group that is not fresh. -/
def PC.Recovers (pion : Pion) (servers : ServerGroup) (c : Choice) : PC → Prop
  | .acceptAnswers answers => answers.length ≠ servers.length ∨
      AllAccepted pion servers answers ∨ FirstRefused pion servers answers
  | .startServerGroup attempt => c.ok = true ∧ (c.srflx = true ∨ attempt < stunRetryMax)
  | .postSDPOffers _ => c.ok = true
  | .head | .checkRunning | .waitAnswers | .noClient | .rePost | .cleanup | .received _ => True
  | .waitConnected _ _ | .prep | .clearAnswers _ | .swap _ | .done => True

instance (pion : Pion) (servers : ServerGroup) (c : Choice) :
    (pc : PC) → Decidable (pc.Recovers pion servers c)
  | .acceptAnswers _ => inferInstanceAs (Decidable (_ ∨ _ ∨ _))
  | .startServerGroup _ => inferInstanceAs (Decidable (_ ∧ _))
  | .postSDPOffers _ => inferInstanceAs (Decidable (_ = _))
  | .head | .checkRunning | .waitAnswers | .noClient | .rePost | .cleanup => isTrue trivial
  | .received _ | .waitConnected _ _ | .prep | .clearAnswers _ | .swap _ | .done => isTrue trivial

/-- The loops of running servers meet none of these failures. -/
def Recovers (pion : Pion) (s : State) : Action → Prop
  | .advance i c => (s.loops i).live = true →
      (s.loops i).pc.Recovers pion (s.groups ⟨i, (s.loops i).wrtcGroup⟩) c
  | .startHolepunch _ | .startPortMapped | .stopServer _ => True

instance (pion : Pion) (s : State) : (a : Action) → Decidable (Recovers pion s a)
  | .advance _ _ => inferInstanceAs (Decidable (_ → _))
  | .startHolepunch _ | .startPortMapped | .stopServer _ => isTrue trivial

theorem AdvanceCase.groups_of_ne
    (h : AdvanceCase pion s i c t) {g : GroupId} (hne : g.owner ≠ i)
    (hdraining : g ∉ s.drainingWebRTCServerGroups) : t.groups g = s.groups g := by
  have hset : ∀ {k : Nat} {servers : ServerGroup},
      (s.setGroup ⟨i, k⟩ servers).groups g = s.groups g := by
    intro k servers
    refine setGroup_groups_of_ne s servers ?_
    rintro rfl
    exact hne rfl
  cases h with
  | moves pc h | rePost h | startFailed attempt h _ | posted n h => rfl
  | cleanup h =>
    refine if_neg fun hmem => hdraining ?_
    exact (List.mem_filter.1 hmem).1
  | accept answers pc h _ | started attempt h | noSrflx attempt h pc _ _ | postFailed n h _ =>
    exact hset
  | swap n h =>
    rw [State.swapGroups]
    split
    · rfl
    · exact hset

theorem LoopFresh.of_other {j : Nat} (hj : LoopFresh s j)
    (h : AdvanceCase pion s i c t) (hplaced : Placed s) (hne : j ≠ i) : LoopFresh t j := by
  have hloop := h.loopStep.others j hne
  have hgroup : ∀ k, k = (s.loops j).wrtcGroup ∨ (s.loops j).pc.newGroup = some k →
      t.groups ⟨j, k⟩ = s.groups ⟨j, k⟩ := by
    intro k hk
    refine h.groups_of_ne hne fun hmem => ?_
    obtain ⟨-, hnot, hnothand⟩ := (hplaced j).draining k hmem
    rcases hk with hk | hk
    · exact hnot hk
    · exact hnothand hk
  constructor
  case ready =>
    rw [hloop, hgroup _ (.inl rfl)]
    exact hj.ready
  case inHand =>
    intro n hn
    rw [hloop] at hn
    rw [hgroup n (.inr hn)]
    exact hj.inHand n hn
  case swap =>
    rw [hloop]
    exact hj.swap

theorem loopFresh_of_loop {l : Loop} (hl : t.loops i = l)
    (hready : l.pc.ready = true → Fresh (t.groups ⟨i, l.wrtcGroup⟩) ∧ l.posted = l.wrtcGroup ∧
      l.currentOffers = l.wrtcGroup)
    (hhand : ∀ n, l.pc.newGroup = some n → Fresh (t.groups ⟨i, n⟩))
    (hswap : ∀ n, l.pc = .swap n → l.posted = n ∧ l.currentOffers = n) : LoopFresh t i := by
  subst hl
  exact ⟨hready, hhand, hswap⟩

theorem loopFresh_of_none {l : Loop} (hl : t.loops i = l) (hnone : l.pc.newGroup = none)
    (hready : l.pc.ready = true → Fresh (t.groups ⟨i, l.wrtcGroup⟩) ∧ l.posted = l.wrtcGroup ∧
      l.currentOffers = l.wrtcGroup) : LoopFresh t i := by
  refine loopFresh_of_loop hl hready (fun n hn => ?_) fun n hn => ?_
  · rw [hnone] at hn
    cases hn
  · rw [hn] at hnone
    cases hnone

theorem Placed.cleanup_group (hs : Placed s) (i : Nat) (alive : List GroupId) :
    (s.cleanupDraining alive).groups ⟨i, (s.loops i).wrtcGroup⟩ =
      s.groups ⟨i, (s.loops i).wrtcGroup⟩ := by
  refine if_neg fun hmem => ?_
  exact ((hs i).draining _ (List.mem_filter.1 hmem).1).2.1 rfl

theorem Placed.swap_group (hs : Placed s) {n : Nat}
    (hnew : (s.loops i).pc.newGroup = some n) (alive : List GroupId) :
    (s.swapGroups i n alive).groups ⟨i, n⟩ = s.groups ⟨i, n⟩ := by
  rw [State.swapGroups]
  split
  · rfl
  · refine setGroup_groups_of_ne s _ fun heq => ((hs i).inHand n hnew).2 ?_
    exact congrArg GroupId.index heq

theorem LoopFresh.swapGroups {n : Nat} (hi : LoopFresh s i) (hplaced : Placed s)
    (h : (s.loops i).pc = .swap n) (alive : List GroupId) :
    LoopFresh (s.swapGroups i n alive) i := by
  have hnew : (s.loops i).pc.newGroup = some n := by rw [h]; rfl
  refine loopFresh_of_none (swapGroups_loops_self ..) rfl fun _ => ⟨?_, hi.swap n h⟩
  rw [hplaced.swap_group hnew]
  exact hi.inHand n hnew

/-- **A step of the loop of a running server**, if it is none of the failures. -/
theorem LoopFresh.advance (hi : LoopFresh s i)
    (h : AdvanceCase pion s i c t) (hplaced : Placed s) (hlive : (s.loops i).live = true)
    (hok : Recovers pion s (.advance i c)) : LoopFresh t i := by
  have hok' := hok hlive
  cases h with
  | moves pc h =>
    refine loopFresh_of_loop (setLoop_loops_self ..) (fun hready => hi.ready (h.ready hready))
      (fun n hn => ?_) fun n hn => absurd hn (h.noSwap n).2
    exact hi.inHand n (h.newGroup.symm.trans hn)
  | rePost h =>
    obtain ⟨hfresh, hposted, hoffers⟩ := hi.ready (by rw [h]; rfl)
    refine loopFresh_of_none (setLoop_loops_self ..) rfl fun _ => ⟨hfresh, ?_, hoffers⟩
    show (if c.ok = true then (s.loops i).currentOffers else (s.loops i).posted) = _
    split
    · exact hoffers
    · exact hposted
  | cleanup h =>
    obtain ⟨hfresh, hposted⟩ := hi.ready (by rw [h]; rfl)
    refine loopFresh_of_none (setLoop_loops_self ..) rfl fun _ => ⟨?_, hposted⟩
    show Fresh ((s.cleanupDraining c.alive).groups ⟨i, (s.loops i).wrtcGroup⟩)
    rw [hplaced.cleanup_group]
    exact hfresh
  | accept answers pc h hpc =>
    obtain ⟨hfresh, hposted⟩ := hi.ready (by rw [h]; rfl)
    rw [h] at hok'
    have hunchanged := (unchanged_of_error_iff pion _ answers).2 hok'
    have hnone : pc.newGroup = none := by
      rw [hpc]
      split
      · rfl
      · rfl
    refine loopFresh_of_none (setLoop_loops_self ..) hnone fun hready => ⟨?_, hposted⟩
    show Fresh ((s.setGroup _ _).groups ⟨i, (s.loops i).wrtcGroup⟩)
    rw [setGroup_groups_self]
    -- only after an error does the loop go back to the wait
    split at hpc
    · next herr =>
        rw [← hunchanged (Option.isSome_iff_ne_none.1 herr)] at hfresh
        exact hfresh
    · rw [hpc] at hready
      cases hready
  | startFailed attempt h hc =>
    rw [h] at hok'
    have htrue : c.ok = true := hok'.1
    rw [hc] at htrue
    cases htrue
  | started attempt h =>
    refine loopFresh_of_loop (setLoop_loops_self ..) (fun hready => by cases hready)
      (fun n hn => ?_) fun n hn => by cases hn
    cases hn
    show Fresh ((s.setGroup _ _).groups _)
    rw [setGroup_groups_self]
    exact fresh_startServerGroup _
  | noSrflx attempt h pc hpc hc =>
    rw [h] at hok'
    have hretry : attempt < stunRetryMax := by
      rcases hok'.2 with hsrflx | hretry
      · rw [hc] at hsrflx
        cases hsrflx
      · exact hretry
    rw [if_pos hretry] at hpc
    subst hpc
    exact loopFresh_of_none (setLoop_loops_self ..) rfl fun hready => (by cases hready)
  | posted n h =>
    refine loopFresh_of_loop (setLoop_loops_self ..) (fun hready => by cases hready)
      (fun m hm => ?_) fun m hm => ?_
    · cases hm
      exact hi.inHand n (by rw [h]; rfl)
    · cases hm
      exact ⟨rfl, rfl⟩
  | postFailed n h hc =>
    rw [h] at hok'
    have htrue : c.ok = true := hok'
    rw [hc] at htrue
    cases htrue
  | swap n h => exact hi.swapGroups hplaced h c.alive

/-! ## The result -/

/-- A loop that waits while its server runs has a fresh group, whose offers were last posted. -/
def WaitsFresh (pion : Pion) (s : State) : Prop :=
  ∀ i, (s.loops i).live = true → (s.loops i).pc = .waitAnswers →
    let servers := s.groups ⟨i, (s.loops i).wrtcGroup⟩
    Fresh servers ∧ (s.loops i).posted = (s.loops i).wrtcGroup ∧
      ∀ answers, answers.length = servers.length →
        (∀ answer ∈ answers, pion.WellFormed answer) →
        (acceptAnswers pion servers answers).1 = none

structure AllFresh (s : State) : Prop where
  inv : Inv s
  placed : Placed s
  loops : ∀ i, (s.loops i).live = true → LoopFresh s i

theorem allFresh_init : AllFresh {} where
  inv := inv_init
  placed := placed_init
  loops _ h := by cases h

theorem AllFresh.step {a : Action} (hs : AllFresh s) (hok : Recovers pion s a)
    (h : AcceptLoop.step pion s a = some t) : AllFresh t := by
  refine ⟨step_inv hs.inv h, ?_, ?_⟩
  · cases a with
    | startHolepunch npc =>
      obtain ⟨-, rfl⟩ := of_unless h
      exact hs.placed.startHolepunch hs.inv npc
    | startPortMapped =>
      obtain ⟨-, rfl⟩ := of_unless h
      exact hs.placed
    | stopServer xrayOk =>
      cases h
      exact hs.placed.stops (hs.inv.stops xrayOk)
    | advance i c => exact (advance_cases pion (hs.inv.prev i) h).placed hs.placed
  · intro j hj
    cases a with
    | startHolepunch npc =>
      obtain ⟨hrun, rfl⟩ := of_unless h
      by_cases hnew : j = s.started
      · subst hnew
        refine loopFresh_of_none (startHolepunch_loops_self ..) rfl fun _ => ⟨?_, rfl, rfl⟩
        rw [startHolepunch_groups_self]
        exact fresh_startServerGroup _
      · rw [startHolepunch_loops_of_ne s npc hnew] at hj
        exact absurd (hs.inv.live j hj).1 hrun
    | startPortMapped =>
      obtain ⟨hrun, rfl⟩ := of_unless h
      exact absurd (hs.inv.live j hj).1 hrun
    | stopServer xrayOk =>
      cases h
      rw [(hs.inv.stops xrayOk).loops j] at hj
      cases hj
    | advance i c =>
      have hcase := advance_cases pion (hs.inv.prev i) h
      by_cases hji : j = i
      · subst hji
        rw [hcase.loopStep.live] at hj
        exact (hs.loops j hj).advance hcase hs.placed hj hok
      · rw [hcase.loopStep.others j hji] at hj
        exact (hs.loops j hj).of_other hcase hs.placed hji

/-- **The server waits with a fresh group** in a run without the three failures. -/
theorem waits_with_freshGroup (pion : Pion) (acts : List Action)
    (h : AllSteps (step pion) (Recovers pion) {} acts) :
    AllStates (step pion) (WaitsFresh pion) {} acts := by
  refine allStates_of_allSteps (fun t ht => ?_) h
  have hfresh : AllFresh t :=
    ht.invariant AllFresh allFresh_init fun s a u hs hok hu => hs.step hok hu
  intro i hlive hpc
  obtain ⟨hgroup, hposted, -⟩ := (hfresh.loops i hlive).ready (by rw [hpc]; rfl)
  exact ⟨hgroup, hposted, fun answers hlen hformed => hgroup.accepts hlen hformed⟩

def servedRun : List Action :=
  [.startHolepunch 2, .advance 0 {}, .advance 0 {}, .advance 0 { ok := false }, .advance 0 {},
    .advance 0 { ok := false }, .advance 0 {}, .advance 0 {}, .advance 0 {},
    .advance 0 { answers := [demoAnswer, demoAnswer] }, .advance 0 {}, .advance 0 {},
    .advance 0 { winner := none }, .advance 0 {}, .advance 0 { srflx := false }, .advance 0 {},
    .advance 0 {}, .advance 0 {}, .advance 0 {}, .advance 0 {}, .advance 0 {}, .advance 0 {}]

theorem waits_with_freshGroup_served :
    ((run (step demoPion) {} servedRun).map fun t => ((t.loops 0).pc, (t.loops 0).wrtcGroup)) =
        some (.waitAnswers, 2) ∧
      AllStates (step demoPion) (WaitsFresh demoPion) {} servedRun :=
  ⟨by decide, waits_with_freshGroup demoPion servedRun (by decide)⟩

def answeredRun (answers : List String) : List Action :=
  [.startHolepunch 2, .advance 0 {}, .advance 0 {}, .advance 0 { answers := answers },
    .advance 0 {}, .advance 0 {}]

def State.waitsWith (s : State) (i : Nat) : Option (Bool × ServerGroup) :=
  if (s.loops i).pc = .waitAnswers then
    some ((s.loops i).live, s.groups ⟨i, (s.loops i).wrtcGroup⟩)
  else none

theorem transientFailure_sticks :
    ((run (step demoPion) {} (answeredRun [demoAnswer, ""] ++
        [.advance 0 {}, .advance 0 {}])).bind fun t => t.waitsWith 0) =
      some (true, [{ remote := some demoAnswer }, { remote := some "" }]) ∧
    ((run (step demoPion) {} (answeredRun [demoAnswer, demoAnswer] ++ [.advance 0 {}, .advance 0 {},
        .advance 0 { ok := false }, .advance 0 {}, .advance 0 {}])).bind fun t => t.waitsWith 0) =
      some (true, [{ remote := some demoAnswer }, { remote := some demoAnswer }]) ∧
    ((run (step demoPion) {} (answeredRun [demoAnswer, demoAnswer] ++ [.advance 0 {}, .advance 0 {},
        .advance 0 {}, .advance 0 {}, .advance 0 { ok := false }, .advance 0 {},
        .advance 0 {}])).bind fun t => t.waitsWith 0) =
      some (true, [{ remote := some demoAnswer }, { remote := some demoAnswer }]) ∧
    (acceptAnswers demoPion [{ remote := some demoAnswer }, { remote := some "" }]
      [demoAnswer, demoAnswer]).1.isSome = true := by
  decide

end NatProxy.Server.AcceptLoop
