import NatProxy.Lib.Transition
import NatProxy.WebRTC.ServerGroup

/-!
# The accept loop of the server

Model of `StartServer`, its accept loop and `StopServer` (`golib/api.go`). The globals are behind
`mu`; the loop takes the mutex for its looks at `serverRunning`, for the swap of the groups and for
`cleanupDrainingServerGroups`, and works without it in between. A section under the mutex is one
step, and so is each slow call. Servers may be stopped and started any number of times; the loop of
a stopped server goes on until it looks at its context or at `serverRunning`.

The server that is started as number `i` has the accept loop `i`, which makes the groups `⟨i, 0⟩`,
`⟨i, 1⟩`, ...; `StartServer` makes the first one. `StartServer` holds the mutex throughout, so a
successful call is one step, and a failed one is none (its own model is in `Server/StartServer`).
The STUN keepalive, the statistics and the discovery listing are left out. `latest`, `stopReturned`
and `posted` record what happened; no branch reads them.
-/

namespace NatProxy.Server.AcceptLoop

open Lib WebRTC.Group Function

def stunRetryMax : Nat := 10

/-- The server whose loop made it, and how many that had made before. -/
structure GroupId where
  owner : Nat
  index : Nat
deriving DecidableEq, Repr

/-- `serverMethod`: empty, "holepunch", or the method of a port mapping. -/
inductive Method where
  | unset
  | holepunch
  | portMapped
deriving DecidableEq, Repr

inductive PC where
  /-- look at the context -/
  | head
  /-- look at `serverRunning` -/
  | checkRunning
  /-- `WaitSDPAnswersSSE` and `pollForSDPAnswers` -/
  | waitAnswers
  /-- look at `serverRunning` after a wait without answers -/
  | noClient
  /-- post the current offers again -/
  | rePost
  /-- `cleanupDrainingServerGroups` at the end of a round -/
  | cleanup
  /-- clear the answers at the signal server -/
  | received (answers : List String)
  /-- `AcceptAnswers` on the current and the previous group -/
  | acceptAnswers (answers : List String)
  /-- the race of `WaitConnected`, for the groups that accepted the answers -/
  | waitConnected (currOk prevOk : Bool)
  /-- look at `serverRunning` before the next group is made -/
  | prep
  /-- an attempt of `startServerGroupWithSrflx` -/
  | startServerGroup (attempt : Nat)
  /-- clear the answers again -/
  | clearAnswers (newGroup : Nat)
  /-- post the offers of the new group -/
  | postSDPOffers (newGroup : Nat)
  /-- swap the new group in, under the mutex -/
  | swap (newGroup : Nat)
  | done
deriving DecidableEq, Repr

def PC.newGroup : PC → Option Nat
  | .clearAnswers n | .postSDPOffers n | .swap n => some n
  | _ => none

/-- `live`: the context is not cancelled; `created` counts the groups; `posted` is the group posted
last with success. -/
structure Loop where
  pc : PC := .done
  live : Bool := false
  npc : Nat := 0
  wrtcGroup : Nat := 0
  prevWrtcGroup : Option Nat := none
  currentOffers : Nat := 0
  created : Nat := 0
  posted : Nat := 0
deriving DecidableEq, Repr

/-- `latest` is the loop of the server started last, if it has one; `stopReturned`: none was started
since `StopServer` returned. -/
structure State where
  serverRunning : Bool := false
  serverMethod : Method := .unset
  activeWebRTCServerGroup : Option GroupId := none
  drainingWebRTCServerGroups : List GroupId := []
  serverCancel : Option Nat := none
  groups : GroupId → ServerGroup := fun _ => []
  loops : Nat → Loop := fun _ => {}
  started : Nat := 0
  latest : Option Nat := none
  stopReturned : Bool := true

/-! ## Parts of the steps -/

def State.setLoop (s : State) (i : Nat) (l : Loop) : State :=
  { s with loops := update s.loops i l }

def State.goto (s : State) (i : Nat) (pc : PC) : State :=
  s.setLoop i { s.loops i with pc := pc }

def State.setGroup (s : State) (g : GroupId) (servers : ServerGroup) : State :=
  { s with groups := update s.groups g servers }

def State.stopGroup (s : State) (g : GroupId) : State := s.setGroup g (stop (s.groups g))

def State.stopGroups (s : State) (gs : List GroupId) : State :=
  { s with groups := fun g => if g ∈ gs then stop (s.groups g) else s.groups g }

/-- `alive` lists the groups for which `IsAlive` returns true. -/
def State.cleanupDraining (s : State) (alive : List GroupId) : State :=
  let draining := s.drainingWebRTCServerGroups
  { s.stopGroups (draining.filter (· ∉ alive)) with
    drainingWebRTCServerGroups := draining.filter (· ∈ alive) }

/-- What happens outside of the loop; of the two groups in `WaitConnected` the current one wins for
`some true`. -/
structure Choice where
  ok : Bool := true
  answers : List String := []
  srflx : Bool := true
  winner : Option Bool := some true
  alive : List GroupId := []

/-! ## The loop -/

variable (pion : Pion)

/-- `AcceptAnswers` on the current group and on the previous one, if there is one. -/
def State.acceptAnswers (s : State) (i : Nat) (answers : List String) : State :=
  let l := s.loops i
  let curr : GroupId := ⟨i, l.wrtcGroup⟩
  let (currErr, currServers) := WebRTC.Group.acceptAnswers pion (s.groups curr) answers
  let s := s.setGroup curr currServers
  match l.prevWrtcGroup with
  | none =>
    s.goto i (if currErr.isSome then .head else .waitConnected true false)
  | some p =>
    let (prevErr, prevServers) := WebRTC.Group.acceptAnswers pion (s.groups ⟨i, p⟩) answers
    let s := s.setGroup ⟨i, p⟩ prevServers
    s.goto i (if currErr.isSome ∧ prevErr.isSome then .head
      else .waitConnected currErr.isNone prevErr.isNone)

def State.raceOver (s : State) (i : Nat) (currOk prevOk : Bool) : Option Bool → Option State
  | some true =>
    let l := s.loops i
    if currOk then
      let s := match l.prevWrtcGroup with
        | some p => if prevOk then s.stopGroup ⟨i, p⟩ else s
        | none => s
      some (s.setLoop i { l with pc := .prep, prevWrtcGroup := none })
    else none
  | some false =>
    let l := s.loops i
    match l.prevWrtcGroup with
    | some p =>
      if prevOk then
        let s := if currOk then s.stopGroup ⟨i, l.wrtcGroup⟩ else s
        some { s.setLoop i { l with pc := .prep, wrtcGroup := p, prevWrtcGroup := none } with
          activeWebRTCServerGroup := some ⟨i, p⟩ }
      else none
    | none => none
  | none =>
    let l := s.loops i
    let s := match l.prevWrtcGroup with
      | some p => s.stopGroup ⟨i, p⟩
      | none => s
    some (s.setLoop i { l with pc := .prep, prevWrtcGroup := none })

/-- One attempt; a group without a srflx candidate is stopped. -/
def State.startGroup (s : State) (i attempt : Nat) (c : Choice) : State :=
  let l := s.loops i
  let g : GroupId := ⟨i, l.created⟩
  let servers := startServerGroup l.npc
  if c.ok = false then
    s.goto i .head
  else if c.srflx then
    (s.setGroup g servers).setLoop i
      { l with pc := .clearAnswers l.created, created := l.created + 1 }
  else
    (s.setGroup g (stop servers)).setLoop i
      { l with
        pc := if attempt < stunRetryMax then .startServerGroup (attempt + 1) else .head
        created := l.created + 1 }

/-- The old group is drained if it is alive, and stopped otherwise. Neither `serverRunning` nor the
context is looked at. -/
def State.swapGroups (s : State) (i newGroup : Nat) (alive : List GroupId) : State :=
  let l := s.loops i
  let old : GroupId := ⟨i, l.wrtcGroup⟩
  let s :=
    if old ∈ alive then
      { s with drainingWebRTCServerGroups := s.drainingWebRTCServerGroups ++ [old] }
    else s.stopGroup old
  { s.setLoop i { l with pc := .cleanup, wrtcGroup := newGroup } with
    activeWebRTCServerGroup := some ⟨i, newGroup⟩ }

def State.advance (s : State) (i : Nat) (c : Choice) : Option State :=
  let l := s.loops i
  match l.pc with
  | .head => some (s.goto i (if l.live then .checkRunning else .done))
  | .checkRunning => some (s.goto i (if s.serverRunning then .waitAnswers else .done))
  | .waitAnswers => some (s.goto i (if c.ok then .received c.answers else .noClient))
  | .noClient => some (s.goto i (if s.serverRunning then .rePost else .done))
  | .rePost =>
    some (s.setLoop i
      { l with pc := .cleanup, posted := if c.ok then l.currentOffers else l.posted })
  | .cleanup => some ((s.cleanupDraining c.alive).goto i .head)
  | .received answers => some (s.goto i (.acceptAnswers answers))
  | .acceptAnswers answers => some (s.acceptAnswers pion i answers)
  | .waitConnected currOk prevOk => s.raceOver i currOk prevOk c.winner
  | .prep => some (s.goto i (if s.serverRunning then .startServerGroup 1 else .done))
  | .startServerGroup attempt => some (s.startGroup i attempt c)
  | .clearAnswers n => some (s.goto i (.postSDPOffers n))
  | .postSDPOffers n =>
    if c.ok then
      some (s.setLoop i { l with pc := .swap n, currentOffers := n, posted := n })
    else
      some ((s.stopGroup ⟨i, n⟩).goto i .head)
  | .swap n => some (s.swapGroups i n c.alive)
  | .done => none

/-! ## Start and stop -/

/-- A successful `StartServer` on the holepunch path, with `npc` peer connections. -/
def State.startHolepunch (s : State) (npc : Nat) : State :=
  let i := s.started
  let npc := if npc = 0 then 1 else npc
  { s.setGroup ⟨i, 0⟩ (startServerGroup npc) with
    serverRunning := true
    serverMethod := .holepunch
    activeWebRTCServerGroup := some ⟨i, 0⟩
    serverCancel := some i
    loops := update s.loops i { pc := .head, live := true, npc := npc, created := 1 }
    started := i + 1
    latest := some i
    stopReturned := false }

/-- A successful `StartServer` with a port mapping: xray serves, and there is no loop. -/
def State.startPortMapped (s : State) : State :=
  { s with
    serverRunning := true
    serverMethod := .portMapped
    latest := none
    stopReturned := false }

def State.cancelLoop (s : State) : State :=
  match s.serverCancel with
  | none => s
  | some i => { s.setLoop i { s.loops i with live := false } with serverCancel := none }

/-- The holepunch case of `StopServer`. -/
def State.stopHolepunch (s : State) : State :=
  { s.stopGroups (s.activeWebRTCServerGroup.toList ++ s.drainingWebRTCServerGroups) with
    activeWebRTCServerGroup := none
    drainingWebRTCServerGroups := [] }

/-- `StopServer`. When `xray.StopXray` fails, it returns before it resets `serverRunning`. -/
def State.stopServer (s : State) (xrayOk : Bool) : State :=
  if s.serverRunning = false then
    { s with stopReturned := true }
  else
    let s := s.cancelLoop
    if s.serverMethod = .holepunch then
      { s.stopHolepunch with
        serverRunning := false, serverMethod := .unset, stopReturned := true }
    else if xrayOk then
      { s with serverRunning := false, serverMethod := .unset, stopReturned := true }
    else
      { s with stopReturned := true }

inductive Action where
  | startHolepunch (npc : Nat)
  | startPortMapped
  | stopServer (xrayOk : Bool)
  | advance (i : Nat) (c : Choice)

/-- One step. `StartServer` is refused while a server is running. -/
def step (s : State) : Action → Option State
  | .startHolepunch npc => if s.serverRunning then none else some (s.startHolepunch npc)
  | .startPortMapped => if s.serverRunning then none else some s.startPortMapped
  | .stopServer xrayOk => some (s.stopServer xrayOk)
  | .advance i c => s.advance pion i c

/-! ## What a step of the loop can do -/

@[simp] theorem setLoop_loops_self (s : State) (i : Nat) (l : Loop) :
    (s.setLoop i l).loops i = l := by
  rw [State.setLoop]
  exact update_self i l s.loops

theorem setLoop_loops_of_ne (s : State) {i j : Nat} (l : Loop) (h : j ≠ i) :
    (s.setLoop i l).loops j = s.loops j := by
  rw [State.setLoop]
  exact update_of_ne h l s.loops

@[simp] theorem setGroup_groups_self (s : State) (g : GroupId) (servers : ServerGroup) :
    (s.setGroup g servers).groups g = servers := by
  rw [State.setGroup]
  exact update_self g servers s.groups

theorem setGroup_groups_of_ne (s : State) {g h : GroupId} (servers : ServerGroup) (hne : h ≠ g) :
    (s.setGroup g servers).groups h = s.groups h := by
  rw [State.setGroup]
  exact update_of_ne hne servers s.groups

@[simp] theorem startHolepunch_loops_self (s : State) (npc : Nat) :
    (s.startHolepunch npc).loops s.started =
      { pc := .head, live := true, npc := if npc = 0 then 1 else npc, created := 1 } :=
  update_self s.started _ s.loops

theorem startHolepunch_loops_of_ne (s : State) (npc : Nat) {j : Nat} (h : j ≠ s.started) :
    (s.startHolepunch npc).loops j = s.loops j :=
  update_of_ne h _ s.loops

@[simp] theorem startHolepunch_groups_self (s : State) (npc : Nat) :
    (s.startHolepunch npc).groups ⟨s.started, 0⟩ =
      startServerGroup (if npc = 0 then 1 else npc) :=
  setGroup_groups_self s _ _

theorem swapGroups_loops (s : State) (i n : Nat) (alive : List GroupId) :
    (s.swapGroups i n alive).loops = update s.loops i
      { s.loops i with pc := .cleanup, wrtcGroup := n } := by
  rw [State.swapGroups]
  split
  · rfl
  · rfl

@[simp] theorem swapGroups_loops_self (s : State) (i n : Nat) (alive : List GroupId) :
    (s.swapGroups i n alive).loops i = { s.loops i with pc := .cleanup, wrtcGroup := n } := by
  rw [swapGroups_loops, update_self]

/-- The loop waits for a client, or is before or after that, up to `AcceptAnswers`. -/
def PC.ready : PC → Bool
  | .head | .checkRunning | .waitAnswers | .noClient | .rePost | .cleanup => true
  | .received _ | .acceptAnswers _ => true
  | .waitConnected _ _ | .prep | .startServerGroup _ => false
  | .clearAnswers _ | .postSDPOffers _ | .swap _ | .done => false

/-- The step keeps the new group in hand, and neither comes from nor gets to the swap. -/
structure Moves (pc pc' : PC) : Prop where
  running : pc ≠ .done
  newGroup : pc'.newGroup = pc.newGroup
  ready : pc'.ready = true → pc.ready = true
  noSwap : ∀ n, pc ≠ .swap n ∧ pc' ≠ .swap n

inductive AdvanceCase (s : State) (i : Nat) (c : Choice) : State → Prop where
  | moves (pc : PC) (h : Moves (s.loops i).pc pc) : AdvanceCase s i c (s.goto i pc)
  | rePost (h : (s.loops i).pc = .rePost) :
      AdvanceCase s i c (s.setLoop i { s.loops i with
        pc := .cleanup
        posted := if c.ok then (s.loops i).currentOffers else (s.loops i).posted })
  | cleanup (h : (s.loops i).pc = .cleanup) :
      AdvanceCase s i c ((s.cleanupDraining c.alive).goto i .head)
  | accept (answers : List String) (pc : PC) (h : (s.loops i).pc = .acceptAnswers answers)
      (hpc : pc = if (WebRTC.Group.acceptAnswers pion
          (s.groups ⟨i, (s.loops i).wrtcGroup⟩) answers).1.isSome
        then .head else .waitConnected true false) :
      AdvanceCase s i c ((s.setGroup ⟨i, (s.loops i).wrtcGroup⟩
        (WebRTC.Group.acceptAnswers pion
          (s.groups ⟨i, (s.loops i).wrtcGroup⟩) answers).2).goto i pc)
  | startFailed (attempt : Nat) (h : (s.loops i).pc = .startServerGroup attempt)
      (hc : c.ok = false) : AdvanceCase s i c (s.goto i .head)
  | started (attempt : Nat) (h : (s.loops i).pc = .startServerGroup attempt) :
      AdvanceCase s i c ((s.setGroup ⟨i, (s.loops i).created⟩
        (startServerGroup (s.loops i).npc)).setLoop i { s.loops i with
          pc := .clearAnswers (s.loops i).created
          created := (s.loops i).created + 1 })
  | noSrflx (attempt : Nat) (h : (s.loops i).pc = .startServerGroup attempt) (pc : PC)
      (hpc : pc = if attempt < stunRetryMax then .startServerGroup (attempt + 1) else .head)
      (hc : c.srflx = false) :
      AdvanceCase s i c ((s.setGroup ⟨i, (s.loops i).created⟩
        (stop (startServerGroup (s.loops i).npc))).setLoop i { s.loops i with
          pc := pc
          created := (s.loops i).created + 1 })
  | posted (n : Nat) (h : (s.loops i).pc = .postSDPOffers n) :
      AdvanceCase s i c (s.setLoop i
        { s.loops i with pc := .swap n, currentOffers := n, posted := n })
  | postFailed (n : Nat) (h : (s.loops i).pc = .postSDPOffers n) (hc : c.ok = false) :
      AdvanceCase s i c ((s.stopGroup ⟨i, n⟩).goto i .head)
  | swap (n : Nat) (h : (s.loops i).pc = .swap n) :
      AdvanceCase s i c (s.swapGroups i n c.alive)

theorem Moves.plain {pc pc' : PC} (hdone : pc ≠ .done) (h : pc.newGroup = none)
    (h' : pc'.newGroup = none) (hready : pc'.ready = true → pc.ready = true) : Moves pc pc' where
  running := hdone
  newGroup := h'.trans h.symm
  ready := hready
  noSwap n := by
    constructor
    · rintro rfl
      cases h
    · rintro rfl
      cases h'

theorem raceOver_eq {s t : State} {i : Nat} {currOk prevOk : Bool} {winner : Option Bool}
    (hprev : (s.loops i).prevWrtcGroup = none)
    (h : s.raceOver i currOk prevOk winner = some t) : t = s.goto i .prep := by
  have hsame : { s.loops i with pc := .prep, prevWrtcGroup := none } =
      { s.loops i with pc := PC.prep } := by
    rw [← hprev]
  cases winner with
  | none =>
    simp only [State.raceOver, hprev, Option.some.injEq] at h
    rw [← h, State.goto, hsame]
  | some current =>
    cases current with
    | true =>
      grind [State.raceOver, Option.some.inj, State.goto]
    | false =>
      simp only [State.raceOver, hprev] at h
      cases h

/-- **Every step of a loop is one of these**, as long as it has no previous group. -/
theorem advance_cases {s t : State} {i : Nat} {c : Choice}
    (hprev : (s.loops i).prevWrtcGroup = none) (h : s.advance pion i c = some t) :
    AdvanceCase pion s i c t := by
  rw [State.advance] at h
  cases hpc : (s.loops i).pc with
  | head | checkRunning | waitAnswers | noClient =>
    rw [hpc] at h
    cases h
    refine .moves _ ?_
    rw [hpc]
    split <;> exact Moves.plain PC.noConfusion rfl rfl (fun _ => rfl)
  | rePost =>
    rw [hpc] at h
    cases h
    exact .rePost hpc
  | cleanup =>
    rw [hpc] at h
    cases h
    exact .cleanup hpc
  | received answers =>
    rw [hpc] at h
    cases h
    refine .moves _ ?_
    rw [hpc]
    exact Moves.plain PC.noConfusion rfl rfl (fun _ => rfl)
  | acceptAnswers answers =>
    rw [hpc] at h
    simp only [State.acceptAnswers, hprev, Option.some.injEq] at h
    rw [← h]
    exact .accept answers _ hpc rfl
  | waitConnected currOk prevOk =>
    rw [hpc] at h
    rw [raceOver_eq hprev h]
    refine .moves _ ?_
    rw [hpc]
    exact Moves.plain PC.noConfusion rfl rfl (fun h => h)
  | prep =>
    rw [hpc] at h
    cases h
    refine .moves _ ?_
    rw [hpc]
    split
    · exact Moves.plain PC.noConfusion rfl rfl (fun h => h)
    · exact Moves.plain PC.noConfusion rfl rfl (fun h => h)
  | startServerGroup attempt =>
    rw [hpc] at h
    simp only [State.startGroup, Option.some.injEq] at h
    rw [← h]
    by_cases hok : c.ok = false
    · rw [if_pos hok]
      exact .startFailed attempt hpc hok
    · rw [if_neg hok]
      by_cases hsrflx : c.srflx = true
      · rw [if_pos hsrflx]
        exact .started attempt hpc
      · rw [if_neg hsrflx]
        exact .noSrflx attempt hpc _ rfl (Bool.eq_false_iff.2 hsrflx)
  | clearAnswers n =>
    rw [hpc] at h
    cases h
    refine .moves _ ?_
    rw [hpc]
    exact ⟨PC.noConfusion, rfl, fun h => h, fun m => ⟨PC.noConfusion, PC.noConfusion⟩⟩
  | postSDPOffers n =>
    rw [hpc] at h
    by_cases hok : c.ok = true
    · simp only [hok, if_true] at h
      cases h
      exact .posted n hpc
    · simp only [hok] at h
      cases h
      exact .postFailed n hpc (Bool.eq_false_iff.2 hok)
  | swap n =>
    rw [hpc] at h
    cases h
    exact .swap n hpc
  | done =>
    rw [hpc] at h
    cases h

end NatProxy.Server.AcceptLoop
