import NatProxy.Lib.Transition

/-!
# The listing of the server in the discovery registry

Model of `RegisterServerDiscovery`, `UnregisterServerDiscovery`, the part of `StopServer` that
unregisters, and the heartbeat goroutines (`golib/api.go`). A section under `mu` is one step, and so
is each HTTP request, which may be answered in any way. Any number of calls and goroutines run
interleaved.

The goroutine `k` listens on the channel `k`. Its `select` may take a tick although the channel is
closed. An empty listing id is `none`; the registry numbers the listings it receives. No branch
reads `quiet` (`UnregisterServerDiscovery` or `StopServer` has returned and no registration has
begun since) and `late`, the listings received while that is so.

`oneOwner_of_orderly`: if the calls are in order (`Orderly`), there is one heartbeat at a time, the
one that `heartbeatStop` refers to, and nothing is listed after the end. The code does not ensure it
(`listing_unowned`).
-/

namespace NatProxy.Server.Discovery

open Lib Function

/-- What a registration says: where it goes, and the fields of the listing. -/
structure Listing where
  url : String := ""
  name : String := ""
  room : String := ""
  code : String := ""
  method : String := ""
  transport : String := ""
  protocol : String := ""
deriving DecidableEq, Repr

structure Settings where
  signalingURL : String := ""
  discoveryURL : String := ""
  displayName : String := ""
  room : String := ""
deriving DecidableEq, Repr

def defaultSignalingURL : String := "http://[IP]:5601"

/-- The dedicated discovery URL, or else the signaling URL. -/
def Settings.url (cfg : Settings) : String :=
  if cfg.discoveryURL ≠ "" then cfg.discoveryURL
  else if cfg.signalingURL ≠ "" then cfg.signalingURL
  else defaultSignalingURL

structure ServerInfo where
  method : String
  transport : String
  protocol : String
deriving DecidableEq, Repr

def Listing.withInfo (l : Listing) : Option ServerInfo → Listing
  | some info =>
    { l with method := info.method, transport := info.transport, protocol := info.protocol }
  | none => { l with method := "", transport := "", protocol := "" }

inductive CallPC where
  /-- delete the old listing -/
  | deregister (url : String) (id : Nat)
  /-- read `serverInfo` -/
  | readInfo
  | registerServer
  /-- store the listing and start the heartbeat -/
  | install (id : Option Nat)
  | done
deriving DecidableEq, Repr

inductive Kind where
  | register
  | unregister
deriving DecidableEq, Repr

structure Call where
  kind : Kind := .register
  pc : CallPC := .done
  listing : Listing := {}
deriving DecidableEq, Repr

inductive BeatPC where
  /-- in its `select` -/
  | selecting
  | heartbeat
  /-- the listing has expired: register again -/
  | registerServer
  /-- store the new listing id -/
  | store (id : Option Nat)
  | done
deriving DecidableEq, Repr

structure Beat where
  pc : BeatPC := .done
  currentID : Option Nat := none
  listing : Listing := {}
deriving DecidableEq, Repr

/-- `received` counts the listings that the registry has received. -/
structure State where
  discoveryListingID : Option Nat := none
  discoverySignalingURL : String := ""
  heartbeatStop : Option Nat := none
  serverRunning : Bool := false
  serverInfo : Option ServerInfo := none
  closed : Nat → Bool := fun _ => false
  beats : Nat → Beat := fun _ => {}
  nBeats : Nat := 0
  calls : Nat → Call := fun _ => {}
  nCalls : Nat := 0
  received : Nat := 0
  quiet : Bool := false
  late : Nat := 0

/-! ## Parts of the steps -/

def State.setCall (s : State) (i : Nat) (c : Call) : State :=
  { s with calls := update s.calls i c }

def State.setBeat (s : State) (k : Nat) (b : Beat) : State :=
  { s with beats := update s.beats k b }

@[simp] theorem setCall_self (s : State) (i : Nat) (c : Call) : (s.setCall i c).calls i = c := by
  rw [State.setCall]
  exact update_self i c s.calls

variable {i : Nat}

@[simp] theorem setCall_of_ne (s : State) {j : Nat} (hne : j ≠ i) (c : Call) :
    (s.setCall i c).calls j = s.calls j := by
  rw [State.setCall]
  exact update_of_ne hne c s.calls

variable {k : Nat}

@[simp] theorem setBeat_of_ne (s : State) {l : Nat} (hne : l ≠ k) (b : Beat) :
    (s.setBeat k b).beats l = s.beats l := by
  rw [State.setBeat]
  exact update_of_ne hne b s.beats

def State.close (s : State) : Option Nat → State
  | none => s
  | some k => { s with closed := update s.closed k true }

def State.clear (s : State) : State :=
  { s.close s.heartbeatStop with
    discoveryListingID := none, discoverySignalingURL := "", heartbeatStop := none }

def State.receive (s : State) : State :=
  { s with received := s.received + 1, late := if s.quiet then s.late + 1 else s.late }

/-- How `RegisterServer` ends; the registry may have the listing despite an error. -/
inductive Reply where
  | ok
  | empty
  | lost
  | refused
deriving DecidableEq, Repr

/-- The state after the request, and the id unless there is an error. -/
def State.registerServer (s : State) : Reply → State × Option (Option Nat)
  | .ok => (s.receive, some (some s.received))
  | .empty => (s.receive, some none)
  | .lost => (s.receive, none)
  | .refused => (s, none)

/-! ## The calls -/

/-- The first section of `RegisterServerDiscovery`. -/
def State.register (s : State) (code : String) (cfg : Settings) : State :=
  let pc := match s.discoveryListingID with
    | some id => .deregister s.discoverySignalingURL id
    | none => .readInfo
  { s.clear.setCall s.nCalls
      { kind := .register
        pc := pc
        listing :=
          { url := cfg.url, name := cfg.displayName, room := cfg.room, code := code } } with
    nCalls := s.nCalls + 1
    quiet := false }

/-- The section of `UnregisterServerDiscovery`, which returns when there was no listing. -/
def State.unregister (s : State) : State :=
  match s.discoveryListingID with
  | some id =>
    { s.clear.setCall s.nCalls
        { kind := .unregister, pc := .deregister s.discoverySignalingURL id } with
      nCalls := s.nCalls + 1 }
  | none => { s.clear with quiet := true }

/-- `StopServer`: the listing, and the rest, which may fail. -/
def State.stopServer (s : State) (ok : Bool) : State :=
  -- without a running server it returns before it looks at the listing
  if s.serverRunning = false then { s with quiet := true }
  else
    let t := if s.discoveryListingID.isSome then s.clear else s
    if ok then { t with serverRunning := false, serverInfo := none, quiet := true }
    else { t with quiet := true }

def State.install (s : State) (i : Nat) (id : Option Nat) : State :=
  let c := s.calls i
  -- a heartbeat that another call has started in the meantime is not told to stop
  { (s.setCall i { c with pc := .done }).setBeat s.nBeats
      { pc := .selecting, currentID := id, listing := c.listing } with
    discoveryListingID := id
    discoverySignalingURL := c.listing.url
    heartbeatStop := some s.nBeats
    nBeats := s.nBeats + 1 }

def State.advance (s : State) (i : Nat) (r : Reply) : Option State :=
  let c := s.calls i
  match c.pc with
  | .deregister _ _ =>
    match c.kind with
    | .register => some (s.setCall i { c with pc := .readInfo })
    | .unregister => some { s.setCall i { c with pc := .done } with quiet := true }
  | .readInfo =>
    some (s.setCall i
      { c with pc := .registerServer, listing := c.listing.withInfo s.serverInfo })
  | .registerServer =>
    match s.registerServer r with
    | (t, some id) => some (t.setCall i { c with pc := .install id })
    | (t, none) => some (t.setCall i { c with pc := .done })
  | .install id => some (s.install i id)
  | .done => none

/-! ## The heartbeat -/

/-- How a heartbeat goroutine goes on. -/
inductive Choice where
  | stop
  | tick
  | alive
  | expired
  | reply (r : Reply)
deriving DecidableEq, Repr

def State.beat (s : State) (k : Nat) (ch : Choice) : Option State :=
  let b := s.beats k
  match b.pc with
  | .selecting =>
    match ch with
    | .stop => if s.closed k = true then some (s.setBeat k { b with pc := .done }) else none
    | .tick => some (s.setBeat k { b with pc := .heartbeat })
    | .alive | .expired | .reply _ => none
  | .heartbeat =>
    match ch with
    | .alive => some (s.setBeat k { b with pc := .selecting })
    | .expired => some (s.setBeat k { b with pc := .registerServer })
    | .stop | .tick | .reply _ => none
  | .registerServer =>
    match ch with
    | .reply r =>
      match s.registerServer r with
      | (t, some id) => some (t.setBeat k { b with pc := .store id })
      | (t, none) => some (t.setBeat k { b with pc := .selecting })
    | .stop | .tick | .alive | .expired => none
  | .store id =>
    -- whether the listing is still wanted is not looked at
    some { s.setBeat k { b with pc := .selecting, currentID := id } with
      discoveryListingID := id }
  | .done => none

inductive Action where
  | register (code : String) (cfg : Settings)
  | unregister
  | startServer (info : Option ServerInfo)
  | stopServer (ok : Bool)
  | advance (i : Nat) (r : Reply)
  | beat (k : Nat) (ch : Choice)
deriving DecidableEq, Repr

def step (s : State) : Action → Option State
  | .register code cfg => some (s.register code cfg)
  | .unregister => some s.unregister
  | .startServer info =>
    if s.serverRunning = false then
      some { s with serverRunning := true, serverInfo := info }
    else none
  | .stopServer ok => some (s.stopServer ok)
  | .advance i r => s.advance i r
  | .beat k ch => s.beat k ch

/-! ## What the steps can be -/

variable {s t : State}

/-- What a step of the goroutine `k` can do. -/
inductive BeatCase (s : State) (k : Nat) (ch : Choice) : State → Prop where
  | moves (b : Beat) : BeatCase s k ch (s.setBeat k b)
  | registers (b : Beat) (hpc : (s.beats k).pc = .registerServer) (hch : ch ≠ .reply .refused) :
      BeatCase s k ch (s.receive.setBeat k b)
  | stores (b : Beat) (id : Option Nat) (hpc : (s.beats k).pc = .store id) :
      BeatCase s k ch { s.setBeat k b with discoveryListingID := id }

theorem beat_cases {ch : Choice} (h : s.beat k ch = some t) :
    (s.beats k).pc ≠ .done ∧ BeatCase s k ch t := by
  cases hpc : (s.beats k).pc with
  | selecting =>
    refine ⟨by decide, ?_⟩
    simp only [State.beat, hpc] at h
    cases ch with
    | stop =>
      obtain ⟨-, rfl⟩ := of_guarded h
      exact .moves _
    | tick =>
      cases h
      exact .moves _
    | alive | expired | reply => cases h
  | heartbeat =>
    refine ⟨by decide, ?_⟩
    simp only [State.beat, hpc] at h
    cases ch with
    | alive | expired =>
      cases h
      exact .moves _
    | stop | tick | reply => cases h
  | registerServer =>
    refine ⟨by decide, ?_⟩
    simp only [State.beat, hpc] at h
    cases ch with
    | reply r =>
      cases r with
      | ok | empty | lost =>
        cases h
        exact .registers _ hpc (by decide)
      | refused =>
        cases h
        exact .moves _
    | stop | tick | alive | expired => cases h
  | store id =>
    refine ⟨by simp, ?_⟩
    simp only [State.beat, hpc, Option.some.injEq] at h
    subst h
    exact .stores _ id hpc
  | done => simp [State.beat, hpc] at h

/-- What a step of the call `i` can do. -/
inductive AdvanceCase (s : State) (i : Nat) : State → Prop where
  | moves (c : Call) (hkind : c.kind = (s.calls i).kind) : AdvanceCase s i (s.setCall i c)
  | registers (c : Call) (hkind : c.kind = (s.calls i).kind) :
      AdvanceCase s i (s.receive.setCall i c)
  | finishes (c : Call) (hkind : (s.calls i).kind = .unregister) (hc : c.pc = .done) :
      AdvanceCase s i { s.setCall i c with quiet := true }
  | installs (id : Option Nat) : AdvanceCase s i (s.install i id)

theorem advance_cases {r : Reply} (h : s.advance i r = some t) :
    (s.calls i).pc ≠ .done ∧ AdvanceCase s i t := by
  cases hpc : (s.calls i).pc with
  | deregister url id =>
    refine ⟨by simp, ?_⟩
    simp only [State.advance, hpc] at h
    cases hkind : (s.calls i).kind with
    | register =>
      simp only [hkind, Option.some.injEq] at h
      subst h
      exact .moves _ hkind.symm
    | unregister =>
      simp only [hkind, Option.some.injEq] at h
      subst h
      exact .finishes _ hkind rfl
  | readInfo =>
    refine ⟨by simp, ?_⟩
    simp only [State.advance, hpc, Option.some.injEq] at h
    subst h
    exact .moves _ rfl
  | registerServer =>
    refine ⟨by simp, ?_⟩
    simp only [State.advance, hpc] at h
    cases r with
    | ok | empty | lost =>
      cases h
      exact .registers _ rfl
    | refused =>
      cases h
      exact .moves _ rfl
  | install id =>
    refine ⟨by simp, ?_⟩
    simp only [State.advance, hpc, Option.some.injEq] at h
    subst h
    exact .installs id
  | done => simp [State.advance, hpc] at h

/-! ## One owner -/

/-- The heartbeat goroutine `k` runs, and nobody has told it to stop. -/
def State.Untold (s : State) (k : Nat) : Prop := (s.beats k).pc ≠ .done ∧ s.closed k = false

/-- At most one heartbeat goes on, the one that `heartbeatStop` refers to; after the end nothing is
listed, and the registry has received nothing. -/
structure OneOwner (s : State) : Prop where
  single : ∀ k l, s.Untold k → s.Untold l → k = l
  owner : ∀ k, s.Untold k → s.heartbeatStop = some k
  empty : s.quiet = true → s.discoveryListingID = none
  silent : s.late = 0

def State.Idle (s : State) : Prop := ∀ i < s.nCalls, (s.calls i).pc = .done

instance (s : State) : Decidable s.Idle :=
  inferInstanceAs (Decidable (∀ i < s.nCalls, (s.calls i).pc = .done))

/-- The goroutine `k` is about to let the registry receive a listing, or to store one. -/
def State.Lists (s : State) (k : Nat) (ch : Choice) : Prop :=
  match (s.beats k).pc with
  | .registerServer => ch ≠ .reply .refused
  | .store _ => True
  | .selecting | .heartbeat | .done => False

instance (s : State) (k : Nat) (ch : Choice) : Decidable (s.Lists k ch) := by
  unfold State.Lists
  split <;> infer_instance

/-- The calls do not overlap; `StopServer` finds neither a listing of a server that does not run nor
a heartbeat without a listing; a goroutine that was told to stop neither registers nor stores a
listing. -/
def Orderly (s : State) : Action → Prop
  | .register _ _ | .unregister => s.Idle
  | .stopServer _ =>
    s.Idle ∧ (s.serverRunning = true ∨ s.discoveryListingID = none) ∧
      (s.discoveryListingID = none → s.heartbeatStop = none)
  | .beat k ch => s.closed k = true → ¬ s.Lists k ch
  | .startServer _ | .advance _ _ => True

instance (s : State) : (a : Action) → Decidable (Orderly s a)
  | .register _ _ | .unregister => inferInstanceAs (Decidable s.Idle)
  | .stopServer _ => inferInstanceAs (Decidable (s.Idle ∧ _ ∧ _))
  | .beat k ch => inferInstanceAs (Decidable (s.closed k = true → ¬ s.Lists k ch))
  | .startServer _ | .advance _ _ => isTrue trivial

/-- Besides the owner of the heartbeat at most one call is in progress, and then there is no
heartbeat; after the end there is neither. -/
structure Inv (s : State) : Prop where
  beats : ∀ k, s.nBeats ≤ k → (s.beats k).pc = .done
  calls : ∀ i, s.nCalls ≤ i → (s.calls i).pc = .done
  oneCall : ∀ i j, (s.calls i).pc ≠ .done → (s.calls j).pc ≠ .done → i = j
  owner : ∀ k, s.Untold k → s.heartbeatStop = some k
  busy : ∀ i, (s.calls i).pc ≠ .done → s.heartbeatStop = none ∧ s.quiet = false
  leaving : ∀ i, (s.calls i).pc ≠ .done → (s.calls i).kind = .unregister →
    s.discoveryListingID = none
  quiet : s.quiet = true → s.discoveryListingID = none ∧ s.heartbeatStop = none
  silent : s.late = 0

theorem inv_init : Inv {} where
  beats _ _ := rfl
  calls _ _ := rfl
  oneCall i j h := absurd rfl h
  owner k h := absurd rfl h.1
  busy i h := absurd rfl h
  leaving i h := absurd rfl h
  quiet h := by cases h
  silent := rfl

theorem Inv.oneOwner (hs : Inv s) : OneOwner s where
  single k l hk hl := Option.some.inj ((hs.owner k hk).symm.trans (hs.owner l hl))
  owner := hs.owner
  empty h := (hs.quiet h).1
  silent := hs.silent

theorem Inv.done_of_idle (hs : Inv s) (h : s.Idle) (i : Nat) : (s.calls i).pc = .done := by
  rcases Nat.lt_or_ge i s.nCalls with hi | hi
  · exact h i hi
  · exact hs.calls i hi

/-! ## The steps keep the invariant -/

@[simp] theorem close_beats (s : State) (k : Option Nat) : (s.close k).beats = s.beats := by
  cases k <;> rfl

@[simp] theorem close_calls (s : State) (k : Option Nat) : (s.close k).calls = s.calls := by
  cases k <;> rfl

@[simp] theorem close_nBeats (s : State) (k : Option Nat) : (s.close k).nBeats = s.nBeats := by
  cases k <;> rfl

@[simp] theorem close_nCalls (s : State) (k : Option Nat) : (s.close k).nCalls = s.nCalls := by
  cases k <;> rfl

@[simp] theorem close_quiet (s : State) (k : Option Nat) : (s.close k).quiet = s.quiet := by
  cases k <;> rfl

@[simp] theorem close_late (s : State) (k : Option Nat) : (s.close k).late = s.late := by
  cases k <;> rfl

theorem Inv.told_clear (hs : Inv s) (k : Nat) : ¬ s.clear.Untold k := by
  rintro ⟨hpc, hopen⟩
  cases hstop : s.heartbeatStop with
  | none =>
    simp only [State.clear, hstop, State.close] at hpc hopen
    have howner := hs.owner k ⟨hpc, hopen⟩
    rw [hstop] at howner
    cases howner
  | some l =>
    simp only [State.clear, hstop, State.close] at hpc hopen
    by_cases hkl : k = l
    · subst hkl
      rw [update_self] at hopen
      cases hopen
    · rw [update_of_ne hkl] at hopen
      have howner := hs.owner k ⟨hpc, hopen⟩
      rw [hstop, Option.some.injEq] at howner
      exact hkl howner.symm

theorem Inv.clear (hs : Inv s) (hidle : s.Idle) (q : Bool) : Inv { s.clear with quiet := q } where
  beats k hk := by
    simp only [State.clear, close_beats, close_nBeats] at hk ⊢
    exact hs.beats k hk
  calls i _ := by
    simp only [State.clear, close_calls]
    exact hs.done_of_idle hidle i
  oneCall i j h := by
    simp only [State.clear, close_calls] at h
    exact absurd (hs.done_of_idle hidle i) h
  owner k h := absurd h (hs.told_clear k)
  busy i h := by
    simp only [State.clear, close_calls] at h
    exact absurd (hs.done_of_idle hidle i) h
  leaving i h := by
    simp only [State.clear, close_calls] at h
    exact absurd (hs.done_of_idle hidle i) h
  quiet _ := ⟨rfl, rfl⟩
  silent := by
    simp only [State.clear, close_late]
    exact hs.silent

theorem Inv.enter (hs : Inv s) (hidle : ∀ i, (s.calls i).pc = .done)
    (hid : s.discoveryListingID = none) (hstop : s.heartbeatStop = none) (hquiet : s.quiet = false)
    (c : Call) : Inv { s.setCall s.nCalls c with nCalls := s.nCalls + 1 } := by
  have hnew (i : Nat) (h : ((s.setCall s.nCalls c).calls i).pc ≠ .done) : i = s.nCalls := by
    by_contra hne
    rw [setCall_of_ne s hne] at h
    exact h (hidle i)
  exact
    { beats := hs.beats
      calls := fun i hi => by
        by_contra hne
        have heq := hnew i hne
        simp only at hi
        omega
      oneCall := fun i j hi hj => (hnew i hi).trans (hnew j hj).symm
      owner := hs.owner
      busy := fun _ _ => ⟨hstop, hquiet⟩
      leaving := fun _ _ _ => hid
      quiet := fun _ => ⟨hid, hstop⟩
      silent := hs.silent }

theorem Inv.clear_enter (hs : Inv s) (hidle : s.Idle) {q : Bool} (hquiet : q = false) (c : Call) :
    Inv { s.clear.setCall s.nCalls c with nCalls := s.nCalls + 1, quiet := q } := by
  have hdone (i : Nat) : (s.clear.calls i).pc = .done := by
    simp only [State.clear, close_calls]
    exact hs.done_of_idle hidle i
  have hn : s.clear.nCalls = s.nCalls := close_nCalls s _
  have henter := (hs.clear hidle q).enter hdone rfl rfl hquiet c
  dsimp only at henter
  rw [hn] at henter
  exact henter

theorem Inv.register (hs : Inv s) (hidle : s.Idle) (code : String) (cfg : Settings) :
    Inv (s.register code cfg) :=
  hs.clear_enter hidle rfl _

theorem Inv.unregister (hs : Inv s) (hidle : s.Idle) : Inv s.unregister := by
  cases hid : s.discoveryListingID with
  | none =>
    simp only [State.unregister, hid]
    exact hs.clear hidle true
  | some id =>
    have hquiet : s.clear.quiet = false := by
      simp only [State.clear, close_quiet]
      rw [← Bool.not_eq_true]
      intro hq
      rw [(hs.quiet hq).1] at hid
      cases hid
    simp only [State.unregister, hid]
    exact hs.clear_enter hidle hquiet _

theorem Inv.rest (hs : Inv s) (hidle : s.Idle) (hid : s.discoveryListingID = none)
    (hstop : s.heartbeatStop = none) : Inv { s with quiet := true } :=
  { hs with
    busy := fun i h => absurd (hs.done_of_idle hidle i) h
    quiet := fun _ => ⟨hid, hstop⟩ }

theorem Inv.stopServer (hs : Inv s) (hidle : s.Idle)
    (hrun : s.serverRunning = true ∨ s.discoveryListingID = none)
    (hnone : s.discoveryListingID = none → s.heartbeatStop = none) (ok : Bool) :
    Inv (s.stopServer ok) := by
  have hclear :
      Inv { (if s.discoveryListingID.isSome then s.clear else s) with quiet := true } := by
    cases hid : s.discoveryListingID with
    | some id => exact hs.clear hidle true
    | none => exact hs.rest hidle hid (hnone hid)
  rw [State.stopServer]
  cases hrunning : s.serverRunning with
  | false =>
    simp_all
  | true =>
    cases ok with
    | true => exact { hclear with }
    | false => exact hclear

variable {c : Call}

theorem busy_of_setCall {j : Nat} (hi : (s.calls i).pc ≠ .done)
    (h : ((s.setCall i c).calls j).pc ≠ .done) : (s.calls j).pc ≠ .done := by
  by_cases hji : j = i
  · subst hji
    exact hi
  · rwa [setCall_of_ne s hji] at h

theorem Inv.setCall (hs : Inv s) (hi : (s.calls i).pc ≠ .done) (hkind : c.kind = (s.calls i).kind) :
    Inv (s.setCall i c) where
  beats := hs.beats
  calls j hj := by
    by_contra hne
    exact busy_of_setCall hi hne (hs.calls j hj)
  oneCall a b ha hb := hs.oneCall a b (busy_of_setCall hi ha) (busy_of_setCall hi hb)
  owner := hs.owner
  busy j h := hs.busy j (busy_of_setCall hi h)
  leaving j h hk := by
    refine hs.leaving j (busy_of_setCall hi h) ?_
    by_cases hji : j = i
    · subst hji
      rw [setCall_self, hkind] at hk
      exact hk
    · rwa [setCall_of_ne s hji] at hk
  quiet := hs.quiet
  silent := hs.silent

theorem Inv.receive (hs : Inv s) (hquiet : s.quiet = false) : Inv s.receive :=
  { hs with
    silent := by
      rw [State.receive]
      simp only [hquiet]
      exact hs.silent }

theorem Inv.done_of_setCall (hs : Inv s) (hi : (s.calls i).pc ≠ .done) (hc : c.pc = .done) (j : Nat)
    : ((s.setCall i c).calls j).pc = .done := by
  by_contra hne
  have hji := hs.oneCall j i (busy_of_setCall hi hne) hi
  subst hji
  rw [setCall_self] at hne
  exact hne hc

theorem Inv.finish (hs : Inv s) (hi : (s.calls i).pc ≠ .done)
    (hkind : (s.calls i).kind = .unregister) (hc : c.pc = .done) :
    Inv { s.setCall i c with quiet := true } := by
  have hdone := hs.done_of_setCall hi hc
  exact
    { beats := hs.beats
      calls := fun j _ => hdone j
      oneCall := fun j _ h => absurd (hdone j) h
      owner := hs.owner
      busy := fun j h => absurd (hdone j) h
      leaving := fun j h => absurd (hdone j) h
      quiet := fun _ => ⟨hs.leaving i hi hkind, (hs.busy i hi).1⟩
      silent := hs.silent }

theorem Inv.install (hs : Inv s) (hi : (s.calls i).pc ≠ .done) (id : Option Nat) :
    Inv (s.install i id) := by
  obtain ⟨hstop, hquiet⟩ := hs.busy i hi
  have hdone (j : Nat) : ((s.install i id).calls j).pc = .done := hs.done_of_setCall hi rfl j
  -- there was no other heartbeat that nobody had told to stop
  have hbeat (k : Nat) (hk : k ≠ s.nBeats) : (s.install i id).beats k = s.beats k :=
    setBeat_of_ne (s.setCall i _) hk _
  exact
    { beats := fun k hk => by
        rw [hbeat k (Nat.ne_of_gt hk)]
        exact hs.beats k (Nat.le_of_succ_le hk)
      calls := fun j _ => hdone j
      oneCall := fun j _ h => absurd (hdone j) h
      owner := fun k hk => by
        by_cases hkn : k = s.nBeats
        · subst hkn
          rfl
        · obtain ⟨hpc, hopen⟩ := hk
          rw [hbeat k hkn] at hpc
          have howner := hs.owner k ⟨hpc, hopen⟩
          rw [hstop] at howner
          cases howner
      busy := fun j h => absurd (hdone j) h
      leaving := fun j h => absurd (hdone j) h
      quiet := fun h => by
        rw [show (s.install i id).quiet = s.quiet from rfl, hquiet] at h
        cases h
      silent := hs.silent }

theorem AdvanceCase.inv (hs : Inv s) (hi : (s.calls i).pc ≠ .done)
    (h : AdvanceCase s i t) : Inv t := by
  cases h with
  | moves c hkind => exact hs.setCall hi hkind
  | registers c hkind => exact (hs.receive (hs.busy i hi).2).setCall hi hkind
  | finishes c hkind hc => exact hs.finish hi hkind hc
  | installs id => exact hs.install hi id

theorem Inv.setBeat (hs : Inv s) (hk : (s.beats k).pc ≠ .done) (b : Beat) : Inv (s.setBeat k b) :=
  { hs with
    beats := fun l hl => by
      have hne : l ≠ k := by
        rintro rfl
        exact hk (hs.beats l hl)
      rw [setBeat_of_ne s hne]
      exact hs.beats l hl
    owner := fun l hl => by
      obtain ⟨hpc, hopen⟩ := hl
      by_cases hlk : l = k
      · subst hlk
        exact hs.owner l ⟨hk, hopen⟩
      · rw [setBeat_of_ne s hlk] at hpc
        exact hs.owner l ⟨hpc, hopen⟩ }

theorem Inv.active_of_untold (hs : Inv s) (hk : s.Untold k) :
    (∀ i, (s.calls i).pc = .done) ∧ s.quiet = false := by
  have howner := hs.owner k hk
  constructor
  · intro i
    by_contra hi
    rw [(hs.busy i hi).1] at howner
    cases howner
  · rw [← Bool.not_eq_true]
    intro hq
    rw [(hs.quiet hq).2] at howner
    cases howner

theorem BeatCase.inv {ch : Choice} (hs : Inv s) (hk : (s.beats k).pc ≠ .done)
    (htold : s.closed k = true → ¬ s.Lists k ch) (h : BeatCase s k ch t) : Inv t := by
  have huntold (hlists : s.Lists k ch) : s.Untold k :=
    ⟨hk, (Bool.not_eq_true _).mp fun hclosed => htold hclosed hlists⟩
  cases h with
  | moves b => exact hs.setBeat hk b
  | registers b hpc hch =>
    have hlists : s.Lists k ch := by
      rw [State.Lists, hpc]
      exact hch
    exact (hs.receive (hs.active_of_untold (huntold hlists)).2).setBeat hk b
  | stores b id hpc =>
    have hlists : s.Lists k ch := by
      rw [State.Lists, hpc]
      trivial
    obtain ⟨hdone, hquiet⟩ := hs.active_of_untold (huntold hlists)
    exact
      { hs.setBeat hk b with
        leaving := fun i h => absurd (hdone i) h
        quiet := fun h => by
          rw [show (s.setBeat k b).quiet = s.quiet from rfl, hquiet] at h
          cases h }

theorem inv_step {a : Action} (hs : Inv s) (hok : Orderly s a) (hstep : step s a = some t) :
    Inv t := by
  cases a with
  | register code cfg =>
    cases hstep
    exact hs.register hok code cfg
  | unregister =>
    cases hstep
    exact hs.unregister hok
  | startServer info =>
    obtain ⟨-, rfl⟩ := of_guarded hstep
    exact { hs with }
  | stopServer ok =>
    cases hstep
    exact hs.stopServer hok.1 hok.2.1 hok.2.2 ok
  | advance i r =>
    obtain ⟨hi, hcase⟩ := advance_cases hstep
    exact hcase.inv hs hi
  | beat k ch =>
    obtain ⟨hk, hcase⟩ := beat_cases hstep
    exact hcase.inv hs hk hok

/-- **The listing has one owner**, in every state of a run whose steps are orderly. -/
theorem oneOwner_of_orderly (acts : List Action) (h : AllSteps step Orderly {} acts) :
    AllStates step OneOwner {} acts := by
  refine allStates_of_allSteps (fun t ht => ?_) h
  exact (ht.invariant Inv inv_init fun _ _ _ => inv_step).oneOwner

def listed : List Action :=
  [.register "code" {}, .advance 0 .ok, .advance 0 .ok, .advance 0 .ok]

def expiredAndStopped : List Action :=
  .startServer none :: listed ++
    [.beat 0 .tick, .beat 0 .expired, .beat 0 (.reply .ok), .beat 0 .alive, .stopServer true,
      .beat 0 .stop]

theorem oneOwner_of_expiredAndStopped :
    (∃ s, run step {} expiredAndStopped = some s ∧ s.received = 2 ∧ s.quiet = true) ∧
      AllStates step OneOwner {} expiredAndStopped :=
  ⟨⟨_, rfl, rfl, rfl⟩, oneOwner_of_orderly _ (by decide)⟩

def unregisterOvertaken : List Action :=
  listed ++ [.beat 0 .tick, .beat 0 .expired, .unregister, .advance 1 .ok, .beat 0 (.reply .ok),
    .beat 0 .alive]

def registersOverlap : List Action :=
  [.register "code" {}, .register "code" {}, .advance 0 .ok, .advance 1 .ok, .advance 0 .ok,
    .advance 1 .ok, .advance 0 .ok, .advance 1 .ok]

theorem listing_unowned :
    (∃ s, run step {} unregisterOvertaken = some s ∧ s.quiet = true ∧ s.late = 1 ∧
      s.discoveryListingID = some 1) ∧
    (∃ s, run step {} registersOverlap = some s ∧ s.Untold 0 ∧ s.Untold 1 ∧
      s.heartbeatStop = some 1) ∧
    ∃ s, run step {} (listed ++ [.stopServer true]) = some s ∧ s.quiet = true ∧ s.Untold 0 ∧
      s.discoveryListingID = some 0 :=
  ⟨⟨_, rfl, rfl, rfl, rfl⟩, ⟨_, rfl, ⟨by decide, rfl⟩, ⟨by decide, rfl⟩, rfl⟩,
    ⟨_, rfl, rfl, ⟨by decide, rfl⟩, rfl⟩⟩

end NatProxy.Server.Discovery
