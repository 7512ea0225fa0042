import NatProxy.Signaling.SessionHub

/-!
# The discovery hub of the signal server

Model of `discoveryHub` and of its callers (`signalserver/cmd/signalserver/main.go`). The hub keeps
the listings of the servers and one set of channels. A request that registers or deletes a listing,
and the collector after it has deleted some, call `notifyAll`. It copies the channels to a slice
under the lock, in any order, and sends a token to each of them after that. `stop` takes a channel
out of the set under the lock and closes it after that.

The steps are as in the session hub. What a stream handler writes is left out.
-/

namespace NatProxy.Signaling.DiscoveryHub

open Lib Function
open Signaling.SessionHub (HandlerPC ne_closed_of_live)

structure Listing where
  id : String := ""
  name : String := ""
  room : String := ""
  code : String := ""
  method : String := ""
  transport : String := ""
  protocol : String := ""
  natMapping : String := ""
  natFiltering : String := ""
  updatedAt : Nat := 0
deriving DecidableEq, Repr

structure Handler where
  pc : HandlerPC := .closed
  notify : Bool := false
deriving DecidableEq, Repr

inductive Caller where
  | register
  | delete
  | gcLoop
deriving DecidableEq, Repr

/-- `chs` holds the channels that are still to be sent to, once they have been copied. -/
structure Call where
  caller : Caller := .register
  chs : Option (List Nat) := none
  active : Bool := false
deriving DecidableEq, Repr

/-- The hub, the stream handlers and the calls; `panics` tells which goroutines have panicked. -/
structure State where
  listings : List Listing := []
  watchers : List Nat := []
  handlers : Nat → Handler := fun _ => {}
  nHandlers : Nat := 0
  calls : Nat → Call := fun _ => {}
  nCalls : Nat := 0
  now : Nat := 0
  panics : List Caller := []

def State.setHandler (s : State) (i : Nat) (h : Handler) : State :=
  { s with handlers := update s.handlers i h }

def State.setCall (s : State) (p : Nat) (call : Call) : State :=
  { s with calls := update s.calls p call }

@[simp] theorem setHandler_self (s : State) (i : Nat) (h : Handler) :
    (s.setHandler i h).handlers i = h := by
  rw [State.setHandler]
  exact update_self i h s.handlers

@[simp] theorem setHandler_of_ne (s : State) {i j : Nat} (hne : j ≠ i) (h : Handler) :
    (s.setHandler i h).handlers j = s.handlers j := by
  rw [State.setHandler]
  exact update_of_ne hne h s.handlers

@[simp] theorem setCall_self (s : State) (p : Nat) (call : Call) :
    (s.setCall p call).calls p = call := by
  rw [State.setCall]
  exact update_self p call s.calls

@[simp] theorem setCall_of_ne (s : State) {p q : Nat} (hne : q ≠ p) (call : Call) :
    (s.setCall p call).calls q = s.calls q := by
  rw [State.setCall]
  exact update_of_ne hne call s.calls

/-! ## The hub -/

/-- `register`; a listing without an id gets the random one. -/
def State.register (s : State) (l : Listing) (randomID : String) : State :=
  let l := { l with id := if l.id = "" then randomID else l.id, updatedAt := s.now }
  { s with listings := l :: s.listings.filter (·.id ≠ l.id) }

def State.heartbeat (s : State) (id : String) : State :=
  { s with
    listings := s.listings.map fun l => if l.id = id then { l with updatedAt := s.now } else l }

def State.remove (s : State) (id : String) : State :=
  { s with listings := s.listings.filter (·.id ≠ id) }

/-- The collector's `UpdatedAt.Before(cutoff)`. -/
def State.stale (s : State) (ttl : Nat) (l : Listing) : Bool :=
  decide (l.updatedAt + ttl < s.now)

def State.call (s : State) (caller : Caller) : State :=
  { s.setCall s.nCalls { caller := caller, active := true } with nCalls := s.nCalls + 1 }

/-- One round of `gcLoop` up to `notifyAll`, which it calls if it has deleted a listing. -/
def State.sweep (s : State) (ttl : Nat) : State :=
  let t := { s with listings := s.listings.filter fun l => !s.stale ttl l }
  if s.listings.any (s.stale ttl) then t.call .gcLoop else t

def State.collecting (s : State) : Prop :=
  ∃ p < s.nCalls, (s.calls p).active = true ∧ (s.calls p).caller = .gcLoop

instance (s : State) : Decidable s.collecting :=
  inferInstanceAs (Decidable (∃ p < s.nCalls, _))

/-- `select { case ch <- struct{}{}: default: }` of `notifyAll`. -/
def State.send (s : State) (p ch : Nat) (rest : List Nat) : State :=
  let call := s.calls p
  if (s.handlers ch).pc = .closed then
    { s.setCall p { call with active := false } with panics := call.caller :: s.panics }
  else
    (s.setHandler ch { s.handlers ch with notify := true }).setCall p
      { call with chs := some rest }

/-- `watch`, called by a new stream handler. -/
def State.watch (s : State) : State :=
  { s.setHandler s.nHandlers { pc := .subscribed } with
    watchers := s.nHandlers :: s.watchers
    nHandlers := s.nHandlers + 1 }

/-- The section of `stop` under the lock. -/
def State.unwatch (s : State) (i : Nat) : State :=
  { s.setHandler i { s.handlers i with pc := .removed } with
    watchers := s.watchers.filter (· ≠ i) }

inductive Action where
  | tick
  | register (l : Listing) (randomID : String)
  | delete (id : String)
  | heartbeat (id : String)
  | sweep
  | collect (p : Nat) (chs : List Nat)
  | send (p : Nat)
  | finish (p : Nat)
  | watch
  | sendDiscoveryServersSSE (i : Nat)
  | receive (i : Nat)
  | ctxDone (i : Nat)
  | unwatch (i : Nat)
  | close (i : Nat)

/-- One step; `ttl` is how long the collector keeps a listing. -/
def step (ttl : Nat) (s : State) : Action → Option State
  | .tick => some { s with now := s.now + 1 }
  | .register l randomID => some ((s.register l randomID).call .register)
  | .delete id => some ((s.remove id).call .delete)
  | .heartbeat id => some (s.heartbeat id)
  | .sweep => if ttl = 0 ∨ s.collecting then none else some (s.sweep ttl)
  | .collect p chs =>
    if p < s.nCalls ∧ (s.calls p).active = true ∧ (s.calls p).chs = none ∧
        chs.Perm s.watchers then
      some (s.setCall p { s.calls p with chs := some chs })
    else none
  | .send p =>
    match (s.calls p).chs with
    | some (ch :: rest) =>
      if p < s.nCalls ∧ (s.calls p).active = true then some (s.send p ch rest) else none
    | _ => none
  | .finish p =>
    if (s.calls p).active = true ∧ (s.calls p).chs = some [] then
      some (s.setCall p { s.calls p with active := false })
    else none
  | .watch => some s.watch
  | .sendDiscoveryServersSSE i =>
    if (s.handlers i).pc = .subscribed ∨ (s.handlers i).pc = .notified then
      some (s.setHandler i { s.handlers i with pc := .selecting })
    else none
  | .receive i =>
    if (s.handlers i).pc = .selecting ∧ (s.handlers i).notify = true then
      some (s.setHandler i { pc := .notified, notify := false })
    else none
  | .ctxDone i =>
    if (s.handlers i).pc = .selecting then
      some (s.setHandler i { s.handlers i with pc := .returning })
    else none
  | .unwatch i => if (s.handlers i).pc = .returning then some (s.unwatch i) else none
  | .close i =>
    if (s.handlers i).pc = .removed then
      some (s.setHandler i { s.handlers i with pc := .closed })
    else none

/-! ## Channels are open while they are in use -/

/-- A channel is closed only when no call in progress has it in its slice. -/
def ClosesUnused (s : State) : Action → Prop
  | .close i => ∀ p < s.nCalls, (s.calls p).active = true → i ∉ (s.calls p).chs.getD []
  | _ => True

instance (s : State) : (a : Action) → Decidable (ClosesUnused s a)
  | .close _ => inferInstanceAs (Decidable (∀ p < s.nCalls, _))
  | .tick | .register _ _ | .delete _ | .heartbeat _ | .sweep | .collect _ _ | .send _ | .finish _
  | .watch | .sendDiscoveryServersSSE _ | .receive _ | .ctxDone _ | .unwatch _ => isTrue trivial

/-- The channels of the hub belong to running handlers, and those that a call has yet to send to are
open. -/
structure Open (s : State) : Prop where
  watchers : ∀ i ∈ s.watchers, (s.handlers i).pc.live = true
  calls : ∀ p < s.nCalls, (s.calls p).active = true →
    ∀ i ∈ (s.calls p).chs.getD [], (s.handlers i).pc ≠ .closed
  panics : s.panics = []

theorem open_init : Open {} where
  watchers _ h := by cases h
  calls _ h := absurd h (Nat.not_lt_zero _)
  panics := rfl

variable {s : State}

theorem Open.setCall (hs : Open s) (p : Nat) (call : Call)
    (hcall : call.active = true → ∀ i ∈ call.chs.getD [], (s.handlers i).pc ≠ .closed) :
    Open (s.setCall p call) where
  watchers := hs.watchers
  calls q hq hactive i hi := by
    by_cases heq : q = p
    case pos =>
      subst heq
      rw [setCall_self] at hactive hi
      exact hcall hactive i hi
    case neg =>
      rw [setCall_of_ne s heq] at hactive hi
      exact hs.calls q hq hactive i hi
  panics := hs.panics

theorem Open.call (hs : Open s) (caller : Caller) : Open (s.call caller) where
  watchers := hs.watchers
  calls p hp hactive i hi := by
    by_cases heq : p = s.nCalls
    case pos =>
      subst heq
      simp only [State.call, setCall_self] at hi
      cases hi
    case neg =>
      simp only [State.call, setCall_of_ne s heq] at hactive hi
      have hlt : p < s.nCalls := Nat.lt_of_le_of_ne (Nat.le_of_lt_succ hp) heq
      exact hs.calls p hlt hactive i hi
  panics := hs.panics

theorem Open.setListings (hs : Open s) (listings : List Listing) :
    Open { s with listings := listings } :=
  ⟨hs.watchers, hs.calls, hs.panics⟩

theorem Open.setHandler (hs : Open s) (i : Nat) (h : Handler)
    (hopen : h.pc ≠ .closed) (hlive : i ∈ s.watchers → h.pc.live = true) :
    Open (s.setHandler i h) where
  watchers j hj := by
    by_cases heq : j = i
    case pos =>
      subst heq
      rw [setHandler_self]
      exact hlive hj
    case neg =>
      rw [setHandler_of_ne s heq]
      exact hs.watchers j hj
  calls p hp hactive j hj := by
    by_cases heq : j = i
    case pos =>
      subst heq
      rw [setHandler_self]
      exact hopen
    case neg =>
      rw [setHandler_of_ne s heq]
      exact hs.calls p hp hactive j hj
  panics := hs.panics

theorem Open.send (hs : Open s) {p ch : Nat} {rest : List Nat} (hp : p < s.nCalls)
    (hactive : (s.calls p).active = true) (hchs : (s.calls p).chs = some (ch :: rest)) :
    Open (s.send p ch rest) := by
  have hall : ∀ i ∈ ch :: rest, (s.handlers i).pc ≠ .closed := by
    have h := hs.calls p hp hactive
    rw [hchs, Option.getD_some] at h
    exact h
  rw [State.send, if_neg (hall ch List.mem_cons_self)]
  -- the token does not change where the handler stands
  have hpc : ∀ i, ((s.setHandler ch { s.handlers ch with notify := true }).handlers i).pc =
      (s.handlers i).pc := by
    intro i
    by_cases heq : i = ch
    · subst heq
      rw [setHandler_self]
    · rw [setHandler_of_ne s heq]
  refine Open.setCall ?_ p _ fun _ i hi => ?_
  · refine ⟨fun i hi => ?_, fun q hq hq' i hi => ?_, hs.panics⟩
    · rw [hpc]
      exact hs.watchers i hi
    · rw [hpc]
      exact hs.calls q hq hq' i hi
  · rw [hpc]
    exact hall i (List.mem_cons_of_mem ch hi)

theorem Open.watch (hs : Open s) : Open s.watch := by
  have hset : ∀ i, (s.watch.handlers i).pc = .subscribed ∨
      s.watch.handlers i = s.handlers i := by
    intro i
    by_cases heq : i = s.nHandlers
    · subst heq
      exact .inl (congrArg Handler.pc (setHandler_self s s.nHandlers _))
    · exact .inr (setHandler_of_ne s heq _)
  refine ⟨fun i hi => ?_, fun p hp hactive i hi => ?_, hs.panics⟩
  · rcases hset i with hnew | hold
    · rw [hnew, HandlerPC.live]
    · rcases List.mem_cons.mp hi with heq | hmem
      · rw [heq, State.watch]
        exact congrArg (fun h : Handler => h.pc.live) (setHandler_self s s.nHandlers _)
      · rw [hold]
        exact hs.watchers i hmem
  · rcases hset i with hnew | hold
    · rw [hnew]
      exact HandlerPC.noConfusion
    · rw [hold]
      exact hs.calls p hp hactive i hi

theorem Open.unwatch (hs : Open s) (i : Nat) : Open (s.unwatch i) := by
  have hrest : Open { s with watchers := s.watchers.filter (· ≠ i) } :=
    ⟨fun j hj => hs.watchers j (List.mem_filter.mp hj).1, hs.calls, hs.panics⟩
  have hset := hrest.setHandler i { s.handlers i with pc := .removed }
    HandlerPC.noConfusion
    (fun hmem => absurd rfl (of_decide_eq_true (List.mem_filter.mp hmem).2))
  exact ⟨hset.watchers, hset.calls, hset.panics⟩

theorem Open.close (hs : Open s) {i : Nat} (hpc : (s.handlers i).pc = .removed)
    (hok : ClosesUnused s (.close i)) :
    Open (s.setHandler i { s.handlers i with pc := .closed }) where
  watchers j hj := by
    have hne : j ≠ i := by
      intro heq
      have hlive := hs.watchers j hj
      rw [heq, hpc] at hlive
      cases hlive
    rw [setHandler_of_ne s hne]
    exact hs.watchers j hj
  calls p hp hactive j hj := by
    have hne : j ≠ i := by
      intro heq
      subst heq
      exact hok p hp hactive hj
    rw [setHandler_of_ne s hne]
    exact hs.calls p hp hactive j hj
  panics := hs.panics

theorem Open.step {ttl : Nat} {t : State} {a : Action} (hs : Open s) (hok : ClosesUnused s a)
    (h : step ttl s a = some t) : Open t := by
  cases a with
  | tick => cases h; exact ⟨hs.watchers, hs.calls, hs.panics⟩
  | register l randomID => cases h; exact (hs.setListings _).call .register
  | delete id => cases h; exact (hs.setListings _).call .delete
  | heartbeat id => cases h; exact hs.setListings _
  | sweep =>
    obtain ⟨-, rfl⟩ := of_unless h
    rw [State.sweep]
    split
    case isTrue => exact (hs.setListings _).call .gcLoop
    case isFalse => exact hs.setListings _
  | collect p chs =>
    obtain ⟨⟨_, _, _, hperm⟩, rfl⟩ := of_guarded h
    exact hs.setCall p _ fun _ i hi => ne_closed_of_live (hs.watchers i (hperm.mem_iff.mp hi))
  | send p =>
    rw [DiscoveryHub.step] at h
    split at h
    case h_1 ch rest hchs =>
      obtain ⟨⟨hp, hactive⟩, rfl⟩ := of_guarded h
      exact hs.send hp hactive hchs
    case h_2 => cases h
  | finish p =>
    obtain ⟨_, rfl⟩ := of_guarded h
    exact hs.setCall p _ (fun hactive => by cases hactive)
  | watch => cases h; exact hs.watch
  | sendDiscoveryServersSSE i | receive i | ctxDone i =>
    obtain ⟨_, rfl⟩ := of_guarded h
    exact hs.setHandler i _ HandlerPC.noConfusion fun _ => rfl
  | unwatch i =>
    obtain ⟨_, rfl⟩ := of_guarded h
    exact hs.unwatch i
  | close i =>
    obtain ⟨hpc, rfl⟩ := of_guarded h
    exact hs.close hpc hok

end NatProxy.Signaling.DiscoveryHub
