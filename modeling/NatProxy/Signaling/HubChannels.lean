import NatProxy.Signaling.DiscoveryHub

/-!
# The hubs and the channels that are closed

Both hubs send tokens after they have released the lock, and `stop` closes a channel after it has
released the lock. A send on a closed channel panics. In a request the panic ends the request, so
that the watchers that come after are not notified; in the collector of the discovery hub it ends
the server. `never_send_on_closed`: this never happens if each channel is closed only when no call
in progress can still come to it. Nothing makes `stop` wait for that (`sendAfterClose_panics`).

In the session hub, after a sweep, `stop` looks for a channel in another set than it is in, so a
call that has taken the old set still finds it there.
-/

namespace NatProxy.Signaling

open Lib

namespace SessionHub

/-- A channel is closed only when no call in progress can still come to it. -/
def ClosesUnused (s : State) : Action → Prop
  | .close i => ∀ p < s.nPosts, (s.posts p).active = true →
      (s.posts p).ch ≠ some i ∧ (i ∈ s.members (s.posts p).watchers → i ∈ (s.posts p).visited)
  | _ => True

instance (s : State) : (a : Action) → Decidable (ClosesUnused s a)
  | .close _ => inferInstanceAs (Decidable (∀ p < s.nPosts, _))
  | .tick | .set _ _ _ | .pick _ _ | .send _ | .finish _ | .subscribe _ _ | .sendSessionSSE _
  | .receive _ | .ctxDone _ | .remove _ | .sweep => isTrue trivial

/-- A channel in the set for a session belongs to a handler that watches it and has not stopped. -/
structure Registered (s : State) : Prop where
  members : ∀ kind session m, s.watch kind session = some m → ∀ i ∈ s.sets m,
    i < s.nHandlers ∧ (s.handlers i).WaitsFor kind session
  distinct : ∀ kind session k id m, s.watch kind session = some m → s.watch k id = some m →
    k = kind ∧ id = session

/-- The channels that a call is to send to or can still find are not closed. -/
structure Open (s : State) : Prop where
  next : ∀ p < s.nPosts, (s.posts p).active = true →
    ∀ i, (s.posts p).ch = some i → (s.handlers i).pc ≠ .closed
  found : ∀ p < s.nPosts, (s.posts p).active = true → ∀ i ∈ s.members (s.posts p).watchers,
    i ∉ (s.posts p).visited → (s.handlers i).pc ≠ .closed
  panicked : s.panicked = false

theorem registered_init : Registered {} where
  members _ _ _ h := by cases h
  distinct _ _ _ _ _ h := by cases h

theorem open_init : Open {} where
  next _ h := absurd h (Nat.not_lt_zero _)
  found _ h := absurd h (Nat.not_lt_zero _)
  panicked := rfl

/-! ## The sets of the hub -/

variable {s t : State}

theorem Registered.setHandler (hs : Registered s) (i : Nat) (h : Handler)
    (hself : ∀ kind session, (s.handlers i).WaitsFor kind session → h.WaitsFor kind session) :
    Registered (s.setHandler i h) where
  members kind session m hm j hj := by
    obtain ⟨hlt, hfor⟩ := hs.members kind session m hm j hj
    refine ⟨hlt, ?_⟩
    by_cases heq : j = i
    case pos =>
      subst heq
      rw [setHandler_self]
      exact hself kind session hfor
    case neg =>
      rw [setHandler_of_ne s heq]
      exact hfor
  distinct := hs.distinct

theorem Registered.shrink (hs : Registered s) (hn : t.nHandlers = s.nHandlers)
    (hwatch : ∀ kind session m, t.watch kind session = some m → s.watch kind session = some m)
    (hmem : ∀ kind session m, t.watch kind session = some m → ∀ i ∈ t.sets m,
      i ∈ s.sets m ∧ t.handlers i = s.handlers i) : Registered t where
  members kind session m hm i hi := by
    obtain ⟨hold, heq⟩ := hmem kind session m hm i hi
    rw [hn, heq]
    exact hs.members kind session m (hwatch kind session m hm) i hold
  distinct kind session k id m hm hk :=
    hs.distinct kind session k id m (hwatch kind session m hm) (hwatch k id m hk)

theorem Registered.subscribe (hs : Registered s) (halloc : Allocated s) (kind : Kind)
    (session : String) : Registered (s.subscribe kind session) := by
  -- the handlers that are in a set are older than the new one
  have hold : ∀ k id m, s.watch k id = some m → ∀ i ∈ s.sets m,
      i < s.nHandlers + 1 ∧ ((s.subscribe kind session).handlers i).WaitsFor k id := by
    intro k id m hm i hi
    obtain ⟨hlt, hfor⟩ := hs.members k id m hm i hi
    rw [subscribe_handlers_of_ne s kind session (Nat.ne_of_lt hlt)]
    exact ⟨Nat.lt_succ_of_lt hlt, hfor⟩
  have hnew : s.nHandlers < s.nHandlers + 1 ∧
      ((s.subscribe kind session).handlers s.nHandlers).WaitsFor kind session := by
    rw [subscribe_handlers_self]
    exact ⟨Nat.lt_succ_self _, rfl, rfl, rfl⟩
  refine ⟨fun k id m hm i hi => ?_, fun k id k' id' m hm hm' => ?_⟩
  · rw [subscribe_nHandlers]
    cases hw : s.watch kind session with
    | some n =>
      rw [(subscribe_of_some hw).1] at hm
      rw [(subscribe_of_some hw).2] at hi
      rcases update_cases (i ∈ ·) hi with ⟨rfl, hi⟩ | ⟨-, hi⟩
      · grind [hs.distinct]
      · exact hold k id m hm i hi
    | none =>
      rw [(subscribe_of_none hw).1] at hm
      rw [(subscribe_of_none hw).2] at hi
      split at hm
      case isTrue hboth =>
        simp_all
      case isFalse =>
        rw [Function.update_of_ne (Nat.ne_of_lt (halloc.watch k id m hm))] at hi
        exact hold k id m hm i hi
  · cases hw : s.watch kind session with
    | some n =>
      rw [(subscribe_of_some hw).1] at hm hm'
      exact hs.distinct k id k' id' m hm hm'
    | none =>
      rw [(subscribe_of_none hw).1] at hm hm'
      split at hm
      case isTrue hboth =>
        split at hm'
        case isTrue hboth' => exact ⟨hboth'.1.trans hboth.1.symm, hboth'.2.trans hboth.2.symm⟩
        case isFalse =>
          cases hm
          exact absurd (halloc.watch k' id' _ hm') (Nat.lt_irrefl _)
      case isFalse =>
        split at hm'
        case isTrue =>
          cases hm'
          exact absurd (halloc.watch k id _ hm) (Nat.lt_irrefl _)
        case isFalse => exact hs.distinct k id k' id' m hm hm'

theorem Registered.remove (hs : Registered s) (i : Nat) : Registered (s.remove i) := by
  refine hs.shrink (remove_nHandlers s i) (fun _ _ _ h => watch_of_remove h)
    fun k id m hm j hj => ?_
  have hwatch := watch_of_remove hm
  -- a set that `i` is in is the set of the session it watches
  have hits : i ∈ s.sets m → s.watch (s.handlers i).kind (s.handlers i).session = some m := by
    intro hmem
    obtain ⟨-, -, hkind, hsession⟩ := hs.members k id m hwatch i hmem
    rw [hkind, hsession]
    exact hwatch
  have hkept : j ∈ s.sets m ∧ j ≠ i := by
    cases hw : s.watch (s.handlers i).kind (s.handlers i).session with
    | none =>
      grind [remove_of_none]
    | some n =>
      rw [(remove_of_some hw).2] at hj
      rcases update_cases (j ∈ ·) hj with ⟨rfl, hset⟩ | ⟨hne, hset⟩
      · obtain ⟨hmem, hji⟩ := List.mem_filter.mp hset
        exact ⟨hmem, of_decide_eq_true hji⟩
      · grind
  exact ⟨hkept.1, remove_handlers_of_ne s hkept.2⟩

theorem Registered.step {ttl : Nat} {a : Action} (hs : Registered s)
    (halloc : Allocated s) (h : Moves ttl s a t) : Registered t := by
  -- a live handler that stays live watches what it watched
  have hstays : ∀ (i : Nat) (h : Handler), h.pc.live = true → h.kind = (s.handlers i).kind →
      h.session = (s.handlers i).session → Registered (s.setHandler i h) :=
    fun i h hlive hkind hsession => hs.setHandler i h fun _ _ hfor =>
      ⟨hlive, hkind.trans hfor.2.1, hsession.trans hfor.2.2⟩
  cases h with
  | tick | set | pick | finish => exact ⟨hs.members, hs.distinct⟩
  | send p ch =>
    rw [State.send]
    split
    case isTrue => exact ⟨hs.members, hs.distinct⟩
    case isFalse =>
      have hsent := hs.setHandler ch { s.handlers ch with notify := true } fun _ _ hfor => hfor
      exact ⟨hsent.members, hsent.distinct⟩
  | subscribe kind session => exact hs.subscribe halloc kind session
  | sendSessionSSE i | receive i | ctxDone i => exact hstays i _ rfl rfl rfl
  | remove i => exact hs.remove i
  | close i hpc =>
    refine hs.setHandler i _ fun _ _ hfor => ?_
    have hlive := hfor.1
    rw [hpc] at hlive
    cases hlive
  | sweep =>
    exact hs.shrink rfl (fun _ _ _ hm => (Option.ite_none_left_eq_some.mp hm).2)
      fun _ _ _ _ i hi => ⟨hi, rfl⟩

/-! ## The calls in progress -/

theorem Open.frame (hs : Open s) (h : Keeps s t)
    (hclosed : ∀ i, (t.handlers i).pc = .closed → (s.handlers i).pc = .closed)
    (hmem : ∀ p, ∀ i ∈ t.members (s.posts p).watchers, (t.handlers i).pc = .closed →
      i ∈ s.members (s.posts p).watchers) : Open t where
  next p hp hactive i hi := by
    rw [h.posts] at hactive hi
    rw [h.nPosts] at hp
    exact fun hc => hs.next p hp hactive i hi (hclosed i hc)
  found p hp hactive i hi hnew := by
    rw [h.posts] at hactive hi hnew
    rw [h.nPosts] at hp
    exact fun hc => hs.found p hp hactive i (hmem p i hi hc) hnew (hclosed i hc)
  panicked := h.panicked.trans hs.panicked

theorem Open.setHandler (hs : Open s) (i : Nat) (h : Handler)
    (hself : h.pc = .closed → (s.handlers i).pc = .closed) : Open (s.setHandler i h) := by
  refine hs.frame ⟨rfl, rfl, rfl, rfl⟩ (fun j hj => ?_) fun _ _ hmem _ => hmem
  by_cases heq : j = i
  case pos =>
    subst heq
    rw [setHandler_self] at hj
    exact hself hj
  case neg =>
    rw [setHandler_of_ne s heq] at hj
    exact hj

theorem Open.setPost (hs : Open s) (p : Nat) (post : Post)
    (hnext : post.active = true → ∀ i, post.ch = some i → (s.handlers i).pc ≠ .closed)
    (hfound : post.active = true → ∀ i ∈ s.members post.watchers, i ∉ post.visited →
      (s.handlers i).pc ≠ .closed) : Open (s.setPost p post) where
  next q hq hactive i hi := by
    by_cases heq : q = p
    case pos =>
      subst heq
      rw [setPost_self] at hactive hi
      exact hnext hactive i hi
    case neg =>
      rw [setPost_of_ne s heq] at hactive hi
      exact hs.next q hq hactive i hi
  found q hq hactive i hi hnew := by
    by_cases heq : q = p
    case pos =>
      subst heq
      rw [setPost_self] at hactive hi hnew
      exact hfound hactive i hi hnew
    case neg =>
      rw [setPost_of_ne s heq] at hactive hi hnew
      exact hs.found q hq hactive i hi hnew
  panicked := hs.panicked

theorem Open.set (hs : Open s) (hreg : Registered s) (kind : Kind)
    (session body : String) : Open (s.set kind session body) := by
  have hcurrent : ∀ i ∈ s.members (s.watch kind session), (s.handlers i).pc ≠ .closed := by
    intro i hi
    obtain ⟨m, hw, hset⟩ := mem_members.mp hi
    exact ne_closed_of_live (hreg.members kind session m hw i hset).2.1
  refine ⟨fun p hp hactive i hi => ?_, fun p hp hactive i hi hnew => ?_, hs.panicked⟩
  · by_cases heq : p = s.nPosts
    case pos =>
      subst heq
      simp only [State.set, setPost_self] at hi
      cases hi
    case neg =>
      simp only [State.set, setPost_of_ne s heq] at hactive hi
      exact hs.next p (Nat.lt_of_le_of_ne (Nat.le_of_lt_succ hp) heq) hactive i hi
  · by_cases heq : p = s.nPosts
    case pos =>
      subst heq
      simp only [State.set, setPost_self] at hi
      exact hcurrent i hi
    case neg =>
      simp only [State.set, setPost_of_ne s heq] at hactive hi hnew
      exact hs.found p (Nat.lt_of_le_of_ne (Nat.le_of_lt_succ hp) heq) hactive i hi hnew

theorem Open.send (hs : Open s) {p ch : Nat} (hp : p < s.nPosts)
    (hactive : (s.posts p).active = true) (hch : (s.posts p).ch = some ch) :
    Open (s.send p ch) := by
  rw [State.send, if_neg (hs.next p hp hactive ch hch)]
  have hsent : Open (s.setHandler ch { s.handlers ch with notify := true }) :=
    hs.setHandler ch _ id
  exact hsent.setPost p _ (fun _ _ h => by cases h) fun _ => hsent.found p hp hactive

theorem Open.subscribe (hs : Open s) (halloc : Allocated s) (kind : Kind)
    (session : String) : Open (s.subscribe kind session) := by
  -- the new channel is open
  have hold : ∀ i, ((s.subscribe kind session).handlers i).pc = .closed → i ≠ s.nHandlers := by
    intro i hc heq
    subst heq
    rw [subscribe_handlers_self] at hc
    cases hc
  refine hs.frame (subscribe_keeps s kind session) (fun i hc => ?_) fun p i hi hc => ?_
  · rw [subscribe_handlers_of_ne s kind session (hold i hc)] at hc
    exact hc
  · obtain ⟨m, hm, hset⟩ := mem_members.mp hi
    refine mem_members.mpr ⟨m, hm, ?_⟩
    cases hw : s.watch kind session with
    | some n =>
      rw [(subscribe_of_some hw).2] at hset
      rcases update_cases (i ∈ ·) hset with ⟨rfl, hset⟩ | ⟨-, hset⟩
      · exact (List.mem_cons.mp hset).resolve_left (hold i hc)
      · exact hset
    | none =>
      have hne : m ≠ s.nSets := Nat.ne_of_lt (halloc.posts p m hm)
      rw [(subscribe_of_none hw).2, Function.update_of_ne hne] at hset
      exact hset

theorem Open.remove (hs : Open s) (i : Nat) : Open (s.remove i) := by
  refine hs.frame (remove_keeps s i) (fun j hc => ?_) fun p j hj _ => ?_
  · grind [remove_handlers_self, remove_handlers_of_ne]
  · obtain ⟨m, hm, hset⟩ := mem_members.mp hj
    exact mem_members.mpr ⟨m, hm, mem_of_remove hset⟩

theorem Open.close (hs : Open s) {i : Nat} (hok : ClosesUnused s (.close i)) :
    Open (s.setHandler i { s.handlers i with pc := .closed }) where
  next p hp hactive j hj := by
    have hne : j ≠ i := by
      intro heq
      subst heq
      exact (hok p hp hactive).1 hj
    rw [setHandler_of_ne s hne]
    exact hs.next p hp hactive j hj
  found p hp hactive j hj hnew := by
    have hne : j ≠ i := by
      intro heq
      subst heq
      exact hnew ((hok p hp hactive).2 hj)
    rw [setHandler_of_ne s hne]
    exact hs.found p hp hactive j hj hnew
  panicked := hs.panicked

theorem Open.step {ttl : Nat} {a : Action} (hs : Open s) (hreg : Registered s)
    (halloc : Allocated s) (hok : ClosesUnused s a) (h : Moves ttl s a t) : Open t := by
  cases h with
  | tick | sweep => exact ⟨hs.next, hs.found, hs.panicked⟩
  | set kind session body => exact hs.set hreg kind session body
  | pick p ch hp hactive hnone hmem hnew =>
    refine hs.setPost p _ (fun _ i hi => ?_) fun _ i hi hi' => ?_
    · cases hi
      exact hs.found p hp hactive ch hmem hnew
    · exact hs.found p hp hactive i hi fun hv => hi' (List.mem_cons_of_mem ch hv)
  | send p ch hp hactive hch => exact hs.send hp hactive hch
  | finish p => exact hs.setPost p _ (fun h => by cases h) (fun h => by cases h)
  | subscribe kind session => exact hs.subscribe halloc kind session
  | sendSessionSSE i | receive i | ctxDone i => exact hs.setHandler i _ fun hc => by cases hc
  | remove i => exact hs.remove i
  | close i => exact hs.close hok

end SessionHub

/-! ## The server -/

structure Hubs where
  sessions : SessionHub.State := {}
  discovery : DiscoveryHub.State := {}

inductive HubAction where
  | session (a : SessionHub.Action)
  | discovery (a : DiscoveryHub.Action)

/-- A panic in the collector of the discovery hub ends the server. -/
def Hubs.step (sessionTTL discoveryTTL : Nat) (s : Hubs) : HubAction → Option Hubs
  | .session a =>
    if .gcLoop ∈ s.discovery.panics then none
    else (SessionHub.step sessionTTL s.sessions a).map fun t => { s with sessions := t }
  | .discovery a =>
    if .gcLoop ∈ s.discovery.panics then none
    else (DiscoveryHub.step discoveryTTL s.discovery a).map fun t => { s with discovery := t }

/-- Nothing was sent on a closed channel. -/
def NoPanic (s : Hubs) : Prop :=
  s.sessions.panicked = false ∧ s.discovery.panics = []

/-- `stop` closes its channel only when no call in progress can still come to it. -/
def Hubs.ClosesUnused (s : Hubs) : HubAction → Prop
  | .session a => SessionHub.ClosesUnused s.sessions a
  | .discovery a => DiscoveryHub.ClosesUnused s.discovery a

instance (s : Hubs) : (a : HubAction) → Decidable (s.ClosesUnused a)
  | .session a => inferInstanceAs (Decidable (SessionHub.ClosesUnused s.sessions a))
  | .discovery a => inferInstanceAs (Decidable (DiscoveryHub.ClosesUnused s.discovery a))

structure Hubs.Inv (s : Hubs) : Prop where
  allocated : SessionHub.Allocated s.sessions
  registered : SessionHub.Registered s.sessions
  sessions : SessionHub.Open s.sessions
  discovery : DiscoveryHub.Open s.discovery

theorem Hubs.inv_init : Hubs.Inv {} where
  allocated := SessionHub.allocated_init
  registered := SessionHub.registered_init
  sessions := SessionHub.open_init
  discovery := DiscoveryHub.open_init

theorem Hubs.Inv.step {sessionTTL discoveryTTL : Nat} {s t : Hubs} {a : HubAction} (hs : s.Inv)
    (hok : s.ClosesUnused a) (h : s.step sessionTTL discoveryTTL a = some t) : t.Inv := by
  cases a with
  | session a =>
    obtain ⟨-, h⟩ := Option.ite_none_left_eq_some.mp h
    obtain ⟨u, hu, rfl⟩ := Option.map_eq_some_iff.mp h
    have hmoves := SessionHub.moves_of_step hu
    exact ⟨hs.allocated.step hmoves, hs.registered.step hs.allocated hmoves,
      hs.sessions.step hs.registered hs.allocated hok hmoves, hs.discovery⟩
  | discovery a =>
    obtain ⟨-, h⟩ := Option.ite_none_left_eq_some.mp h
    obtain ⟨u, hu, rfl⟩ := Option.map_eq_some_iff.mp h
    exact ⟨hs.allocated, hs.registered, hs.sessions, hs.discovery.step hok hu⟩

/-- **No hub sends on a closed channel** if none is closed while a call can come to it. -/
theorem never_send_on_closed (sessionTTL discoveryTTL : Nat) (acts : List HubAction)
    (h : AllSteps (Hubs.step sessionTTL discoveryTTL) Hubs.ClosesUnused {} acts) :
    AllStates (Hubs.step sessionTTL discoveryTTL) NoPanic {} acts := by
  refine allStates_of_allSteps (fun t ht => ?_) h
  have hinv : t.Inv :=
    ht.invariant Hubs.Inv Hubs.inv_init fun s a u hs hok hu => hs.step hok hu
  exact ⟨hinv.sessions.panicked, hinv.discovery.panics⟩

def orderlyRun : List HubAction :=
  [.session (.subscribe .offer "a"), .session (.sendSessionSSE 0), .discovery .watch,
    .session (.set .offer "a" "1"), .session (.pick 0 0), .session (.ctxDone 0),
    .discovery (.register { name := "n", code := "c" } "x"), .session (.remove 0),
    .session (.send 0), .session (.finish 0), .session (.close 0),
    .discovery (.sendDiscoveryServersSSE 0), .discovery (.collect 0 [0]), .discovery (.ctxDone 0),
    .discovery (.unwatch 0), .discovery (.send 0), .discovery (.close 0), .discovery (.finish 0),
    .discovery .tick, .discovery .tick, .discovery .sweep, .discovery (.collect 1 []),
    .discovery (.finish 1)]

theorem never_send_on_closed_orderly :
    ((run (Hubs.step 1 1) {} orderlyRun).map fun t =>
        ((t.sessions.handlers 0).pc, (t.discovery.handlers 0).pc, t.discovery.nCalls)) =
        some (.closed, .closed, 2) ∧
      AllStates (Hubs.step 1 1) NoPanic {} orderlyRun :=
  ⟨by decide, never_send_on_closed 1 1 orderlyRun (by decide)⟩

theorem sendAfterClose_panics :
    ((run (Hubs.step 1 1) {} [.session (.subscribe .offer "a"), .session (.sendSessionSSE 0),
        .session (.set .offer "a" "1"), .session (.pick 0 0), .session (.ctxDone 0),
        .session (.remove 0), .session (.close 0), .session (.send 0)]).map
        fun t => t.sessions.panicked) = some true ∧
    ((run (Hubs.step 1 1) {} [.discovery .watch, .discovery (.sendDiscoveryServersSSE 0),
        .discovery (.register { name := "n", code := "c" } "x"), .discovery (.collect 0 [0]),
        .discovery (.ctxDone 0), .discovery (.unwatch 0), .discovery (.close 0),
        .discovery (.send 0)]).map fun t => t.discovery.panics) = some [.register] ∧
    ((run (Hubs.step 1 1) {} [.discovery (.register { name := "n", code := "c" } "x"),
        .discovery (.collect 0 []), .discovery (.finish 0), .discovery .watch,
        .discovery (.sendDiscoveryServersSSE 0), .discovery .tick, .discovery .tick,
        .discovery .sweep, .discovery (.collect 1 [0]), .discovery (.ctxDone 0),
        .discovery (.unwatch 0), .discovery (.close 0), .discovery (.send 1)]).map
        fun t => t.discovery.panics) = some [.gcLoop] := by
  decide

end NatProxy.Signaling
