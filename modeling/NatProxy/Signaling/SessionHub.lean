import NatProxy.Lib.Transition

/-!
# The session hub of the signal server

Model of `sessionHub` and of the stream handlers (`signalserver/cmd/signalserver/main.go`). The hub
keeps the last offer and answer of each session, and for each session and kind a set of channels,
one for each stream handler that watches it. `setOffer` and `setAnswer` store a body under the lock,
take the set out of the lock by reference, and then send a token to each channel in it without
waiting. `stop` takes a channel out of the set under the lock and closes it after that. The
collector deletes sessions that have not been written for a while, and their two sets with them.

A section under the lock is one step, and so is each step of the iteration and each operation on a
channel. A Go map is an object: an iteration that has begun goes on with the set that it took, also
when the hub has another one for the session by then. It passes over entries that were removed
before they were reached, and may find or miss those that are added; that the runtime may end the
program then is left out. Handler `i` owns channel `i`. A send on a closed channel panics, which
ends the request; nothing else happens to the state.
-/

namespace NatProxy.Signaling.SessionHub

open Lib Function

inductive Kind where
  | offer
  | answer
deriving DecidableEq, Repr

/-- `sessionEntry`. A body that was never stored is empty. -/
structure SessionEntry where
  offer : String := ""
  answer : String := ""
  updatedAt : Nat := 0
deriving DecidableEq, Repr

def SessionEntry.body (e : SessionEntry) : Kind → String
  | .offer => e.offer
  | .answer => e.answer

def SessionEntry.set (e : SessionEntry) (kind : Kind) (body : String) (now : Nat) : SessionEntry :=
  match kind with
  | .offer => { e with offer := body, updatedAt := now }
  | .answer => { e with answer := body, updatedAt := now }

variable {kind : Kind}

theorem SessionEntry.body_set_of_ne (e : SessionEntry) {k : Kind} (hne : k ≠ kind)
    (body : String) (now : Nat) : (e.set kind body now).body k = e.body k := by
  cases kind with
  | offer =>
    cases k with
    | offer => exact absurd rfl hne
    | answer => rfl
  | answer =>
    cases k with
    | offer => rfl
    | answer => exact absurd rfl hne

inductive HandlerPC where
  /-- between `watchOffer` or `watchAnswer` and the first send -/
  | subscribed
  /-- in the `select` of its loop -/
  | selecting
  /-- it has received a token and will send -/
  | notified
  /-- its context is done, and `stop` has not begun -/
  | returning
  /-- between the section of `stop` under the lock and the `close` -/
  | removed
  | closed
deriving DecidableEq, Repr

def HandlerPC.live : HandlerPC → Bool
  | .subscribed | .selecting | .notified | .returning => true
  | .removed | .closed => false

theorem ne_closed_of_live {pc : HandlerPC} (h : pc.live = true) : pc ≠ .closed := by
  intro heq
  rw [heq] at h
  cases h

/-- `notify`: there is a token in the channel. -/
structure Handler where
  session : String := ""
  kind : Kind := .offer
  pc : HandlerPC := .closed
  notify : Bool := false
  lastSent : Option String := none
deriving DecidableEq, Repr

def Handler.WaitsFor (h : Handler) (kind : Kind) (session : String) : Prop :=
  h.pc.live = true ∧ h.kind = kind ∧ h.session = session

instance (h : Handler) (kind : Kind) (session : String) : Decidable (h.WaitsFor kind session) :=
  inferInstanceAs (Decidable (_ ∧ _))

/-- A call after its section under the lock: the set it iterates over, what was in it at first, what
was found, and the channel to send to next. -/
structure Post where
  watchers : Option Nat := none
  atStart : List Nat := []
  visited : List Nat := []
  ch : Option Nat := none
  active : Bool := false
deriving DecidableEq, Repr

/-- The hub, its sets, the handlers and the calls. `watch` is `watchO` and `watchA`. -/
structure State where
  sessions : String → Option SessionEntry := fun _ => none
  watch : Kind → String → Option Nat := fun _ _ => none
  sets : Nat → List Nat := fun _ => []
  nSets : Nat := 0
  handlers : Nat → Handler := fun _ => {}
  nHandlers : Nat := 0
  posts : Nat → Post := fun _ => {}
  nPosts : Nat := 0
  now : Nat := 0
  panicked : Bool := false

/-! ## The hub -/

def State.setHandler (s : State) (i : Nat) (h : Handler) : State :=
  { s with handlers := update s.handlers i h }

def State.setPost (s : State) (p : Nat) (post : Post) : State :=
  { s with posts := update s.posts p post }

def State.setWatch (s : State) (kind : Kind) (session : String) (m : Option Nat) : State :=
  { s with watch := fun k id => if k = kind ∧ id = session then m else s.watch k id }

@[simp] theorem setHandler_self (s : State) (i : Nat) (h : Handler) :
    (s.setHandler i h).handlers i = h := by
  rw [State.setHandler]
  exact update_self i h s.handlers

variable {i j m : Nat} {s : State}

@[simp] theorem setHandler_of_ne (s : State) (hne : j ≠ i) (h : Handler) :
    (s.setHandler i h).handlers j = s.handlers j := by
  rw [State.setHandler]
  exact update_of_ne hne h s.handlers

@[simp] theorem setPost_self (s : State) (p : Nat) (post : Post) :
    (s.setPost p post).posts p = post := by
  rw [State.setPost]
  exact update_self p post s.posts

@[simp] theorem setPost_of_ne (s : State) {p q : Nat} (hne : q ≠ p) (post : Post) :
    (s.setPost p post).posts q = s.posts q := by
  rw [State.setPost]
  exact update_of_ne hne post s.posts

/-- The channels in a set; the absent set is empty, as a nil map is. -/
def State.members (s : State) : Option Nat → List Nat
  | some m => s.sets m
  | none => []

theorem mem_members {w : Option Nat} :
    i ∈ s.members w ↔ ∃ m, w = some m ∧ i ∈ s.sets m := by
  cases w with
  | none | some m => simp [State.members]

/-- The section of `setOffer` and `setAnswer` under the lock. -/
def State.set (s : State) (kind : Kind) (session body : String) : State :=
  let e := (s.sessions session).getD {}
  { s.setPost s.nPosts
      { watchers := s.watch kind session
        atStart := s.members (s.watch kind session)
        active := true } with
    sessions := update s.sessions session (some (e.set kind body s.now))
    nPosts := s.nPosts + 1 }

/-- The iteration `for ch := range watchers` finds the channel `ch`. -/
def State.pick (s : State) (p ch : Nat) : State :=
  let post := s.posts p
  s.setPost p { post with visited := ch :: post.visited, ch := some ch }

/-- `select { case ch <- struct{}{}: default: }`. -/
def State.send (s : State) (p ch : Nat) : State :=
  let post := s.posts p
  if (s.handlers ch).pc = .closed then
    { s.setPost p { post with active := false } with panicked := true }
  else
    (s.setHandler ch { s.handlers ch with notify := true }).setPost p { post with ch := none }

/-- The iteration has found what was there from the beginning and still is. -/
def State.exhausted (s : State) (p : Nat) : Prop :=
  ∀ ch ∈ (s.posts p).atStart,
    ch ∈ (s.posts p).visited ∨ ch ∉ s.members (s.posts p).watchers

instance (s : State) (p : Nat) : Decidable (s.exhausted p) :=
  inferInstanceAs (Decidable (∀ ch ∈ (s.posts p).atStart, _))

def State.finish (s : State) (p : Nat) : State :=
  s.setPost p { s.posts p with active := false }

/-- `watchOffer` and `watchAnswer`, called by a new stream handler. -/
def State.subscribe (s : State) (kind : Kind) (session : String) : State :=
  let i := s.nHandlers
  let t := { s.setHandler i { session := session, kind := kind, pc := .subscribed } with
    nHandlers := i + 1 }
  match s.watch kind session with
  | some m => { t with sets := update s.sets m (i :: s.sets m) }
  | none =>
    { t.setWatch kind session (some s.nSets) with
      sets := update s.sets s.nSets [i]
      nSets := s.nSets + 1 }

variable {session : String}

theorem subscribe_of_some (h : s.watch kind session = some m) :
    (s.subscribe kind session).watch = s.watch ∧
      (s.subscribe kind session).sets =
        update s.sets m (s.nHandlers :: s.sets m) := by
  rw [State.subscribe, h]
  exact ⟨rfl, rfl⟩

theorem subscribe_of_none (h : s.watch kind session = none) :
    (∀ k id, (s.subscribe kind session).watch k id =
        if k = kind ∧ id = session then some s.nSets else s.watch k id) ∧
      (s.subscribe kind session).sets = update s.sets s.nSets [s.nHandlers] := by
  rw [State.subscribe, h]
  exact ⟨fun _ _ => rfl, rfl⟩

theorem members_subscribe (hm : m < s.nSets) (h : i ∈ s.sets m) :
    i ∈ (s.subscribe kind session).sets m := by
  cases hw : s.watch kind session with
  | some n =>
    rw [(subscribe_of_some hw).2]
    by_cases heq : m = n
    · subst heq
      rw [update_self]
      exact List.mem_cons_of_mem _ h
    · rw [update_of_ne heq]
      exact h
  | none =>
    rw [(subscribe_of_none hw).2, update_of_ne (Nat.ne_of_lt hm)]
    exact h

theorem subscribe_eq (s : State) (kind : Kind) (session : String) :
    s.subscribe kind session =
      { s.setHandler s.nHandlers { session := session, kind := kind, pc := .subscribed } with
        nHandlers := s.nHandlers + 1
        watch := (s.subscribe kind session).watch
        sets := (s.subscribe kind session).sets
        nSets := (s.subscribe kind session).nSets } := by
  rw [State.subscribe]
  split <;> rfl

@[simp] theorem subscribe_handlers_self (s : State) (kind : Kind) (session : String) :
    (s.subscribe kind session).handlers s.nHandlers =
      { session := session, kind := kind, pc := .subscribed } := by
  rw [subscribe_eq]
  exact setHandler_self s s.nHandlers _

@[simp] theorem subscribe_handlers_of_ne (s : State) (kind : Kind) (session : String)
    (hne : i ≠ s.nHandlers) : (s.subscribe kind session).handlers i = s.handlers i := by
  rw [subscribe_eq]
  exact setHandler_of_ne s hne _

@[simp] theorem subscribe_nHandlers (s : State) (kind : Kind) (session : String) :
    (s.subscribe kind session).nHandlers = s.nHandlers + 1 := by
  rw [subscribe_eq]

/-- The handlers come and go; what is stored and the calls in progress stay. -/
structure Keeps (s t : State) : Prop where
  posts : t.posts = s.posts
  nPosts : t.nPosts = s.nPosts
  sessions : t.sessions = s.sessions
  panicked : t.panicked = s.panicked

theorem subscribe_keeps (s : State) (kind : Kind) (session : String) :
    Keeps s (s.subscribe kind session) := by
  rw [subscribe_eq]
  exact ⟨rfl, rfl, rfl, rfl⟩

def State.remove (s : State) (i : Nat) : State :=
  let h := s.handlers i
  let t := s.setHandler i { h with pc := .removed }
  match s.watch h.kind h.session with
  | none => t
  | some m =>
    let rest := (s.sets m).filter (· ≠ i)
    let t := { t with sets := update s.sets m rest }
    if rest = [] then t.setWatch h.kind h.session none else t

theorem remove_of_none
    (h : s.watch (s.handlers i).kind (s.handlers i).session = none) :
    (s.remove i).watch = s.watch ∧ (s.remove i).sets = s.sets := by
  rw [State.remove, h]
  exact ⟨rfl, rfl⟩

theorem remove_of_some
    (h : s.watch (s.handlers i).kind (s.handlers i).session = some m) :
    (∀ k id n, (s.remove i).watch k id = some n → s.watch k id = some n) ∧
      (s.remove i).sets = update s.sets m ((s.sets m).filter (· ≠ i)) := by
  rw [State.remove, h]
  dsimp only
  split
  case isTrue =>
    exact ⟨fun k id n hn => (Option.ite_none_left_eq_some.mp hn).2, rfl⟩
  case isFalse => exact ⟨fun _ _ _ hn => hn, rfl⟩

theorem members_remove (hne : j ≠ i) (h : j ∈ s.sets m) :
    j ∈ (s.remove i).sets m := by
  cases hw : s.watch (s.handlers i).kind (s.handlers i).session with
  | none =>
    rw [(remove_of_none hw).2]
    exact h
  | some n =>
    rw [(remove_of_some hw).2]
    by_cases heq : m = n
    · subst heq
      rw [update_self]
      exact List.mem_filter.mpr ⟨h, decide_eq_true hne⟩
    · rw [update_of_ne heq]
      exact h

theorem mem_of_remove (h : j ∈ (s.remove i).sets m) : j ∈ s.sets m := by
  cases hw : s.watch (s.handlers i).kind (s.handlers i).session with
  | none =>
    rw [(remove_of_none hw).2] at h
    exact h
  | some n =>
    rw [(remove_of_some hw).2] at h
    rcases update_cases (_ ∈ ·) h with ⟨rfl, hset⟩ | ⟨-, hset⟩
    · exact (List.mem_filter.mp hset).1
    · exact hset

theorem watch_of_remove (h : (s.remove i).watch kind session = some m) :
    s.watch kind session = some m := by
  cases hw : s.watch (s.handlers i).kind (s.handlers i).session with
  | none =>
    rw [(remove_of_none hw).1] at h
    exact h
  | some n => exact (remove_of_some hw).1 kind session m h

theorem remove_eq (s : State) (i : Nat) :
    s.remove i = { s.setHandler i { s.handlers i with pc := .removed } with
      watch := (s.remove i).watch
      sets := (s.remove i).sets } := by
  rw [State.remove]
  split
  case h_1 => rfl
  case h_2 =>
    dsimp only
    split <;> rfl

@[simp] theorem remove_handlers_self (s : State) (i : Nat) :
    (s.remove i).handlers i = { s.handlers i with pc := .removed } := by
  rw [remove_eq]
  exact setHandler_self s i _

@[simp] theorem remove_handlers_of_ne (s : State) (hne : j ≠ i) :
    (s.remove i).handlers j = s.handlers j := by
  rw [remove_eq]
  exact setHandler_of_ne s hne _

theorem remove_keeps (s : State) (i : Nat) : Keeps s (s.remove i) := by
  rw [remove_eq]
  exact ⟨rfl, rfl, rfl, rfl⟩

@[simp] theorem remove_nHandlers (s : State) (i : Nat) :
    (s.remove i).nHandlers = s.nHandlers := by
  rw [remove_eq]
  rfl

@[simp] theorem remove_nSets (s : State) (i : Nat) : (s.remove i).nSets = s.nSets := by
  rw [remove_eq]
  rfl

/-- The collector's `UpdatedAt.Before(cutoff)`. -/
def State.stale (s : State) (ttl : Nat) (session : String) : Bool :=
  match s.sessions session with
  | some e => decide (e.updatedAt + ttl < s.now)
  | none => false

def State.sweep (s : State) (ttl : Nat) : State :=
  { s with
    sessions := fun id => if s.stale ttl id then none else s.sessions id
    watch := fun k id => if s.stale ttl id then none else s.watch k id }

/-! ## The stream handlers -/

def State.stored (s : State) (kind : Kind) (session : String) : Option String :=
  match s.sessions session with
  | some e => if e.body kind = "" then none else some (e.body kind)
  | none => none

/-- `sendSessionSSE`, after which the handler is in its loop. -/
def State.sendSessionSSE (s : State) (i : Nat) : State :=
  let h := s.handlers i
  s.setHandler i
    { h with pc := .selecting, lastSent := (s.stored h.kind h.session).or h.lastSent }

inductive Action where
  | tick
  | set (kind : Kind) (session body : String)
  | pick (p ch : Nat)
  | send (p : Nat)
  | finish (p : Nat)
  | subscribe (kind : Kind) (session : String)
  | sendSessionSSE (i : Nat)
  | receive (i : Nat)
  | ctxDone (i : Nat)
  | remove (i : Nat)
  | close (i : Nat)
  | sweep

/-- `ttl` is how long the collector keeps a session. Bodies are checked and not empty. -/
def step (ttl : Nat) (s : State) : Action → Option State
  | .tick => some { s with now := s.now + 1 }
  | .set kind session body => if body = "" then none else some (s.set kind session body)
  | .pick p ch =>
    if p < s.nPosts ∧ (s.posts p).active = true ∧ (s.posts p).ch = none ∧
        ch ∈ s.members (s.posts p).watchers ∧ ch ∉ (s.posts p).visited then
      some (s.pick p ch)
    else none
  | .send p =>
    match (s.posts p).ch with
    | some ch => if p < s.nPosts ∧ (s.posts p).active = true then some (s.send p ch) else none
    | none => none
  | .finish p =>
    if p < s.nPosts ∧ (s.posts p).active = true ∧ (s.posts p).ch = none ∧ s.exhausted p then
      some (s.finish p)
    else none
  | .subscribe kind session => some (s.subscribe kind session)
  | .sendSessionSSE i =>
    if (s.handlers i).pc = .subscribed ∨ (s.handlers i).pc = .notified then
      some (s.sendSessionSSE i)
    else none
  | .receive i =>
    if (s.handlers i).pc = .selecting ∧ (s.handlers i).notify = true then
      some (s.setHandler i { s.handlers i with pc := .notified, notify := false })
    else none
  | .ctxDone i =>
    if (s.handlers i).pc = .selecting then
      some (s.setHandler i { s.handlers i with pc := .returning })
    else none
  | .remove i => if (s.handlers i).pc = .returning then some (s.remove i) else none
  | .close i =>
    if (s.handlers i).pc = .removed then
      some (s.setHandler i { s.handlers i with pc := .closed })
    else none
  | .sweep => if ttl = 0 then none else some (s.sweep ttl)

inductive Moves (ttl : Nat) (s : State) : Action → State → Prop
  | tick : Moves ttl s .tick { s with now := s.now + 1 }
  | set (kind : Kind) (session body : String) (hbody : body ≠ "") :
      Moves ttl s (.set kind session body) (s.set kind session body)
  | pick (p ch : Nat) (hp : p < s.nPosts) (hactive : (s.posts p).active = true)
      (hnone : (s.posts p).ch = none) (hmem : ch ∈ s.members (s.posts p).watchers)
      (hnew : ch ∉ (s.posts p).visited) : Moves ttl s (.pick p ch) (s.pick p ch)
  | send (p ch : Nat) (hp : p < s.nPosts) (hactive : (s.posts p).active = true)
      (hch : (s.posts p).ch = some ch) : Moves ttl s (.send p) (s.send p ch)
  | finish (p : Nat) (hnone : (s.posts p).ch = none) (hend : s.exhausted p) :
      Moves ttl s (.finish p) (s.finish p)
  | subscribe (kind : Kind) (session : String) :
      Moves ttl s (.subscribe kind session) (s.subscribe kind session)
  | sendSessionSSE (i : Nat) (hpc : (s.handlers i).pc = .subscribed ∨
      (s.handlers i).pc = .notified) : Moves ttl s (.sendSessionSSE i) (s.sendSessionSSE i)
  | receive (i : Nat) (hpc : (s.handlers i).pc = .selecting) :
      Moves ttl s (.receive i)
        (s.setHandler i { s.handlers i with pc := .notified, notify := false })
  | ctxDone (i : Nat) (hpc : (s.handlers i).pc = .selecting) :
      Moves ttl s (.ctxDone i) (s.setHandler i { s.handlers i with pc := .returning })
  | remove (i : Nat) (hpc : (s.handlers i).pc = .returning) : Moves ttl s (.remove i) (s.remove i)
  | close (i : Nat) (hpc : (s.handlers i).pc = .removed) :
      Moves ttl s (.close i) (s.setHandler i { s.handlers i with pc := .closed })
  | sweep : Moves ttl s .sweep (s.sweep ttl)

theorem moves_of_step {ttl : Nat} {t : State} {a : Action} (h : step ttl s a = some t) :
    Moves ttl s a t := by
  cases a with
  | tick => cases h; exact .tick
  | set kind session body =>
    obtain ⟨hbody, rfl⟩ := of_unless h
    exact .set kind session body hbody
  | pick p ch =>
    obtain ⟨⟨hp, hactive, hnone, hmem, hnew⟩, rfl⟩ := of_guarded h
    exact .pick p ch hp hactive hnone hmem hnew
  | send p =>
    rw [step] at h
    split at h
    case h_1 ch hch =>
      obtain ⟨⟨hp, hactive⟩, rfl⟩ := of_guarded h
      exact .send p ch hp hactive hch
    case h_2 => cases h
  | finish p =>
    obtain ⟨⟨_, _, hnone, hend⟩, rfl⟩ := of_guarded h
    exact .finish p hnone hend
  | subscribe kind session => cases h; exact .subscribe kind session
  | sendSessionSSE i =>
    obtain ⟨hpc, rfl⟩ := of_guarded h
    exact .sendSessionSSE i hpc
  | receive i =>
    obtain ⟨⟨hpc, _⟩, rfl⟩ := of_guarded h
    exact .receive i hpc
  | ctxDone i =>
    obtain ⟨hpc, rfl⟩ := of_guarded h
    exact .ctxDone i hpc
  | remove i =>
    obtain ⟨hpc, rfl⟩ := of_guarded h
    exact .remove i hpc
  | close i =>
    obtain ⟨hpc, rfl⟩ := of_guarded h
    exact .close i hpc
  | sweep =>
    obtain ⟨-, rfl⟩ := of_unless h
    exact .sweep

/-! ## The sets that are in use -/

structure Allocated (s : State) : Prop where
  watch : ∀ kind session m, s.watch kind session = some m → m < s.nSets
  posts : ∀ p m, (s.posts p).watchers = some m → m < s.nSets

theorem allocated_init : Allocated {} where
  watch _ _ _ h := by cases h
  posts _ _ h := by cases h

theorem Allocated.setPost (hs : Allocated s) (p : Nat) (post : Post)
    (hpost : ∀ m, post.watchers = some m → m < s.nSets) : Allocated (s.setPost p post) where
  watch := hs.watch
  posts q m h := by
    by_cases hq : q = p
    case pos =>
      subst hq
      rw [setPost_self] at h
      exact hpost m h
    case neg =>
      rw [setPost_of_ne s hq] at h
      exact hs.posts q m h

theorem Allocated.subscribe (hs : Allocated s) (kind : Kind) (session : String) :
    Allocated (s.subscribe kind session) := by
  rw [State.subscribe]
  split
  case h_1 m hm => exact ⟨hs.watch, hs.posts⟩
  case h_2 hnone =>
    refine ⟨fun k id m h => ?_, fun p m h => Nat.lt_succ_of_lt (hs.posts p m h)⟩
    simp only [State.setWatch] at h
    split at h
    case isTrue => cases h; exact Nat.lt_succ_self s.nSets
    case isFalse => exact Nat.lt_succ_of_lt (hs.watch k id m h)

theorem Allocated.step {ttl : Nat} {t : State} {a : Action} (hs : Allocated s)
    (h : Moves ttl s a t) : Allocated t := by
  cases h with
  | tick | sendSessionSSE i | receive i | ctxDone i | close i => exact ⟨hs.watch, hs.posts⟩
  | set kind session body =>
    have hpost := hs.setPost s.nPosts
      { watchers := s.watch kind session
        atStart := s.members (s.watch kind session)
        active := true } (hs.watch kind session)
    exact ⟨hpost.watch, hpost.posts⟩
  | pick p ch | finish p => exact hs.setPost p _ (hs.posts p)
  | send p ch =>
    rw [State.send]
    split
    case isTrue =>
      have hpost := hs.setPost p { s.posts p with active := false } (hs.posts p)
      exact ⟨hpost.watch, hpost.posts⟩
    case isFalse =>
      have hsent : Allocated (s.setHandler ch { s.handlers ch with notify := true }) :=
        ⟨hs.watch, hs.posts⟩
      exact hsent.setPost p _ (hs.posts p)
  | subscribe kind session => exact hs.subscribe kind session
  | remove i =>
    refine ⟨fun k id m h => ?_, fun p m h => ?_⟩
    · rw [remove_nSets]
      exact hs.watch k id m (watch_of_remove h)
    · rw [remove_nSets]
      rw [(remove_keeps s i).posts] at h
      exact hs.posts p m h
  | sweep =>
    exact ⟨fun k id m h => hs.watch k id m (Option.ite_none_left_eq_some.mp h).2, hs.posts⟩

end NatProxy.Signaling.SessionHub
