import NatProxy.Signaling.SessionHub

/-!
# Every subscriber sees the latest value

A handler that has subscribed and not stopped should have a token, or be before its first send, or
have sent what is stored (`SeesLatest`, apart from the time that a call needs to reach it). The
collector breaks this: it drops the set of a session while handlers are in it, and the next body
goes to none of them (`sweptSubscriber_misses`). `latest_seen` says that the property holds as long
as no body is stored while such a handler waits, and no call ends early in a panic.
-/

namespace NatProxy.Signaling.SessionHub

open Lib Function

/-! ## Every subscriber sees the latest value -/

/-- The call `p` will still send a token to the channel `i`, which is the next or will be found. -/
def State.Owes (s : State) (p i : Nat) : Prop :=
  (s.posts p).active = true ∧ ((s.posts p).ch = some i ∨
    i ∈ (s.posts p).atStart ∧ i ∈ s.members (s.posts p).watchers ∧ i ∉ (s.posts p).visited)

instance (s : State) (p i : Nat) : Decidable (s.Owes p i) :=
  inferInstanceAs (Decidable (_ ∧ _))

/-- A call is on its way to the handler, or the handler on its way to its send. -/
def State.InFlight (s : State) (i : Nat) : Prop :=
  (s.handlers i).pc = .notified ∨ ∃ p < s.nPosts, s.Owes p i

/-- The handler has a token, or is before its first send, or has sent what is stored. -/
def State.UpToDate (s : State) (i : Nat) : Prop :=
  (s.handlers i).notify = true ∨ (s.handlers i).pc = .subscribed ∨
    s.stored (s.handlers i).kind (s.handlers i).session = none ∨
    s.stored (s.handlers i).kind (s.handlers i).session = (s.handlers i).lastSent

instance (s : State) (i : Nat) : Decidable (s.InFlight i) :=
  inferInstanceAs (Decidable (_ ∨ _))

instance (s : State) (i : Nat) : Decidable (s.UpToDate i) :=
  inferInstanceAs (Decidable (_ ∨ _))

/-- A handler that watches is up to date, or a call or the handler is about to bring the value to
it. -/
def State.Sees (s : State) (i : Nat) : Prop :=
  (s.handlers i).pc.live = true → s.InFlight i ∨ s.UpToDate i

instance (s : State) (i : Nat) : Decidable (s.Sees i) :=
  inferInstanceAs (Decidable (_ → _))

/-- Every stream sees the latest body. -/
def SeesLatest (s : State) : Prop :=
  ∀ i < s.nHandlers, s.Sees i

instance (s : State) : Decidable (SeesLatest s) :=
  inferInstanceAs (Decidable (∀ i < s.nHandlers, _))

/-- A body is stored only while all its waiting handlers are in the set, and a token goes to open
channels only. -/
def Notifies (s : State) : Action → Prop
  | .set kind session _ => ∀ i < s.nHandlers, (s.handlers i).WaitsFor kind session →
      i ∈ s.members (s.watch kind session)
  | .send p => ∀ ch ∈ (s.posts p).ch, (s.handlers ch).pc ≠ .closed
  | _ => True

instance (s : State) : (a : Action) → Decidable (Notifies s a)
  | .set _ _ _ => inferInstanceAs (Decidable (∀ i < s.nHandlers, _))
  | .send p => inferInstanceAs (Decidable (∀ ch ∈ (s.posts p).ch, _))
  | .tick | .pick _ _ | .finish _ | .subscribe _ _ | .sendSessionSSE _ | .receive _ | .ctxDone _
  | .remove _ | .close _ | .sweep => isTrue trivial

/-! A step that leaves a handler alone: what is stored for it stays or is deleted, and the calls
that owe it a token still do. -/

variable {i p : Nat} {s : State}

theorem State.Sees.frame {t : State} (hs : s.Sees i)
    (hhandler : t.handlers i = s.handlers i)
    (hstored : t.stored (s.handlers i).kind (s.handlers i).session = none ∨
      t.stored (s.handlers i).kind (s.handlers i).session =
        s.stored (s.handlers i).kind (s.handlers i).session)
    (howes : ∀ p < s.nPosts, s.Owes p i → p < t.nPosts ∧ t.Owes p i) : t.Sees i := by
  intro hlive
  rw [hhandler] at hlive
  rcases hs hlive with hflight | hdate
  case inl =>
    left
    rcases hflight with hpc | ⟨p, hp, ho⟩
    case inl => exact .inl (by rw [hhandler]; exact hpc)
    case inr => exact .inr ⟨p, howes p hp ho⟩
  case inr =>
    right
    rw [State.UpToDate, hhandler]
    rcases hdate with htoken | hsub | hnone | hlast
    case inl => exact .inl htoken
    case inr.inl => exact .inr (.inl hsub)
    case inr.inr.inl =>
      exact .inr (.inr (.inl (hstored.elim id fun heq => heq.trans hnone)))
    case inr.inr.inr =>
      exact .inr (.inr (hstored.imp id fun heq => heq.trans hlast))

theorem State.Sees.setHandler {j : Nat} (hs : s.Sees j) (hne : j ≠ i) (h : Handler) :
    (s.setHandler i h).Sees j :=
  hs.frame (setHandler_of_ne s hne h) (.inr rfl) fun _ hp ho => ⟨hp, ho⟩

theorem owes_setPost {q : Nat} {post : Post} (h : s.Owes q i)
    (hself : s.Owes p i → post.active = true ∧ (post.ch = some i ∨
      i ∈ post.atStart ∧ i ∈ s.members post.watchers ∧ i ∉ post.visited)) :
    (s.setPost p post).Owes q i := by
  by_cases hq : q = p
  case pos =>
    subst hq
    rw [State.Owes, setPost_self]
    exact hself h
  case neg =>
    rw [State.Owes, setPost_of_ne s hq]
    exact h

/-! ## The steps -/

theorem owes_of_members {t : State} (h : s.Owes p i) (hpost : t.posts p = s.posts p)
    (hmem : i ∈ s.members (s.posts p).watchers → i ∈ t.members (s.posts p).watchers) :
    t.Owes p i := by
  rw [State.Owes, hpost]
  exact h.imp id fun hor => hor.imp id fun hfind => ⟨hfind.1, hmem hfind.2.1, hfind.2.2⟩

theorem State.Sees.keeps {t : State} (hs : s.Sees i) (h : Keeps s t)
    (hhandler : t.handlers i = s.handlers i)
    (hsets : ∀ p m, (s.posts p).watchers = some m → i ∈ s.sets m → i ∈ t.sets m) : t.Sees i := by
  refine hs.frame hhandler (.inr ?_) fun p hp ho => ⟨h.nPosts ▸ hp, owes_of_members ho ?_ ?_⟩
  · rw [State.stored, h.sessions, State.stored]
  · rw [h.posts]
  · intro hmem
    obtain ⟨m, hw, hset⟩ := mem_members.mp hmem
    exact mem_members.mpr ⟨m, hw, hsets p m hw hset⟩

theorem stored_set_of_ne (s : State) {kind k : Kind} {session id : String} (body : String)
    (hne : ¬ (k = kind ∧ id = session)) :
    (s.set kind session body).stored k id = s.stored k id := by
  by_cases hid : id = session
  case neg => simp [State.stored, State.set, update_of_ne hid]
  case pos =>
    subst hid
    have hkind : k ≠ kind := fun hk => hne ⟨hk, rfl⟩
    simp only [State.stored, State.set, update_self, SessionEntry.body_set_of_ne _ hkind]
    -- the other body of a new entry is empty
    cases s.sessions id with
    | none => cases k <;> rfl
    | some e => rfl

theorem seesLatest_set (hs : SeesLatest s) {kind : Kind} {session body : String}
    (hok : Notifies s (.set kind session body)) : SeesLatest (s.set kind session body) := by
  intro i hi
  by_cases hfor : (s.handlers i).WaitsFor kind session
  case pos =>
    -- the new call will find the handler's channel
    intro _
    refine .inl (.inr ⟨s.nPosts, Nat.lt_succ_self _, ?_⟩)
    have hmem := hok i hi hfor
    simp only [State.Owes, State.set, State.setPost, update_self]
    exact ⟨trivial, .inr ⟨hmem, hmem, List.not_mem_nil⟩⟩
  case neg =>
    intro hlive
    have hne : ¬ ((s.handlers i).kind = kind ∧ (s.handlers i).session = session) :=
      fun heq => hfor ⟨hlive, heq⟩
    refine (hs i hi).frame rfl (.inr (stored_set_of_ne s body hne)) (fun p hp ho => ?_) hlive
    refine ⟨Nat.lt_succ_of_lt hp, owes_of_members ho ?_ id⟩
    exact update_of_ne (Nat.ne_of_lt hp) _ s.posts

theorem seesLatest_pick (hs : SeesLatest s) {ch : Nat}
    (hnone : (s.posts p).ch = none) : SeesLatest (s.pick p ch) := by
  intro i hi
  refine (hs i hi).frame rfl (.inr rfl) fun q hq ho => ⟨hq, owes_setPost ho fun hp => ?_⟩
  obtain ⟨hactive, hch | ⟨hstart, hmem, hnew⟩⟩ := hp
  · rw [hnone] at hch; cases hch
  · grind

theorem seesLatest_send (hs : SeesLatest s) {ch : Nat}
    (hch : (s.posts p).ch = some ch) (hopen : (s.handlers ch).pc ≠ .closed) :
    SeesLatest (s.send p ch) := by
  intro i hi
  rw [State.send, if_neg hopen]
  by_cases heq : i = ch
  case pos =>
    subst heq
    refine fun _ => .inr (.inl ?_)
    simp only [State.setPost, State.setHandler, update_self]
  case neg =>
    have hseen := (hs i (by rw [State.send, if_neg hopen] at hi; exact hi)).setHandler heq
      { s.handlers ch with notify := true }
    refine hseen.frame rfl (.inr rfl) fun q hq ho => ⟨hq, owes_setPost ho fun hp => ?_⟩
    obtain ⟨hactive, hself | hfind⟩ := hp
    · exact absurd (Option.some.inj (hch.symm.trans hself)).symm heq
    · exact ⟨hactive, .inr hfind⟩

theorem seesLatest_finish (hs : SeesLatest s)
    (hnone : (s.posts p).ch = none) (hend : s.exhausted p) : SeesLatest (s.finish p) := by
  intro i hi
  refine (hs i hi).frame rfl (.inr rfl) fun q hq ho => ⟨hq, owes_setPost ho fun hp => ?_⟩
  obtain ⟨_, hch | ⟨hstart, hmem, hnew⟩⟩ := hp
  · rw [hnone] at hch; cases hch
  · rcases hend i hstart with hvisited | hgone
    · exact absurd hvisited hnew
    · exact absurd hmem hgone

theorem seesLatest_subscribe (hs : SeesLatest s) (halloc : Allocated s) (kind : Kind)
    (session : String) : SeesLatest (s.subscribe kind session) := by
  intro i hi
  by_cases heq : i = s.nHandlers
  case pos =>
    subst heq
    refine fun _ => .inr (.inr (.inl ?_))
    rw [subscribe_handlers_self]
  case neg =>
    rw [subscribe_nHandlers] at hi
    have hlt : i < s.nHandlers := by omega
    refine (hs i hlt).keeps (subscribe_keeps s kind session)
      (subscribe_handlers_of_ne s kind session heq) fun p m hw hset => ?_
    exact members_subscribe (halloc.posts p m hw) hset

theorem seesLatest_remove (hs : SeesLatest s) (i : Nat) :
    SeesLatest (s.remove i) := by
  intro j hj
  rw [remove_nHandlers] at hj
  by_cases heq : j = i
  case pos =>
    subst heq
    intro hlive
    rw [remove_handlers_self] at hlive
    cases hlive
  case neg =>
    exact (hs j hj).keeps (remove_keeps s i) (remove_handlers_of_ne s heq) fun _ _ _ hset =>
      members_remove heq hset

theorem seesLatest_setHandler (hs : SeesLatest s) (i : Nat) (h : Handler)
    (hself : (s.setHandler i h).Sees i) : SeesLatest (s.setHandler i h) := by
  intro j hj
  by_cases heq : j = i
  case pos => subst heq; exact hself
  case neg => exact (hs j hj).setHandler heq h

theorem sees_sendSessionSSE (s : State) (i : Nat) : (s.sendSessionSSE i).Sees i := by
  intro _
  refine .inr (.inr (.inr ?_))
  simp only [State.sendSessionSSE, State.setHandler, update_self]
  cases hst : s.stored (s.handlers i).kind (s.handlers i).session with
  | none => exact .inl hst
  | some body =>
    right
    rw [Option.some_or]
    exact hst

theorem sees_ctxDone (hs : s.Sees i) (hpc : (s.handlers i).pc = .selecting) :
    (s.setHandler i { s.handlers i with pc := .returning }).Sees i := by
  intro _
  have hlive : (s.handlers i).pc.live = true := by rw [hpc, HandlerPC.live]
  simp only [State.InFlight, State.UpToDate, State.setHandler, update_self]
  rcases hs hlive with (hnotified | howed) | (htoken | hsub | hlast)
  · rw [hpc] at hnotified; cases hnotified
  · exact .inl (.inr howed)
  · exact .inr (.inl htoken)
  · rw [hpc] at hsub; cases hsub
  · exact .inr (.inr (.inr hlast))

theorem stored_sweep (s : State) (ttl : Nat) (kind : Kind) (session : String) :
    (s.sweep ttl).stored kind session = none ∨
      (s.sweep ttl).stored kind session = s.stored kind session := by
  cases hstale : s.stale ttl session with
  | true => left; simp [State.stored, State.sweep, hstale]
  | false => right; simp [State.stored, State.sweep, hstale]

theorem SeesLatest.step {ttl : Nat} {t : State} {a : Action} (hs : SeesLatest s)
    (halloc : Allocated s) (hok : Notifies s a) (h : Moves ttl s a t) : SeesLatest t := by
  cases h with
  | tick => exact fun i hi => (hs i hi).frame rfl (.inr rfl) fun _ hp ho => ⟨hp, ho⟩
  | set kind session body => exact seesLatest_set hs hok
  | pick p ch _ _ hnone => exact seesLatest_pick hs hnone
  | send p ch _ _ hch => exact seesLatest_send hs hch (hok ch hch)
  | finish p hnone hend => exact seesLatest_finish hs hnone hend
  | subscribe kind session => exact seesLatest_subscribe hs halloc kind session
  | sendSessionSSE i => exact seesLatest_setHandler hs i _ (sees_sendSessionSSE s i)
  | receive i =>
    refine seesLatest_setHandler hs i _ fun _ => .inl (.inl ?_)
    simp only [State.setHandler, update_self]
  | ctxDone i hpc =>
    intro j hj
    by_cases heq : j = i
    case pos => subst heq; exact sees_ctxDone (hs j hj) hpc
    case neg => exact (hs j hj).setHandler heq _
  | remove i => exact seesLatest_remove hs i
  | close i =>
    refine seesLatest_setHandler hs i _ fun hlive => ?_
    simp only [State.setHandler, update_self] at hlive
    cases hlive
  | sweep =>
    intro i hi
    exact (hs i hi).frame rfl (stored_sweep s ttl _ _) fun _ hp ho => ⟨hp, ho⟩

/-- **Every live subscriber sees the latest value** in a run of steps that meet `Notifies`. -/
theorem latest_seen (ttl : Nat) (acts : List Action) (h : AllSteps (step ttl) Notifies {} acts) :
    AllStates (step ttl) SeesLatest {} acts := by
  refine allStates_of_allSteps (fun t ht => ?_) h
  have hboth : Allocated t ∧ SeesLatest t := by
    refine ht.invariant (fun s => Allocated s ∧ SeesLatest s)
      ⟨allocated_init, fun _ hi => absurd hi (Nat.not_lt_zero _)⟩ fun s a u hs hok hu => ?_
    have hmoves := moves_of_step hu
    exact ⟨hs.1.step hmoves, hs.2.step hs.1 hok hmoves⟩
  exact hboth.2

def watchedRun : List Action :=
  [.subscribe .offer "a", .sendSessionSSE 0, .subscribe .offer "a", .subscribe .answer "b",
    .set .offer "a" "1", .sendSessionSSE 2, .pick 0 1, .send 0, .sendSessionSSE 1, .pick 0 0,
    .set .answer "b" "2", .send 0, .finish 0, .receive 0, .sendSessionSSE 0, .pick 1 2, .send 1,
    .finish 1, .ctxDone 1, .set .offer "a" "3", .remove 1, .pick 2 0, .send 2, .finish 2, .close 1,
    .receive 0, .sendSessionSSE 0, .ctxDone 0, .remove 0, .close 0, .tick, .tick, .sweep,
    .subscribe .offer "a", .sendSessionSSE 3, .set .offer "a" "4", .pick 3 3, .send 3, .receive 3,
    .sendSessionSSE 3, .finish 3]

theorem latest_seen_watched :
    ((run (step 1) {} watchedRun).map fun t =>
        ((t.handlers 0).lastSent, (t.handlers 2).notify, (t.handlers 3).lastSent)) =
        some (some "3", true, some "4") ∧
      AllStates (step 1) SeesLatest {} watchedRun :=
  ⟨by decide, latest_seen 1 watchedRun (by decide)⟩

theorem sweptSubscriber_misses :
    ((run (step 1) {} [.set .offer "a" "1", .finish 0, .subscribe .offer "a", .sendSessionSSE 0,
        .tick, .tick, .sweep, .set .offer "a" "2", .finish 1]).map fun t =>
        ((t.handlers 0).pc, (t.handlers 0).notify, (t.handlers 0).lastSent, t.stored .offer "a",
          decide (∃ p < t.nPosts, (t.posts p).active = true), decide (SeesLatest t))) =
      some (.selecting, false, some "1", some "2", false, false) := by
  decide

end NatProxy.Signaling.SessionHub
