import NatProxy.Lib.Transition

/-!
# The holepunch rendezvous

Model of the accept loop of `StartServer` (`golib/api.go`), of the clients that connect to it and
of the session that the signal server keeps for them (`signalserver/cmd/signalserver/main.go`). A
session has one slot for offers and one for answers; both are overwritten without a check and carry
neither a generation nor a client. The loop numbers its groups by generation here, and the offers
that a client holds remember which generation they are. Loop, clients and signal server take their
steps in any order, for any number of clients.

What the loop passes to `AcceptAnswers` was made from offers that it had posted before
(`acceptAnswers_of_posted`). They are those of the group if, from the write that the client read on,
the slot has only been given offers of the group; an answer of a slower client belongs to an earlier
group (`slowClient_mismatch`).
-/

namespace NatProxy.Signaling.Rendezvous

open Lib Function List

/-! ## The session -/

/-- The group of the offers, and the writes of the slot before they were read. -/
structure Offers where
  generation : Nat
  readAt : Nat
deriving DecidableEq, Repr

structure Answers where
  client : Nat
  offers : Offers
deriving DecidableEq, Repr

/-- `sessionEntry`. The answer slot is `none` also at the empty SDP of a clear, which every reader
skips. -/
structure Session where
  offer : Option Nat := none
  answer : Option Answers := none
deriving DecidableEq, Repr

def Session.setOffer (e : Session) (generation : Nat) : Session :=
  { e with offer := some generation }

def Session.setAnswer (e : Session) (answer : Option Answers) : Session :=
  { e with answer := answer }

/-- `PostSDPOffers`, or `PostSDPAnswers` with nil. -/
inductive Request where
  | offers (generation : Nat)
  | clear
deriving DecidableEq, Repr

/-! ## The accept loop -/

inductive LoopPC where
  | head
  | waitSDPAnswersSSE
  | pollForSDPAnswers
  | rePost
  | received (answers : Answers)
  | acceptAnswers (answers : Answers)
  | waitConnected (currOk prevOk : Bool)
  | startServerGroup
  | clearAnswers (newGroup : Nat)
  | postSDPOffers (newGroup : Nat)
  | done
deriving DecidableEq, Repr

def LoopPC.answers : LoopPC → Option Answers
  | .received a | .acceptAnswers a => some a
  | _ => none

/-- A call of `AcceptAnswers`, with the writes so far, `since` and `late`. -/
structure Accepted where
  group : Nat
  answers : Answers
  posts : List Nat
  since : Nat
  late : Bool
deriving DecidableEq, Repr

/-- `posts` lists the writes of the offer slot, `accepted` the calls of `AcceptAnswers`. `late`: the
last write was that of a failed request; otherwise the slot has only been given offers of the
current group since write number `since`. -/
structure State where
  session : Session := {}
  stream : List Answers := []
  inFlight : List Request := []
  serverRunning : Bool := true
  pc : LoopPC := .head
  wrtcGroup : Nat := 0
  prevWrtcGroup : Option Nat := none
  currentOffers : Nat := 0
  created : Nat := 1
  holds : Nat → Option Offers := fun _ => none
  posts : List Nat := []
  since : Nat := 1
  late : Bool := false
  accepted : List Accepted := []

/-- `StartServer` has posted the offers of its first group and starts the loop. -/
def start : State := { session := { offer := some 0 }, posts := [0] }

def State.handle (s : State) (late : Bool) : Request → State
  | .offers g =>
    { s with
      session := s.session.setOffer g
      posts := s.posts ++ [g]
      since :=
        if late = false ∧ (s.late = true ∨ g ≠ s.wrtcGroup) then s.posts.length + 1 else s.since
      late := late }
  | .clear => { s with session := s.session.setAnswer none }

/-- A request of the loop. When it fails it may be lost, or be handled later. -/
def State.send (s : State) (r : Request) (ok : Bool) : State :=
  if ok then s.handle false r else { s with inFlight := s.inFlight ++ [r] }

def State.logAccept (s : State) (g : Nat) (a : Answers) : State :=
  { s with accepted := s.accepted ++ [⟨g, a, s.posts, s.since, s.late⟩] }

/-- `AcceptAnswers` on the current group and on the previous one, with their results. -/
def State.acceptAnswers (s : State) (a : Answers) (currOk prevOk : Bool) : State :=
  let t := s.logAccept s.wrtcGroup a
  match s.prevWrtcGroup with
  | none => { t with pc := if currOk then .waitConnected true false else .head }
  | some p =>
    { t.logAccept p a with
      pc := if currOk || prevOk then .waitConnected currOk prevOk else .head }

/-- The group that connects first, among those that have accepted the answers. -/
def State.winner (s : State) (currOk prevOk ok prev : Bool) : Option Nat :=
  if prev then (if ok && prevOk then s.prevWrtcGroup else none)
  else if ok && currOk then some s.wrtcGroup else none

/-- One step of the accept loop: `ok` is the result of the call it makes, `prev` the one for the
previous group. -/
def State.advance (s : State) (ok prev : Bool) : Option State :=
  match s.pc with
  | .head =>
    -- every wait opens an event stream of its own
    some { s with pc := if s.serverRunning then .waitSDPAnswersSSE else .done, stream := [] }
  | .waitSDPAnswersSSE =>
    if ok then s.stream.head?.map fun a => { s with pc := .received a }
    else some { s with pc := .pollForSDPAnswers }
  | .pollForSDPAnswers =>
    if ok then s.session.answer.map fun a => { s with pc := .received a }
    else some { s with pc := if s.serverRunning then .rePost else .done }
  -- an error of this request is only logged
  | .rePost => some { s.send (.offers s.currentOffers) ok with pc := .head }
  | .received a => some { s.send .clear ok with pc := .acceptAnswers a }
  | .acceptAnswers a => some (s.acceptAnswers a ok prev)
  | .waitConnected currOk prevOk =>
    some { s with
      wrtcGroup := (s.winner currOk prevOk ok prev).getD s.wrtcGroup
      prevWrtcGroup := none
      pc := .startServerGroup }
  | .startServerGroup =>
    -- without a new group the loop waits for answers to the old one again
    if s.serverRunning = false then some { s with pc := .done }
    else if ok then some { s with created := s.created + 1, pc := .clearAnswers s.created }
    else some { s with pc := .head }
  | .clearAnswers new => some { s.send .clear ok with pc := .postSDPOffers new }
  | .postSDPOffers new =>
    -- on an error the new group is stopped and the loop goes on with the old one
    if ok then
      some { s.send (.offers new) true with currentOffers := new, wrtcGroup := new, pc := .head }
    else some { s.send (.offers new) false with pc := .head }
  | .done => none

/-! ## All parties -/

/-- The session is deleted; a failed request arrives after all; the answer slot is written to the
event stream of the loop; steps of the clients and of the loop. -/
inductive Action where
  | stopServer
  | gc
  | arrive (k : Nat)
  | readOffers (client : Nat)
  | postAnswers (client : Nat)
  | streamAnswer
  | loop (ok prev : Bool)
deriving DecidableEq, Repr

def step (s : State) : Action → Option State
  | .stopServer => some { s with serverRunning := false }
  | .gc => some { s with session := {} }
  -- a request that was reported as failed is handled late
  | .arrive k =>
    s.inFlight[k]?.map fun r => { s.handle true r with inFlight := s.inFlight.eraseIdx k }
  | .readOffers j =>
    -- also the refresh: newer offers replace those the client holds
    s.session.offer.map fun g =>
      { s with holds := update s.holds j (some ⟨g, s.posts.length⟩) }
  | .postAnswers j =>
    (s.holds j).map fun o =>
      { s with
        session := s.session.setAnswer (some ⟨j, o⟩)
        holds := update s.holds j none }
  | .streamAnswer => s.session.answer.map fun a => { s with stream := s.stream ++ [a] }
  | .loop ok prev => s.advance ok prev

/-! ## Where answers come from -/

/-- The offers are those of the write of the slot after which they were read. -/
def WasPosted (posts : List Nat) (o : Offers) : Prop :=
  1 ≤ o.readAt ∧ posts[o.readAt - 1]? = some o.generation

theorem WasPosted.mono {l m : List Nat} {o : Offers} (h : WasPosted l o) (hlm : l <+: m) :
    WasPosted m o :=
  ⟨h.1, getElem?_eq_of_isPrefix hlm h.2⟩

theorem wasPosted_last {l : List Nat} {g : Nat} (h : l.getLast? = some g) :
    WasPosted l ⟨g, l.length⟩ := by
  refine ⟨?_, by rw [← h, getLast?_eq_getElem?]⟩
  cases l with
  | nil => cases h
  | cons x l => exact Nat.succ_le_succ (Nat.zero_le _)

/-- The answers are in the slot, on the stream, in the hands of the loop, or were passed to
`AcceptAnswers`. -/
def State.Around (s : State) (a : Answers) : Prop :=
  s.session.answer = some a ∨ a ∈ s.stream ∨ s.pc.answers = some a ∨ ∃ e ∈ s.accepted, e.answers = a

/-- The slot shows the last write, clients read it, and new answers are those of a client to its
offers. -/
structure Flow (s t : State) : Prop where
  posts : s.posts <+: t.posts
  slot : ∀ g, t.session.offer = some g →
    t.posts.getLast? = some g ∨ (s.session.offer = some g ∧ t.posts = s.posts)
  held : ∀ j o, t.holds j = some o →
    s.holds j = some o ∨ (s.session.offer = some o.generation ∧ o.readAt = s.posts.length)
  around : ∀ a, t.Around a → s.Around a ∨ s.holds a.client = some a.offers

/-- `AcceptAnswers` with the answers that the loop has in hand. -/
structure CallsAccept (s : State) (e : Accepted) : Prop where
  answers : s.pc.answers = some e.answers
  posts : e.posts = s.posts
  since : e.since = s.since
  late : e.late = s.late
  group : e.group = s.wrtcGroup ∨ s.prevWrtcGroup = some e.group

inductive AdvanceCase (s : State) : State → Prop where
  | goes (pc : LoopPC) (stream : List Answers) (created : Nat)
      (hpc : ∀ a, pc.answers = some a → s.Around a) (hstream : ∀ a ∈ stream, a ∈ s.stream) :
      AdvanceCase s { s with pc := pc, stream := stream, created := created }
  | sends (r : Request) (ok : Bool) (pc : LoopPC) (hpc : ∀ a, pc.answers = some a → s.Around a)
      (hr : ∀ g, r = .offers g → ok = true → g = s.currentOffers) :
      AdvanceCase s { s.send r ok with pc := pc }
  | accepts (a : Answers) (currOk prevOk : Bool) (hpc : s.pc = .acceptAnswers a) :
      AdvanceCase s (s.acceptAnswers a currOk prevOk)
  | connects (g : Nat) (hg : g = s.wrtcGroup ∨ s.prevWrtcGroup = some g) :
      AdvanceCase s { s with wrtcGroup := g, prevWrtcGroup := none, pc := .startServerGroup }
  | swaps (new : Nat) :
      AdvanceCase s { s.send (.offers new) true with
        currentOffers := new, wrtcGroup := new, pc := .head }

theorem winner_cases (s : State) (currOk prevOk ok prev : Bool) :
    (s.winner currOk prevOk ok prev).getD s.wrtcGroup = s.wrtcGroup ∨
      s.prevWrtcGroup = some ((s.winner currOk prevOk ok prev).getD s.wrtcGroup) := by
  unfold State.winner
  cases prev with
  | false => left; cases ok && currOk <;> rfl
  | true =>
    -- the previous group wins, if there is one
    cases ok && prevOk with
    | false => exact .inl rfl
    | true => cases s.prevWrtcGroup <;> simp

variable {a : Action} {s t : State}

theorem advance_cases {ok prev : Bool} (h : s.advance ok prev = some t) :
    AdvanceCase s t := by
  -- a step that only moves the loop to a place where it has no answers in hand
  have goto : ∀ (pc : LoopPC) (stream : List Answers) (created : Nat), pc.answers = none →
      (∀ a ∈ stream, a ∈ s.stream) →
      AdvanceCase s { s with pc := pc, stream := stream, created := created } :=
    fun pc stream created hpc hstream =>
      .goes pc stream created (fun a ha => by rw [hpc] at ha; cases ha) hstream
  have receive : ∀ a, s.Around a → AdvanceCase s { s with pc := .received a } :=
    fun a ha => .goes _ _ _ (fun b hb => by cases hb; exact ha) fun _ hb => hb
  unfold State.advance at h
  cases hpc : s.pc with
  | head =>
    rw [hpc] at h
    cases h
    exact goto _ [] _ (by cases s.serverRunning <;> rfl) (fun a ha => by cases ha)
  | waitSDPAnswersSSE =>
    rw [hpc] at h
    cases ok with
    | false => cases h; exact goto _ _ _ rfl fun _ ha => ha
    | true =>
      obtain ⟨a, ha, rfl⟩ := Option.map_eq_some_iff.1 h
      exact receive a (.inr (.inl (mem_of_head? ha)))
  | pollForSDPAnswers =>
    rw [hpc] at h
    cases ok with
    | false => cases h; exact goto _ _ _ (by cases s.serverRunning <;> rfl) fun _ ha => ha
    | true =>
      obtain ⟨a, ha, rfl⟩ := Option.map_eq_some_iff.1 h
      exact receive a (.inl ha)
  | rePost =>
    rw [hpc] at h
    cases h
    exact .sends _ ok _ (fun a ha => by cases ha) fun g hg _ => (Request.offers.inj hg).symm
  | received a =>
    rw [hpc] at h
    cases h
    refine .sends _ ok _ (fun b hb => ?_) fun g hg _ => by cases hg
    exact .inr (.inr (.inl (by rw [hpc]; exact hb)))
  | acceptAnswers a =>
    rw [hpc] at h
    cases h
    exact .accepts a ok prev hpc
  | waitConnected currOk prevOk =>
    rw [hpc] at h
    cases h
    exact .connects _ (winner_cases s currOk prevOk ok prev)
  | startServerGroup =>
    rw [hpc] at h
    dsimp only at h
    split at h
    · cases h; exact goto _ _ _ rfl fun _ ha => ha
    · split at h
      · cases h; exact goto _ _ _ rfl fun _ ha => ha
      · cases h; exact goto _ _ _ rfl fun _ ha => ha
  | clearAnswers new =>
    rw [hpc] at h
    cases h
    exact .sends _ ok _ (fun a ha => by cases ha) fun g hg _ => by cases hg
  | postSDPOffers new =>
    rw [hpc] at h
    cases ok with
    | true => cases h; exact .swaps new
    | false =>
      cases h
      exact .sends _ false _ (fun a ha => by cases ha) fun g _ hok => by cases hok
  | done => rw [hpc] at h; cases h

/-! ### Offers and answers in one step -/

structure Handled (s t : State) : Prop where
  posts : s.posts <+: t.posts
  slot : ∀ g, t.session.offer = some g →
    t.posts.getLast? = some g ∨ (s.session.offer = some g ∧ t.posts = s.posts)
  holds : t.holds = s.holds
  answer : ∀ a, t.session.answer = some a → s.session.answer = some a
  stream : t.stream = s.stream
  accepted : t.accepted = s.accepted

theorem handle_spec (s : State) (late : Bool) (r : Request) : Handled s (s.handle late r) := by
  cases r with
  | offers g =>
    refine ⟨prefix_append _ _, fun g' hg => .inl ?_, rfl, fun _ ha => ha, rfl, rfl⟩
    cases hg
    exact getLast?_concat
  | clear =>
    refine ⟨prefix_rfl, fun _ hg => .inr ⟨hg, rfl⟩, rfl, fun _ ha => ?_, rfl, rfl⟩
    cases ha

theorem send_spec (s : State) (r : Request) (ok : Bool) : Handled s (s.send r ok) := by
  cases ok with
  | true => exact handle_spec s false r
  | false => exact ⟨prefix_rfl, fun _ hg => .inr ⟨hg, rfl⟩, rfl, fun _ ha => ha, rfl, rfl⟩

theorem Handled.flow {u : State} (hu : Handled s u) (hposts : t.posts = u.posts)
    (hsession : t.session = u.session) (hholds : t.holds = u.holds) (hstream : t.stream = u.stream)
    (haccepted : t.accepted = u.accepted) (hpc : ∀ a, t.pc.answers = some a → s.Around a) :
    Flow s t where
  posts := by rw [hposts]; exact hu.posts
  slot := by rw [hposts, hsession]; exact hu.slot
  held j o ho := .inl (by rw [hholds, hu.holds] at ho; exact ho)
  around a ha := by
    left
    rcases ha with ha | ha | ha | ha
    · exact .inl (hu.answer a (by rw [hsession] at ha; exact ha))
    · exact .inr (.inl (by rw [hstream, hu.stream] at ha; exact ha))
    · exact hpc a ha
    · exact .inr (.inr (.inr (by rw [haccepted, hu.accepted] at ha; exact ha)))

structure AcceptSpec (s t : State) : Prop where
  session : t.session = s.session
  posts : t.posts = s.posts
  holds : t.holds = s.holds
  stream : t.stream = s.stream
  pc : t.pc.answers = none
  since : t.since = s.since
  late : t.late = s.late
  wrtcGroup : t.wrtcGroup = s.wrtcGroup
  prevWrtcGroup : t.prevWrtcGroup = s.prevWrtcGroup
  currentOffers : t.currentOffers = s.currentOffers
  accepted : ∀ e ∈ t.accepted, e ∈ s.accepted ∨ CallsAccept s e

theorem acceptAnswers_spec {a : Answers} (hpc : s.pc = .acceptAnswers a)
    (currOk prevOk : Bool) : AcceptSpec s (s.acceptAnswers a currOk prevOk) := by
  have hans : s.pc.answers = some a := by rw [hpc]; rfl
  unfold State.acceptAnswers
  cases hp : s.prevWrtcGroup with
  | none =>
    refine ⟨rfl, rfl, rfl, rfl, by cases currOk <;> rfl, rfl, rfl, rfl, rfl, rfl, ?_⟩
    intro e he
    rcases mem_append.1 he with he | he
    · exact .inl he
    · cases mem_singleton.1 he
      exact .inr ⟨hans, rfl, rfl, rfl, .inl rfl⟩
  | some p =>
    refine ⟨rfl, rfl, rfl, rfl, ?_, rfl, rfl, rfl, rfl, rfl, ?_⟩
    · cases currOk <;> cases prevOk <;> rfl
    intro e he
    rcases mem_append.1 he with he | he
    · rcases mem_append.1 he with he | he
      · exact .inl he
      · cases mem_singleton.1 he
        exact .inr ⟨hans, rfl, rfl, rfl, .inl rfl⟩
    · cases mem_singleton.1 he
      exact .inr ⟨hans, rfl, rfl, rfl, .inr hp⟩

theorem AcceptSpec.flow (h : AcceptSpec s t) : Flow s t where
  posts := h.posts ▸ prefix_rfl
  slot g hg := .inr ⟨h.session ▸ hg, h.posts⟩
  held j o ho := .inl (h.holds ▸ ho)
  around a ha := by
    left
    rcases ha with ha | ha | ha | ⟨e, he, rfl⟩
    · exact .inl (h.session ▸ ha)
    · exact .inr (.inl (h.stream ▸ ha))
    · rw [h.pc] at ha; cases ha
    · rcases h.accepted e he with he | he
      · exact .inr (.inr (.inr ⟨e, he, rfl⟩))
      · exact .inr (.inr (.inl he.answers))

theorem flow_of_quiet (hsession : t.session = s.session) (hposts : t.posts = s.posts)
    (hholds : t.holds = s.holds) (haccepted : t.accepted = s.accepted)
    (hstream : ∀ a ∈ t.stream, s.Around a) (hpc : ∀ a, t.pc.answers = some a → s.Around a) :
    Flow s t where
  posts := hposts ▸ prefix_rfl
  slot g hg := .inr ⟨hsession ▸ hg, hposts⟩
  held j o ho := .inl (hholds ▸ ho)
  around a ha := by
    left
    rcases ha with ha | ha | ha | ha
    · exact .inl (hsession ▸ ha)
    · exact hstream a ha
    · exact hpc a ha
    · exact .inr (.inr (.inr (haccepted ▸ ha)))

theorem AdvanceCase.flow (h : AdvanceCase s t) : Flow s t := by
  cases h with
  | goes pc stream created hpc hstream =>
    exact flow_of_quiet rfl rfl rfl rfl (fun a ha => .inr (.inl (hstream a ha))) hpc
  | sends r ok pc hpc hr => exact (send_spec s r ok).flow rfl rfl rfl rfl rfl hpc
  | accepts a currOk prevOk hpc => exact (acceptAnswers_spec hpc currOk prevOk).flow
  | connects g hg =>
    exact flow_of_quiet rfl rfl rfl rfl (fun a ha => .inr (.inl ha)) (fun a ha => by cases ha)
  | swaps new =>
    exact (send_spec s (.offers new) true).flow rfl rfl rfl rfl rfl (fun a ha => by cases ha)

theorem step_flow (h : step s a = some t) : Flow s t := by
  have inHand : ∀ b, s.pc.answers = some b → s.Around b := fun b hb => .inr (.inr (.inl hb))
  have onStream : ∀ b ∈ s.stream, s.Around b := fun b hb => .inr (.inl hb)
  cases a with
  | stopServer => cases h; exact flow_of_quiet rfl rfl rfl rfl onStream inHand
  | gc =>
    cases h
    refine ⟨prefix_rfl, (fun g hg => by cases hg), fun _ _ ho => .inl ho, ?_⟩
    rintro b (hb | hb)
    · cases hb
    · exact .inl (.inr hb)
  | arrive k =>
    obtain ⟨r, -, rfl⟩ := Option.map_eq_some_iff.1 h
    have hpc : (s.handle true r).pc = s.pc := by cases r <;> rfl
    refine (handle_spec s true r).flow rfl rfl rfl rfl rfl fun b hb => inHand b ?_
    rw [← hpc]
    exact hb
  | readOffers j =>
    obtain ⟨g, hg, rfl⟩ := Option.map_eq_some_iff.1 h
    refine ⟨prefix_rfl, fun g' hg' => .inr ⟨hg', rfl⟩, fun i o ho => ?_,
      fun b hb => .inl hb⟩
    dsimp only at ho
    by_cases hij : i = j
    · subst hij
      rw [update_self] at ho
      cases ho
      exact .inr ⟨hg, rfl⟩
    · rw [update_of_ne hij] at ho
      exact .inl ho
  | postAnswers j =>
    obtain ⟨o, ho, rfl⟩ := Option.map_eq_some_iff.1 h
    refine ⟨prefix_rfl, fun g hg => .inr ⟨hg, rfl⟩, fun i o' hi => ?_, ?_⟩
    · grind
    · rintro b (hb | hb)
      · cases hb
        exact .inr ho
      · exact .inl (.inr hb)
  | streamAnswer =>
    obtain ⟨b, hb, rfl⟩ := Option.map_eq_some_iff.1 h
    refine flow_of_quiet rfl rfl rfl rfl (fun c hc => ?_) inHand
    rcases mem_append.1 hc with hc | hc
    · exact onStream c hc
    · rw [mem_singleton.1 hc]
      exact .inl hb
  | loop ok prev => exact (advance_cases h).flow

/-! ## The group and its offers -/

/-- The offers to be posted again are those of the group, and since write number `since` the slot
has only been given these, unless the last write was late. -/
structure Aligned (s : State) : Prop where
  prev : s.prevWrtcGroup = none
  offers : s.currentOffers = s.wrtcGroup
  since : s.late = false → ∀ k, s.since ≤ k + 1 → k < s.posts.length →
    s.posts[k]? = some s.wrtcGroup

theorem Aligned.handle (hs : Aligned s) (g : Nat) :
    ∀ k, (s.handle false (.offers g)).since ≤ k + 1 →
      k < (s.handle false (.offers g)).posts.length →
      (s.handle false (.offers g)).posts[k]? = some g := by
  intro k hsince hk
  simp only [State.handle, true_and, length_append, length_singleton] at hsince hk ⊢
  rcases Nat.lt_or_eq_of_le (Nat.le_of_lt_succ hk) with hold | rfl
  · -- an earlier write counts only if it was one of the same group
    have hsame : s.late = false ∧ g = s.wrtcGroup := by
      by_contra hbreak
      rw [not_and_or, Bool.not_eq_false] at hbreak
      rw [if_pos hbreak] at hsince
      omega
    rw [getElem?_append_left hold, hsame.2]
    rw [if_neg (by simp [hsame])] at hsince
    exact hs.since hsame.1 k hsince hold
  · exact getElem?_concat_length

theorem AdvanceCase.aligned (h : AdvanceCase s t) (hs : Aligned s) : Aligned t := by
  cases h with
  | goes pc stream created hpc hstream => exact ⟨hs.prev, hs.offers, hs.since⟩
  | sends r ok pc hpc hr =>
    cases ok with
    | false => exact ⟨hs.prev, hs.offers, hs.since⟩
    | true =>
      cases r with
      | clear => exact ⟨hs.prev, hs.offers, hs.since⟩
      | offers g =>
        -- only the offers of the current group are posted again
        obtain rfl : g = s.wrtcGroup := (hr g rfl rfl).trans hs.offers
        exact ⟨hs.prev, hs.offers, fun _ => hs.handle s.wrtcGroup⟩
  | accepts a currOk prevOk hpc =>
    have hspec := acceptAnswers_spec hpc currOk prevOk
    refine ⟨hspec.prevWrtcGroup.trans hs.prev, ?_, ?_⟩
    · rw [hspec.currentOffers, hspec.wrtcGroup]; exact hs.offers
    · rw [hspec.late, hspec.since, hspec.posts, hspec.wrtcGroup]; exact hs.since
  | connects g hg =>
    -- the winner of the race is the current group, since there is no previous one
    have hg : g = s.wrtcGroup := by
      rcases hg with hg | hg
      · exact hg
      · rw [hs.prev] at hg; cases hg
    subst hg
    exact ⟨rfl, hs.offers, hs.since⟩
  | swaps new => exact ⟨hs.prev, rfl, fun _ => hs.handle new⟩

theorem step_aligned (h : step s a = some t) (hs : Aligned s) :
    Aligned t := by
  cases a with
  | stopServer | gc => cases h; exact ⟨hs.prev, hs.offers, hs.since⟩
  | arrive k =>
    obtain ⟨r, -, rfl⟩ := Option.map_eq_some_iff.1 h
    cases r with
    | clear => exact ⟨hs.prev, hs.offers, hs.since⟩
    | offers g => exact ⟨hs.prev, hs.offers, (fun hlate => by cases hlate)⟩
  | readOffers j | postAnswers j | streamAnswer =>
    obtain ⟨o, -, rfl⟩ := Option.map_eq_some_iff.1 h
    exact ⟨hs.prev, hs.offers, hs.since⟩
  | loop ok prev => exact (advance_cases h).aligned hs

theorem AdvanceCase.accepted (h : AdvanceCase s t) :
    ∀ e ∈ t.accepted, e ∈ s.accepted ∨ CallsAccept s e := by
  cases h with
  | goes | connects => exact fun e he => .inl he
  | sends r ok pc hpc hr => exact fun e he => .inl ((send_spec s r ok).accepted ▸ he)
  | accepts a currOk prevOk hpc => exact (acceptAnswers_spec hpc currOk prevOk).accepted
  | swaps new => exact fun e he => .inl ((send_spec s (.offers new) true).accepted ▸ he)

theorem step_accepted (h : step s a = some t) :
    ∀ e ∈ t.accepted, e ∈ s.accepted ∨ CallsAccept s e := by
  cases a with
  | stopServer | gc => cases h; exact fun e he => .inl he
  | arrive k =>
    obtain ⟨r, -, rfl⟩ := Option.map_eq_some_iff.1 h
    exact fun e he => .inl ((handle_spec s true r).accepted ▸ he)
  | readOffers j | postAnswers j | streamAnswer =>
    obtain ⟨o, -, rfl⟩ := Option.map_eq_some_iff.1 h
    exact fun e he => .inl he
  | loop ok prev => exact (advance_cases h).accepted

/-! ## What `AcceptAnswers` is given -/

/-- The client read the offers in the slot, and they are the group's if the slot has only been given
these since. -/
structure Accepted.Traced (e : Accepted) : Prop where
  posted : WasPosted e.posts e.answers.offers
  fresh : e.since ≤ e.answers.offers.readAt → e.late = false →
    e.answers.offers.generation = e.group

/-- All offers held and all answers around stem from writes of the offer slot. -/
structure Traced (s : State) : Prop where
  aligned : Aligned s
  slot : ∀ g, s.session.offer = some g → s.posts.getLast? = some g
  held : ∀ j o, s.holds j = some o → WasPosted s.posts o
  around : ∀ a, s.Around a → WasPosted s.posts a.offers
  calls : ∀ e ∈ s.accepted, e.Traced ∧ e.posts <+: s.posts

theorem traced_start : Traced start where
  aligned := by
    refine ⟨rfl, rfl, fun _ k _ hk => ?_⟩
    cases k with
    | zero => rfl
    | succ k => exact absurd (Nat.lt_of_succ_lt_succ hk) (Nat.not_lt_zero k)
  slot g hg := hg
  held j o ho := by cases ho
  around a ha := by
    rcases ha with ha | ha | ha | ⟨e, he, -⟩
    · cases ha
    · cases ha
    · cases ha
    · cases he
  calls e he := by cases he

theorem CallsAccept.traced {e : Accepted} (h : CallsAccept s e) (hs : Traced s) :
    e.Traced := by
  have hposted : WasPosted e.posts e.answers.offers := by
    rw [h.posts]
    exact hs.around _ (.inr (.inr (.inl h.answers)))
  refine ⟨hposted, fun hsince hlate => ?_⟩
  have hgroup : e.group = s.wrtcGroup := by
    rcases h.group with hg | hg
    · exact hg
    · rw [hs.aligned.prev] at hg; cases hg
  -- the write that the client read is one of those of the current group
  have hwrite : s.posts[e.answers.offers.readAt - 1]? = some s.wrtcGroup := by
    have hread := hposted.2
    rw [h.posts] at hread
    apply hs.aligned.since (h.late ▸ hlate)
    · rw [Nat.sub_add_cancel hposted.1, ← h.since]
      exact hsince
    · exact (List.getElem?_eq_some_iff.1 hread).1
  rw [← h.posts, hposted.2] at hwrite
  rw [hgroup, Option.some.inj hwrite]

theorem step_traced (hs : Traced s) (h : step s a = some t) :
    Traced t := by
  have hflow := step_flow h
  constructor
  case aligned =>
    exact step_aligned h hs.aligned
  case slot =>
    grind [hflow.slot, hs.slot]
  case held =>
    intro j o ho
    rcases hflow.held j o ho with hold | ⟨hslot, hread⟩
    · exact (hs.held j o hold).mono hflow.posts
    · -- a read of the slot sees the last write
      have hlast := wasPosted_last (hs.slot _ hslot)
      rw [← hread] at hlast
      exact hlast.mono hflow.posts
  case around =>
    intro b hb
    rcases hflow.around b hb with hold | hclient
    · exact (hs.around b hold).mono hflow.posts
    · exact (hs.held _ _ hclient).mono hflow.posts
  case calls =>
    intro e he
    rcases step_accepted h e he with hold | hcall
    · exact ⟨(hs.calls e hold).1, (hs.calls e hold).2.trans hflow.posts⟩
    · exact ⟨hcall.traced hs, hcall.posts ▸ hflow.posts⟩

theorem traced_of_reachable (h : Reaches step anyStep start s) : Traced s :=
  h.invariant Traced traced_start fun _ _ _ hs _ hstep => step_traced hs hstep

/-- **Answers and groups.** Each call of `AcceptAnswers` gets answers to offers that were posted;
they are those of its group if the slot has only been given these since the client read it. -/
theorem acceptAnswers_of_posted {s : State} (h : Reaches step anyStep start s) :
    ∀ e ∈ s.accepted, e.posts <+: s.posts ∧ WasPosted e.posts e.answers.offers ∧
      (e.since ≤ e.answers.offers.readAt → e.late = false →
        e.answers.offers.generation = e.group) := by
  intro e he
  obtain ⟨htraced, hposts⟩ := (traced_of_reachable h).calls e he
  exact ⟨hposts, htraced.posted, htraced.fresh⟩

def nextGroupRun : List Action :=
  [.readOffers 0, .readOffers 1, .postAnswers 0, .loop true false, .streamAnswer, .loop true false,
    .loop true false, .loop true false, .loop true false, .loop true false, .loop true false,
    .loop true false]

def serveRun (client : Nat) : List Action :=
  [.postAnswers client, .loop true false, .streamAnswer, .loop true false, .loop true false,
    .loop true false]

theorem acceptAnswers_of_posted_second :
    ∃ s, Reaches step anyStep start s ∧ ∃ e ∈ s.accepted, e.group = 1 ∧
      e.since ≤ e.answers.offers.readAt ∧ e.late = false ∧
      e.answers.offers.generation = e.group := by
  have hrun := reaches_of_run
    (rfl : run step start (nextGroupRun ++ .readOffers 2 :: serveRun 2) = some _)
  refine ⟨_, hrun, ⟨1, ⟨2, ⟨1, 2⟩⟩, [0, 1], 2, false⟩, by decide, rfl, Nat.le_refl 2, rfl, ?_⟩
  exact (acceptAnswers_of_posted hrun ⟨1, ⟨2, ⟨1, 2⟩⟩, [0, 1], 2, false⟩ (by decide)).2.2
    (Nat.le_refl 2) rfl

theorem slowClient_mismatch :
    ∃ s, Reaches step anyStep start s ∧
      ∃ e ∈ s.accepted, e.group = 1 ∧ e.answers.offers.generation = 0 := by
  refine ⟨_, reaches_of_run (rfl : run step start (nextGroupRun ++ serveRun 1) = some _), ?_⟩
  exact ⟨⟨1, ⟨1, ⟨0, 1⟩⟩, [0, 1], 2, false⟩, by decide, rfl, rfl⟩

end NatProxy.Signaling.Rendezvous
