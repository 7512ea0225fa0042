import NatProxy.Tunnel.DNSChannel

/-!
# Who gets which DNS response

`pending` is keyed by the transaction ID alone, which the applications choose. A query is in use
from its registration until its call is over and the answer to its frame has been read
(`State.Active`). If no ID is registered while a query with the same ID is in use (`FreshID`), then
every response reaches the caller that asked, and a caller only ever removes its own registration
(`responses_reach_askers`). With two queries of one ID in use, the response to one of them is handed
to the caller of the other, and a caller that times out removes the registration of the other
(`equalIDs_mixed_up`).
-/

namespace NatProxy.Tunnel.DNSChannel

open Lib Function List

/-! ## Queries in use -/

def PC.registered : PC → Bool
  | .idle | .queued | .ignored => false
  | _ => true

/-- The call has been registered and has still a `Delete` to run. -/
def PC.live : PC → Bool
  | .idle | .queued | .ignored | .done => false
  | _ => true

theorem PC.registered_of_live {pc : PC} (h : pc.live = true) : pc.registered = true := by
  cases pc with
  | idle | queued | ignored => cases h
  | _ => rfl

/-- The call is not over, its frame not written, or its answer not read. -/
def State.Active (s : State) (i : Nat) : Prop :=
  ((s.calls i).pc.registered = true ∧ 2 ≤ (s.calls i).query.length) ∧
    ((s.calls i).pc.live = true ∨ (s.calls i).written = false ∨ i ∈ s.asked ∨
      i ∈ s.responses.map Prod.fst)

instance (s : State) (i : Nat) : Decidable (s.Active i) := inferInstanceAs (Decidable (_ ∧ _))

def State.InUse (s : State) (id : UInt16) : Prop :=
  ∃ i, i < s.nCalls ∧ s.Active i ∧ txID (s.calls i).query = id

instance (s : State) (id : UInt16) : Decidable (s.InUse id) :=
  inferInstanceAs (Decidable (∃ i, i < s.nCalls ∧ s.Active i ∧ txID (s.calls i).query = id))

/-- A query is registered only when no query with its transaction ID is in use. -/
def FreshID (s : State) : Action → Prop
  | .query q => 12 ≤ q.length → ¬ s.InUse (txID q)
  | .register f => ∀ fl ∈ s.flushes f, ∀ i ∈ fl.todo.head?,
      2 ≤ (s.calls i).query.length → ¬ s.InUse (txID (s.calls i).query)
  | _ => True

instance (s : State) : (a : Action) → Decidable (FreshID s a)
  | .query _ => inferInstanceAs (Decidable (_ → _))
  | .register f => inferInstanceAs (Decidable (∀ fl ∈ s.flushes f, ∀ i ∈ fl.todo.head?,
      2 ≤ (s.calls i).query.length → ¬ s.InUse (txID (s.calls i).query)))
  | .write _ _ | .flush _ | .writeBatch _ _ | .receive _ | .timeout _ | .seeDone _ | .finish _
  | .answer _ _ | .read | .readError | .sweep _ | .advanceLoop => isTrue trivial

/-- Every call that has got a response has got one to its own question. -/
def OwnAnswers {Q : Type} (question : Bytes → Q) (s : State) : Prop :=
  ∀ i resp, (s.calls i).result = some (.ok resp) → Answers question (s.calls i).query resp

def Action.caller : Action → Option Nat
  | .write i _ | .receive i | .timeout i | .seeDone i | .finish i => some i
  | _ => none

/-- A step of a caller leaves the registrations of the other callers. -/
def KeepsOthers (s : State) (a : Action) (t : State) : Prop :=
  ∀ i, a.caller = some i → ∀ id j, j ≠ i → s.pending id = some j → t.pending id = some j

/-! ## Registrations -/

/-- The call `i` is an item of the batch `fl`, the run `f` of `flushBatch`, that is not written. -/
def State.Item (s : State) (f : Nat) (fl : Flush) (i : Nat) : Prop :=
  i < s.nCalls ∧ (s.calls i).flush = some f ∧ (s.calls i).written = false ∧
    (i ∈ fl.todo ∨ (2 ≤ (s.calls i).query.length → (s.calls i).pc.registered = true))

/-- What is registered is in use under its own ID, no two queries in use share one, and the frames
on their way belong to registered calls. -/
structure Sound (s : State) : Prop where
  own : ∀ id i, s.pending id = some i →
    (s.calls i).pc.live = true ∧ txID (s.calls i).query = id
  unique : ∀ i j, s.Active i → s.Active j → txID (s.calls i).query = txID (s.calls j).query → i = j
  known : ∀ i, (s.calls i).pc.live = true → 2 ≤ (s.calls i).query.length
  stored : ∀ i, (s.calls i).pc = .stored → (s.calls i).flush = none
  fresh : ∀ i, s.nCalls ≤ i → (s.calls i).pc = .idle
  sent : ∀ i, i ∈ s.asked ∨ i ∈ s.responses.map Prod.fst →
    (s.calls i).pc.registered = true ∧ 2 ≤ (s.calls i).query.length
  todo : ∀ f fl, s.flushes f = some fl → ∀ i ∈ fl.todo, i ∈ fl.items
  flush : ∀ f fl, s.flushes f = some fl → ∀ i ∈ fl.items, s.Item f fl i

variable {c : Call} {f i k : Nat} {s t : State}

theorem Sound.active_of_live (h : Sound s)
    (hlive : (s.calls i).pc.live = true) : s.Active i :=
  ⟨⟨PC.registered_of_live hlive, h.known i hlive⟩, .inl hlive⟩

theorem Sound.active_of_sent (h : Sound s)
    (hi : i ∈ s.asked ∨ i ∈ s.responses.map Prod.fst) : s.Active i :=
  ⟨h.sent i hi, .inr (.inr hi)⟩

theorem Sound.lt_of_registered (h : Sound s)
    (hi : (s.calls i).pc.registered = true) : i < s.nCalls := by
  by_contra hge
  rw [h.fresh i (Nat.le_of_not_lt hge)] at hi
  cases hi

theorem Sound.inUse_of_active (h : Sound s) (hi : s.Active i) :
    s.InUse (txID (s.calls i).query) :=
  ⟨i, h.lt_of_registered hi.1.1, hi, rfl⟩

/-- What a step does to one call, if it does not register it. -/
structure CallStep (c d : Call) : Prop where
  query : d.query = c.query
  flush : d.flush = c.flush
  registered : d.pc.registered = c.pc.registered
  live : d.pc.live = true → c.pc.live = true
  stored : d.pc = .stored → c.pc = .stored
  idle : c.pc = .idle → d.pc = .idle

theorem CallStep.refl (c : Call) : CallStep c c :=
  ⟨rfl, rfl, rfl, fun h => h, fun h => h, fun h => h⟩

theorem CallStep.of_live {d : Call} (hc : c.pc.live = true) (hd : d.pc.registered = true)
    (hstored : d.pc ≠ .stored) (hquery : d.query = c.query) (hflush : d.flush = c.flush) :
    CallStep c d where
  query := hquery
  flush := hflush
  registered := by rw [hd, PC.registered_of_live hc]
  live _ := hc
  stored h := absurd h hstored
  idle h := by rw [h] at hc; cases hc

/-- A step that registers nothing and begins no batch. -/
structure Quiet (s t : State) : Prop where
  calls : ∀ i, CallStep (s.calls i) (t.calls i)
  pending : ∀ id i, t.pending id = some i → s.pending id = some i
  -- a call that is over has run its `Delete`
  finished : ∀ i, (s.calls i).pc.live = true → (t.calls i).pc.live = false →
    t.pending (txID (s.calls i).query) = none
  nCalls : t.nCalls = s.nCalls
  flushes : ∀ f fl, t.flushes f = some fl → s.flushes f = some fl
  -- the frames of a batch are written when it ends
  written : ∀ i, (t.calls i).written = (s.calls i).written ∨
    ((t.calls i).written = true ∧ ∀ f, (s.calls i).flush = some f → t.flushes f = none)
  asked : ∀ i ∈ t.asked, i ∈ s.asked ∨ s.Active i
  responses : ∀ i ∈ t.responses.map Prod.fst, i ∈ s.responses.map Prod.fst ∨ i ∈ s.asked

theorem Quiet.active (hs : Sound s) (h : Quiet s t) (hi : t.Active i) :
    s.Active i := by
  obtain ⟨⟨hreg, hlen⟩, hwhy⟩ := hi
  have hcall := h.calls i
  rw [hcall.registered] at hreg
  rw [hcall.query] at hlen
  rcases hwhy with hlive | hwritten | hasked | hresp
  · exact hs.active_of_live (hcall.live hlive)
  · rcases h.written i with hsame | ⟨htrue, -⟩
    · exact ⟨⟨hreg, hlen⟩, .inr (.inl (hsame ▸ hwritten))⟩
    · rw [htrue] at hwritten
      cases hwritten
  · grind [hs.active_of_sent, h.asked]
  · exact hs.active_of_sent (h.responses i hresp).symm

theorem Quiet.sound (hs : Sound s) (h : Quiet s t) : Sound t where
  own id i hid := by
    obtain ⟨hlive, htx⟩ := hs.own id i (h.pending id i hid)
    rw [(h.calls i).query]
    refine ⟨?_, htx⟩
    by_contra hover
    rw [Bool.not_eq_true] at hover
    have hnone := h.finished i hlive hover
    rw [htx, hid] at hnone
    cases hnone
  unique i j hi hj htx := by
    rw [(h.calls i).query, (h.calls j).query] at htx
    exact hs.unique i j (h.active hs hi) (h.active hs hj) htx
  known i hlive := by
    rw [(h.calls i).query]
    exact hs.known i ((h.calls i).live hlive)
  stored i hpc := by
    rw [(h.calls i).flush]
    exact hs.stored i ((h.calls i).stored hpc)
  fresh i hi := (h.calls i).idle (hs.fresh i (by rw [← h.nCalls]; exact hi))
  sent i hi := by
    rw [(h.calls i).registered, (h.calls i).query]
    rcases hi with hasked | hresp
    · rcases h.asked i hasked with hasked | hact
      · exact hs.sent i (.inl hasked)
      · exact hact.1
    · exact hs.sent i (h.responses i hresp).symm
  todo f fl hf := hs.todo f fl (h.flushes f fl hf)
  flush f fl hf i hi := by
    obtain ⟨hlt, hflush, hwritten, hreg⟩ := hs.flush f fl (h.flushes f fl hf) i hi
    rw [State.Item, h.nCalls, (h.calls i).flush, (h.calls i).query, (h.calls i).registered]
    refine ⟨hlt, hflush, ?_, hreg⟩
    rcases h.written i with hsame | ⟨-, hnone⟩
    · rw [hsame, hwritten]
    · rw [hnone f hflush] at hf
      cases hf

theorem Quiet.of_setCall
    (hcalls : t.calls = update s.calls i c) (hc : CallStep (s.calls i) c)
    (hpending : ∀ id j, t.pending id = some j → s.pending id = some j)
    (hover : (s.calls i).pc.live = true → c.pc.live = false →
      t.pending (txID (s.calls i).query) = none)
    (hn : t.nCalls = s.nCalls) (hf : t.flushes = s.flushes)
    (hwritten : c.written = (s.calls i).written ∨ (c.written = true ∧ (s.calls i).flush = none))
    (hasked : ∀ j ∈ t.asked, j ∈ s.asked ∨ (j = i ∧ s.Active i))
    (hresp : t.responses = s.responses) : Quiet s t where
  calls j := by
    rw [hcalls]
    by_cases hj : j = i
    · subst hj
      rw [update_self]
      exact hc
    · rw [update_of_ne hj]
      exact CallStep.refl _
  pending := hpending
  finished j hlive hdead := by
    rw [hcalls] at hdead
    by_cases hj : j = i
    · subst hj
      rw [update_self] at hdead
      exact hover hlive hdead
    · rw [update_of_ne hj, hlive] at hdead
      cases hdead
  nCalls := hn
  flushes f fl hfl := by rw [← hf]; exact hfl
  written j := by
    rw [hcalls]
    by_cases hj : j = i
    · grind
    · rw [update_of_ne hj]
      exact .inl rfl
  asked j hj := by
    rcases hasked j hj with hj | ⟨rfl, hact⟩
    · exact .inl hj
    · exact .inr hact
  responses j hj := .inl (by rw [hresp] at hj; exact hj)

theorem Quiet.of_calls_eq (hcalls : t.calls = s.calls)
    (hpending : ∀ id j, t.pending id = some j → s.pending id = some j) (hn : t.nCalls = s.nCalls)
    (hf : t.flushes = s.flushes) (hasked : ∀ j ∈ t.asked, j ∈ s.asked)
    (hresp : ∀ j ∈ t.responses.map Prod.fst, j ∈ s.responses.map Prod.fst ∨ j ∈ s.asked) :
    Quiet s t where
  calls j := by rw [hcalls]; exact CallStep.refl _
  pending := hpending
  finished j hlive hdead := by
    rw [hcalls, hlive] at hdead
    cases hdead
  nCalls := hn
  flushes f fl hfl := by rw [← hf]; exact hfl
  written j := .inl (by rw [hcalls])
  asked j hj := .inl (hasked j hj)
  responses := hresp

theorem delete_pending {p : UInt16 → Option Nat} {id : UInt16} (id' : UInt16) (j : Nat)
    (h : update p id none id' = some j) : id' ≠ id ∧ p id' = some j := by
  rcases update_cases (· = some j) h with ⟨-, hnone⟩ | hold
  · cases hnone
  · exact hold

/-! ### Steps that register nothing -/

def Call.Has (c : Call) (resp : Bytes) : Prop :=
  c.respCh = some (some resp) ∨ c.pc = .returning (.ok resp) ∨ c.result = some (.ok resp)

/-- What a step of the caller `i` makes of its call, of the registrations and of `asked`. -/
structure CallerStep (s : State) (i : Nat) (c : Call) (pending : UInt16 → Option Nat)
    (asked : List Nat) : Prop where
  live : (s.calls i).pc.live = true
  registered : c.pc.registered = true
  stored : c.pc ≠ .stored
  query : c.query = (s.calls i).query
  flush : c.flush = (s.calls i).flush
  has : ∀ resp, c.Has resp → (s.calls i).Has resp
  -- a call that is over has run its `Delete`
  pending : pending = update s.pending (txID (s.calls i).query) none ∨
    (pending = s.pending ∧ c.pc.live = true)
  written : c.written = (s.calls i).written ∨ (c.written = true ∧ (s.calls i).pc = .stored)
  asked : asked = s.asked ∨ asked = s.asked ++ [i]

def State.CallerTo (s : State) (i : Nat) (t : State) : Prop := ∃ c pending asked,
  t = { s with calls := update s.calls i c, pending := pending, asked := asked } ∧
    CallerStep s i c pending asked

theorem callerStep_of_waiting (hpc : (s.calls i).pc = .waiting)
    (hquery : c.query = (s.calls i).query) (hflush : c.flush = (s.calls i).flush)
    (hwritten : c.written = (s.calls i).written) (hlive : c.pc.live = true)
    (hstored : c.pc ≠ .stored) (hhas : ∀ resp, c.Has resp → (s.calls i).Has resp) :
    CallerStep s i c s.pending s.asked :=
  ⟨by rw [hpc]; rfl, PC.registered_of_live hlive, hstored, hquery, hflush, hhas,
    .inr ⟨rfl, hlive⟩, .inl hwritten, .inl rfl⟩

theorem Call.Has.of_keep {d : Call} {resp : Bytes} (h : c.Has resp) (hch : c.respCh = d.respCh)
    (hpc : ∀ resp, c.pc ≠ .returning (.ok resp)) (hresult : c.result = d.result) :
    d.Has resp := by
  rcases h with h | h | h
  · exact .inl (hch ▸ h)
  · exact absurd h (hpc resp)
  · exact .inr (.inr (hresult ▸ h))

theorem callerTo_settle {r : Result} {ch : Option (Option Bytes)}
    (hpc : (s.calls i).pc = .waiting) (hch : ch = none ∨ ch = (s.calls i).respCh)
    (hr : ∀ resp, r = .ok resp → (s.calls i).respCh = some (some resp)) :
    s.CallerTo i (s.settle i { s.calls i with respCh := ch } r) := by
  have hold : ∀ resp, ch = some (some resp) → (s.calls i).respCh = some (some resp) := by
    intro resp h
    rcases hch with rfl | rfl
    · cases h
    · exact h
  unfold State.settle
  split
  · refine ⟨_, _, _, rfl, callerStep_of_waiting hpc rfl rfl rfl rfl (by simp) fun resp h => ?_⟩
    rcases h with h | h | h
    · exact .inl (hold resp h)
    · exact .inl (hr resp (by cases h; rfl))
    · exact .inr (.inr h)
  · refine ⟨_, _, _, rfl, callerStep_of_waiting hpc rfl rfl rfl rfl (by simp) fun resp h => ?_⟩
    rcases h with h | h | h
    · exact .inl (hold resp h)
    · cases h
    · exact .inl (hr resp (by cases h; rfl))

/-- **What a caller does.** -/
theorem callerTo_of_step {Q : Type} [DecidableEq Q] {question : Bytes → Q} {a : Action}
    (h : step question s a = some t) (ha : a.caller = some i) : s.CallerTo i t := by
  cases a with
  | write j err =>
    cases ha
    simp only [step, State.write] at h
    split at h
    · rename_i hpc
      cases h
      exact ⟨_, _, _, rfl, by rw [hpc]; rfl, rfl, by simp, rfl, rfl,
        fun _ h => h.of_keep rfl (by simp) rfl, .inr ⟨rfl, rfl⟩, .inr ⟨rfl, hpc⟩, .inr rfl⟩
    · rename_i hpc
      cases h
      exact ⟨_, _, _, rfl, by rw [hpc]; rfl, rfl, by simp, rfl, rfl,
        fun _ h => h.of_keep rfl (by simp) rfl, .inr ⟨rfl, rfl⟩, .inr ⟨rfl, hpc⟩, .inl rfl⟩
    · cases h
  | receive j =>
    cases ha
    simp only [step, State.receive] at h
    split at h
    · rename_i hpc hch
      cases h
      refine callerTo_settle hpc (.inl rfl) fun resp hr => ?_
      cases hr
      exact hch
    · rename_i hpc _
      cases h
      exact callerTo_settle hpc (.inl rfl) fun resp hr => (nomatch hr)
    · cases h
  | timeout j =>
    cases ha
    simp only [step, State.timeout] at h
    split at h
    case h_3 => cases h
    all_goals
      rename_i hpc _
      cases h
      exact ⟨_, _, _, rfl, callerStep_of_waiting hpc rfl rfl rfl rfl (by simp)
        fun _ h => h.of_keep rfl (by simp) rfl⟩
  | seeDone j =>
    cases ha
    simp only [step, State.seeDone] at h
    split at h
    · rename_i hpc
      obtain ⟨-, rfl⟩ := of_guarded h
      exact callerTo_settle hpc (.inr rfl) fun resp hr => (nomatch hr)
    · cases h
  | finish j =>
    cases ha
    simp only [step, State.finish] at h
    split at h
    · rename_i hpc
      cases h
      refine ⟨_, _, _, rfl, by rw [hpc]; rfl, rfl, by simp, rfl, rfl, fun resp h => ?_, .inl rfl,
        .inl rfl, .inl rfl⟩
      rcases h with h | h | h
      · exact .inl h
      · cases h
      · cases h
    · rename_i r hpc
      cases h
      refine ⟨_, _, _, rfl, by rw [hpc]; rfl, rfl, by simp, rfl, rfl, fun resp h => ?_, .inl rfl,
        .inl rfl, .inl rfl⟩
      rcases h with h | h | h
      · exact .inl h
      · cases h
      · cases h
        exact .inr (.inl hpc)
    · rename_i hpc
      cases h
      exact ⟨_, _, _, rfl, by rw [hpc]; rfl, rfl, by simp, rfl, rfl,
        fun _ h => h.of_keep rfl (by simp) rfl, .inl rfl, .inl rfl, .inl rfl⟩
    · cases h
  | _ => cases ha

theorem CallerStep.quiet {pending : UInt16 → Option Nat} {asked : List Nat} (hs : Sound s)
    (h : CallerStep s i c pending asked) : Quiet s
      { s with calls := update s.calls i c, pending := pending, asked := asked } := by
  refine Quiet.of_setCall rfl (.of_live h.live h.registered h.stored h.query h.flush) ?_ ?_ rfl
    rfl ?_ ?_ rfl
  · intro id j hid
    rcases h.pending with rfl | ⟨rfl, -⟩
    · exact (delete_pending id j hid).2
    · exact hid
  · intro _ hdead
    rcases h.pending with rfl | ⟨-, hlive⟩
    · exact update_self ..
    · rw [hlive] at hdead
      cases hdead
  · rcases h.written with hsame | ⟨hwritten, hpc⟩
    · exact .inl hsame
    · exact .inr ⟨hwritten, hs.stored i hpc⟩
  · intro j hj
    rcases h.asked with rfl | rfl
    · exact .inl hj
    · rw [mem_append, mem_singleton] at hj
      exact hj.imp_right fun hji => ⟨hji, hs.active_of_live h.live⟩

theorem read_cases (h : s.read = some t) : ∃ k resp rest, s.responses = (k, resp) :: rest ∧
    ((∃ l d, (∀ i r, l ≠ .dispatch i r) ∧ t = { s with responses := rest, loop := l, done := d }) ∨
      ∃ j, s.pending (txID resp) = some j ∧ t = { s with
        responses := rest
        pending := update s.pending (txID resp) none
        loop := .dispatch j resp }) := by
  unfold State.read at h
  split at h
  case h_2 => cases h
  rename_i k resp rest hloop hresp
  refine ⟨k, resp, rest, hresp, ?_⟩
  dsimp only at h
  split_ifs at h
  · cases h
    exact .inl ⟨_, _, by simp, rfl⟩
  · cases h
    exact .inl ⟨_, _, by simp [hloop], rfl⟩
  · split at h
    · rename_i j hj
      cases h
      exact .inr ⟨j, hj, rfl⟩
    · cases h
      exact .inl ⟨_, _, by simp [hloop], rfl⟩

theorem read_quiet (h : s.read = some t) : Quiet s t := by
  obtain ⟨k, resp, rest, hresp, hcases⟩ := read_cases h
  have hrest : ∀ j ∈ rest.map Prod.fst, j ∈ s.responses.map Prod.fst ∨ j ∈ s.asked := by
    intro j hj
    rw [hresp]
    exact .inl (mem_cons_of_mem _ hj)
  obtain ⟨l, d, -, rfl⟩ | ⟨j, -, rfl⟩ := hcases
  · exact Quiet.of_calls_eq rfl (fun _ _ hid => hid) rfl rfl (fun _ hj => hj) hrest
  · exact Quiet.of_calls_eq rfl (fun id j hid => (delete_pending id j hid).2) rfl rfl
      (fun _ hj => hj) hrest

theorem offer_quiet (v : Option Bytes)
    (hcalls : t.calls = update s.calls i ((s.calls i).offer v))
    (hpending : t.pending = s.pending) (hn : t.nCalls = s.nCalls) (hf : t.flushes = s.flushes)
    (hasked : t.asked = s.asked) (hresp : t.responses = s.responses) : Quiet s t := by
  refine Quiet.of_setCall hcalls ⟨rfl, rfl, rfl, fun h => h, fun h => h, fun h => h⟩
    (fun id j hid => by rw [← hpending]; exact hid) (fun hlive hdead => ?_) hn hf (.inl rfl)
    (fun j hj => .inl (by rw [← hasked]; exact hj)) hresp
  rw [show (Call.offer _ _).pc.live = _ from hlive] at hdead
  cases hdead

theorem advanceLoop_quiet (h : s.advanceLoop = some t) : Quiet s t := by
  unfold State.advanceLoop at h
  split at h
  · cases h
    exact offer_quiet _ rfl rfl rfl rfl rfl rfl
  · cases h
    exact offer_quiet _ rfl rfl rfl rfl rfl rfl
  · cases h
    exact Quiet.of_calls_eq rfl (fun id j hid => (delete_pending id j hid).2) rfl rfl
      (fun _ hj => hj) (fun _ hj => .inl hj)
  · cases h

/-! ### Steps that register a query, and batches -/

theorem Sound.store (hs : Sound s)
    (hfresh : ¬ s.InUse (txID c.query)) (hlen : 2 ≤ c.query.length) (hlive : c.pc.live = true)
    (hstored : c.pc = .stored → c.flush = none)
    (hsame : (s.calls i).pc.live = true → c.query = (s.calls i).query)
    (hcalls : t.calls = update s.calls i c)
    (hpending : t.pending = update s.pending (txID c.query) (some i))
    (hn : s.nCalls ≤ t.nCalls) (hi : i < t.nCalls) (hasked : t.asked = s.asked)
    (hresp : t.responses = s.responses)
    (hflush : ∀ f fl, t.flushes f = some fl → ∃ gl, s.flushes f = some gl ∧
      fl.items = gl.items ∧ (∀ j ∈ fl.todo, j ∈ gl.todo) ∧ ∀ j ∈ gl.todo, j ∈ fl.todo ∨ j = i)
    (hitem : ∀ f gl, s.flushes f = some gl → i ∈ gl.items →
      c.flush = (s.calls i).flush ∧ c.written = (s.calls i).written) : Sound t := by
  have hself : t.calls i = c := by rw [hcalls, update_self]
  have hother : ∀ j, j ≠ i → t.calls j = s.calls j := fun j hj => by
    rw [hcalls, update_of_ne hj]
  have hactive : ∀ j, j ≠ i → t.Active j → s.Active j := by
    intro j hj hact
    rw [State.Active, hother j hj, hasked, hresp] at hact
    exact hact
  have hclash : ∀ j, j ≠ i → t.Active j → txID (t.calls j).query ≠ txID c.query := by
    intro j hj hact htx
    rw [hother j hj] at htx
    exact hfresh (htx ▸ hs.inUse_of_active (hactive j hj hact))
  constructor
  case own =>
    intro id j hid
    rw [hpending] at hid
    by_cases htx : id = txID c.query
    · simp_all
    · grind [hs.own]
  case unique =>
    grind [hs.unique]
  case known =>
    intro j hj
    by_cases hji : j = i
    · rw [hji, hself]
      exact hlen
    · rw [hother j hji] at hj ⊢
      exact hs.known j hj
  case stored =>
    grind [hs.stored]
  case fresh =>
    grind [hs.fresh]
  case sent =>
    intro j hj
    by_cases hji : j = i
    · rw [hji, hself]
      exact ⟨PC.registered_of_live hlive, hlen⟩
    · rw [hother j hji]
      rw [hasked, hresp] at hj
      exact hs.sent j hj
  case todo =>
    grind [hs.todo]
  case flush =>
    intro f fl hf j hj
    obtain ⟨gl, hg, hitems, -, htodo⟩ := hflush f fl hf
    rw [hitems] at hj
    obtain ⟨hlt, hfl, hwritten, hreg⟩ := hs.flush f gl hg j hj
    by_cases hji : j = i
    · grind [State.Item, PC.registered_of_live]
    · grind [State.Item]

theorem Sound.of_inert (hs : Sound s)
    (hcalls : ∀ j, t.calls j = s.calls j ∨
      ((s.calls j).pc.live = false ∧ (t.calls j).pc.live = false ∧
        ((t.calls j).pc.registered = true → (t.calls j).written = true) ∧
        ¬ (j ∈ s.asked ∨ j ∈ s.responses.map Prod.fst)))
    (hpending : t.pending = s.pending) (hasked : t.asked = s.asked)
    (hresp : t.responses = s.responses) (hidle : ∀ j, t.nCalls ≤ j → (t.calls j).pc = .idle)
    (htodo : ∀ f fl, t.flushes f = some fl → ∀ i ∈ fl.todo, i ∈ fl.items)
    (hflush : ∀ f fl, t.flushes f = some fl → ∀ i ∈ fl.items, t.Item f fl i) : Sound t := by
  have hlive : ∀ j, (t.calls j).pc.live = true → t.calls j = s.calls j := by
    intro j hj
    rcases hcalls j with hsame | ⟨-, hdead, -⟩
    · exact hsame
    · rw [hdead] at hj
      cases hj
  have hactive : ∀ j, t.Active j → t.calls j = s.calls j ∧ s.Active j := by
    intro j hj
    rcases hcalls j with hsame | ⟨-, hdead, hwritten, hsent⟩
    · rw [State.Active, hsame, hasked, hresp] at hj
      exact ⟨hsame, hj⟩
    · obtain ⟨⟨hreg, -⟩, hwhy⟩ := hj
      rw [hdead, hwritten hreg, hasked, hresp] at hwhy
      exact absurd (hwhy.resolve_left (by simp) |>.resolve_left (by simp)) hsent
  constructor
  case own =>
    intro id j hid
    rw [hpending] at hid
    obtain ⟨hj, htx⟩ := hs.own id j hid
    rcases hcalls j with hsame | ⟨hdead, -⟩
    · rw [hsame]
      exact ⟨hj, htx⟩
    · rw [hdead] at hj
      cases hj
  case unique =>
    grind [hs.unique]
  case known =>
    intro j hj
    have hsame := hlive j hj
    rw [hsame] at hj ⊢
    exact hs.known j hj
  case stored =>
    intro j hj
    have hsame := hlive j (by rw [hj]; rfl)
    rw [hsame] at hj ⊢
    exact hs.stored j hj
  case fresh =>
    exact hidle
  case sent =>
    grind [hs.sent]
  case todo =>
    exact htodo
  case flush =>
    exact hflush

theorem Sound.not_sent_of_ge (hs : Sound s) {j : Nat} (hj : s.nCalls ≤ j) :
    ¬ (j ∈ s.asked ∨ j ∈ s.responses.map Prod.fst) := by
  intro hsent
  exact Nat.not_lt_of_le hj (hs.lt_of_registered (hs.sent j hsent).1)

theorem Sound.not_live_of_ge (hs : Sound s) {j : Nat} (hj : s.nCalls ≤ j) :
    (s.calls j).pc.live = false := by
  rw [hs.fresh j hj]
  rfl

theorem beginQuery_sound (hs : Sound s) {q : Bytes} (hok : FreshID s (.query q)) :
    Sound (s.beginQuery q) := by
  unfold State.beginQuery
  dsimp only
  split
  · -- the query is refused, and nothing is registered
    refine hs.of_inert (fun j => ?_) rfl rfl rfl (fun j hj => ?_) hs.todo (fun f fl hf i hi => ?_)
    · by_cases hj : j = s.nCalls
      · subst hj
        refine .inr ⟨hs.not_live_of_ge (Nat.le_refl _), ?_, fun _ => ?_,
          hs.not_sent_of_ge (Nat.le_refl _)⟩
        · simp [State.setCall, PC.live]
        · simp [State.setCall]
      · exact .inl (update_of_ne hj ..)
    · have hne : j ≠ s.nCalls := fun heq => absurd (heq ▸ hj) (Nat.not_succ_le_self _)
      simp only [State.setCall, update_of_ne hne]
      exact hs.fresh j (Nat.le_of_succ_le hj)
    · obtain ⟨hlt, hitem⟩ := hs.flush f fl hf i hi
      simp only [State.Item, State.setCall, update_of_ne (Nat.ne_of_lt hlt)]
      exact ⟨Nat.lt_succ_of_lt hlt, hitem⟩
  · rename_i hlen
    have hlen' : 12 ≤ q.length := Nat.le_of_not_lt hlen
    refine hs.store (i := s.nCalls) (c := { query := q, pc := .stored }) (hok hlen')
      (Nat.le_trans (by decide) hlen') rfl (fun _ => rfl) (fun hlive => ?_) rfl ?_
      (Nat.le_succ _) (Nat.lt_succ_self _) rfl rfl
      (fun f fl hf => ⟨fl, hf, rfl, fun _ hj => hj, fun _ hj => .inl hj⟩)
      (fun f gl hg hi => absurd (hs.flush f gl hg _ hi).1 (Nat.lt_irrefl _))
    · rw [hs.not_live_of_ge (Nat.le_refl _)] at hlive
      cases hlive
    · simp only [State.store, State.setCall, update_self]

variable {calls : Nat → Call} {n : Nat} {batch : List Bytes}

theorem batchCalls_of_lt (h : i < n) : batchCalls calls f n batch i = calls i := by
  rw [batchCalls, if_neg (Nat.not_le_of_lt h)]

theorem batchCalls_item (h : k < batch.length) :
    batchCalls calls f n batch (n + k) = { query := batch[k], flush := some f, pc := .queued } := by
  rw [batchCalls, if_pos (Nat.le_add_right n k), Nat.add_sub_cancel_left,
    getElem?_eq_getElem h]

theorem batchCalls_of_ge (h : n + batch.length ≤ i) : batchCalls calls f n batch i = calls i := by
  have hnone : batch[i - n]? = none := getElem?_eq_none (by omega)
  rw [batchCalls, hnone, ite_self]

theorem beginFlush_flushes {fl : Flush} (h : (s.beginFlush batch).flushes f = some fl) :
    s.flushes f = some fl ∨
      (f = s.nFlushes ∧ fl.items = (range batch.length).map (s.nCalls + ·) ∧
        fl.todo = fl.items) := by
  by_cases hnew : f = s.nFlushes
  · subst hnew
    have hself : (s.beginFlush batch).flushes s.nFlushes = some _ := update_self ..
    rw [hself, Option.some.injEq] at h
    subst h
    exact .inr ⟨rfl, rfl, rfl⟩
  · left
    rw [← h]
    exact (update_of_ne hnew ..).symm

theorem beginFlush_sound (hs : Sound s) (batch : List Bytes) :
    Sound (s.beginFlush batch) := by
  refine hs.of_inert (fun j => ?_) rfl rfl rfl (fun j hj => ?_) (fun f fl hf i hi => ?_)
    (fun f fl hf i hi => ?_)
  · by_cases hlt : j < s.nCalls
    · exact .inl (batchCalls_of_lt hlt)
    · by_cases hitem : j < s.nCalls + batch.length
      · -- a new item is queued
        have hge := Nat.le_of_not_lt hlt
        obtain ⟨k, rfl⟩ := Nat.exists_eq_add_of_le hge
        have hk : k < batch.length := Nat.lt_of_add_lt_add_left hitem
        have hcall : (s.beginFlush batch).calls (s.nCalls + k) =
            { query := batch[k], flush := some s.nFlushes, pc := .queued } := batchCalls_item hk
        rw [hcall]
        exact .inr ⟨hs.not_live_of_ge hge, rfl, (fun hc => by cases hc), hs.not_sent_of_ge hge⟩
      · exact .inl (batchCalls_of_ge (Nat.le_of_not_lt hitem))
  · have hcall : (s.beginFlush batch).calls j = s.calls j := batchCalls_of_ge hj
    rw [hcall]
    exact hs.fresh j (Nat.le_trans (Nat.le_add_right _ _) hj)
  · rcases beginFlush_flushes hf with hold | ⟨-, -, htodo⟩
    · exact hs.todo f fl hold i hi
    · rw [← htodo]
      exact hi
  · rcases beginFlush_flushes hf with hold | ⟨rfl, hitems, htodo⟩
    · obtain ⟨hlt, hitem⟩ := hs.flush f fl hold i hi
      have hcall : (s.beginFlush batch).calls i = s.calls i := batchCalls_of_lt hlt
      rw [State.Item, hcall]
      exact ⟨Nat.lt_of_lt_of_le hlt (Nat.le_add_right _ _), hitem⟩
    · rw [State.Item, htodo]
      have hmem := hi
      rw [hitems] at hmem
      obtain ⟨k, hk, rfl⟩ := mem_map.1 hmem
      have hk' := mem_range.1 hk
      have hcall : (s.beginFlush batch).calls (s.nCalls + k) =
          { query := batch[k], flush := some s.nFlushes, pc := .queued } := batchCalls_item hk'
      rw [hcall]
      exact ⟨Nat.add_lt_add_left hk' _, rfl, rfl, .inl hi⟩

theorem flushes_of_update {items todo : List Nat}
    (hf : s.flushes f = some ⟨items, i :: todo⟩) {f' : Nat} {fl : Flush}
    (h : update s.flushes f (some ⟨items, todo⟩) f' = some fl) :
    ∃ gl, s.flushes f' = some gl ∧ fl.items = gl.items ∧ (∀ j ∈ fl.todo, j ∈ gl.todo) ∧
      ∀ j ∈ gl.todo, j ∈ fl.todo ∨ j = i := by
  rcases update_cases (· = some fl) h with ⟨rfl, hnew⟩ | ⟨-, hold⟩
  · cases hnew
    exact ⟨_, hf, rfl, fun j hj => mem_cons_of_mem i hj, fun j hj => (mem_cons.1 hj).symm⟩
  · exact ⟨fl, hold, rfl, fun _ hj => hj, fun _ hj => .inl hj⟩

theorem register_sound (hs : Sound s) (hok : FreshID s (.register f))
    (h : s.register f = some t) : Sound t := by
  unfold State.register at h
  split at h
  case h_2 => cases h
  rename_i items i todo hf
  have hi : i < s.nCalls := (hs.flush f _ hf i (hs.todo f _ hf i mem_cons_self)).1
  dsimp only at h
  split at h
  · rename_i hlen
    cases h
    refine hs.store (i := i) (c := { s.calls i with pc := .waiting })
      (hok _ hf i rfl hlen) hlen rfl (fun hc => by cases hc) (fun _ => rfl) rfl ?_
      (Nat.le_refl _) hi rfl rfl (fun f' fl hfl => flushes_of_update hf hfl)
      (fun _ _ _ _ => ⟨rfl, rfl⟩)
    simp only [State.store, State.setCall, update_self]
  · rename_i hlen
    cases h
    have hdead : (s.calls i).pc.live = false := by
      by_contra hlive
      rw [Bool.not_eq_false] at hlive
      exact hlen (hs.known i hlive)
    refine hs.of_inert (fun j => ?_) rfl rfl rfl (fun j hj => ?_) (fun f' fl hfl j hj => ?_)
      (fun f' fl hfl j hj => ?_)
    · by_cases hj : j = i
      · subst hj
        refine .inr ⟨hdead, ?_, ?_, fun hsent => hlen (hs.sent j hsent).2⟩
        · simp [State.setCall, PC.live]
        · simp [State.setCall, PC.registered]
      · exact .inl (update_of_ne hj ..)
    · have hji : j ≠ i := fun heq => Nat.not_lt_of_le hj (heq ▸ hi)
      simp only [State.setCall, update_of_ne hji]
      exact hs.fresh j hj
    · obtain ⟨gl, hgl, hitems, hsub, -⟩ := flushes_of_update hf hfl
      rw [hitems]
      exact hs.todo f' gl hgl j (hsub j hj)
    · obtain ⟨gl, hgl, hitems, -, htodo⟩ := flushes_of_update hf hfl
      rw [hitems] at hj
      obtain ⟨hlt, hflush, hwritten, hreg⟩ := hs.flush f' gl hgl j hj
      by_cases hji : j = i
      · subst hji
        simp only [State.Item, State.setCall, update_self]
        exact ⟨hlt, hflush, hwritten, .inr fun hc => absurd hc hlen⟩
      · simp only [State.Item, State.setCall, update_of_ne hji]
        refine ⟨hlt, hflush, hwritten, ?_⟩
        rcases hreg with hmem | hreg
        · exact (htodo j hmem).elim .inl fun heq => absurd heq hji
        · exact .inr hreg

theorem writeBatch_quiet (hs : Sound s) {ok : Bool}
    (h : s.writeBatch f ok = some t) : Quiet s t := by
  unfold State.writeBatch at h
  split at h
  case h_2 => cases h
  rename_i items hf
  cases h
  refine ⟨fun i => ?_, fun _ _ hid => hid, fun i hlive hdead => ?_, rfl, fun f' fl hfl => ?_,
    fun i => ?_, fun i hi => ?_, fun _ hi => .inl hi⟩
  · dsimp only
    split
    · exact ⟨rfl, rfl, rfl, fun h => h, fun h => h, fun h => h⟩
    · exact CallStep.refl _
  · grind
  · grind
  · grind
  · -- the frames belong to queries that are in use
    have hitem : ∀ i ∈ items, 2 ≤ (s.calls i).query.length → s.Active i := by
      intro i hi hlen
      obtain ⟨-, -, hwritten, hreg⟩ := hs.flush f _ hf i hi
      rcases hreg with hnone | hreg
      · cases hnone
      · exact ⟨⟨hreg hlen, hlen⟩, .inr (.inl hwritten)⟩
    dsimp only at hi
    split at hi
    · grind
    · exact .inl hi

section Run

variable {Q : Type} [DecidableEq Q] {question : Bytes → Q}

variable {a : Action}

theorem step_sound (hs : Sound s) (hok : FreshID s a)
    (h : step question s a = some t) : Sound t := by
  cases ha : a.caller with
  | some i =>
    obtain ⟨c, pending, asked, rfl, hc⟩ := callerTo_of_step h ha
    exact (hc.quiet hs).sound hs
  | none =>
  cases a with
  | query q => cases h; exact beginQuery_sound hs hok
  | flush batch => cases h; exact beginFlush_sound hs batch
  | register f => exact register_sound hs hok h
  | writeBatch f ok => exact (writeBatch_quiet hs h).sound hs
  | answer k resp =>
    simp only [step] at h
    split at h
    case h_2 => cases h
    rename_i i hk
    split at h
    case isFalse => cases h
    cases h
    refine Quiet.sound hs (Quiet.of_calls_eq rfl (fun _ _ hid => hid) rfl rfl
      (fun _ hj => mem_of_mem_eraseIdx hj) (fun j hj => ?_))
    rw [map_append, mem_append] at hj
    rcases hj with hj | hj
    · exact .inl hj
    · rw [mem_singleton.1 hj]
      exact .inr (mem_of_getElem? hk)
  | read => exact (read_quiet h).sound hs
  | readError | sweep id =>
    simp only [step] at h
    split at h
    · cases h
      exact Quiet.sound hs (Quiet.of_calls_eq rfl (fun _ _ hid => hid) rfl rfl (fun _ hj => hj)
        (fun _ hj => .inl hj))
    · cases h
  | advanceLoop => exact (advanceLoop_quiet h).sound hs
  | _ => cases ha

theorem sound_init : Sound {} where
  own id i h := by cases h
  unique i j h := by cases h.1.1
  known i h := by cases h
  stored i h := by cases h
  fresh i _ := rfl
  sent i h := by rcases h with h | h <;> cases h
  todo f fl h := by cases h
  flush f fl h := by cases h

/-! ## Responses -/

def State.Holds (s : State) (i : Nat) (resp : Bytes) : Prop :=
  (i, resp) ∈ s.responses ∨ s.loop = .dispatch i resp ∨ (s.calls i).respCh = some (some resp) ∨
    (s.calls i).pc = .returning (.ok resp) ∨ (s.calls i).result = some (.ok resp)

/-- A response answers the query of the call that has it. -/
def Honest (question : Bytes → Q) (s : State) : Prop :=
  ∀ i resp, s.Holds i resp → i < s.nCalls ∧ Answers question (s.calls i).query resp

omit [DecidableEq Q] in
theorem Honest.mono (h : Honest question s) (hn : s.nCalls ≤ t.nCalls)
    (hquery : ∀ i, i < s.nCalls → (t.calls i).query = (s.calls i).query)
    (hholds : ∀ i resp, t.Holds i resp → s.Holds i resp) : Honest question t := by
  intro i resp hi
  obtain ⟨hlt, hans⟩ := h i resp (hholds i resp hi)
  rw [hquery i hlt]
  exact ⟨Nat.lt_of_lt_of_le hlt hn, hans⟩

theorem holds_of_setCall
    (hcalls : t.calls = update s.calls k c) (hresp : t.responses = s.responses)
    (hloop : ∀ i resp, t.loop = .dispatch i resp → s.loop = .dispatch i resp)
    (hc : ∀ resp, c.Has resp → s.Holds k resp) :
    ∀ i resp, t.Holds i resp → s.Holds i resp := by
  intro i resp hi
  rcases hi with hi | hi | hi
  · exact .inl (by rw [← hresp]; exact hi)
  · exact .inr (.inl (hloop i resp hi))
  · rw [hcalls] at hi
    rcases update_cases (Call.Has · resp) hi with ⟨rfl, hnew⟩ | ⟨-, hold⟩
    · exact hc resp hnew
    · exact .inr (.inr hold)

theorem offer_holds {v : Option Bytes}
    (hcalls : t.calls = update s.calls k ((s.calls k).offer v))
    (hresp : t.responses = s.responses) (hloop : ∀ i resp, t.loop ≠ .dispatch i resp)
    (hv : ∀ resp, v = some resp → s.Holds k resp) :
    ∀ i resp, t.Holds i resp → s.Holds i resp := by
  refine holds_of_setCall hcalls hresp (fun i resp h => absurd h (hloop i resp)) fun resp h => ?_
  rcases h with h | h
  · cases hch : (s.calls k).respCh with
    | none =>
      simp only [Call.offer, hch, Option.getD_none, Option.some.injEq] at h
      exact hv resp h
    | some w =>
      simp only [Call.offer, hch, Option.getD_some, Option.some.injEq] at h
      exact .inr (.inr (.inl (by rw [hch, h])))
  · exact .inr (.inr (.inr h))

omit [DecidableEq Q] in
theorem Sound.dispatch_asker (hs : Sound s) {j : Nat} {resp : Bytes}
    (hi : i ∈ s.responses.map Prod.fst) (hans : Answers question (s.calls i).query resp)
    (hj : s.pending (txID resp) = some j) : j = i := by
  obtain ⟨hlive, htx⟩ := hs.own _ j hj
  exact hs.unique j i (hs.active_of_live hlive) (hs.active_of_sent (.inr hi))
    (htx.trans hans.2.1)

omit [DecidableEq Q] in
theorem read_holds (hs : Sound s) (hh : Honest question s) (h : s.read = some t) :
    ∀ i resp, t.Holds i resp → s.Holds i resp := by
  obtain ⟨k, resp, rest, hresp, hcases⟩ := read_cases h
  have hdrop : ∀ i r, (i, r) ∈ rest → (i, r) ∈ s.responses := by
    intro i r hr
    rw [hresp]
    exact mem_cons_of_mem _ hr
  intro i r hr
  obtain ⟨l, d, hl, rfl⟩ | ⟨j, hj, rfl⟩ := hcases
  · rcases hr with hr | hr | hr
    · exact .inl (hdrop i r hr)
    · exact absurd hr (hl i r)
    · exact .inr (.inr hr)
  · rcases hr with hr | hr | hr
    · exact .inl (hdrop i r hr)
    · -- the channel belongs to the call that asked
      have hmem : (k, resp) ∈ s.responses := by rw [hresp]; exact mem_cons_self
      have hjk : j = k := hs.dispatch_asker (mem_map_of_mem hmem)
        (hh k resp (.inl hmem)).2 hj
      cases hr
      rw [hjk]
      exact .inl hmem
    · exact .inr (.inr hr)

theorem advanceLoop_holds (h : s.advanceLoop = some t) :
    ∀ i resp, t.Holds i resp → s.Holds i resp := by
  unfold State.advanceLoop at h
  split at h
  · rename_i k resp hloop
    cases h
    refine offer_holds rfl rfl (by simp) fun r hr => ?_
    cases hr
    exact .inr (.inl hloop)
  · cases h
    exact offer_holds rfl rfl (by simp) fun r hr => by cases hr
  · cases h
    intro i r hr
    rcases hr with hr | hr | hr
    · exact .inl hr
    · cases hr
    · exact .inr (.inr hr)
  · cases h

theorem beginQuery_holds (s : State) (q : Bytes) :
    ∀ i resp, (s.beginQuery q).Holds i resp → s.Holds i resp := by
  unfold State.beginQuery
  dsimp only
  split
  all_goals
    refine holds_of_setCall rfl rfl (fun _ _ hl => hl) fun resp hr => ?_
    rcases hr with hr | hr | hr <;> cases hr

theorem beginFlush_holds (s : State) (batch : List Bytes) :
    ∀ i resp, (s.beginFlush batch).Holds i resp → s.Holds i resp := by
  intro i resp h
  rcases h with h | h | h
  · exact .inl h
  · exact .inr (.inl h)
  · by_cases hitem : s.nCalls ≤ i ∧ i < s.nCalls + batch.length
    · -- a new item has nothing
      obtain ⟨k, rfl⟩ := Nat.exists_eq_add_of_le hitem.1
      rw [show (s.beginFlush batch).calls (s.nCalls + k) = _ from
        batchCalls_item (Nat.lt_of_add_lt_add_left hitem.2)] at h
      rcases h with h | h | h <;> cases h
    · have hsame : (s.beginFlush batch).calls i = s.calls i := by
        rcases Nat.lt_or_ge i s.nCalls with hlt | hge
        · exact batchCalls_of_lt hlt
        · exact batchCalls_of_ge (Nat.le_of_not_lt fun hlt => hitem ⟨hge, hlt⟩)
      rw [hsame] at h
      exact .inr (.inr h)

theorem register_holds (h : s.register f = some t) :
    (∀ i, (t.calls i).query = (s.calls i).query) ∧ t.nCalls = s.nCalls ∧
      ∀ i resp, t.Holds i resp → s.Holds i resp := by
  have hquery : ∀ k pc i, (update s.calls k { s.calls k with pc := pc } i).query =
      (s.calls i).query := by
    intro k pc i
    by_cases hik : i = k
    · rw [hik, update_self]
    · rw [update_of_ne hik]
  unfold State.register at h
  split at h
  case h_2 => cases h
  dsimp only at h
  split at h
  all_goals
    cases h
    exact ⟨hquery _ _, rfl,
      holds_of_setCall rfl rfl (fun _ _ hl => hl)
        fun _ h => .inr (.inr (h.of_keep rfl (by simp) rfl))⟩

theorem writeBatch_holds {ok : Bool} (h : s.writeBatch f ok = some t) :
    ∀ i resp, t.Holds i resp → s.Holds i resp := by
  unfold State.writeBatch at h
  split at h
  case h_2 => cases h
  cases h
  intro i resp hi
  rcases hi with hi | hi | hi
  · exact .inl hi
  · exact .inr (.inl hi)
  · dsimp only at hi
    split at hi <;> exact .inr (.inr hi)

omit [DecidableEq Q] in
theorem Honest.of_quiet (hh : Honest question s) (h : Quiet s t)
    (hholds : ∀ i resp, t.Holds i resp → s.Holds i resp) : Honest question t :=
  hh.mono (Nat.le_of_eq h.nCalls.symm) (fun i _ => (h.calls i).query) hholds

theorem step_honest (hs : Sound s) (hh : Honest question s)
    (h : step question s a = some t) : Honest question t := by
  cases ha : a.caller with
  | some i =>
    obtain ⟨c, pending, asked, rfl, hc⟩ := callerTo_of_step h ha
    exact hh.of_quiet (hc.quiet hs)
      (holds_of_setCall rfl rfl (fun _ _ hl => hl) fun resp h => .inr (.inr (hc.has resp h)))
  | none =>
  cases a with
  | query q =>
    cases h
    refine hh.mono ?_ (fun i hi => ?_) (beginQuery_holds s q)
    · unfold State.beginQuery
      dsimp only
      split <;> exact Nat.le_succ _
    · unfold State.beginQuery
      dsimp only
      split
      · simp only [State.setCall, update_of_ne (Nat.ne_of_lt hi)]
      · simp only [State.store, State.setCall, update_of_ne (Nat.ne_of_lt hi)]
  | flush batch =>
    cases h
    refine hh.mono (Nat.le_add_right _ _) (fun i hi => ?_) (beginFlush_holds s batch)
    rw [show (s.beginFlush batch).calls i = s.calls i from batchCalls_of_lt hi]
  | register f =>
    obtain ⟨hquery, hn, hholds⟩ := register_holds h
    exact hh.mono (Nat.le_of_eq hn.symm) (fun i _ => hquery i) hholds
  | writeBatch f ok => exact hh.of_quiet (writeBatch_quiet hs h) (writeBatch_holds h)
  | answer k resp =>
    simp only [step] at h
    split at h
    case h_2 => cases h
    rename_i i hk
    split at h
    case isFalse => cases h
    rename_i hans
    cases h
    intro j r hr
    rcases hr with hr | hr
    · rcases mem_append.1 hr with hr | hr
      · exact hh j r (.inl hr)
      · -- the response that the relay has just written
        cases mem_singleton.1 hr
        have hmem : i ∈ s.asked := mem_of_getElem? hk
        exact ⟨hs.lt_of_registered (hs.sent i (.inl hmem)).1, hans⟩
    · exact hh j r (.inr hr)
  | read => exact hh.of_quiet (read_quiet h) (read_holds hs hh h)
  | readError | sweep id =>
    simp only [step] at h
    split at h
    case h_2 => cases h
    cases h
    refine hh.mono (Nat.le_refl _) (fun _ _ => rfl) fun i r hr => ?_
    rcases hr with hr | hr | hr
    · exact .inl hr
    · cases hr
    · exact .inr (.inr hr)
  | advanceLoop => exact hh.of_quiet (advanceLoop_quiet h) (advanceLoop_holds h)
  | _ => cases ha

omit [DecidableEq Q] in
theorem honest_init : Honest question {} := by
  rintro i resp (h | h | h | h | h) <;> cases h

/-! ## All interleavings -/

theorem step_keepsOthers (hs : Sound s) (h : step question s a = some t) : KeepsOthers s a t := by
  intro i hcaller id j hji hid
  obtain ⟨c, pending, asked, rfl, hc⟩ := callerTo_of_step h hcaller
  rcases hc.pending with rfl | ⟨rfl, -⟩
  · have hne : id ≠ txID (s.calls i).query := by
      rintro rfl
      obtain ⟨hlive, htx⟩ := hs.own _ j hid
      exact hji (hs.unique j i (hs.active_of_live hlive) (hs.active_of_live hc.live) htx)
    exact (update_of_ne hne ..).trans hid
  · exact hid

/-- **DNS answers reach the right asker**, if no ID is registered while it is in use. -/
theorem responses_reach_askers (acts : List Action)
    (h : AllSteps (step question) FreshID {} acts) :
    AllStates (step question) (OwnAnswers question) {} acts ∧
      AllSteps (step question) (fun s a => ∀ t, step question s a = some t → KeepsOthers s a t)
        {} acts := by
  constructor
  · refine allStates_of_allSteps (fun t ht => ?_) h
    have hboth := ht.invariant (fun s => Sound s ∧ Honest question s) ⟨sound_init, honest_init⟩
      fun s a u hs hok hstep => ⟨step_sound hs.1 hok hstep, step_honest hs.1 hs.2 hstep⟩
    exact fun i resp hresp => (hboth.2 i resp (.inr (.inr (.inr (.inr hresp))))).2
  · exact allSteps_of_invariant Sound (fun s a u hs hok hstep => step_sound hs hok hstep)
      (fun s a u hs _ _ v hv => step_keepsOthers hs hv) acts {} sound_init h

end Run

/-! ## Equal transaction IDs -/

def sampleMessage (id : UInt16) (q : UInt8) : Bytes := putUint16 id ++ replicate 10 0 ++ [q]

def sampleQuestion (msg : Bytes) : Option UInt8 := msg.getLast?

def twoIDsRun : List Action :=
  [.query (sampleMessage 1 7), .query (sampleMessage 2 8), .write 0 none, .write 1 none,
    .answer 1 (sampleMessage 2 8), .answer 0 (sampleMessage 1 7), .read, .advanceLoop, .read,
    .advanceLoop, .receive 0, .receive 1, .finish 0, .finish 1]

theorem responses_reach_askers_twoIDs :
    ∃ t, run (step sampleQuestion) {} twoIDsRun = some t ∧
      (t.calls 0).result = some (.ok (sampleMessage 1 7)) ∧
      AllStates (step sampleQuestion) (OwnAnswers sampleQuestion) {} twoIDsRun :=
  ⟨_, rfl, rfl, (responses_reach_askers twoIDsRun (by decide)).1⟩

def equalIDsRun : List Action :=
  [.query (sampleMessage 1 7), .query (sampleMessage 1 8), .write 0 none, .write 1 none,
    .answer 0 (sampleMessage 1 7)]

theorem equalIDs_mixed_up :
    (∃ t, run (step sampleQuestion) {}
        (equalIDsRun ++ [.read, .advanceLoop, .receive 1, .finish 1]) = some t ∧
      (t.calls 1).result = some (.ok (sampleMessage 1 7)) ∧ ¬ OwnAnswers sampleQuestion t) ∧
    ∃ s t, run (step sampleQuestion) {} (equalIDsRun ++ [.timeout 0]) = some s ∧
      s.pending 1 = some 1 ∧ step sampleQuestion s (.finish 0) = some t ∧ t.pending 1 = none := by
  constructor
  · refine ⟨_, rfl, rfl, fun hown => ?_⟩
    have hans := hown 1 (sampleMessage 1 7) rfl
    revert hans
    decide
  · exact ⟨_, _, rfl, rfl, rfl, rfl⟩

end NatProxy.Tunnel.DNSChannel
