import NatProxy.Lib.Transition
import NatProxy.Tunnel.DNSCache

/-!
# DNS packets of the tunnel

Model of `handleUDP`, `dnsViaTunnel` and `prefetchDNS` (`golib/tunnel/tun.go`) over the cache of
`DNSCache`. Any number of packets are handled at a time. A call of the cache is one step, and so is
the way through the resolvers, which may answer anything, with the `put` at its end. A prefetch goes
on as the task of the packet that has started it.

Whatever the interleaving, a reply is the answer to the packet itself, or an answer to the same
question that is not older than the cache allows (`replies_answered`), no query leaves the tunnel
unless it is one of a packet, this is allowed and the tunnel was tried (`queries_inside`), and no
question is prefetched twice at a time (`prefetched_once`).
-/

namespace NatProxy.Tunnel.DNSForward

open DNSCache Function Lib List

/-- The pool, or a stream of its own, to the first or the second resolver; or past the tunnel. -/
inductive Route where
  | pool (second : Bool)
  | stream (second : Bool)
  | direct
deriving DecidableEq

structure Config where
  dnsPool : Bool
  dns2Addr : String
  allowDirectDNS : Bool

section Resolvers

variable (cfg : Config) (outcome : Route → Option Bytes)

/-- The routes that were tried, and the response on the last one. -/
def dnsViaTunnel (second : Bool) : List Route × Option Bytes :=
  if cfg.dnsPool then
    match outcome (.pool second) with
    | some resp => ([.pool second], some resp)
    | none => ([.pool second, .stream second], outcome (.stream second))
  else ([.stream second], outcome (.stream second))

/-- The resolvers of `prefetchDNS`. -/
def resolveInside : List Route × Option Bytes :=
  match dnsViaTunnel cfg outcome false with
  | (tried, none) =>
    if cfg.dns2Addr = "" then (tried, none)
    else
      let second := dnsViaTunnel cfg outcome true
      (tried ++ second.1, second.2)
  | answered => answered

/-- The resolvers of `handleUDP`. -/
def resolve : List Route × Option Bytes :=
  match resolveInside cfg outcome with
  | (tried, none) =>
    if cfg.allowDirectDNS then (tried ++ [.direct], outcome .direct) else (tried, none)
  | answered => answered

theorem dnsViaTunnel_spec (second : Bool) :
    .direct ∉ (dnsViaTunnel cfg outcome second).1 ∧
      ((dnsViaTunnel cfg outcome second).2 = none →
        .stream second ∈ (dnsViaTunnel cfg outcome second).1) := by
  rw [dnsViaTunnel]
  split
  · split <;> simp
  · simp

/-- Every configured resolver was asked on a stream of its own. -/
def AskedAll (tried : List Route) : Prop :=
  .stream false ∈ tried ∧ (cfg.dns2Addr ≠ "" → .stream true ∈ tried)

theorem resolveInside_spec : .direct ∉ (resolveInside cfg outcome).1 ∧
    ((resolveInside cfg outcome).2 = none → AskedAll cfg (resolveInside cfg outcome).1) := by
  have hfirst := dnsViaTunnel_spec cfg outcome false
  have hsecond := dnsViaTunnel_spec cfg outcome true
  rw [resolveInside]
  unfold AskedAll
  split
  · next tried htried =>
    rw [htried] at hfirst
    split
    · next hnone => exact ⟨hfirst.1, fun _ => ⟨hfirst.2 rfl, absurd hnone⟩⟩
    · simp only [mem_append, not_or]
      exact ⟨⟨hfirst.1, hsecond.1⟩, fun hnone => ⟨.inl (hfirst.2 rfl), fun _ =>
        .inr (hsecond.2 hnone)⟩⟩
  · next hanswered =>
    exact ⟨hfirst.1, fun hnone => (hanswered _ (Prod.ext rfl hnone)).elim⟩

/-- A query is sent past the tunnel only if this is allowed and the tunnel gave no answer. -/
theorem resolve_spec (h : .direct ∈ (resolve cfg outcome).1) :
    cfg.allowDirectDNS = true ∧ AskedAll cfg (resolve cfg outcome).1 := by
  obtain ⟨hinside, hasked⟩ := resolveInside_spec cfg outcome
  unfold AskedAll at *
  rw [resolve] at h ⊢
  split at h
  · next tried htried =>
    rw [htried] at hinside hasked
    split at h
    · next hallowed =>
      simp only [hallowed, if_true, mem_append]
      exact ⟨trivial, .inl (hasked rfl).1, fun hne => .inl ((hasked rfl).2 hne)⟩
    · exact absurd h hinside
  · exact absurd h hinside

end Resolvers

inductive Task where
  | idle
  | resolving (query : Bytes)
  | started (query : Bytes)
  | prefetching (query : Bytes)
  | done

/-- A message for a query: from a resolver, or to the application. -/
structure Response where
  query : Bytes
  message : Bytes
  time : Nat

/-- A route that was tried for a query, by the handler of a packet or by a prefetch. -/
structure Query where
  prefetch : Bool
  route : Route
  message : Bytes

/-- `sent`, `answers` and `replies` record what happened. -/
structure State where
  cache : DNSCache.State := newDNSCache
  tasks : Nat → Task := fun _ => .idle
  prefetching : List Bytes := []
  sent : List Query := []
  answers : List Response := []
  replies : List Response := []

def State.goto (s : State) (i : Nat) (task : Task) : State :=
  { s with tasks := update s.tasks i task }

@[simp, grind =] theorem tasks_goto (s : State) (i j : Nat) (task : Task) :
    (s.goto i task).tasks j = if j = i then task else s.tasks j := update_apply ..

/-- The queries are sent, and a response is put into the cache. -/
def State.settle (s : State) (prefetch : Bool) (query : Bytes) (now : Nat) :
    List Route × Option Bytes → State
  | (tried, none) => { s with sent := tried.map (⟨prefetch, ·, query⟩) ++ s.sent }
  | (tried, some resp) =>
    { s with
      sent := tried.map (⟨prefetch, ·, query⟩) ++ s.sent
      cache := s.cache.put query resp now
      answers := ⟨query, resp, now⟩ :: s.answers }

theorem tasks_settle (s : State) (prefetch : Bool) (query : Bytes) (now : Nat)
    (r : List Route × Option Bytes) : (s.settle prefetch query now r).tasks = s.tasks := by
  obtain ⟨tried, none | resp⟩ := r <;> rfl

inductive Action where
  | receive (i : Nat) (query : Bytes) (now : Nat)
  | prefetch (i : Nat)
  | resolved (i : Nat) (outcome : Route → Option Bytes) (now : Nat)

variable (cfg : Config) (inWindow : Nat → Nat → Bool)

def step (s : State) : Action → Option State
  | .receive i query now =>
    match s.tasks i with
    | .idle =>
      -- an empty packet is dropped
      if query = [] then none
      else
        match DNSCache.step inWindow s.cache (.get query now) with
        | (cache, some (resp, shouldPrefetch)) =>
          some { s.goto i (if shouldPrefetch then .started query else .done) with
            cache := cache
            replies := ⟨query, resp, now⟩ :: s.replies }
        | (cache, none) => some { s.goto i (.resolving query) with cache := cache }
    | _ => none
  | .prefetch i =>
    match s.tasks i with
    | .started query =>
      -- `LoadOrStore` of the question
      if query.length < 12 ∨ keyOf query ∈ s.prefetching then some (s.goto i .done)
      else
        some { s.goto i (.prefetching query) with prefetching := keyOf query :: s.prefetching }
    | _ => none
  | .resolved i outcome now =>
    match s.tasks i with
    | .resolving query =>
      let r := resolve cfg outcome
      some { (s.settle false query now r).goto i .done with
        replies := r.2.toList.map (⟨query, ·, now⟩) ++ s.replies }
    | .prefetching query =>
      some { (s.settle true query now (resolveInside cfg outcome)).goto i .done with
        prefetching := s.prefetching.filter (· ≠ keyOf query) }
    | _ => none

/-! ## Replies and answers -/

/-- Every entry of the cache is an answer, and expires with it. -/
def Backed (cache : DNSCache.State) (answers : List Response) : Prop :=
  ∃ l, Sim cache l ∧ ∀ e ∈ l, ∃ a ∈ answers,
    keyOf a.query = e.key ∧ a.message = e.response ∧ e.expiry = a.time + cacheTTL a.message

/-- The reply is the answer, or it repeats it for another query while it is cached. -/
def Repeats (r a : Response) : Prop :=
  a = r ∨ keyOf a.query = keyOf r.query ∧ r.message = r.query.take 2 ++ a.message.drop 2 ∧
    r.time ≤ a.time + cacheTTL a.message

/-- Every reply repeats an answer. -/
def RepliesAnswered (s : State) : Prop := ∀ r ∈ s.replies, ∃ a ∈ s.answers, Repeats r a

/-- A query that is sent past the tunnel is one of a packet, this is allowed, and the tunnel was
tried for it with every configured resolver. -/
def QueriesInside (s : State) : Prop :=
  ∀ q ∈ s.sent, q.route = .direct → q.prefetch = false ∧ cfg.allowDirectDNS = true ∧
    ∃ tried, AskedAll cfg tried ∧ ∀ route ∈ tried, { q with route } ∈ s.sent

/-- No two prefetches have the same question. -/
def PrefetchedOnce (s : State) : Prop :=
  ∀ i j query query', s.tasks i = .prefetching query → s.tasks j = .prefetching query' →
    keyOf query = keyOf query' → i = j

structure Inv (s : State) : Prop where
  replies : RepliesAnswered s
  inside : QueriesInside cfg s
  once : PrefetchedOnce s
  backed : Backed s.cache s.answers
  claimed : ∀ i query, s.tasks i = .prefetching query → keyOf query ∈ s.prefetching

theorem mem_refStep_get (l : List Ref) (query : Bytes) (now : Nat) :
    (∀ e ∈ (refStep inWindow l (.get query now)).1, e ∈ l) ∧
      ∀ hit ∈ (refStep inWindow l (.get query now)).2, ∃ e ∈ l,
        e.key = keyOf query ∧ now ≤ e.expiry ∧ hit.1 = query.take 2 ++ e.response.drop 2 := by
  rw [refStep]
  split
  · exact ⟨fun _ he => he, fun _ h => by cases h⟩
  · split
    · exact ⟨fun _ he => he, fun _ h => by cases h⟩
    · next found hfound =>
      obtain ⟨hmem, hkey⟩ := RecencyList.mem_of_lookup hfound
      split
      · exact ⟨fun e he => (RecencyList.mem_without.mp he).1, fun _ h => by cases h⟩
      · next hexpiry =>
        constructor
        · intro e he
          obtain rfl | ⟨he, -⟩ := RecencyList.mem_toFront he
          · exact hmem
          · exact he
        · intro hit hhit
          cases hhit
          exact ⟨found, hmem, hkey, Nat.le_of_not_lt hexpiry, rfl⟩

variable {cfg} {cache : DNSCache.State} {answers : List Response} {s t : State}

theorem Backed.get (h : Backed cache answers) (query : Bytes) (now : Nat) :
    Backed (DNSCache.step inWindow cache (.get query now)).1 answers ∧
      ∀ hit ∈ (DNSCache.step inWindow cache (.get query now)).2,
        ∃ a ∈ answers, Repeats ⟨query, hit.1, now⟩ a := by
  obtain ⟨l, hsim, hl⟩ := h
  obtain ⟨hsim', hout⟩ := sim_step inWindow hsim (.get query now)
  obtain ⟨hkept, hhit⟩ := mem_refStep_get inWindow l query now
  refine ⟨⟨_, hsim', fun e he => hl e (hkept e he)⟩, fun hit hmem => ?_⟩
  obtain ⟨e, he, hkey, htime, hmessage⟩ := hhit hit (hout ▸ hmem)
  obtain ⟨a, ha, hquery, hresponse, hexpiry⟩ := hl e he
  refine ⟨a, ha, .inr ⟨hquery.trans hkey, ?_, hexpiry ▸ htime⟩⟩
  rw [hmessage, hresponse]

theorem Inv.settle (h : Inv cfg s) {prefetch : Bool} (query : Bytes) (now : Nat)
    {r : List Route × Option Bytes} (htried : .direct ∈ r.1 →
      prefetch = false ∧ cfg.allowDirectDNS = true ∧ AskedAll cfg r.1) :
    Inv cfg (s.settle prefetch query now r) := by
  obtain ⟨tried, resp⟩ := r
  have hinside : QueriesInside cfg
      { s with sent := tried.map (⟨prefetch, ·, query⟩) ++ s.sent } := by
    intro q hmem hdirect
    obtain hnew | hold := mem_append.mp hmem
    · obtain ⟨route, hroute, rfl⟩ := mem_map.mp hnew
      obtain ⟨hpacket, hallowed, hasked⟩ := htried (hdirect ▸ hroute)
      exact ⟨hpacket, hallowed, tried, hasked, fun other hother =>
        mem_append_left _ (mem_map_of_mem hother)⟩
    · obtain ⟨hpacket, hallowed, tried', hasked, hsent⟩ := h.inside q hold hdirect
      exact ⟨hpacket, hallowed, tried', hasked, fun other hother =>
        mem_append_right _ (hsent other hother)⟩
  cases resp with
  | none => exact { h with inside := hinside }
  | some resp =>
    refine { h with replies := fun r hr => ?_, inside := hinside, backed := ?_ }
    · obtain ⟨a, ha, hrepeats⟩ := h.replies r hr
      exact ⟨a, mem_cons_of_mem _ ha, hrepeats⟩
    · obtain ⟨l, hsim, hl⟩ := h.backed
      refine ⟨_, sim_put (fun _ _ => true) hsim query resp now, fun e he => ?_⟩
      have hnew : e ∈ l ∨ e = ⟨keyOf query, resp, now + cacheTTL resp, cacheTTL resp⟩ := by
        rw [refStep] at he
        split at he
        · exact .inl he
        · exact (RecencyList.mem_insertFront he).symm.imp And.left id
      obtain hmem | rfl := hnew
      · obtain ⟨a, ha, hentry⟩ := hl e hmem
        exact ⟨a, mem_cons_of_mem _ ha, hentry⟩
      · exact ⟨_, mem_cons_self, rfl, rfl, rfl⟩

theorem Inv.goto (h : Inv cfg s) {i : Nat} {task : Task}
    (htask : ∀ query, task ≠ .prefetching query) : Inv cfg (s.goto i task) := by
  have honce := h.once
  have hclaimed := h.claimed
  refine { h with once := ?_, claimed := ?_ }
  · grind [PrefetchedOnce]
  · grind [State.goto]

theorem Inv.receive (h : Inv cfg s) {i : Nat} {query : Bytes} {now : Nat}
    (hstep : step cfg inWindow s (.receive i query now) = some t) : Inv cfg t := by
  obtain ⟨hbacked, hhit⟩ := h.backed.get inWindow query now
  simp only [step] at hstep
  split at hstep
  · split at hstep
    · cases hstep
    split at hstep
    · next cache resp shouldPrefetch hcache =>
      cases hstep
      rw [hcache] at hbacked hhit
      have hgoto : Inv cfg (s.goto i (if shouldPrefetch then .started query else .done)) :=
        h.goto fun query' => by split <;> exact Task.noConfusion
      exact { hgoto with
        replies := forall_mem_cons.mpr ⟨hhit _ rfl, h.replies⟩
        backed := hbacked }
    · next cache hcache =>
      cases hstep
      rw [hcache] at hbacked
      have hgoto : Inv cfg (s.goto i (.resolving query)) := h.goto nofun
      exact { hgoto with backed := hbacked }
  · cases hstep

theorem Inv.prefetch (h : Inv cfg s) {i : Nat}
    (hstep : step cfg inWindow s (.prefetch i) = some t) : Inv cfg t := by
  have honce := h.once
  have hclaimed := h.claimed
  simp only [step] at hstep
  split at hstep
  · split at hstep
    · cases hstep
      exact h.goto nofun
    · cases hstep
      -- what runs already has another key
      refine { h with once := ?_, claimed := ?_ }
      · intro j k q q' hj hk heq
        simp only [tasks_goto] at hj hk
        grind [PrefetchedOnce]
      · intro j q hj
        simp only [tasks_goto] at hj
        grind
  · cases hstep

theorem Inv.resolved (h : Inv cfg s) {i : Nat} {outcome : Route → Option Bytes} {now : Nat}
    (hstep : step cfg inWindow s (.resolved i outcome now) = some t) : Inv cfg t := by
  simp only [step] at hstep
  split at hstep
  · next query _ =>
    cases hstep
    have hsettled : Inv cfg (s.settle false query now (resolve cfg outcome)) :=
      h.settle query now fun hdirect => ⟨rfl, resolve_spec cfg outcome hdirect⟩
    generalize resolve cfg outcome = r at hsettled
    have hgoto : Inv cfg ((s.settle false query now r).goto i .done) := hsettled.goto nofun
    refine { hgoto with replies := fun reply hreply => ?_ }
    obtain ⟨tried, none | resp⟩ := r
    · exact h.replies reply hreply
    · obtain rfl | hold := mem_cons.mp hreply
      · exact ⟨_, mem_cons_self, .inl rfl⟩
      · exact hsettled.replies reply hold
  · next query hi =>
    cases hstep
    have hgoto : Inv cfg ((s.settle true query now (resolveInside cfg outcome)).goto i .done) :=
      (h.settle query now fun hdirect =>
        absurd hdirect (resolveInside_spec cfg outcome).1).goto nofun
    refine { hgoto with claimed := fun j q hj => ?_ }
    simp only [tasks_goto, tasks_settle] at hj
    split at hj
    · cases hj
    rename_i hji
    -- no other prefetch has the key that is deleted
    refine mem_filter.mpr ⟨h.claimed j q hj, decide_eq_true fun heq => ?_⟩
    exact hji (h.once j i q query hj hi heq)
  · cases hstep

theorem inv_of_reaches (h : Reaches (step cfg inWindow) anyStep {} s) : Inv cfg s := by
  refine h.invariant (Inv cfg) ⟨nofun, nofun, nofun, ⟨[], sim_newDNSCache, nofun⟩, nofun⟩ ?_
  intro s a t h _ hstep
  cases a with
  | receive i query now => exact h.receive inWindow hstep
  | prefetch i => exact h.prefetch inWindow hstep
  | resolved i outcome now => exact h.resolved inWindow hstep

section

variable (cfg) (acts : List Action)

theorem allStates_of_inv {P : State → Prop} (hP : ∀ s, Inv cfg s → P s) :
    AllStates (step cfg inWindow) P {} acts :=
  have hall : AllSteps (step cfg inWindow) anyStep {} acts :=
    allSteps_of_forall_mem (fun _ _ _ => trivial) _
  allStates_of_allSteps (fun s hs => hP s (inv_of_reaches inWindow hs)) hall

/-- **Every reply** is an answer to the packet, or one to its question that has not expired. -/
theorem replies_answered : AllStates (step cfg inWindow) RepliesAnswered {} acts :=
  allStates_of_inv cfg inWindow acts fun _ h => h.replies

/-- **No query leaves the tunnel** unless this is allowed, and none of a prefetch. -/
theorem queries_inside : AllStates (step cfg inWindow) (QueriesInside cfg) {} acts :=
  allStates_of_inv cfg inWindow acts fun _ h => h.inside

/-- **No question is prefetched twice** at a time. -/
theorem prefetched_once : AllStates (step cfg inWindow) PrefetchedOnce {} acts :=
  allStates_of_inv cfg inWindow acts fun _ h => h.once

end

end NatProxy.Tunnel.DNSForward
