import NatProxy.NatTraversal.STUN
import Mathlib.Data.List.Basic
import Mathlib.Data.List.Count

/-!
# Classification of a NAT by two STUN servers

Model of `DiscoverPublicAddrVia` and `detectNATTypeTwoServerFull` (`golib/nat/stun.go`). The
requests are numbered by the places of their servers in the list. All of them go through one socket,
and whatever comes out of it next is taken for the response to the last request.

`Env.arrivals i` is what the socket receives up to the deadline of the request `i`, in this order:
answers to requests that have been sent, late, repeated, reordered or left out at will, and stray
datagrams. What is not read stays in the queue for the next request.

`comparesTwoServers`: if no server is asked twice, no answer arrives twice and no stray datagram has
a mapped address, the two results are the reports of two different servers. Otherwise the report of
one may be compared with itself (`comparesWithItself`).
-/

namespace NatProxy.NatTraversal.STUN

open List

/-! ## The socket -/

/-- What may arrive: the answer to a request, or something else. -/
inductive Arrival where
  | answer (i : Nat)
  | stray (d : Datagram)
deriving DecidableEq, Repr

inductive ViaError where
  | resolve
  | send
  | read
  | decode
  | noXORMappedAddress
deriving DecidableEq, Repr

/-- The error of a request that cannot be sent, its answer, and what the socket receives. -/
structure Env where
  sendError : Nat → Option ViaError
  answer : Nat → Datagram
  arrivals : Nat → List Arrival

/-- The datagrams in the queue, and the requests that have been sent. -/
structure Shared where
  queue : List Arrival := []
  sent : List Nat := []

def Arrival.possible (sent : List Nat) : Arrival → Bool
  | .answer i => i ∈ sent
  | .stray _ => true

def Env.datagram (env : Env) : Arrival → Datagram
  | .answer i => env.answer i
  | .stray d => d

/-- The queue when the request `i` has been sent and its deadline has come. -/
def Env.receive (env : Env) (i : Nat) (s : Shared) : List Arrival :=
  s.queue ++ (env.arrivals i).filter (Arrival.possible (i :: s.sent))

def parseXORMappedAddress : Datagram → Except ViaError Endpoint
  | .garbage => .error .decode
  | .message m =>
    match m.xorMappedAddress with
    | some addr => .ok addr
    | none => .error .noXORMappedAddress

def discoverPublicAddrVia (env : Env) (i : Nat) (s : Shared) : Except ViaError Endpoint × Shared :=
  match env.sendError i with
  | some err => (.error err, s)
  | none =>
    match env.receive i s with
    | [] => (.error .read, { queue := [], sent := i :: s.sent })
    | a :: queue =>
      -- whatever comes first is taken for the answer
      (parseXORMappedAddress (env.datagram a), { queue := queue, sent := i :: s.sent })

/-! ## The loop -/

structure Queries where
  socket : Shared := {}
  results : List Endpoint := []
  used : List String := []

def queryServers (env : Env) : List String → Nat → Queries → Queries
  | [], _, q => q
  | s :: servers, i, q =>
    if 2 ≤ q.results.length then q
    else if s ∈ q.used then queryServers env servers (i + 1) q
    else
      match discoverPublicAddrVia env i q.socket with
      | (.error _, socket) => queryServers env servers (i + 1) { q with socket := socket }
      | (.ok addr, socket) =>
        queryServers env servers (i + 1)
          { socket := socket, results := q.results ++ [addr], used := s :: q.used }

def stunServers (stunServer1 stunServer2 : String) : List String :=
  [stunServer1, stunServer2, "stun2.l.google.com:19302", "stun3.l.google.com:19302",
    "stun4.l.google.com:19302"]

def compareResults : List Endpoint → Option NATType
  | r1 :: r2 :: _ =>
    if isPrivateIP r1.ip then some ⟨.unknown, .unknown, r1⟩
    else if r1.ip ≠ r2.ip then some ⟨.unknown, .unknown, r1⟩
    else if r1.port ≠ r2.port then some ⟨.addressPortDependent, .unknown, r1⟩
    else some ⟨.endpointIndependent, .unknown, r1⟩
  | _ => none

def queryAll (env : Env) (stunServer1 stunServer2 : String) : Queries :=
  queryServers env (stunServers stunServer1 stunServer2) 0 {}

def detectNATTypeTwoServerFull (env : Env) (stunServer1 stunServer2 : String) : Option NATType :=
  compareResults (queryAll env stunServer1 stunServer2).results

/-! ## Two different servers -/

/-- The address that the server of the request `i` reports in its answer. -/
def Env.Reports (env : Env) (i : Nat) (addr : Endpoint) : Prop :=
  parseXORMappedAddress (env.answer i) = .ok addr

/-- If the mapping is classified, the results are reports of two servers to requests of this run,
and agree if it is endpoint-independent. -/
def ComparesTwoServers (env : Env) (stunServer1 stunServer2 : String) : Prop :=
  let servers := stunServers stunServer1 stunServer2
  let q := queryAll env stunServer1 stunServer2
  ∀ t, detectNATTypeTwoServerFull env stunServer1 stunServer2 = some t → t.mapping ≠ .unknown →
    ∃ i ∈ q.socket.sent, ∃ j ∈ q.socket.sent, ∃ r1 r2, servers[i]? ≠ servers[j]? ∧
      env.Reports i r1 ∧ env.Reports j r2 ∧ q.results = [r1, r2] ∧
      (t.mapping = .endpointIndependent → r1 = r2)

def Env.pending (env : Env) : Nat → Nat → List Arrival
  | _, 0 => []
  | i, n + 1 => env.arrivals i ++ env.pending (i + 1) n

/-- No server is asked twice, no address arrives twice, and stray datagrams have none. -/
structure Env.Clean (env : Env) (stunServer1 stunServer2 : String) : Prop where
  servers : ∀ i ∈ (queryAll env stunServer1 stunServer2).socket.sent,
    ∀ j ∈ (queryAll env stunServer1 stunServer2).socket.sent,
      (stunServers stunServer1 stunServer2)[i]? = (stunServers stunServer1 stunServer2)[j]? → i = j
  answers : ∀ i addr, env.Reports i addr → (env.pending 0 5).count (.answer i) ≤ 1
  strays : ∀ d addr, .stray d ∈ env.pending 0 5 → parseXORMappedAddress d ≠ .ok addr

/-! ## The queries -/

variable {env : Env}

def Env.left (env : Env) (s : Shared) (i n : Nat) : List Arrival := s.queue ++ env.pending i n

/-- What is left is clean, and the results report different requests whose answers are no longer to
be read. -/
structure QueriesInv (env : Env) (q : Queries) (i n : Nat) : Prop where
  answers : ∀ j addr, env.Reports j addr → (env.left q.socket i n).count (.answer j) ≤ 1
  strays : ∀ d addr, .stray d ∈ env.left q.socket i n → parseXORMappedAddress d ≠ .ok addr
  possible : ∀ j, .answer j ∈ q.socket.queue → j ∈ q.socket.sent
  few : q.results.length ≤ 2
  taken : ∃ js : List Nat, js.Nodup ∧ List.Forall₂ env.Reports js q.results ∧
    ∀ j ∈ js, j ∈ q.socket.sent ∧ .answer j ∉ env.left q.socket i n

theorem queriesInv_init {stunServer1 stunServer2 : String}
    (h : env.Clean stunServer1 stunServer2) : QueriesInv env {} 0 5 where
  answers := h.answers
  strays := h.strays
  possible _ hj := absurd hj not_mem_nil
  few := Nat.zero_le 2
  taken := ⟨[], nodup_nil, List.Forall₂.nil, fun _ hj => absurd hj not_mem_nil⟩

variable {q : Queries} {i n : Nat}

theorem QueriesInv.mono (h : QueriesInv env q i n) {socket : Shared} {i' n' : Nat}
    (hsub : (env.left socket i' n').Sublist (env.left q.socket i n))
    (hsent : q.socket.sent ⊆ socket.sent)
    (hpossible : ∀ j, .answer j ∈ socket.queue → j ∈ socket.sent) :
    QueriesInv env { q with socket := socket } i' n' where
  answers j addr hj := (hsub.count_le _).trans (h.answers j addr hj)
  strays d addr hd := h.strays d addr (hsub.subset hd)
  possible := hpossible
  few := h.few
  taken := by
    obtain ⟨js, hnodup, hreports, hjs⟩ := h.taken
    refine ⟨js, hnodup, hreports, fun j hj => ?_⟩
    obtain ⟨hmem, hgone⟩ := hjs j hj
    exact ⟨hsent hmem, fun hleft => hgone (hsub.subset hleft)⟩

theorem QueriesInv.skip (h : QueriesInv env q i (n + 1)) : QueriesInv env q (i + 1) n := by
  refine h.mono ?_ (List.Subset.refl _) h.possible
  exact (List.Sublist.refl _).append (sublist_append_right _ _)

theorem receive_sublist (env : Env) (s : Shared) (i n : Nat) :
    (env.receive i s ++ env.pending (i + 1) n).Sublist (env.left s i (n + 1)) := by
  rw [Env.receive, Env.left, Env.pending, append_assoc]
  exact (List.Sublist.refl _).append (filter_sublist.append (List.Sublist.refl _))

theorem possible_receive (h : QueriesInv env q i n) {j k : Nat}
    (hj : .answer j ∈ env.receive k q.socket) : j ∈ k :: q.socket.sent := by
  rcases mem_append.mp hj with hj | hj
  · exact mem_cons_of_mem k (h.possible j hj)
  · simpa [Arrival.possible] using (mem_filter.mp hj).2

theorem QueriesInv.drop (h : QueriesInv env q i (n + 1)) {queue : List Arrival}
    (hqueue : queue.Sublist (env.receive i q.socket)) :
    QueriesInv env { q with socket := { queue := queue, sent := i :: q.socket.sent } } (i + 1)
      n := by
  apply h.mono
  · exact (hqueue.append (List.Sublist.refl _)).trans (receive_sublist env q.socket i n)
  · exact subset_cons_self i _
  · exact fun j hj => possible_receive h (hqueue.subset hj)

theorem QueriesInv.take (h : QueriesInv env q i (n + 1)) (hfew : q.results.length < 2)
    {a : Arrival} {queue : List Arrival} (hqueue : env.receive i q.socket = a :: queue)
    {addr : Endpoint} (haddr : parseXORMappedAddress (env.datagram a) = .ok addr) (s : String) :
    QueriesInv env { socket := { queue := queue, sent := i :: q.socket.sent }
                     results := q.results ++ [addr]
                     used := s :: q.used } (i + 1) n := by
  have hsub := receive_sublist env q.socket i n
  rw [hqueue] at hsub
  have hleft : a ∈ env.left q.socket i (n + 1) := hsub.subset mem_cons_self
  cases a with
  | stray d => exact absurd haddr (h.strays d addr hleft)
  | answer j =>
    -- a second copy of the answer would be one too many
    have hgone : .answer j ∉ queue ++ env.pending (i + 1) n := by
      have hcount := (hsub.count_le (.answer j)).trans (h.answers j addr haddr)
      rw [cons_append, count_cons_self] at hcount
      exact count_eq_zero.mp (Nat.le_zero.mp (Nat.le_of_succ_le_succ hcount))
    have hrest : queue.Sublist (env.receive i q.socket) := by
      rw [hqueue]
      exact sublist_cons_self _ _
    have hdrop := h.drop hrest
    obtain ⟨js, hnodup, hreports, hjs⟩ := h.taken
    have hnew : j ∉ js := fun hj => (hjs j hj).2 hleft
    exact
      { answers := hdrop.answers
        strays := hdrop.strays
        possible := hdrop.possible
        few := by
          rw [length_append, length_singleton]
          exact hfew
        taken := by
          refine ⟨js ++ [j], ?_, ?_, ?_⟩
          · rw [← concat_eq_append]
            exact hnodup.concat hnew
          · exact rel_append hreports (.cons haddr .nil)
          · intro k hk
            rcases mem_append.mp hk with hk | hk
            · obtain ⟨hmem, hgone⟩ := hjs k hk
              refine ⟨mem_cons_of_mem i hmem, fun hmem' => hgone ?_⟩
              exact hsub.subset (mem_cons_of_mem _ hmem')
            · rw [mem_singleton] at hk
              subst hk
              refine ⟨possible_receive h ?_, hgone⟩
              rw [hqueue]
              exact mem_cons_self }

theorem queriesInv_queryServers (servers : List String) (i : Nat) (q : Queries)
    (h : QueriesInv env q i servers.length) :
    ∃ i' n', QueriesInv env (queryServers env servers i q) i' n' := by
  -- on the servers that are left, one case for each way an iteration can go
  induction servers generalizing i q with
  | nil => exact ⟨i, 0, h⟩
  | cons s servers ih =>
    rw [queryServers]
    split_ifs with hfew hused
    · exact ⟨i, _, h⟩
    · exact ih (i + 1) q h.skip
    · rw [discoverPublicAddrVia]
      cases hsend : env.sendError i with
      | some err => exact ih (i + 1) _ h.skip
      | none =>
        cases hqueue : env.receive i q.socket with
        | nil => exact ih (i + 1) _ (h.drop (nil_sublist _))
        | cons a queue =>
          dsimp only
          cases haddr : parseXORMappedAddress (env.datagram a) with
          | error err =>
            refine ih (i + 1) _ (h.drop ?_)
            rw [hqueue]
            exact sublist_cons_self a queue
          | ok addr => exact ih (i + 1) _ (h.take (Nat.lt_of_not_le hfew) hqueue haddr s)

theorem compareResults_eq_some {results : List Endpoint} {t : NATType}
    (h : compareResults results = some t) (hlen : results.length ≤ 2) :
    ∃ r1 r2, results = [r1, r2] ∧ (t.mapping = .endpointIndependent → r1 = r2) := by
  match results with
  | [] => cases h
  | [_] => cases h
  | _ :: _ :: _ :: _ => simp at hlen
  | [r1, r2] =>
    refine ⟨r1, r2, rfl, fun hmapping => ?_⟩
    rw [compareResults] at h
    split_ifs at h with hprivate hip hport
    · cases h
      cases hmapping
    · cases h
      cases hmapping
    · cases h
      cases hmapping
    · rw [ne_eq, not_not] at hip hport
      cases r1
      cases r2
      simp_all

/-- **Two different servers are compared**, whatever is delayed, lost or reordered. -/
theorem comparesTwoServers (env : Env) (stunServer1 stunServer2 : String)
    (h : env.Clean stunServer1 stunServer2) : ComparesTwoServers env stunServer1 stunServer2 := by
  intro t ht _
  obtain ⟨_, _, hinv⟩ :=
    queriesInv_queryServers (stunServers stunServer1 stunServer2) 0 {} (queriesInv_init h)
  change QueriesInv env (queryAll env stunServer1 stunServer2) _ _ at hinv
  obtain ⟨r1, r2, hresults, hequal⟩ := compareResults_eq_some ht hinv.few
  obtain ⟨js, hnodup, hreports, hjs⟩ := hinv.taken
  rw [hresults] at hreports
  match js, hreports with
  | [i, j], .cons hi (.cons hj .nil) =>
    have hsi := (hjs i (by simp)).1
    have hsj := (hjs j (by simp)).1
    refine ⟨i, hsi, j, hsj, r1, r2, fun hservers => ?_, hi, hj, hresults, hequal⟩
    simp [h.servers i hsi j hsj hservers] at hnodup

/-! ## Examples -/

def publicAddr (port : Nat) : Endpoint := ⟨.ofOctets 1 2 3 4, port⟩

def symmetricEnv (arrivals : Nat → List Arrival) : Env where
  sendError _ := none
  answer i := .message { transactionID := i, xorMappedAddress := some (publicAddr (40000 + i)) }
  arrivals := arrivals

def lateFirst : Env :=
  symmetricEnv fun i =>
    if i = 1 then [.stray .garbage] else if i = 2 then [.answer 0, .answer 1] else []

theorem lateFirst_clean : lateFirst.Clean "a:3478" "b:3478" where
  servers := by decide
  answers i _ _ := by
    have hnodup : (lateFirst.pending 0 5).Nodup := by decide
    exact nodup_iff_count_le_one.mp hnodup _
  strays d addr hd := by
    have hpending : lateFirst.pending 0 5 = [.stray .garbage, .answer 0, .answer 1] := rfl
    simp only [hpending, mem_cons, Arrival.stray.injEq, reduceCtorEq, or_false,
      not_mem_nil] at hd
    subst hd
    exact fun h => by cases h

theorem comparesTwoServers_lateFirst :
    detectNATTypeTwoServerFull lateFirst "a:3478" "b:3478" =
        some ⟨.addressPortDependent, .unknown, publicAddr 40000⟩ ∧
      ComparesTwoServers lateFirst "a:3478" "b:3478" :=
  ⟨by rfl, comparesTwoServers _ _ _ lateFirst_clean⟩

def repeatedFirst : Env :=
  symmetricEnv fun i => if i = 0 then [.answer 0, .answer 0] else [.answer i]

theorem eq_zero_of_reports {i : Nat} (h : repeatedFirst.Reports i (publicAddr 40000)) : i = 0 := by
  simp [Env.Reports, repeatedFirst, symmetricEnv, parseXORMappedAddress, publicAddr] at h
  exact h

theorem comparesWithItself :
    detectNATTypeTwoServerFull repeatedFirst "a:3478" "b:3478" =
        some ⟨.endpointIndependent, .unknown, publicAddr 40000⟩ ∧
      ¬ ComparesTwoServers repeatedFirst "a:3478" "b:3478" := by
  have hdetect : detectNATTypeTwoServerFull repeatedFirst "a:3478" "b:3478" =
      some ⟨.endpointIndependent, .unknown, publicAddr 40000⟩ := by rfl
  refine ⟨hdetect, fun h => ?_⟩
  obtain ⟨i, -, j, -, r1, r2, hservers, hi, hj, hresults, -⟩ := h _ hdetect nofun
  have hactual : (queryAll repeatedFirst "a:3478" "b:3478").results =
      [publicAddr 40000, publicAddr 40000] := by rfl
  rw [hactual] at hresults
  cases hresults
  rw [eq_zero_of_reports hi, eq_zero_of_reports hj] at hservers
  exact hservers rfl

end NatProxy.NatTraversal.STUN
