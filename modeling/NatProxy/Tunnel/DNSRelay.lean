import NatProxy.Lib.Frames
import NatProxy.Tunnel.DNSChannel
import Mathlib.Data.List.Nodup
import Mathlib.Data.List.TakeWhile

/-!
# A batch of DNS queries and the relay

Model of `flushBatch` and `query` in `golib/tunnel/dnschannel.go` together with the relay that they
talk to, `handleDNSStream` in `golib/webrtc/dnsrelay.go`, over the bytes on the stream. It is one
flush on a channel that nobody else uses; the interleavings are those of `DNSChannel`.

The relay resolves the queries it has read concurrently, so a schedule says in which order the
answers are written. A query whose length is zero or above 4096 makes the relay return: the stream
is closed, and of the answers that are under way any number may still be written. A waiter that
finds both a response and the closed channel `done` takes either, which the schedule says as well.
What the resolvers answer is a parameter; an answer that comes after the timeout of the waiters
counts as none.

`transparent_iff` gives the batches in which every query gets the result that it gets alone; a query
of one byte gets no result, and one that is too long fails the others
(`short_or_long_query_fails`).
-/

namespace NatProxy.Tunnel.DNSRelay

open Lib Tunnel.DNSChannel Function List

/-! ## The relay -/

/-- Errors of `pickChannel` and of `Write`, and what the two resolvers answer in time. -/
structure Env where
  pickChannel : Option String := none
  write : Option String := none
  primary : Bytes → Option Bytes
  fallback : Bytes → Option Bytes

/-- The buffer for an answer, and the largest message either side reads. -/
def maxMessage : Nat := 4096

/-- A datagram is cut to the buffer. -/
def dnsUDPQuery (resolver : Bytes → Option Bytes) (query : Bytes) : Option Bytes :=
  (resolver query).map (take maxMessage)

def resolveDNSUDP (env : Env) (query : Bytes) : Option Bytes :=
  match dnsUDPQuery env.primary query with
  | some resp => some resp
  | none => dnsUDPQuery env.fallback query

/-- The queries that `handleDNSStream` starts to resolve, and whether it returns. -/
def handleDNSStream (stream : Bytes) : List Bytes × Bool := readAll maxMessage stream

/-- `order`: the queries whose answers are written; `takesDone`: the waiters that take `done`
although they have a response. -/
structure Schedule where
  order : List Nat
  takesDone : Nat → Bool

def Schedule.Valid (sched : Schedule) (stream : Bytes) : Prop :=
  sched.order.Nodup ∧ (∀ k ∈ sched.order, k < (handleDNSStream stream).1.length) ∧
    ((handleDNSStream stream).2 = false →
      ∀ k, k < (handleDNSStream stream).1.length → k ∈ sched.order)

def answers (env : Env) (order : List Nat) (queries : List Bytes) : List Bytes :=
  order.filterMap fun k => queries[k]?.bind (resolveDNSUDP env)

/-! ## The channel -/

/-- What `readLoop` reads after `stream` was written, and whether it returns. -/
def exchange (env : Env) (sched : Schedule) (stream : Bytes) : List Bytes × Bool :=
  let relay := handleDNSStream stream
  let read := readAll maxMessage ((answers env sched.order relay.1).flatMap frame)
  (read.1, read.2 || relay.2)

/-- Each response goes to the channel that is registered under its transaction ID. -/
def dispatch : (UInt16 → Option Nat) → List Bytes → Nat → Option Bytes
  | _, [] => fun _ => none
  | pending, resp :: rest =>
    if resp.length < 2 then dispatch pending rest
    else
      match pending (txID resp) with
      | some i => fun j =>
        if j = i then some resp
        else dispatch (update pending (txID resp) none) rest j
      | none => dispatch pending rest

/-- The `select` of a waiter. -/
def await (respCh : Option Bytes) (closed takesDone : Bool) (timeout : String) : Result :=
  match respCh with
  | some resp => if closed && takesDone then .error "dns channel closed" else .ok resp
  | none => if closed then .error "dns channel closed" else .error timeout

def query (env : Env) (sched : Schedule) (q : Bytes) : Result :=
  if q.length < 12 then .error "dns query too short"
  else
    match env.write with
    | some err => .error ("dns channel write: " ++ err)
    | none =>
      let read := exchange env sched (frame q)
      await (dispatch (update (fun _ => none) (txID q) (some 0)) read.1 0) read.2
        (sched.takesDone 0) "dns channel query timeout"

/-- The registrations of `flushBatch`; a later one with the same ID replaces an earlier one. -/
def register : (UInt16 → Option Nat) → Nat → List Bytes → UInt16 → Option Nat
  | pending, _, [] => pending
  | pending, n, q :: batch =>
    register (if q.length < 2 then pending else update pending (txID q) (some n)) (n + 1)
      batch

def flushBatch (env : Env) (sched : Schedule) (batch : List Bytes) (i : Nat) : List Result :=
  match env.pickChannel, batch with
  | some err, batch => (batch[i]?.map fun _ => Except.error err).toList
  | none, [q] => if i = 0 then [query env sched q] else []
  | none, batch =>
    -- an error of the write is only logged
    let read := match env.write with
      | some _ => ([], false)
      | none => exchange env sched (batch.flatMap frame)
    match batch[i]? with
    | some q =>
      -- no goroutine waits for a query without a transaction ID
      if q.length < 2 then []
      else [await (dispatch (register (fun _ => none) 0 batch) read.1 i) read.2
        (sched.takesDone i) "dns batch query timeout"]
    | none => []

/-- Every query of the batch gets the response that it gets alone, or an error if it gets one alone.
-/
def Transparent (env : Env) (batch : List Bytes) : Prop :=
  ∀ sched : Schedule, sched.Valid (batch.flatMap frame) → ∀ i q, batch[i]? = some q →
    ∀ alone : Schedule, alone.Valid (frame q) →
      ∃ r r', flushBatch env sched batch i = [r] ∧ flushBatch env alone [q] 0 = [r'] ∧
        r.toOption = r'.toOption

/-! ## Who gets which response -/

def carries (id : UInt16) (resp : Bytes) : Bool := 2 ≤ resp.length && txID resp = id

theorem carries_iff {id : UInt16} {resp : Bytes} :
    carries id resp = true ↔ 2 ≤ resp.length ∧ txID resp = id := by
  unfold carries
  rw [Bool.and_eq_true, decide_eq_true_iff, decide_eq_true_iff]

theorem dispatch_eq_find? (pending : UInt16 → Option Nat) (i : Nat) (resps : List Bytes) :
    dispatch pending resps i =
      resps.find? fun resp => 2 ≤ resp.length && pending (txID resp) = some i := by
  induction resps generalizing pending with
  | nil => rfl
  | cons resp resps ih =>
    unfold dispatch
    rw [find?_cons]
    by_cases hlen : resp.length < 2
    · rw [if_pos hlen, decide_eq_false (Nat.not_le.mpr hlen), ih, Bool.false_and]
    · rw [if_neg hlen, decide_eq_true (Nat.not_lt.mp hlen), Bool.true_and]
      cases hp : pending (txID resp) with
      | none => exact ih pending
      | some j =>
        show (if i = j then some resp else
          dispatch (update pending (txID resp) none) resps i) = _
        by_cases hij : i = j
        · rw [if_pos hij, decide_eq_true (congrArg some hij.symm)]
        · -- another waiter gets it, and what is registered for `i` stays
          rw [if_neg hij, decide_eq_false fun h => hij (Option.some.inj h).symm, ih]
          congr 1
          funext r
          by_cases hr : txID r = txID resp
          · rw [hr, update_self, hp]
            simp [Ne.symm hij]
          · rw [update_of_ne hr]

/-- The query `q` at position `i` is the last one of the batch with its transaction ID. -/
def Latest (batch : List Bytes) (i : Nat) (q : Bytes) : Prop :=
  batch[i]? = some q ∧ txID q ∉ (batch.drop (i + 1)).map txID

theorem register_eq {batch : List Bytes} (hlen : ∀ q ∈ batch, 2 ≤ q.length) {id : UInt16}
    {k : Nat} :
    ∀ {pending : UInt16 → Option Nat} {n : Nat}, register pending n batch id = some k ↔
      (id ∉ batch.map txID ∧ pending id = some k) ∨
        ∃ i q, k = n + i ∧ Latest batch i q ∧ txID q = id := by
  induction batch with
  | nil => simp [register, Latest]
  | cons q batch ih =>
    intro pending n
    have hq := hlen q mem_cons_self
    unfold register
    rw [if_neg (Nat.not_lt.mpr hq), ih fun q' hq' => hlen q' (mem_cons_of_mem q hq'),
      map_cons, mem_cons, not_or]
    constructor
    · rintro (⟨hid, hp⟩ | ⟨i, q', hk, ⟨hq', hlast⟩, hid'⟩)
      · by_cases heq : id = txID q
        · rw [heq, update_self] at hp
          exact .inr ⟨0, q, (Option.some.inj hp).symm, ⟨rfl, heq ▸ hid⟩, heq.symm⟩
        · rw [update_of_ne heq] at hp
          exact .inl ⟨⟨heq, hid⟩, hp⟩
      · exact .inr ⟨i + 1, q', by omega, ⟨hq', hlast⟩, hid'⟩
    · rintro (⟨⟨heq, hid⟩, hp⟩ | ⟨i, q', hk, ⟨hq', hlast⟩, hid'⟩)
      · exact .inl ⟨hid, by rw [update_of_ne heq]; exact hp⟩
      · cases i with
        | zero =>
          obtain rfl : q = q' := Option.some.inj hq'
          exact .inl ⟨hid' ▸ hlast, by rw [← hid', update_self, hk]; rfl⟩
        | succ i => exact .inr ⟨i, q', by omega, ⟨hq', hlast⟩, hid'⟩

theorem register_eq_some_iff {batch : List Bytes} (hlen : ∀ q ∈ batch, 2 ≤ q.length) {i : Nat}
    {q : Bytes} (hi : batch[i]? = some q) (id : UInt16) :
    register (fun _ => none) 0 batch id = some i ↔ Latest batch i q ∧ txID q = id := by
  rw [register_eq hlen]
  constructor
  · rintro (⟨-, hnone⟩ | ⟨j, q', hij, hlast, hid⟩)
    · cases hnone
    · obtain rfl : i = j := hij.trans (Nat.zero_add j)
      obtain rfl : q = q' := Option.some.inj (hi.symm.trans hlast.1)
      exact ⟨hlast, hid⟩
  · exact fun ⟨hlast, hid⟩ => .inr ⟨i, q, (Nat.zero_add i).symm, hlast, hid⟩

/-! ## The responses to a batch -/

theorem length_resolveDNSUDP {env : Env} {q resp : Bytes}
    (h : resolveDNSUDP env q = some resp) : resp.length ≤ maxMessage := by
  have hcut (resolver : Bytes → Option Bytes) (hr : dnsUDPQuery resolver q = some resp) :
      resp.length ≤ maxMessage := by
    obtain ⟨datagram, -, rfl⟩ := Option.map_eq_some_iff.mp hr
    rw [length_take]
    exact Nat.min_le_left _ _
  unfold resolveDNSUDP at h
  cases hp : dnsUDPQuery env.primary q with
  | none =>
    rw [hp] at h
    exact hcut _ h
  | some r =>
    rw [hp] at h
    exact hcut _ (hp.trans h)

/-- Queries that the TUN delivers: a datagram that is not empty. -/
def Delivered (batch : List Bytes) : Prop := ∀ q ∈ batch, 0 < q.length ∧ q.length < 65536

/-- The queries that the relay reads. -/
def seen (batch : List Bytes) : List Bytes := batch.takeWhile (accepted maxMessage)

section Batch

variable {env : Env} {batch : List Bytes} {sched : Schedule}

theorem Delivered.handleDNSStream_eq (h : Delivered batch) :
    handleDNSStream (batch.flatMap frame) =
      (seen batch, !batch.all (accepted maxMessage)) :=
  readAll_flatMap_frame fun q hq => (h q hq).2

theorem mem_answers {order : List Nat} {queries : List Bytes} {resp : Bytes} :
    resp ∈ answers env order queries ↔
      ∃ k ∈ order, ∃ q, queries[k]? = some q ∧ resolveDNSUDP env q = some resp := by
  simp only [answers, mem_filterMap, Option.bind_eq_some_iff]

theorem Delivered.exchange_eq (h : Delivered batch) :
    exchange env sched (batch.flatMap frame) =
      ((answers env sched.order (seen batch)).takeWhile (accepted maxMessage),
        !(answers env sched.order (seen batch)).all (accepted maxMessage) ||
          !batch.all (accepted maxMessage)) := by
  have hshort : ∀ resp ∈ answers env sched.order (seen batch), resp.length < 65536 := by
    intro resp hresp
    obtain ⟨k, -, q, -, hr⟩ := mem_answers.mp hresp
    exact Nat.lt_of_le_of_lt (length_resolveDNSUDP hr) (by decide)
  unfold exchange
  simp only [h.handleDNSStream_eq, readAll_flatMap_frame hshort]

/-- What the waiter of query `i` gets, if the write succeeds. -/
def received (env : Env) (sched : Schedule) (batch : List Bytes) (i : Nat) : Option Bytes :=
  let read := exchange env sched (batch.flatMap frame)
  if read.2 && sched.takesDone i then none
  else dispatch (register (fun _ => none) 0 batch) read.1 i

theorem toOption_await (respCh : Option Bytes) (closed takesDone : Bool) (timeout : String) :
    (await respCh closed takesDone timeout).toOption =
      if closed && takesDone then none else respCh := by
  cases respCh <;> cases closed <;> cases takesDone <;> rfl

/-- The response to a query that is flushed alone. -/
def response (env : Env) (q : Bytes) : Option Bytes :=
  if 12 ≤ q.length ∧ q.length ≤ maxMessage then
    (resolveDNSUDP env q).filter (carries (txID q))
  else none

theorem response_eq_some_iff {q resp : Bytes} :
    response env q = some resp ↔ (12 ≤ q.length ∧ q.length ≤ maxMessage) ∧
      resolveDNSUDP env q = some resp ∧ carries (txID q) resp = true := by
  unfold response
  split
  · next h => rw [Option.filter_eq_some_iff, and_iff_right h]
  · next h => exact ⟨fun hno => (nomatch hno), fun hyes => absurd hyes.1 h⟩

/-- The queries of a batch do not get in each other's way. -/
structure Apart (env : Env) (batch : List Bytes) : Prop where
  /-- An answer that is written with the ID of a query is the response to that query. -/
  own : ∀ q' ∈ seen batch, ∀ resp, resolveDNSUDP env q' = some resp → ∀ i q, Latest batch i q →
    carries (txID q) resp = true → response env q = some resp
  /-- A query with a response is the last with its ID, and nothing makes the stream be closed. -/
  kept : ∀ i q resp, batch[i]? = some q → response env q = some resp → Latest batch i q ∧
    ∀ q' ∈ batch, q'.length ≤ maxMessage ∧ resolveDNSUDP env q' ≠ some []

variable (hd : Delivered batch) (hlen : ∀ q ∈ batch, 2 ≤ q.length)

include hd in
theorem Delivered.all_of_kept {i : Nat} {q resp : Bytes} (h : Apart env batch)
    (hi : batch[i]? = some q) (hresp : response env q = some resp) (order : List Nat) :
    batch.all (accepted maxMessage) = true ∧
      (answers env order batch).all (accepted maxMessage) = true := by
  have hkept := (h.kept i q resp hi hresp).2
  constructor
  · exact all_eq_true.mpr fun q' hq' => accepted_iff_length.mpr ⟨(hd q' hq').1, (hkept q' hq').1⟩
  · apply all_eq_true.mpr
    intro r hr
    obtain ⟨k, -, q', hq', hr'⟩ := mem_answers.mp hr
    refine accepted_iff_length.mpr ⟨?_, length_resolveDNSUDP hr'⟩
    apply length_pos_iff.mpr
    rintro rfl
    exact (hkept q' (mem_of_getElem? hq')).2 hr'

include hlen in
theorem dispatch_register {i : Nat} {q : Bytes} (hq : Latest batch i q) (resps : List Bytes) :
    dispatch (register (fun _ => none) 0 batch) resps i = resps.find? (carries (txID q)) := by
  rw [dispatch_eq_find?]
  congr 1
  funext resp
  simp only [register_eq_some_iff hlen hq.1, hq, true_and, carries, eq_comm]

include hlen in
theorem dispatch_of_not_latest {i : Nat} {q : Bytes} (hi : batch[i]? = some q)
    (hq : ¬ Latest batch i q) (resps : List Bytes) :
    dispatch (register (fun _ => none) 0 batch) resps i = none := by
  rw [dispatch_eq_find?, find?_eq_none]
  simp [register_eq_some_iff hlen hi, hq]

include hd hlen in
/-- Nobody is disturbed: every waiter gets the response to its query. -/
theorem Apart.received_eq (h : Apart env batch) (hs : sched.Valid (batch.flatMap frame))
    {i : Nat} {q : Bytes} (hi : batch[i]? = some q) :
    received env sched batch i = response env q := by
  simp only [received, hd.exchange_eq]
  cases hresp : response env q with
  | some resp =>
    obtain ⟨hall, hanswers⟩ := hd.all_of_kept h hi hresp sched.order
    have hseen : seen batch = batch := takeWhile_eq_self_iff.mpr (all_eq_true.mp hall)
    have hq := (h.kept i q resp hi hresp).1
    rw [hseen, hall, hanswers, takeWhile_eq_self_iff.mpr (all_eq_true.mp hanswers),
      dispatch_register hlen hq]
    obtain ⟨-, hr, hc⟩ := response_eq_some_iff.mp hresp
    have hmem : resp ∈ answers env sched.order batch := by
      obtain ⟨-, -, hcomplete⟩ := hs
      rw [hd.handleDNSStream_eq, hseen, hall] at hcomplete
      exact mem_answers.mpr
        ⟨i, hcomplete rfl i (List.getElem?_eq_some_iff.mp hi).1, q, hi, hr⟩
    cases hf : (answers env sched.order batch).find? (carries (txID q)) with
    | none => exact absurd hc (find?_eq_none.mp hf resp hmem)
    | some r =>
      obtain ⟨k, -, q', hq', hr'⟩ := mem_answers.mp (mem_of_find?_eq_some hf)
      have hmem' : q' ∈ seen batch := by
        rw [hseen]
        exact mem_of_getElem? hq'
      have hown := h.own q' hmem' r hr' i q hq (find?_some hf)
      exact hown.symm.trans hresp
  | none =>
    split
    · rfl
    by_cases hq : Latest batch i q
    · rw [dispatch_register hlen hq, find?_eq_none]
      intro r hr hc
      obtain ⟨k, -, q', hq', hr'⟩ := mem_answers.mp ((takeWhile_sublist _).mem hr)
      rw [h.own q' (mem_of_getElem? hq') r hr' i q hq hc] at hresp
      cases hresp
    · exact dispatch_of_not_latest hlen hi hq _

/-- Any order of all the queries that the relay has read is a schedule. -/
theorem valid_of_perm (stream : Bytes) {order : List Nat} (takesDone : Nat → Bool)
    (h : order.Perm (range (handleDNSStream stream).1.length)) :
    Schedule.Valid ⟨order, takesDone⟩ stream :=
  ⟨h.nodup_iff.mpr nodup_range, fun _ hk => mem_range.mp (h.mem_iff.mp hk),
    fun _ _ hk => h.mem_iff.mpr (mem_range.mpr hk)⟩

include hd hlen in
/-- The schedules that show a disturbance: an answer of another query is written first, or a waiter
takes the closed channel. -/
theorem apart_of_received
    (h : ∀ sched : Schedule, sched.Valid (batch.flatMap frame) → ∀ i q, batch[i]? = some q →
      received env sched batch i = response env q) : Apart env batch where
  own := by
    intro q' hq' resp hresp i q hq hc
    obtain ⟨k, hk⟩ := mem_iff_getElem?.mp hq'
    have hlt : k < (handleDNSStream (batch.flatMap frame)).1.length := by
      rw [hd.handleDNSStream_eq]
      exact (List.getElem?_eq_some_iff.mp hk).1
    have hfirst := h _ (valid_of_perm _ (fun _ => false)
      (perm_cons_erase (mem_range.mpr hlt)).symm) i q hq.1
    have hacc : accepted maxMessage resp = true :=
      accepted_iff_length.mpr ⟨by have := (carries_iff.mp hc).1; omega, length_resolveDNSUDP hresp⟩
    rw [← hfirst]
    simp only [received, hd.exchange_eq, Bool.and_false, Bool.false_eq_true, if_false,
      dispatch_register hlen hq]
    rw [answers, filterMap_cons_some (by rw [hk]; exact hresp), takeWhile_cons_of_pos hacc,
      find?_cons_of_pos hc]
  kept := by
    intro i q resp hi hresp
    have hall := h _ (valid_of_perm _ (fun _ => true) (Perm.refl _)) i q hi
    rw [hresp] at hall
    simp only [received, hd.exchange_eq, Bool.and_true] at hall
    split at hall
    · cases hall
    rename_i hopen
    rw [Bool.not_eq_true, Bool.or_eq_false_iff, Bool.not_eq_false', Bool.not_eq_false',
      all_eq_true, all_eq_true] at hopen
    refine ⟨?_, fun q' hq' => ⟨(accepted_iff_length.mp (hopen.2 q' hq')).2, fun hempty => ?_⟩⟩
    · by_contra hq
      rw [dispatch_of_not_latest hlen hi hq] at hall
      cases hall
    · have hseen : seen batch = batch := takeWhile_eq_self_iff.mpr hopen.2
      obtain ⟨k, hk⟩ := mem_iff_getElem?.mp hq'
      have hmem : ([] : Bytes) ∈ answers env
          (range (handleDNSStream (batch.flatMap frame)).1.length) (seen batch) := by
        rw [hd.handleDNSStream_eq, hseen]
        exact mem_answers.mpr
          ⟨k, mem_range.mpr (List.getElem?_eq_some_iff.mp hk).1, q', hk, hempty⟩
      exact absurd (hopen.1 _ hmem) (by decide)

end Batch

/-! ## Batches and single queries -/

section Flush

variable {env : Env} {sched : Schedule}

/-- A query that is flushed alone does not get in its own way. -/
theorem apart_singleton (env : Env) {q : Bytes} (h : 12 ≤ q.length) : Apart env [q] where
  own := by
    intro q' hq' resp hresp i q₁ hq₁ hc
    obtain rfl : q₁ = q := mem_singleton.mp (mem_of_getElem? hq₁.1)
    obtain rfl : q' = q₁ := mem_singleton.mp ((takeWhile_sublist _).mem hq')
    have hacc := accepted_iff_length.mp (mem_takeWhile_imp hq')
    exact response_eq_some_iff.mpr ⟨⟨h, hacc.2⟩, hresp, hc⟩
  kept := by
    intro i q₁ resp hi hresp
    obtain rfl : q₁ = q := mem_singleton.mp (mem_of_getElem? hi)
    obtain ⟨⟨-, hmax⟩, hr, hc⟩ := response_eq_some_iff.mp hresp
    refine ⟨⟨hi, by simp⟩, fun q' hq' => ?_⟩
    obtain rfl := mem_singleton.mp hq'
    refine ⟨hmax, fun hempty => ?_⟩
    rw [hempty] at hr
    obtain rfl := Option.some.inj hr
    exact absurd (carries_iff.mp hc).1 (by decide)

/-- The result of a query alone. -/
def alone (env : Env) (q : Bytes) : Option Bytes :=
  if env.pickChannel = none ∧ env.write = none then response env q else none

theorem query_eq {q : Bytes} (hd : Delivered [q]) (hs : sched.Valid (frame q))
    (hp : env.pickChannel = none) : (query env sched q).toOption = alone env q := by
  unfold query alone
  by_cases hshort : q.length < 12
  · have hno : response env q = none := if_neg (by omega)
    rw [if_pos hshort, hno, ite_self]
    rfl
  · rw [if_neg hshort]
    have h12 : 12 ≤ q.length := by omega
    have hlen : ∀ q' ∈ [q], 2 ≤ q'.length := by
      intro q' hq'
      rw [mem_singleton.mp hq']
      omega
    cases hw : env.write with
    | some err =>
      rw [if_neg (fun h => nomatch h.2)]
      rfl
    | none =>
      have hreg : update (fun _ => none) (txID q) (some 0) =
          register (fun _ => none) 0 [q] := by
        unfold register
        rw [if_neg (by omega)]
        rfl
      have hs' : sched.Valid ([q].flatMap frame) := by
        rw [flatMap_singleton]
        exact hs
      have heq := (apart_singleton env h12).received_eq hd hlen hs' (i := 0) rfl
      rw [received, flatMap_singleton] at heq
      rw [if_pos ⟨hp, rfl⟩, ← heq, ← hreg]
      exact toOption_await _ _ _ _

theorem flushBatch_singleton (env : Env) {q : Bytes} (hd : Delivered [q])
    (hs : sched.Valid (frame q)) :
    ∃ r, flushBatch env sched [q] 0 = [r] ∧ r.toOption = alone env q := by
  cases hp : env.pickChannel with
  | some err =>
    refine ⟨.error err, ?_, ?_⟩
    · simp [flushBatch, hp]
    · rw [alone, if_neg fun h => by rw [hp] at h; exact nomatch h.1]
      rfl
  | none => exact ⟨query env sched q, by simp [flushBatch, hp], query_eq hd hs hp⟩

variable {q₀ q₁ q : Bytes} {rest : List Bytes} {i : Nat}

theorem flushBatch_short (hp : env.pickChannel = none)
    (hi : (q₀ :: q₁ :: rest)[i]? = some q) (hq : q.length < 2) :
    flushBatch env sched (q₀ :: q₁ :: rest) i = [] := by
  simp only [flushBatch, hp, hi, if_pos hq]

/-- The result of a query in a batch of several. -/
theorem flushBatch_eq (sched : Schedule) (hp : env.pickChannel = none)
    (hi : (q₀ :: q₁ :: rest)[i]? = some q) (hq : 2 ≤ q.length) :
    ∃ r, flushBatch env sched (q₀ :: q₁ :: rest) i = [r] ∧
      r.toOption = if env.write = none then received env sched (q₀ :: q₁ :: rest) i else none := by
  have hlong := Nat.not_lt.mpr hq
  cases hw : env.write with
  | some err =>
    refine ⟨await none false (sched.takesDone i) "dns batch query timeout", ?_, rfl⟩
    simp only [flushBatch, hp, hw, hi, if_neg hlong]
    rfl
  | none =>
    refine ⟨_, ?_, toOption_await _ _ (sched.takesDone i) "dns batch query timeout"⟩
    simp only [flushBatch, hp, hw, hi, if_neg hlong]

theorem Delivered.singleton {batch : List Bytes} (hd : Delivered batch) (hq : q ∈ batch) :
    Delivered [q] := fun q' hq' => hd q' (mem_singleton.mp hq' ▸ hq)

/-- Batches of several queries, on a channel that was picked. -/
theorem transparent_cons_iff (hd : Delivered (q₀ :: q₁ :: rest)) (hp : env.pickChannel = none) :
    Transparent env (q₀ :: q₁ :: rest) ↔ (∀ q ∈ q₀ :: q₁ :: rest, 2 ≤ q.length) ∧
      (env.write = none → Apart env (q₀ :: q₁ :: rest)) := by
  constructor
  · intro h
    have hresult (sched : Schedule) (hs : sched.Valid ((q₀ :: q₁ :: rest).flatMap frame))
        (i : Nat) (q : Bytes) (hi : (q₀ :: q₁ :: rest)[i]? = some q) :
        ∃ r, flushBatch env sched (q₀ :: q₁ :: rest) i = [r] ∧ r.toOption = alone env q := by
      have hs' := valid_of_perm (frame q) (fun _ => false) (Perm.refl _)
      obtain ⟨r, r', hr, hr', heq⟩ := h sched hs i q hi _ hs'
      obtain ⟨r'', hr'', halone⟩ := flushBatch_singleton env
        (hd.singleton (mem_of_getElem? hi)) hs'
      obtain rfl : r' = r'' := by
        rw [hr', cons.injEq] at hr''
        exact hr''.1
      exact ⟨r, hr, heq.trans halone⟩
    have hlen : ∀ q ∈ q₀ :: q₁ :: rest, 2 ≤ q.length := by
      intro q hq
      by_contra hshort
      obtain ⟨i, hi⟩ := mem_iff_getElem?.mp hq
      obtain ⟨r, hr, -⟩ := hresult _ (valid_of_perm _ (fun _ => false) (Perm.refl _)) i q hi
      rw [flushBatch_short hp hi (Nat.not_le.mp hshort)] at hr
      cases hr
    refine ⟨hlen, fun hw => apart_of_received hd hlen ?_⟩
    intro sched hs i q hi
    obtain ⟨r, hr, halone⟩ := hresult sched hs i q hi
    obtain ⟨r', hr', hreceived⟩ := flushBatch_eq sched hp hi
      (hlen q (mem_of_getElem? hi))
    rw [hr, cons.injEq] at hr'
    rw [if_pos hw, ← hr'.1, halone, alone, if_pos ⟨hp, hw⟩] at hreceived
    exact hreceived.symm
  · rintro ⟨hlen, hapart⟩ sched hs i q hi sched' hs'
    have hq := mem_of_getElem? hi
    obtain ⟨r, hr, hreceived⟩ := flushBatch_eq sched hp hi (hlen q hq)
    obtain ⟨r', hr', halone⟩ := flushBatch_singleton env (hd.singleton hq) hs'
    refine ⟨r, r', hr, hr', ?_⟩
    rw [hreceived, halone, alone]
    by_cases hw : env.write = none
    · rw [if_pos hw, if_pos ⟨hp, hw⟩, (hapart hw).received_eq hd hlen hs hi]
    · rw [if_neg hw, if_neg fun h => hw h.2]

end Flush

/-- **When batching changes nothing.** No channel was picked, the query is alone in its batch, or
all queries have a transaction ID and, if they are written, do not get in each other's way. -/
theorem transparent_iff {env : Env} {batch : List Bytes} (hd : Delivered batch) :
    Transparent env batch ↔ env.pickChannel ≠ none ∨ batch.length ≤ 1 ∨
      (∀ q ∈ batch, 2 ≤ q.length) ∧ (env.write = none → Apart env batch) := by
  cases hp : env.pickChannel with
  | some err =>
    refine iff_of_true ?_ (.inl (Option.some_ne_none err))
    intro sched hs i q hi sched' hs'
    exact ⟨.error err, .error err, by simp [flushBatch, hp, hi], by simp [flushBatch, hp], rfl⟩
  | none =>
    rw [or_iff_right (not_not_intro rfl)]
    match batch, hd with
    | [], _ =>
      refine iff_of_true ?_ (.inl (Nat.zero_le 1))
      intro sched hs i q hi
      cases hi
    | [q], hd =>
      refine iff_of_true ?_ (.inl (Nat.le_refl 1))
      intro sched hs i q' hi sched' hs'
      obtain ⟨rfl, rfl⟩ : i = 0 ∧ q = q' := by
        cases i with
        | zero => exact ⟨rfl, Option.some.inj hi⟩
        | succ i => cases hi
      rw [flatMap_singleton] at hs
      obtain ⟨r, hr, halone⟩ := flushBatch_singleton env hd hs
      obtain ⟨r', hr', halone'⟩ := flushBatch_singleton env hd hs'
      exact ⟨r, r', hr, hr', halone.trans halone'.symm⟩
    | q₀ :: q₁ :: rest, hd =>
      rw [or_iff_right (by simp)]
      exact transparent_cons_iff hd hp

/-- A resolver that answers a query with itself, if it has a header. -/
def echo : Env where
  primary := fun q => if 12 ≤ q.length then some q else none
  fallback := fun _ => none

def shortQuery (lo : UInt8) : Bytes := 0 :: lo :: replicate 10 0

theorem transparent_echo : Transparent echo [shortQuery 1, [0, 3], shortQuery 2] := by
  refine (transparent_iff (by unfold Delivered; decide)).mpr (.inr (.inr ⟨by decide, fun _ => ?_⟩))
  have hown : ∀ q' ∈ [shortQuery 1, [0, 3], shortQuery 2],
      ∀ q ∈ [shortQuery 1, [0, 3], shortQuery 2], ∀ resp ∈ resolveDNSUDP echo q',
        carries (txID q) resp = true → response echo q = some resp := by decide
  have hkept : ∀ q ∈ [shortQuery 1, [0, 3], shortQuery 2],
      q.length ≤ maxMessage ∧ resolveDNSUDP echo q ≠ some [] := by decide
  refine ⟨fun q' hq' resp hresp i q hq => ?_, fun i q resp hi hresp => ⟨⟨hi, ?_⟩, hkept⟩⟩
  · exact hown q' ((takeWhile_sublist _).mem hq') q (mem_of_getElem? hq.1) resp hresp
  · match i, hi with
    | 0, rfl => decide
    | 1, rfl => decide
    | 2, rfl => decide

theorem short_or_long_query_fails : ¬ Transparent echo [[0], shortQuery 1] ∧
    flushBatch echo ⟨[0, 1], fun _ => false⟩ [[0], shortQuery 1] 0 = [] ∧
    ∀ long : Bytes, maxMessage < long.length ∧ long.length < 65536 →
      ¬ Transparent echo [shortQuery 1, long] := by
  refine ⟨fun h => ?_, rfl, fun long hlong h => ?_⟩
  · have hd : Delivered [[0], shortQuery 1] := by
      unfold Delivered
      decide
    exact absurd ((transparent_cons_iff hd rfl).mp h).1 (by decide)
  · have hd : Delivered [shortQuery 1, long] := by
      intro q hq
      obtain rfl | rfl := mem_pair.mp hq
      · decide
      · exact ⟨Nat.zero_lt_of_lt hlong.1, hlong.2⟩
    have hkept := (((transparent_cons_iff hd rfl).mp h).2 rfl).kept 0 (shortQuery 1)
      (shortQuery 1) rfl (by decide)
    exact absurd (hkept.2 long (mem_pair.mpr (.inr rfl))).1 (Nat.not_le.mpr hlong.1)

end NatProxy.Tunnel.DNSRelay
