import NatProxy.Lib.DNSWire
import NatProxy.Tunnel.DNSCache

/-!
# How long a DNS response is cached

`parseDNSTTL` of `golib/tunnel/tun.go` on well-formed messages. It walks over the questions and over
the answer and authority records as they were written, and finds the least TTL, up to 300 seconds
(`parseDNSTTL_encode`). But it takes a least TTL of 0 for a message without records. So a response
with code 0 lives as long as its records say exactly if no TTL is 0 (`lifetime_iff`), and one with a
TTL of 0 is served for 300 seconds (`zeroTTL_served`).

What a `get` returns follows from the reference model of the cache. Only NXDOMAIN bounds the
lifetime by 30 seconds, so other failures may be served longer (`not_sticks_iff`), and a failed
server is one of them (`serverFailure_sticks`).
-/

namespace NatProxy.Tunnel.DNSCache

open Lib List
open Lib.DNSWire

/-! ## Walking over a message -/

section Walk

variable {data rest : Bytes} {offset : Nat}

theorem labelByte : ∀ n : Fin 64, 0 < n.val → UInt8.ofNat n.val ≠ 0 ∧
    ¬ (UInt8.ofNat n.val &&& 0xC0 = 0xC0) ∧ UInt8.ofNat n.val &&& 0xC0 = 0 ∧
      (UInt8.ofNat n.val).toNat = n.val := by
  decide

theorem pointerByte : ∀ n : Fin 64, UInt8.ofNat (192 + n.val) ≠ 0 ∧
    UInt8.ofNat (192 + n.val) &&& 0xC0 = 0xC0 := by
  decide

theorem skipDNSNameFrom_last (last : NameEnd) (fuel : Nat)
    (h : data.drop offset = last.encode ++ rest) :
    skipDNSNameFrom data (fuel + 1) offset = some (offset + last.encode.length) := by
  cases last with
  | root =>
    rw [skipDNSNameFrom, getElem?_of_drop h]
    rfl
  | pointer target =>
    obtain ⟨hzero, hbits⟩ := pointerByte ⟨target.val / 256, by omega⟩
    have hlen : offset + 2 ≤ data.length := length_of_drop h (NameEnd.encode_ne_nil _)
    rw [skipDNSNameFrom, getElem?_of_drop h]
    dsimp only at hzero hbits ⊢
    rw [if_neg hzero, if_pos hbits, if_neg (Nat.not_le.mpr hlen)]
    rfl

theorem skipDNSNameFrom_labels (last : NameEnd) (labels : List Label) :
    ∀ {fuel offset : Nat}, labels.length < fuel →
      data.drop offset = labels.flatMap Label.encode ++ last.encode ++ rest →
      skipDNSNameFrom data fuel offset =
        some (offset + (labels.flatMap Label.encode ++ last.encode).length) := by
  induction labels with
  | nil =>
    intro fuel offset hfuel h
    cases fuel with
    | zero => exact absurd hfuel (Nat.not_lt_zero _)
    | succ fuel => exact skipDNSNameFrom_last last fuel h
  | cons l labels ih =>
    intro fuel offset hfuel h
    cases fuel with
    | zero => exact absurd hfuel (Nat.not_lt_zero _)
    | succ fuel =>
      rw [flatMap_cons, append_assoc, append_assoc] at h
      obtain ⟨hzero, hpointer, hbits, hvalue⟩ := labelByte ⟨l.text.length, l.short⟩ l.nonempty
      have hnext := drop_add h
      have hstep : offset + l.encode.length = offset + 1 + l.text.length := by
        rw [Label.encode, length_cons]
        omega
      rw [hstep, ← append_assoc] at hnext
      rw [skipDNSNameFrom, getElem?_of_drop h]
      dsimp only at hzero hpointer hbits hvalue ⊢
      rw [if_neg hzero, if_neg hpointer, if_neg (not_not_intro hbits), hvalue,
        ih (Nat.lt_of_succ_lt_succ hfuel) hnext, flatMap_cons, append_assoc, ← hstep]
      congr 1
      simp only [length_append]
      omega

/-- **`skipDNSName` skips a name**, compressed or not. -/
theorem skipDNSName_encode (name : Name) (h : data.drop offset = name.encode ++ rest) :
    skipDNSName data offset = some (offset + name.encode.length) := by
  have hlabels := name.length_labels_lt
  have hlen := length_of_drop h name.encode_ne_nil
  exact skipDNSNameFrom_labels name.last name.labels (by omega) h

theorem skipQuestions_encode (questions : List Question) :
    ∀ {offset : Nat}, data.drop offset = questions.flatMap Question.encode ++ rest →
      skipQuestions data questions.length offset =
        some (offset + (questions.flatMap Question.encode).length) := by
  induction questions with
  | nil => exact fun _ => rfl
  | cons q questions ih =>
    intro offset h
    rw [flatMap_cons, append_assoc, Question.encode, append_assoc] at h
    have hfixed := drop_add h
    have hfour : (uint16 q.qtype.toNat ++ uint16 q.qclass.toNat).length = 4 := rfl
    have hlen := length_of_drop hfixed (cons_ne_nil _ _)
    have hnext := drop_add hfixed
    rw [hfour] at hlen hnext
    rw [length_cons, skipQuestions, skipDNSName_encode q.name h]
    dsimp only
    rw [if_neg (Nat.not_lt.mpr hlen), ih hnext, flatMap_cons, length_append,
      Question.encode, length_append, hfour]
    congr 1
    omega

/-- The least TTL that the loop over the records has when it comes to the end of `records`. -/
def leastTTL (records : List Record) (least : Nat) : Nat :=
  records.foldl (fun least r => min least (r.ttl.toNat * second)) least

theorem fields_of_fixed (r : Record) (h : data.drop offset = r.fixed ++ rest) :
    uint32At data (offset + 4) = r.ttl.toNat ∧ uint16At data (offset + 8) = r.rdata.length := by
  rw [Record.fixed, append_assoc, append_assoc, append_assoc] at h
  have httl := drop_add (drop_add h)
  have hlen := drop_add httl
  constructor
  · exact (congrArg getNat (take_drop httl)).trans (getNat_uint32 r.ttl)
  · exact (congrArg getNat (take_drop hlen)).trans (getNat_uint16 r.short)

theorem minTTL_encode (records : List Record) :
    ∀ {offset : Nat} {acc : Nat × Bool}, data.drop offset = records.flatMap Record.encode ++ rest →
      minTTL data records.length offset acc =
        (leastTTL records acc.1, acc.2 || !records.isEmpty) := by
  induction records with
  | nil =>
    intro offset acc _
    rw [length_nil, minTTL, isEmpty_nil, Bool.not_true, Bool.or_false]
    rfl
  | cons r records ih =>
    intro offset acc h
    rw [flatMap_cons, append_assoc, Record.encode, append_assoc,
      append_assoc] at h
    have hfixed := drop_add h
    obtain ⟨httl, hrdlen⟩ := fields_of_fixed r hfixed
    have hroom := length_of_drop hfixed (cons_ne_nil _ _)
    have hrdata := drop_add hfixed
    rw [length_fixed] at hroom hrdata
    have hnext := drop_add hrdata
    have hinside : offset + r.name.encode.length + 10 + r.rdata.length ≤ data.length := by
      have hlen := congrArg length hrdata
      rw [length_drop, length_append] at hlen
      omega
    have hleast : (if r.ttl.toNat * second < acc.1 then r.ttl.toNat * second else acc.1) =
        min acc.1 (r.ttl.toNat * second) := by
      split <;> omega
    rw [length_cons, minTTL, skipDNSName_encode r.name h]
    dsimp only
    rw [httl, hrdlen, if_neg (Nat.not_lt.mpr hroom), if_neg (Nat.not_lt.mpr hinside), hleast,
      ih hnext, Bool.true_or]
    exact congrArg (Prod.mk _) (Bool.or_true _).symm

theorem leastTTL_eq (records : List Record) : ∀ {bound v : Nat},
    (records.map fun r => r.ttl.toNat).min? = some v →
      leastTTL records bound = min bound (v * second) := by
  induction records with
  | nil => exact fun h => nomatch h
  | cons r records ih =>
    intro bound v h
    rw [map_cons, min?_cons, Option.some.injEq] at h
    show leastTTL records (min bound (r.ttl.toNat * second)) = _
    cases hrest : (records.map fun r => r.ttl.toNat).min? with
    | none =>
      obtain rfl : records = [] := map_eq_nil_iff.mp (min?_eq_none_iff.mp hrest)
      rw [hrest] at h
      obtain rfl : r.ttl.toNat = v := h
      rfl
    | some w =>
      simp_all

end Walk

/-! ## The lifetime of a well-formed response -/

section Responses

variable (m : Message)

def ttls : List Nat := (m.answers ++ m.authority).map fun r => r.ttl.toNat

theorem drop_two_encode : ∃ rest, m.encode.drop 2 =
    uint16 m.flags.toNat ++ (uint16 m.questions.length ++
      (uint16 m.answers.length ++ (uint16 m.authority.length ++ rest))) := by
  have hstart : m.encode.drop 0 = m.encode := rfl
  nth_rewrite 2 [Message.encode] at hstart
  rw [Message.header] at hstart
  simp only [append_assoc] at hstart
  exact ⟨_, drop_add hstart⟩

theorem counts_encode :
    uint16At m.encode 4 = m.questions.length ∧ uint16At m.encode 6 = m.answers.length ∧
      uint16At m.encode 8 = m.authority.length := by
  obtain ⟨rest, hflags⟩ := drop_two_encode m
  have hqd := drop_add hflags
  have han := drop_add hqd
  have hns := drop_add han
  refine ⟨?_, ?_, ?_⟩
  · exact (congrArg getNat (take_drop hqd)).trans (getNat_uint16 m.qdcount)
  · exact (congrArg getNat (take_drop han)).trans (getNat_uint16 m.ancount)
  · exact (congrArg getNat (take_drop hns)).trans (getNat_uint16 m.nscount)

/-- **The parser on a well-formed message** returns the least TTL of answer and authority records,
up to 300 seconds, unless it is 0. -/
theorem parseDNSTTL_encode {least : Nat} (hleast : (ttls m).min? = some least) :
    parseDNSTTL m.encode =
      if least = 0 then dnsCacheMaxTTL else min dnsCacheMaxTTL (least * second) := by
  obtain ⟨hqd, han, hns⟩ := counts_encode m
  have hbody : m.encode.drop 12 = m.questions.flatMap Question.encode ++
      ((m.answers ++ m.authority).flatMap Record.encode ++
        m.additional.flatMap Record.encode) := by
    rw [Message.encode, ← length_header m, drop_left]
  have hlong : ¬ m.encode.length < 12 := by
    rw [Message.encode, length_append, length_header]
    omega
  have hrecords := drop_add hbody
  have hfound : (m.answers ++ m.authority).isEmpty = false := by
    cases hall : m.answers ++ m.authority with
    | nil =>
      rw [ttls, hall] at hleast
      cases hleast
    | cons r rs => rfl
  have hwalk : minTTL m.encode _ _ (dnsCacheMaxTTL, false) = _ :=
    minTTL_encode (m.answers ++ m.authority) hrecords
  rw [length_append, hfound, leastTTL_eq (m.answers ++ m.authority) hleast] at hwalk
  rw [parseDNSTTL, if_neg hlong, hqd, han, hns, skipQuestions_encode m.questions hbody]
  dsimp only
  rw [hwalk]
  by_cases hzero : least = 0
  · rw [if_pos hzero, if_pos (.inr (by rw [hzero, Nat.zero_mul, Nat.min_zero]))]
  · have hpos : min dnsCacheMaxTTL (least * second) ≠ 0 := by
      have hproduct := Nat.mul_pos (Nat.pos_of_ne_zero hzero) (show 0 < second by decide)
      have hmax : 0 < dnsCacheMaxTTL := by decide
      omega
    have hnot : ¬ ((false || !false) = false ∨ min dnsCacheMaxTTL (least * second) = 0) :=
      fun h => h.elim nofun hpos
    rw [if_neg hzero, if_neg hnot, if_neg (Nat.not_lt.mpr (Nat.min_le_left _ _))]

def rcode (resp : Bytes) : Nat :=
  match resp[3]? with
  | none => 0
  | some b => b.toNat % 16

theorem and_fifteen (b : UInt8) : (b &&& 0x0F).toNat = b.toNat % 16 :=
  (UInt8.toNat_and b 0x0F).trans (Nat.and_two_pow_sub_one_eq_mod b.toNat 4)

theorem isDNSNXDomain_iff (resp : Bytes) : isDNSNXDomain resp = true ↔ rcode resp = 3 := by
  rw [isDNSNXDomain, rcode]
  cases resp[3]? with
  | none => exact ⟨nofun, nofun⟩
  | some b =>
    dsimp only
    rw [beq_iff_eq, ← UInt8.toNat_inj, and_fifteen]
    rfl

theorem rcode_encode : rcode m.encode = m.rcode := by
  obtain ⟨rest, hflags⟩ := drop_two_encode m
  have hlow : m.encode[3]? = some (UInt8.ofNat m.flags.toNat) := by
    have hbyte : (m.encode.drop 2)[1]? = some (UInt8.ofNat m.flags.toNat) :=
      congrArg (fun l : Bytes => l[1]?) hflags
    rwa [getElem?_drop] at hbyte
  rw [rcode, hlow, Message.rcode]
  dsimp only
  rw [UInt8.toNat_ofNat']
  omega

theorem cacheTTL_encode (hrcode : m.rcode = 0) {least : Nat}
    (hleast : (ttls m).min? = some least) :
    cacheTTL m.encode =
      if least = 0 then dnsCacheMaxTTL else min dnsCacheMaxTTL (least * second) := by
  have hnx : isDNSNXDomain m.encode = false := by
    rw [← Bool.not_eq_true, isDNSNXDomain_iff, rcode_encode, hrcode]
    decide
  rw [cacheTTL, parseDNSTTL_encode m hleast, hnx, Bool.false_and, if_neg Bool.false_ne_true]

/-- **The lifetime follows the records, unless a TTL is 0.** -/
theorem lifetime_iff (hrcode : m.rcode = 0) {least : Nat}
    (hleast : (ttls m).min? = some least) :
    cacheTTL m.encode = min (300 * second) (least * second) ↔ least ≠ 0 := by
  rw [cacheTTL_encode m hrcode hleast]
  by_cases hzero : least = 0
  · have hmax : dnsCacheMaxTTL ≠ 0 := by decide
    rw [if_pos hzero, hzero, Nat.zero_mul, Nat.min_zero]
    exact ⟨fun h => absurd h hmax, fun h => absurd rfl h⟩
  · rw [if_neg hzero]
    exact ⟨fun _ => hzero, fun _ => rfl⟩

end Responses

/-! ## How long a response is served -/

section Served

variable (inWindow : Nat → Nat → Bool)

/-- The operation is not a `put` for the question of `query`. -/
def OtherQuestion (query : Bytes) : Op → Prop
  | .put query' _ _ => keyOf query' ≠ keyOf query
  | .get _ _ | .write _ _ => True

/-- The entries under a key are all the given one. -/
def OnlyEntry (e : Ref) (l : List Ref) : Prop :=
  ∀ y ∈ l, y.key = e.key → y = e

variable {query : Bytes}

theorem OnlyEntry.step {e : Ref} {l : List Ref} (h : OnlyEntry e l) (hkey : e.key = keyOf query)
    {op : Op} (hop : OtherQuestion query op) : OnlyEntry e (refStep inWindow l op).1 := by
  cases op with
  | put query' response now =>
    rw [refStep]
    split
    · exact h
    · intro y hy hyk
      obtain rfl | ⟨hmem, -⟩ := RecencyList.mem_insertFront hy
      · exact absurd (hyk.trans hkey) hop
      · exact h y hmem hyk
  | get query' now =>
    rw [refStep]
    split
    · exact h
    · split
      · exact h
      · next found hfound =>
          split
          · exact fun y hy hyk => h y (RecencyList.mem_without.mp hy).1 hyk
          · intro y hy hyk
            obtain rfl | ⟨hmem, -⟩ := RecencyList.mem_toFront hy
            · exact h y (RecencyList.mem_of_lookup hfound).1 hyk
            · exact h y hmem hyk
  | write slice content => exact h

theorem OnlyEntry.exec {e : Ref} (hkey : e.key = keyOf query) {ops : List Op}
    (hops : ∀ op ∈ ops, OtherQuestion query op) :
    ∀ {l : List Ref}, OnlyEntry e l → OnlyEntry e (refExec inWindow l ops).1 := by
  induction ops with
  | nil => exact fun h => h
  | cons op ops ih =>
    intro l h
    exact ih (fun op' hop' => hops op' (mem_cons_of_mem op hop'))
      (h.step inWindow hkey (hops op mem_cons_self))

theorem refExec_append (ops ops' : List Op) : ∀ l : List Ref,
    refExec inWindow l (ops ++ ops') =
      ((refExec inWindow (refExec inWindow l ops).1 ops').1,
        (refExec inWindow l ops).2 ++ (refExec inWindow (refExec inWindow l ops).1 ops').2) := by
  induction ops with
  | nil => exact fun l => rfl
  | cons op ops ih =>
    intro l
    rw [cons_append, refExec, ih]
    rfl

theorem exec_getLast (ops : List Op) (op : Op) :
    (DNSCache.exec inWindow newDNSCache (ops ++ [op])).2.getLast? =
      some (refStep inWindow (refExec inWindow [] ops).1 op).2 := by
  rw [(sim_exec inWindow (ops ++ [op]) sim_newDNSCache).2, refExec_append]
  exact getLast?_concat ..

def entryOf (query response : Bytes) (now : Nat) : Ref :=
  ⟨keyOf query, response, now + cacheTTL response, cacheTTL response⟩

section Put

variable {query response : Bytes} {t : Nat}

theorem refStep_put (hquery : 12 ≤ query.length) (hresponse : 12 ≤ response.length)
    (l : List Ref) : (refStep inWindow l (.put query response t)).1 =
      RecencyList.insertFront Ref.key dnsCacheMaxEntries (entryOf query response t) l := by
  have hlen : ¬ (query.length < 12 ∨ response.length < 12) := by omega
  rw [refStep, if_neg hlen]
  rfl

theorem onlyEntry_put (hquery : 12 ≤ query.length) (hresponse : 12 ≤ response.length)
    (l : List Ref) :
    OnlyEntry (entryOf query response t) (refStep inWindow l (.put query response t)).1 := by
  rw [refStep_put inWindow hquery hresponse]
  intro y hy hyk
  obtain rfl | ⟨-, hne⟩ := RecencyList.mem_insertFront hy
  · rfl
  · exact absurd hyk hne

variable {l : List Ref} {now : Nat}

theorem get_expired {e : Ref} (h : OnlyEntry e l) (hkey : keyOf query = e.key)
    (hexpired : e.expiry < now) : (refStep inWindow l (.get query now)).2 = none := by
  rw [refStep]
  split
  · rfl
  · split
    · rfl
    · next found hfound =>
        obtain ⟨hmem, hfoundKey⟩ := RecencyList.mem_of_lookup hfound
        rw [h found hmem (hfoundKey.trans hkey), if_pos hexpired]

theorem get_found (hquery : 12 ≤ query.length) {e : Ref}
    (hfound : RecencyList.lookup Ref.key (keyOf query) l = some e) (hfresh : now ≤ e.expiry) :
    (refStep inWindow l (.get query now)).2 = some (query.take 2 ++ e.response.drop 2,
      decide (0 < e.ttl) && inWindow (e.expiry - now) e.ttl) := by
  rw [refStep, if_neg (Nat.not_lt.mpr hquery), hfound]
  dsimp only
  rw [if_neg (Nat.not_lt.mpr hfresh)]

theorem exec_put_get (hquery : 12 ≤ query.length) (hresponse : 12 ≤ response.length)
    (hfresh : now ≤ t + cacheTTL response) : (DNSCache.exec inWindow newDNSCache
      ([.put query response t] ++ [.get query now])).2.getLast? =
        some (some (patch query response, decide (0 < cacheTTL response) &&
          inWindow (t + cacheTTL response - now) (cacheTTL response))) := by
  have hfound : RecencyList.lookup Ref.key (keyOf query)
      (refStep inWindow [] (.put query response t)).1 = some (entryOf query response t) := by
    rw [refStep_put inWindow hquery hresponse]
    exact RecencyList.lookup_insertFront_self dnsCacheMaxEntries (entryOf query response t) []
  rw [exec_getLast, patch_eq hquery hresponse]
  exact congrArg some (get_found inWindow hquery hfound hfresh)

theorem length_of_get (hlong : ∀ e ∈ l, 12 ≤ e.response.length) {hit : Bytes × Bool}
    (h : (refStep inWindow l (.get query now)).2 = some hit) :
    12 ≤ query.length ∧ 12 ≤ hit.1.length := by
  rw [refStep] at h
  split at h
  · cases h
  rename_i hquery
  split at h
  · cases h
  rename_i found hfound
  have hfoundLong := hlong found (RecencyList.mem_of_lookup hfound).1
  split at h
  · cases h
  obtain rfl := Option.some.inj h
  refine ⟨Nat.le_of_not_lt hquery, ?_⟩
  rw [length_append, length_take, length_drop]
  omega

end Put

/-- More than 30 seconds after a `put` of the response, followed by calls that do not put its
question, a `get` may return it, with the transaction ID of its query. -/
def Sticks (response : Bytes) : Prop :=
  ∃ (before : List Op) (query : Bytes) (t : Nat) (later : List Op) (query' : Bytes) (now : Nat)
    (shouldPrefetch : Bool), (∀ op ∈ later, OtherQuestion query op) ∧ keyOf query' = keyOf query ∧
      t + dnsCacheNXDomainTTL < now ∧
      (DNSCache.exec inWindow newDNSCache
        (before ++ .put query response t :: later ++ [.get query' now])).2.getLast? =
          some (some (patch query' response, shouldPrefetch))

theorem length_patch (query response : Bytes) :
    (patch query response).length = response.length := by
  rw [patch, length_set, length_set]

theorem length_of_keyOf_eq {query' : Bytes} (h : keyOf query' = keyOf query)
    (hquery' : 12 ≤ query'.length) : 12 ≤ query.length := by
  have hlen := congrArg length h
  rw [keyOf, keyOf, length_drop, length_drop] at hlen
  omega

theorem cacheTTL_le_iff (response : Bytes) :
    cacheTTL response ≤ dnsCacheNXDomainTTL ↔
      rcode response = 3 ∨ parseDNSTTL response ≤ dnsCacheNXDomainTTL := by
  rw [← isDNSNXDomain_iff, cacheTTL]
  cases hnx : isDNSNXDomain response with
  | false =>
    rw [Bool.false_and, if_neg Bool.false_ne_true]
    exact ⟨.inr, fun h => h.elim nofun id⟩
  | true =>
    grind

theorem not_sticks_of_short {response : Bytes} (hresponse : 12 ≤ response.length)
    (hshort : cacheTTL response ≤ dnsCacheNXDomainTTL) : ¬ Sticks inWindow response := by
  rintro ⟨before, query, t, later, query', now, prefetch, hlater, hkey, hnow, hserved⟩
  rw [exec_getLast, Option.some.injEq] at hserved
  obtain ⟨hsim, -⟩ := sim_exec inWindow (before ++ .put query response t :: later) sim_newDNSCache
  obtain ⟨hquery', -⟩ := length_of_get inWindow hsim.long hserved
  have hquery := length_of_keyOf_eq hkey hquery'
  have honly : OnlyEntry (entryOf query response t)
      (refExec inWindow [] (before ++ .put query response t :: later)).1 := by
    rw [refExec_append]
    exact OnlyEntry.exec inWindow rfl hlater (onlyEntry_put inWindow hquery hresponse _)
  have hexpired : (entryOf query response t).expiry < now :=
    Nat.lt_of_le_of_lt (Nat.add_le_add_left hshort t) hnow
  rw [get_expired inWindow honly hkey hexpired] at hserved
  cases hserved

theorem not_sticks_of_unstored {response : Bytes} (hresponse : response.length < 12) :
    ¬ Sticks inWindow response := by
  rintro ⟨before, query, t, later, query', now, prefetch, -, -, -, hserved⟩
  rw [exec_getLast, Option.some.injEq] at hserved
  obtain ⟨hsim, -⟩ := sim_exec inWindow (before ++ .put query response t :: later) sim_newDNSCache
  obtain ⟨-, hlen⟩ := length_of_get inWindow hsim.long hserved
  rw [length_patch] at hlen
  exact Nat.not_le.mpr hresponse hlen

/-- **Which responses stay too long**, of all byte strings. -/
theorem not_sticks_iff (response : Bytes) :
    ¬ Sticks inWindow response ↔ response.length < 12 ∨ rcode response = 3 ∨
      parseDNSTTL response ≤ dnsCacheNXDomainTTL := by
  rw [← cacheTTL_le_iff]
  constructor
  · intro hnot
    by_contra hcond
    rw [not_or, Nat.not_lt, Nat.not_le] at hcond
    obtain ⟨hresponse, hlong⟩ := hcond
    -- A query of twelve zeros; the `get` comes one nanosecond after the 30 seconds.
    have hquery : 12 ≤ (replicate 12 0 : Bytes).length := Nat.le_refl 12
    have hserved := exec_put_get (t := 0) inWindow hquery hresponse
      (show dnsCacheNXDomainTTL + 1 ≤ 0 + cacheTTL response by omega)
    exact hnot ⟨[], _, 0, [], _, _, _, fun op hop => absurd hop not_mem_nil, rfl, by omega,
      hserved⟩
  · intro hcond
    by_cases hresponse : response.length < 12
    · exact not_sticks_of_unstored inWindow hresponse
    · have hshort := hcond.resolve_left hresponse
      exact not_sticks_of_short inWindow (Nat.le_of_not_lt hresponse) hshort

end Served

def nameA : Name := ⟨[⟨[97], by decide, by decide⟩], .root⟩

def aboutA (flags : UInt16) (answers : List Record) (h : answers.length < 65536) : Message where
  id := 7
  flags := flags
  questions := [⟨nameA, 1, 1⟩]
  answers := answers
  authority := []
  additional := []
  qdcount := by decide
  ancount := h
  nscount := by decide
  arcount := by decide

def queryForA : Message := aboutA 0x0100 [] (by decide)

def addressOfA (ttl : UInt32) : Message :=
  aboutA 0x8180 [⟨⟨[], .pointer 12⟩, 1, 1, ttl, [192, 0, 2, 1], by decide⟩]
    (Nat.succ_lt_succ (Nat.succ_pos 65534))

def serverFailure : Message := aboutA 0x8182 [] (by decide)

theorem lifetime_sixty :
    (addressOfA 60).rcode = 0 ∧ (ttls (addressOfA 60)).min? = some 60 ∧
      cacheTTL (addressOfA 60).encode = min (300 * second) (60 * second) :=
  ⟨rfl, rfl, (lifetime_iff (addressOfA 60) rfl rfl).mpr (by decide)⟩

theorem served_at {query response : Bytes} (hquery : 12 ≤ query.length)
    (hresponse : 12 ≤ response.length) (httl : cacheTTL response = dnsCacheMaxTTL) :
    (exec (fun _ _ => false) newDNSCache
      ([.put query response 0] ++ [.get query (299 * second)])).2.getLast? =
        some (some (patch query response, false)) := by
  have hfresh : 299 * second ≤ 0 + cacheTTL response := by
    rw [httl]
    decide
  rw [exec_put_get _ hquery hresponse hfresh, Bool.and_false]

theorem zeroTTL_served :
    (addressOfA 0).rcode = 0 ∧ ttls (addressOfA 0) = [0] ∧
      cacheTTL (addressOfA 0).encode = 300 * second ∧
      (exec (fun _ _ => false) newDNSCache ([.put queryForA.encode (addressOfA 0).encode 0] ++
        [.get queryForA.encode (299 * second)])).2.getLast? =
          some (some ((addressOfA 0).encode, false)) := by
  have hleast : (ttls (addressOfA 0)).min? = some 0 := rfl
  have httl := (cacheTTL_encode (addressOfA 0) rfl hleast).trans (if_pos rfl)
  exact ⟨rfl, rfl, httl, served_at (by decide) (by decide) httl⟩

theorem serverFailure_sticks :
    rcode serverFailure.encode = 2 ∧
      (exec (fun _ _ => false) newDNSCache ([.put queryForA.encode serverFailure.encode 0] ++
        [.get queryForA.encode (299 * second)])).2.getLast? =
          some (some (serverFailure.encode, false)) := by
  have httl : cacheTTL serverFailure.encode = dnsCacheMaxTTL := by decide
  exact ⟨rfl, served_at (by decide) (by decide) httl⟩

end NatProxy.Tunnel.DNSCache
