import NatProxy.Lib.BigEndian
import NatProxy.Lib.FiniteMap
import NatProxy.Lib.RecencyList

/-!
# The DNS cache

Model of `dnsCache` in `golib/tunnel/tun.go`: the map `entries`, the list `lru` and the pointers
between them. Entries, list elements and byte slices are named by numbers in the order of their
allocation, so that two names may be names of one thing. A `*list.List` is the list of its elements,
with `Remove`, `MoveToFront` and `PushFront` as `container/list` documents them. A slice that `get`
has returned belongs to its caller, who may write to it at any time. `put` copies what it is given,
so its arguments are values here. The mutex makes each call one step, at the clock value it reads.

The reference model is a list of entries in order of last use (`Ref`). `cache_refines_lru`: for
every sequence of calls both return the same, and the map and the list hold the entries of the
reference model.
-/

namespace NatProxy.Tunnel.DNSCache

open Lib Function List

/-! ## The lifetime of a response -/

/-- Durations are in nanoseconds. -/
def second : Nat := 1000000000

def dnsCacheMaxTTL : Nat := 300 * second

def dnsCacheNXDomainTTL : Nat := 30 * second

def dnsCacheMaxEntries : Nat := 512

def uint16At (data : Bytes) (i : Nat) : Nat := getNat ((data.drop i).take 2)

def uint32At (data : Bytes) (i : Nat) : Nat := getNat ((data.drop i).take 4)

/-- `skipDNSName`, where none is -1; the length of the data is fuel enough. -/
def skipDNSNameFrom (data : Bytes) : Nat → Nat → Option Nat
  | 0, _ => none
  | fuel + 1, offset =>
    match data[offset]? with
    | none => none
    | some labelLen =>
      if labelLen = 0 then some (offset + 1)
      else if labelLen &&& 0xC0 = 0xC0 then
        -- compression pointer
        if data.length ≤ offset + 1 then none else some (offset + 2)
      else if labelLen &&& 0xC0 ≠ 0 then none
      else skipDNSNameFrom data fuel (offset + 1 + labelLen.toNat)

def skipDNSName (data : Bytes) (offset : Nat) : Option Nat :=
  skipDNSNameFrom data (data.length + 1) offset

def skipQuestions (resp : Bytes) : Nat → Nat → Option Nat
  | 0, offset => some offset
  | qdcount + 1, offset =>
    match skipDNSName resp offset with
    | none => none
    | some offset =>
      if resp.length < offset + 4 then none else skipQuestions resp qdcount (offset + 4)

/-- The loop over answer and authority records: the least TTL so far, at first the largest one, and
`found`. -/
def minTTL (resp : Bytes) : Nat → Nat → Nat × Bool → Nat × Bool
  | 0, _, acc => acc
  | count + 1, offset, acc =>
    match skipDNSName resp offset with
    | none => acc
    | some offset =>
      if resp.length < offset + 10 then acc
      else
        let ttlSec := uint32At resp (offset + 4)
        let next := offset + 10 + uint16At resp (offset + 8)
        if resp.length < next then acc
        else
          let ttl := ttlSec * second
          minTTL resp count next (if ttl < acc.1 then ttl else acc.1, true)

def parseDNSTTL (resp : Bytes) : Nat :=
  if resp.length < 12 then dnsCacheMaxTTL
  else
    match skipQuestions resp (uint16At resp 4) 12 with
    | none => dnsCacheMaxTTL
    | some offset =>
      let least := minTTL resp (uint16At resp 6 + uint16At resp 8) offset (dnsCacheMaxTTL, false)
      if least.2 = false ∨ least.1 = 0 then dnsCacheMaxTTL
      else if dnsCacheMaxTTL < least.1 then dnsCacheMaxTTL
      else least.1

def isDNSNXDomain (resp : Bytes) : Bool :=
  match resp[3]? with
  | none => false
  | some b => b &&& 0x0F == 3

def cacheTTL (response : Bytes) : Nat :=
  let ttl := parseDNSTTL response
  if isDNSNXDomain response && dnsCacheNXDomainTTL < ttl then dnsCacheNXDomainTTL else ttl

/-! ## The cache -/

/-- `dnsCacheEntry`; `response` is a slice. -/
structure Entry where
  key : Bytes
  response : Nat
  expiry : Nat
  ttl : Nat
  element : Nat
deriving Inhabited

/-- `returned` are the slices that `get` has returned, `uses` the keys that were put or hit, the
last one first. -/
structure State where
  entries : AList fun _ : Bytes => Nat
  lru : List Nat
  heap : Nat → Entry
  value : Nat → Nat
  mem : Nat → Bytes
  next : Nat
  returned : List Nat
  uses : List Bytes

def newDNSCache : State where
  entries := ∅
  lru := []
  heap := fun _ => default
  value := fun _ => 0
  mem := fun _ => []
  next := 0
  returned := []
  uses := []

/-- `list.MoveToFront`, which ignores an element of another list. -/
def moveToFront (el : Nat) (lru : List Nat) : List Nat :=
  if el ∈ lru then el :: lru.erase el else lru

/-- `query[2:]`. -/
def keyOf (query : Bytes) : Bytes := query.drop 2

def patch (query response : Bytes) : Bytes :=
  (response.set 0 (query.getD 0 0)).set 1 (query.getD 1 0)

def State.alloc (s : State) (content : Bytes) : State :=
  { s with mem := update s.mem s.next content, next := s.next + 1 }

section Prefetch

-- `float64(remaining) < float64(ttl)*dnsPrefetchWindow`, in floating point
variable (inWindow : Nat → Nat → Bool)

/-- A hit returns a slice and `shouldPrefetch`. -/
def State.get (s : State) (query : Bytes) (now : Nat) : State × Option (Nat × Bool) :=
  if query.length < 12 then (s, none)
  else
    let key := keyOf query
    match s.entries.lookup key with
    | none => (s, none)
    | some p =>
      let entry := s.heap p
      if entry.expiry < now then
        ({ s with lru := s.lru.erase entry.element, entries := s.entries.erase key }, none)
      else
        let resp := s.next
        ({ s.alloc (patch query (s.mem entry.response)) with
            lru := moveToFront entry.element s.lru
            returned := resp :: s.returned
            uses := key :: s.uses },
          some (resp, decide (0 < entry.ttl) && inWindow (entry.expiry - now) entry.ttl))

/-- One round of the loop that makes room. -/
def State.evict (s : State) : State :=
  match s.lru.getLast? with
  | none => s
  | some back =>
    { s with
      lru := s.lru.erase back
      entries := s.entries.erase (s.heap (s.value back)).key }

/-- The loop that makes room; the length of the list is fuel enough. -/
def State.makeRoom : Nat → State → State
  | 0, s => s
  | fuel + 1, s => if dnsCacheMaxEntries ≤ s.lru.length then State.makeRoom fuel s.evict else s

def State.setEntry (s : State) (p : Nat) (entry : Entry) : State :=
  { s with heap := update s.heap p entry }

/-- `entry.element = c.lru.PushFront(entry)` and `c.entries[key] = entry`. -/
def State.insert (s : State) (p : Nat) (entry : Entry) : State :=
  { s.setEntry p { entry with element := p } with
    value := update s.value p p
    lru := p :: s.lru
    entries := s.entries.insert entry.key p }

/-- The part of `put` after the lifetime is known; it has no index or slice expression. -/
def State.store (s : State) (key response : Bytes) (ttl now : Nat) : State :=
  -- `append([]byte(nil), response...)` is a new slice
  let copied := s.next
  let s := s.alloc response
  match s.entries.lookup key with
  | some p =>
    let existing := { s.heap p with response := copied, expiry := now + ttl, ttl := ttl }
    { s.setEntry p existing with
      lru := moveToFront existing.element s.lru
      uses := key :: s.uses }
  | none =>
    let s := (s.makeRoom s.lru.length).insert copied ⟨key, copied, now + ttl, ttl, 0⟩
    { s with uses := key :: s.uses }

def State.put (s : State) (query response : Bytes) (now : Nat) : State :=
  if query.length < 12 ∨ response.length < 12 then s
  else s.store (keyOf query) response (cacheTTL response) now

/-- Calls, at the time that they read, and writes to a slice that `get` has returned. -/
inductive Op where
  | put (query response : Bytes) (now : Nat)
  | get (query : Bytes) (now : Nat)
  | write (slice : Nat) (content : Bytes)
deriving Repr

/-- A call, and for a hit the content of the slice that is returned. -/
def step (s : State) : Op → State × Option (Bytes × Bool)
  | .put query response now => (s.put query response now, none)
  | .get query now =>
    let r := s.get inWindow query now
    (r.1, r.2.map fun hit => (r.1.mem hit.1, hit.2))
  | .write slice content =>
    (if slice ∈ s.returned then { s with mem := update s.mem slice content } else s,
      none)

def exec : State → List Op → State × List (Option (Bytes × Bool))
  | s, [] => (s, [])
  | s, op :: ops =>
    let r := step inWindow s op
    let rest := exec r.1 ops
    (rest.1, r.2 :: rest.2)

/-! ## The reference model -/

/-- The last response put for a key, and when it expires. -/
structure Ref where
  key : Bytes
  response : Bytes
  expiry : Nat
  ttl : Nat
deriving Repr, DecidableEq

open RecencyList in
def refStep (l : List Ref) : Op → List Ref × Option (Bytes × Bool)
  | .put query response now =>
    if query.length < 12 ∨ response.length < 12 then (l, none)
    else
      let ttl := cacheTTL response
      (insertFront Ref.key dnsCacheMaxEntries ⟨keyOf query, response, now + ttl, ttl⟩ l, none)
  | .get query now =>
    if query.length < 12 then (l, none)
    else
      match lookup Ref.key (keyOf query) l with
      | none => (l, none)
      | some e =>
        if e.expiry < now then (without Ref.key (keyOf query) l, none)
        else
          (toFront Ref.key e l,
            some (query.take 2 ++ e.response.drop 2,
              decide (0 < e.ttl) && inWindow (e.expiry - now) e.ttl))
  | .write _ _ => (l, none)

def refExec : List Ref → List Op → List Ref × List (Option (Bytes × Bool))
  | l, [] => (l, [])
  | l, op :: ops =>
    let r := refStep inWindow l op
    let rest := refExec r.1 ops
    (rest.1, r.2 :: rest.2)

end Prefetch

/-! ## What the cache holds -/

def State.entry (s : State) (el : Nat) : Entry := s.heap (s.value el)

def State.view (s : State) (el : Nat) : Ref :=
  ⟨(s.entry el).key, s.mem (s.entry el).response, (s.entry el).expiry, (s.entry el).ttl⟩

/-- The entries in the order of the list. -/
def State.abs (s : State) : List Ref := s.lru.map s.view

/-- An element with the pointer to its entry. -/
structure Linked (next : Nat) (returned : List Nat) (el value : Nat) (e : Entry) : Prop where
  /-- The entry points back to its element. -/
  element : e.element = el
  fresh : el < next ∧ value < next ∧ e.response < next
  /-- No caller has the slice of the entry. -/
  owned : e.response ∉ returned

/-- The map, the list and the pointers between them fit together. -/
structure Inv (s : State) : Prop where
  nodup : s.lru.Nodup
  size : s.lru.length ≤ dnsCacheMaxEntries
  linked : ∀ el ∈ s.lru, Linked s.next s.returned el (s.value el) (s.entry el)
  /-- The map holds the entries of the list under their keys. -/
  entries : ∀ k p, s.entries.lookup k = some p ↔ ∃ el ∈ s.lru, s.value el = p ∧ (s.entry el).key = k
  returned : ∀ slice ∈ s.returned, slice < s.next

theorem inv_newDNSCache : Inv newDNSCache where
  nodup := nodup_nil
  size := Nat.zero_le _
  linked := fun _ h => nomatch h
  entries := fun k p => by
    constructor
    · intro h
      exact nomatch h
    · rintro ⟨el, hel, -⟩
      cases hel
  returned := fun _ h => nomatch h

namespace Inv

variable {s : State}

variable {el el' : Nat}

theorem value_injective (hi : Inv s) (hel : el ∈ s.lru) (hel' : el' ∈ s.lru)
    (h : s.value el = s.value el') : el = el' := by
  rw [← (hi.linked el hel).element, ← (hi.linked el' hel').element, State.entry, State.entry, h]

theorem key_injective (hi : Inv s) (hel : el ∈ s.lru) (hel' : el' ∈ s.lru)
    (h : (s.entry el).key = (s.entry el').key) : el = el' := by
  have h1 := (hi.entries (s.entry el).key (s.value el)).mpr ⟨el, hel, rfl, rfl⟩
  have h2 := (hi.entries (s.entry el).key (s.value el')).mpr ⟨el', hel', rfl, h.symm⟩
  apply hi.value_injective hel hel'
  exact Option.some.inj (h1.symm.trans h2)

theorem nodup_keys (hi : Inv s) : (s.abs.map Ref.key).Nodup := by
  unfold State.abs
  rw [map_map]
  apply hi.nodup.map_on
  intro el hel el' hel' h
  exact hi.key_injective hel hel' h

theorem lookup_abs (hi : Inv s) (k : Bytes) :
    RecencyList.lookup Ref.key k s.abs =
      (s.entries.lookup k).map fun p => s.view (s.heap p).element := by
  cases hp : s.entries.lookup k with
  | none =>
    rw [Option.map_none, RecencyList.lookup_eq_none_iff]
    intro hk
    obtain ⟨e, he, hkey⟩ := mem_map.mp hk
    obtain ⟨el, hel, rfl⟩ := mem_map.mp he
    have hsome := (hi.entries k (s.value el)).mpr ⟨el, hel, rfl, hkey⟩
    rw [hp] at hsome
    cases hsome
  | some p =>
    obtain ⟨el, hel, rfl, hkey⟩ := (hi.entries k p).mp hp
    have hback : (s.heap (s.value el)).element = el := (hi.linked el hel).element
    have hmem : s.view el ∈ s.abs := mem_map_of_mem hel
    rw [Option.map_some, hback, ← RecencyList.lookup_eq_some_of_mem hi.nodup_keys hmem]
    exact congrArg (RecencyList.lookup Ref.key · s.abs) hkey.symm

theorem map_view_erase (hi : Inv s) (hel : el ∈ s.lru) :
    (s.lru.erase el).map s.view = RecencyList.without Ref.key (s.entry el).key s.abs := by
  unfold RecencyList.without State.abs
  rw [hi.nodup.erase_eq_filter, filter_map]
  congr 1
  apply filter_congr
  intro el' hel'
  show (el' != el) = decide ((s.entry el').key ≠ (s.entry el).key)
  by_cases h : el' = el
  · subst h
    simp
  · have hk : (s.entry el').key ≠ (s.entry el).key := fun heq => h (hi.key_injective hel' hel heq)
    rw [decide_eq_true hk, bne_iff_ne.mpr h]

theorem remove (hi : Inv s) (hel : el ∈ s.lru) :
    Inv { s with lru := s.lru.erase el, entries := s.entries.erase (s.entry el).key } where
  nodup := hi.nodup.erase el
  size := Nat.le_trans length_erase_le hi.size
  linked := fun el' h => hi.linked el' (mem_of_mem_erase h)
  entries := by
    intro k p
    show (s.entries.erase (s.entry el).key).lookup k = some p ↔
      ∃ el' ∈ s.lru.erase el, s.value el' = p ∧ (s.entry el').key = k
    rw [lookup_erase_eq_some_iff, hi.entries]
    constructor
    · grind
    · rintro ⟨el', hel', hp, hkey⟩
      obtain ⟨hne, hmem⟩ := hi.nodup.mem_erase_iff.mp hel'
      refine ⟨?_, el', hmem, hp, hkey⟩
      intro hk
      exact hne (hi.key_injective hmem hel (hkey.trans hk))
  returned := hi.returned

theorem alloc (hi : Inv s) (content : Bytes) {returned : List Nat}
    (hr : ∀ slice ∈ returned, slice = s.next ∨ slice ∈ s.returned) :
    Inv { s.alloc content with returned := returned } where
  nodup := hi.nodup
  size := hi.size
  linked := by
    intro el hel
    obtain ⟨hback, ⟨h1, h2, h3⟩, howned⟩ := hi.linked el hel
    refine ⟨hback, ⟨Nat.lt_succ_of_lt h1, Nat.lt_succ_of_lt h2, Nat.lt_succ_of_lt h3⟩, ?_⟩
    intro hmem
    obtain hnew | hold := hr _ hmem
    · exact absurd hnew (Nat.ne_of_lt h3)
    · exact howned hold
  entries := hi.entries
  returned := by
    intro slice hmem
    obtain rfl | hold := hr slice hmem
    · exact Nat.lt_succ_self _
    · exact Nat.lt_succ_of_lt (hi.returned slice hold)

theorem reorder (hi : Inv s) {lru : List Nat} (hp : lru.Perm s.lru) :
    Inv { s with lru := lru } where
  nodup := hp.nodup_iff.mpr hi.nodup
  size := hp.length_eq ▸ hi.size
  linked := fun el h => hi.linked el (hp.mem_iff.mp h)
  entries := by
    intro k p
    rw [hi.entries]
    constructor
    · rintro ⟨el, hel, h⟩
      exact ⟨el, hp.mem_iff.mpr hel, h⟩
    · rintro ⟨el, hel, h⟩
      exact ⟨el, hp.mem_iff.mp hel, h⟩
  returned := hi.returned

theorem perm_moveToFront (hel : el ∈ s.lru) : (moveToFront el s.lru).Perm s.lru := by
  unfold moveToFront
  rw [if_pos hel]
  exact (perm_cons_erase hel).symm

theorem map_view_moveToFront (hi : Inv s) (hel : el ∈ s.lru) :
    (moveToFront el s.lru).map s.view = RecencyList.toFront Ref.key (s.view el) s.abs := by
  unfold moveToFront
  rw [if_pos hel, map_cons, hi.map_view_erase hel]
  rfl

variable {e : Entry}

theorem setEntry (hi : Inv s) (hel : el ∈ s.lru) (hkey : e.key = (s.entry el).key)
    (hback : e.element = el) (hslice : e.response < s.next) (howned : e.response ∉ s.returned) :
    Inv (s.setEntry (s.value el) e) := by
  -- the entries of the other elements are other entries
  have hentry : ∀ el' ∈ s.lru, (s.setEntry (s.value el) e).entry el' =
      if el' = el then e else s.entry el' := by
    intro el' hel'
    show update s.heap (s.value el) e (s.value el') = _
    by_cases heq : el' = el
    · rw [if_pos heq, heq, update_self]
    · rw [if_neg heq, update_of_ne fun h => heq (hi.value_injective hel' hel h)]
      rfl
  have hkeys : ∀ el' ∈ s.lru, ((s.setEntry (s.value el) e).entry el').key = (s.entry el').key := by
    intro el' hel'
    rw [hentry el' hel']
    by_cases heq : el' = el
    · rw [if_pos heq, hkey, heq]
    · rw [if_neg heq]
  constructor
  case nodup => exact hi.nodup
  case size => exact hi.size
  case linked =>
    intro el' hel'
    rw [hentry el' hel']
    by_cases heq : el' = el
    · rw [if_pos heq]
      exact ⟨hback.trans heq.symm, ⟨(hi.linked el' hel').fresh.1, (hi.linked el' hel').fresh.2.1,
        hslice⟩, howned⟩
    · rw [if_neg heq]
      exact hi.linked el' hel'
  case entries =>
    intro k p
    refine (hi.entries k p).trans ?_
    constructor
    · rintro ⟨el', hel', hp, hk⟩
      exact ⟨el', hel', hp, (hkeys el' hel').trans hk⟩
    · rintro ⟨el', hel', hp, hk⟩
      exact ⟨el', hel', hp, (hkeys el' hel').symm.trans hk⟩
  case returned => exact hi.returned

theorem view_setEntry (hi : Inv s) (hel : el ∈ s.lru) (hel' : el' ∈ s.lru)
    (hne : el' ≠ el) (e : Entry) : (s.setEntry (s.value el) e).view el' = s.view el' := by
  have hentry : (s.setEntry (s.value el) e).entry el' = s.entry el' := by
    show update s.heap (s.value el) e (s.value el') = _
    rw [update_of_ne fun h => hne (hi.value_injective hel' hel h)]
    rfl
  unfold State.view
  rw [hentry]
  rfl

theorem view_alloc (hi : Inv s) (hel : el ∈ s.lru) {t : State} {content : Bytes}
    (hheap : t.heap = s.heap) (hvalue : t.value = s.value)
    (hmem : t.mem = update s.mem s.next content) : t.view el = s.view el := by
  have hne : (s.entry el).response ≠ s.next := Nat.ne_of_lt (hi.linked el hel).fresh.2.2
  have hentry : t.entry el = s.entry el := by
    unfold State.entry
    rw [hheap, hvalue]
  unfold State.view
  rw [hentry, hmem, update_of_ne hne]

theorem withUses (hi : Inv s) (uses : List Bytes) : Inv { s with uses := uses } :=
  ⟨hi.nodup, hi.size, hi.linked, hi.entries, hi.returned⟩

section Insert

theorem insert_value_self (s : State) (c : Nat) (e : Entry) : (s.insert c e).value c = c :=
  update_self _ _ _

theorem insert_entry_self (s : State) (c : Nat) (e : Entry) :
    (s.insert c e).entry c = { e with element := c } := by
  show update s.heap c _ ((s.insert c e).value c) = _
  rw [insert_value_self, update_self]

variable {c el : Nat} {e : Entry}

theorem insert_value_of_lt (h : el < c) : (s.insert c e).value el = s.value el :=
  update_of_ne (Nat.ne_of_lt h) _ _

theorem insert_entry_of_lt (h : el < c) (hvalue : s.value el < c) :
    (s.insert c e).entry el = s.entry el := by
  show update s.heap c _ ((s.insert c e).value el) = _
  rw [insert_value_of_lt h, update_of_ne (Nat.ne_of_lt hvalue)]
  rfl

end Insert

theorem insert (hi : Inv s) {c : Nat} (hlt : ∀ el ∈ s.lru, el < c ∧ s.value el < c)
    (hc : c < s.next) (hnew : s.entries.lookup e.key = none) (hslice : e.response < s.next)
    (howned : e.response ∉ s.returned) (hsize : s.lru.length < dnsCacheMaxEntries) :
    Inv (s.insert c e) := by
  have hcnew : c ∉ s.lru := fun h => Nat.lt_irrefl c (hlt c h).1
  have hname := insert_value_self s c e
  have hself := insert_entry_self s c e
  have hvalue : ∀ el ∈ s.lru, (s.insert c e).value el = s.value el :=
    fun el hel => insert_value_of_lt (hlt el hel).1
  have hentry : ∀ el ∈ s.lru, (s.insert c e).entry el = s.entry el :=
    fun el hel => insert_entry_of_lt (hlt el hel).1 (hlt el hel).2
  constructor
  case nodup => exact nodup_cons.mpr ⟨hcnew, hi.nodup⟩
  case size => exact hsize
  case linked =>
    intro el hel
    obtain rfl | hel := mem_cons.mp hel
    · rw [hself, hname]
      exact ⟨rfl, ⟨hc, hc, hslice⟩, howned⟩
    · rw [hentry el hel, hvalue el hel]
      exact hi.linked el hel
  case entries =>
    intro k p
    show (s.entries.insert e.key c).lookup k = some p ↔ ∃ el ∈ c :: s.lru, _
    rw [lookup_insert_eq_some_iff, hi.entries]
    constructor
    · grind
    · rintro ⟨el, hel, hp, hk⟩
      obtain rfl | hel := mem_cons.mp hel
      · left
        rw [hself] at hk
        rw [hname] at hp
        exact ⟨hk.symm, hp⟩
      · right
        rw [hentry el hel] at hk
        rw [hvalue el hel] at hp
        refine ⟨?_, el, hel, hp, hk⟩
        -- the key of the new entry was not in the map
        intro heq
        have hsome := (hi.entries k p).mpr ⟨el, hel, hp, hk⟩
        rw [heq, hnew] at hsome
        cases hsome
  case returned => exact hi.returned

theorem abs_insert {c : Nat} (hlt : ∀ el ∈ s.lru, el < c ∧ s.value el < c) :
    (s.insert c e).abs = ⟨e.key, s.mem e.response, e.expiry, e.ttl⟩ :: s.abs := by
  have hself : (s.insert c e).view c = ⟨e.key, s.mem e.response, e.expiry, e.ttl⟩ := by
    rw [State.view, insert_entry_self]
    rfl
  have hother : ∀ el ∈ s.lru, (s.insert c e).view el = s.view el := by
    intro el hel
    rw [State.view, insert_entry_of_lt (hlt el hel).1 (hlt el hel).2]
    rfl
  show (c :: s.lru).map (s.insert c e).view = _
  rw [map_cons, hself, map_congr_left hother]
  rfl

end Inv

/-! ## Making room -/

theorem erase_getLast {l : List Nat} (hnodup : l.Nodup) {b : Nat} (h : l.getLast? = some b) :
    l.erase b = l.dropLast := by
  obtain ⟨init, rfl⟩ := getLast?_eq_some_iff.mp h
  have hb : b ∉ init := by
    intro hmem
    exact (nodup_append.mp hnodup).2.2 b hmem b (mem_singleton_self b) rfl
  rw [erase_append_right _ hb, erase_cons_head, append_nil, dropLast_concat]

variable {s : State}

theorem evict_spec (hi : Inv s) (hne : s.lru ≠ []) :
    Inv s.evict ∧ s.evict.abs = s.abs.dropLast ∧ s.evict.lru = s.lru.dropLast := by
  obtain ⟨b, hb⟩ := Option.ne_none_iff_exists'.mp
    (fun h => hne (getLast?_eq_none_iff.mp h) : s.lru.getLast? ≠ none)
  have hmem := mem_of_getLast? hb
  have hevict : s.evict =
      { s with lru := s.lru.erase b, entries := s.entries.erase (s.entry b).key } := by
    unfold State.evict
    rw [hb]
    rfl
  rw [hevict]
  refine ⟨hi.remove hmem, ?_, erase_getLast hi.nodup hb⟩
  show (s.lru.erase b).map s.view = (s.lru.map s.view).dropLast
  rw [erase_getLast hi.nodup hb, map_dropLast]

structure Frame (s t : State) : Prop where
  value : t.value = s.value
  mem : t.mem = s.mem
  next : t.next = s.next
  returned : t.returned = s.returned
  uses : t.uses = s.uses
  lru : ∀ el ∈ t.lru, el ∈ s.lru
  entries : ∀ k, s.entries.lookup k = none → t.entries.lookup k = none

theorem frame_evict (s : State) : Frame s s.evict := by
  unfold State.evict
  cases s.lru.getLast? with
  | none => exact ⟨rfl, rfl, rfl, rfl, rfl, fun _ h => h, fun _ h => h⟩
  | some b =>
    refine ⟨rfl, rfl, rfl, rfl, rfl, fun _ h => mem_of_mem_erase h, fun k hk => ?_⟩
    by_cases heq : k = (s.heap (s.value b)).key
    · rw [heq]
      exact AList.lookup_erase _ _
    · rw [← hk]
      exact AList.lookup_erase_ne heq

theorem makeRoom_of_lt (h : s.lru.length < dnsCacheMaxEntries) (fuel : Nat) :
    s.makeRoom fuel = s := by
  cases fuel with
  | zero => rfl
  | succ fuel => exact if_neg (Nat.not_le.mpr h)

theorem makeRoom_spec (hi : Inv s) : Inv (s.makeRoom s.lru.length) ∧
      (s.makeRoom s.lru.length).abs =
        (if dnsCacheMaxEntries ≤ s.abs.length then s.abs.dropLast else s.abs) ∧
      (s.makeRoom s.lru.length).lru.length < dnsCacheMaxEntries ∧
      Frame s (s.makeRoom s.lru.length) := by
  have hlen : s.abs.length = s.lru.length := length_map _
  rw [hlen]
  by_cases hfull : dnsCacheMaxEntries ≤ s.lru.length
  · have hpos : 0 < s.lru.length := Nat.lt_of_lt_of_le (by decide) hfull
    obtain ⟨n, hn⟩ := Nat.exists_eq_add_one_of_ne_zero (Nat.ne_of_gt hpos)
    obtain ⟨hie, habs, hlru⟩ := evict_spec hi (ne_nil_of_length_pos hpos)
    have hshort : s.evict.lru.length < dnsCacheMaxEntries := by
      rw [hlru, length_dropLast]
      have := hi.size
      omega
    have heq : s.makeRoom s.lru.length = s.evict := by
      rw [hn]
      show (if dnsCacheMaxEntries ≤ s.lru.length then s.evict.makeRoom n else s) = _
      rw [if_pos hfull, makeRoom_of_lt hshort]
    rw [heq, if_pos hfull]
    exact ⟨hie, habs, hshort, frame_evict s⟩
  · rw [makeRoom_of_lt (Nat.not_le.mp hfull), if_neg hfull]
    refine ⟨hi, rfl, Nat.not_le.mp hfull, ?_⟩
    exact ⟨rfl, rfl, rfl, rfl, rfl, fun _ h => h, fun _ h => h⟩

/-! ## Refinement -/

structure Sim (s : State) (l : List Ref) : Prop where
  inv : Inv s
  abs : s.abs = l
  recency : RecencyList.ByRecency Ref.key s.uses l
  /-- What is stored has a transaction ID. -/
  long : ∀ e ∈ l, 12 ≤ e.response.length

theorem sim_newDNSCache : Sim newDNSCache [] where
  inv := inv_newDNSCache
  abs := rfl
  recency := ⟨List.Pairwise.nil, fun _ h => nomatch h⟩
  long := fun _ h => nomatch h

theorem patch_eq {query response : Bytes} (hq : 12 ≤ query.length) (hr : 12 ≤ response.length) :
    patch query response = query.take 2 ++ response.drop 2 := by
  obtain ⟨a, b, q, rfl⟩ : ∃ a b q, query = a :: b :: q := by
    match query, hq with
    | a :: b :: q, _ => exact ⟨a, b, q, rfl⟩
  obtain ⟨c, d, r, rfl⟩ : ∃ c d r, response = c :: d :: r := by
    match response, hr with
    | c :: d :: r, _ => exact ⟨c, d, r, rfl⟩
  rfl

section Simulation

variable (inWindow : Nat → Nat → Bool) {s : State} {l : List Ref}

variable {el : Nat} {query : Bytes}

theorem get_eq (hi : Inv s) (hel : el ∈ s.lru) (hkey : (s.entry el).key = keyOf query)
    (hq : ¬ query.length < 12) (now : Nat) : s.get inWindow query now =
      if (s.entry el).expiry < now then
        ({ s with lru := s.lru.erase el, entries := s.entries.erase (keyOf query) }, none)
      else
        ({ s.alloc (patch query (s.mem (s.entry el).response)) with
            lru := moveToFront el s.lru
            returned := s.next :: s.returned
            uses := keyOf query :: s.uses },
          some (s.next, decide (0 < (s.entry el).ttl) &&
            inWindow ((s.entry el).expiry - now) (s.entry el).ttl)) := by
  have hp := (hi.entries _ (s.value el)).mpr ⟨el, hel, rfl, hkey⟩
  have hback : (s.heap (s.value el)).element = el := (hi.linked el hel).element
  simp only [State.get, if_neg hq, hp, hback]
  rfl

theorem refStep_get_eq (hi : Inv s) (hel : el ∈ s.lru) (hkey : (s.entry el).key = keyOf query)
    (hq : ¬ query.length < 12) (now : Nat) : refStep inWindow s.abs (.get query now) =
      if (s.entry el).expiry < now then (RecencyList.without Ref.key (keyOf query) s.abs, none)
      else
        (RecencyList.toFront Ref.key (s.view el) s.abs,
          some (query.take 2 ++ (s.mem (s.entry el).response).drop 2,
            decide (0 < (s.entry el).ttl) &&
              inWindow ((s.entry el).expiry - now) (s.entry el).ttl)) := by
  have hmem : s.view el ∈ s.abs := mem_map_of_mem hel
  have hlookup : RecencyList.lookup Ref.key (keyOf query) s.abs = some (s.view el) := by
    rw [← hkey]
    exact RecencyList.lookup_eq_some_of_mem hi.nodup_keys hmem
  simp only [refStep, if_neg hq, hlookup]
  rfl

theorem sim_get (h : Sim s l) (query : Bytes) (now : Nat) :
    Sim (step inWindow s (.get query now)).1 (refStep inWindow l (.get query now)).1 ∧
      (step inWindow s (.get query now)).2 = (refStep inWindow l (.get query now)).2 := by
  obtain ⟨hi, rfl, hrec, hlong⟩ := h
  by_cases hq : query.length < 12
  · simp only [step, refStep, State.get, if_pos hq]
    exact ⟨⟨hi, rfl, hrec, hlong⟩, rfl⟩
  cases hp : s.entries.lookup (keyOf query) with
  | none =>
    have hlookup := hi.lookup_abs (keyOf query)
    rw [hp, Option.map_none] at hlookup
    simp only [step, refStep, State.get, if_neg hq, hp, hlookup]
    exact ⟨⟨hi, rfl, hrec, hlong⟩, rfl⟩
  | some p =>
    obtain ⟨el, hel, rfl, hkey⟩ := (hi.entries _ p).mp hp
    have hmem : s.view el ∈ s.abs := mem_map_of_mem hel
    simp only [step, get_eq inWindow hi hel hkey hq, refStep_get_eq inWindow hi hel hkey hq]
    by_cases hexp : (s.entry el).expiry < now
    · -- the entry is found expired
      simp only [if_pos hexp, Option.map_none, and_true]
      refine ⟨?_, ?_, hrec.sublist filter_sublist, fun e he => ?_⟩
      · rw [← hkey]
        exact hi.remove hel
      · rw [← hkey]
        exact hi.map_view_erase hel
      · exact hlong e (RecencyList.mem_without.mp he).1
    · simp only [if_neg hexp, Option.map_some, State.alloc, update_self]
      have hperm := Inv.perm_moveToFront hel
      refine ⟨⟨?_, ?_, ?_, fun e he => ?_⟩, ?_⟩
      · exact ((hi.alloc _ fun slice hs => mem_cons.mp hs).reorder hperm).withUses _
      · -- the copy is not what the list holds
        rw [← hi.map_view_moveToFront hel]
        apply map_congr_left
        intro el' hel'
        exact hi.view_alloc (hperm.mem_iff.mp hel') rfl rfl rfl
      · rw [← hkey]
        exact hrec.toFront (s.view el)
      · obtain rfl | he := mem_cons.mp he
        · exact hlong _ hmem
        · exact hlong e (RecencyList.mem_without.mp he).1
      · have hresp : 12 ≤ (s.mem (s.entry el).response).length := hlong _ hmem
        rw [patch_eq (Nat.not_lt.mp hq) hresp]

theorem sim_write (h : Sim s l) (slice : Nat) (content : Bytes) :
    Sim (step inWindow s (.write slice content)).1 l := by
  obtain ⟨hi, rfl, hrec, hlong⟩ := h
  by_cases hs : slice ∈ s.returned
  · simp only [step, if_pos hs]
    refine ⟨⟨hi.nodup, hi.size, hi.linked, hi.entries, hi.returned⟩, ?_, hrec, hlong⟩
    apply map_congr_left
    intro el hel
    -- the caller does not have the slice of an entry
    have hne : (s.entry el).response ≠ slice := fun heq => (hi.linked el hel).owned (heq ▸ hs)
    show Ref.mk _ (update s.mem slice content (s.entry el).response) _ _ = s.view el
    rw [update_of_ne hne]
    rfl
  · simp only [step, if_neg hs]
    exact ⟨hi, rfl, hrec, hlong⟩

variable {response : Bytes}

theorem put_eq_update (hi : Inv s) (hel : el ∈ s.lru) (hkey : (s.entry el).key = keyOf query)
    (hlen : ¬ (query.length < 12 ∨ response.length < 12)) (now : Nat) : s.put query response now =
      { (s.alloc response).setEntry (s.value el)
          ⟨keyOf query, s.next, now + cacheTTL response, cacheTTL response, el⟩ with
        lru := moveToFront el s.lru
        uses := keyOf query :: s.uses } := by
  have hp : (s.alloc response).entries.lookup (keyOf query) = some (s.value el) :=
    (hi.entries _ (s.value el)).mpr ⟨el, hel, rfl, hkey⟩
  have hback : (s.heap (s.value el)).element = el := (hi.linked el hel).element
  have hk : (s.heap (s.value el)).key = keyOf query := hkey
  simp only [State.put, State.store, if_neg hlen, hp]
  simp only [State.alloc, hback, hk]

theorem put_eq_insert (hp : s.entries.lookup (keyOf query) = none)
    (hlen : ¬ (query.length < 12 ∨ response.length < 12)) (now : Nat) : s.put query response now =
      { ((s.alloc response).makeRoom (s.alloc response).lru.length).insert s.next
          ⟨keyOf query, s.next, now + cacheTTL response, cacheTTL response, 0⟩ with
        uses := keyOf query ::
          (((s.alloc response).makeRoom (s.alloc response).lru.length).insert s.next
            ⟨keyOf query, s.next, now + cacheTTL response, cacheTTL response, 0⟩).uses } := by
  have hp' : (s.alloc response).entries.lookup (keyOf query) = none := hp
  simp only [State.put, State.store, if_neg hlen, hp']

theorem sim_put_update (hi : Inv s) (hrec : RecencyList.ByRecency Ref.key s.uses s.abs)
    (hlong : ∀ e ∈ s.abs, 12 ≤ e.response.length) (hel : el ∈ s.lru)
    (hkey : (s.entry el).key = keyOf query) (hlen : ¬ (query.length < 12 ∨ response.length < 12))
    (now : Nat) : Sim (s.put query response now) (RecencyList.toFront Ref.key
      ⟨keyOf query, response, now + cacheTTL response, cacheTTL response⟩ s.abs) := by
  have hi₁ : Inv (s.alloc response) := hi.alloc response fun _ h => .inr h
  have howned : s.next ∉ s.returned := fun h => Nat.lt_irrefl _ (hi.returned _ h)
  let e : Entry := ⟨keyOf query, s.next, now + cacheTTL response, cacheTTL response, el⟩
  have hi₂ : Inv ((s.alloc response).setEntry (s.value el) e) :=
    hi₁.setEntry hel hkey.symm rfl (Nat.lt_succ_self _) howned
  have hself : ((s.alloc response).setEntry (s.value el) e).view el =
      ⟨keyOf query, response, now + cacheTTL response, cacheTTL response⟩ := by
    unfold State.view State.entry State.setEntry State.alloc
    simp only [update_self, e]
  have hother : ∀ el' ∈ s.lru.erase el,
      ((s.alloc response).setEntry (s.value el) e).view el' = s.view el' := by
    intro el' hel'
    obtain ⟨hne, hmem⟩ := hi.nodup.mem_erase_iff.mp hel'
    exact (hi₁.view_setEntry hel hmem hne e).trans (hi.view_alloc hmem rfl rfl rfl)
  rw [put_eq_update hi hel hkey hlen]
  refine ⟨(hi₂.reorder (Inv.perm_moveToFront hel)).withUses _, ?_, ?_, fun x hx => ?_⟩
  · show (moveToFront el s.lru).map ((s.alloc response).setEntry (s.value el) e).view = _
    unfold moveToFront RecencyList.toFront
    rw [if_pos hel, map_cons, hself, map_congr_left hother, hi.map_view_erase hel, hkey]
  · exact hrec.toFront ⟨keyOf query, response, now + cacheTTL response, cacheTTL response⟩
  · obtain rfl | hx := mem_cons.mp hx
    · exact Nat.not_lt.mp fun h => hlen (.inr h)
    · exact hlong x (RecencyList.mem_without.mp hx).1

theorem sim_put_insert (hi : Inv s) {l : List Ref}
    (hp : s.entries.lookup (keyOf query) = none)
    (hlen : ¬ (query.length < 12 ∨ response.length < 12)) (now : Nat)
    (hl : l = ⟨keyOf query, response, now + cacheTTL response, cacheTTL response⟩ ::
      if dnsCacheMaxEntries ≤ s.abs.length then s.abs.dropLast else s.abs)
    (hrec : RecencyList.ByRecency Ref.key (keyOf query :: s.uses) l)
    (hlong : ∀ e ∈ l, 12 ≤ e.response.length) :
    Sim (s.put query response now) l := by
  have hi₁ : Inv (s.alloc response) := hi.alloc response fun _ h => .inr h
  have howned : s.next ∉ s.returned := fun h => Nat.lt_irrefl _ (hi.returned _ h)
  have habs₁ : (s.alloc response).abs = s.abs :=
    map_congr_left fun el hel => hi.view_alloc hel rfl rfl rfl
  have hroom := makeRoom_spec hi₁
  rw [put_eq_insert hp hlen]
  rw [habs₁] at hroom
  -- from here on, `t` is the cache with room for the entry
  generalize (s.alloc response).makeRoom (s.alloc response).lru.length = t at hroom ⊢
  obtain ⟨hi₂, habs₂, hsize, hframe⟩ := hroom
  have hnext : t.next = s.next + 1 := hframe.next
  have hlt : ∀ el ∈ t.lru, el < s.next ∧ t.value el < s.next := by
    intro el hel
    obtain ⟨h1, h2, -⟩ := (hi.linked el (hframe.lru el hel)).fresh
    rw [hframe.value]
    exact ⟨h1, h2⟩
  have hmem : t.mem s.next = response := by
    rw [hframe.mem]
    exact update_self _ _ _
  have hfresh : s.next < t.next := hnext ▸ Nat.lt_succ_self _
  have hnot : s.next ∉ t.returned := by
    rw [hframe.returned]
    exact howned
  refine ⟨(hi₂.insert hlt hfresh (hframe.entries _ hp) hfresh hnot hsize).withUses _, ?_, ?_, hlong⟩
  · refine (Inv.abs_insert hlt).trans ?_
    rw [hl, hmem, habs₂]
  · show RecencyList.ByRecency Ref.key (keyOf query :: t.uses) l
    rw [hframe.uses]
    exact hrec

theorem sim_put (h : Sim s l) (query response : Bytes) (now : Nat) :
    Sim (step inWindow s (.put query response now)).1
      (refStep inWindow l (.put query response now)).1 := by
  obtain ⟨hi, rfl, hrec, hlong⟩ := h
  by_cases hlen : query.length < 12 ∨ response.length < 12
  · simp only [step, refStep, State.put, if_pos hlen]
    exact ⟨hi, rfl, hrec, hlong⟩
  have hnew : 12 ≤ response.length := Nat.not_lt.mp fun h => hlen (.inr h)
  have hlookup := hi.lookup_abs (keyOf query)
  simp only [step, refStep, if_neg hlen]
  cases hp : s.entries.lookup (keyOf query) with
  | some p =>
    obtain ⟨el, hel, rfl, hkey⟩ := (hi.entries _ p).mp hp
    rw [hp, Option.map_some] at hlookup
    unfold RecencyList.insertFront
    rw [if_pos (by rw [hlookup]; rfl)]
    exact sim_put_update hi hrec hlong hel hkey hlen now
  | none =>
    rw [hp, Option.map_none] at hlookup
    refine sim_put_insert hi hp hlen now ?_ ?_ fun e he => ?_
    · unfold RecencyList.insertFront
      rw [if_neg (by rw [hlookup]; exact Bool.false_ne_true)]
    · exact hrec.insertFront dnsCacheMaxEntries
        ⟨keyOf query, response, now + cacheTTL response, cacheTTL response⟩
    · unfold RecencyList.insertFront at he
      rw [if_neg (by rw [hlookup]; exact Bool.false_ne_true)] at he
      obtain rfl | he := mem_cons.mp he
      · exact hnew
      · by_cases hfull : dnsCacheMaxEntries ≤ s.abs.length
        · rw [if_pos hfull] at he
          exact hlong e ((dropLast_sublist _).subset he)
        · rw [if_neg hfull] at he
          exact hlong e he

/-- **One call.** The cache and the reference model return the same and stay in step. -/
theorem sim_step (h : Sim s l) (op : Op) :
    Sim (step inWindow s op).1 (refStep inWindow l op).1 ∧
      (step inWindow s op).2 = (refStep inWindow l op).2 := by
  cases op with
  | put query response now =>
    refine ⟨sim_put inWindow h query response now, ?_⟩
    by_cases hlen : query.length < 12 ∨ response.length < 12
    · simp only [step, refStep, if_pos hlen]
    · simp only [step, refStep, if_neg hlen]
  | get query now => exact sim_get inWindow h query now
  | write slice content => exact ⟨sim_write inWindow h slice content, rfl⟩

/-- **All sequences of calls.** -/
theorem sim_exec (ops : List Op) : ∀ {s : State} {l : List Ref}, Sim s l →
    Sim (exec inWindow s ops).1 (refExec inWindow l ops).1 ∧
      (exec inWindow s ops).2 = (refExec inWindow l ops).2 := by
  induction ops with
  | nil => exact fun h => ⟨h, rfl⟩
  | cons op ops ih =>
    intro s l h
    obtain ⟨hsim, hout⟩ := sim_step inWindow h op
    obtain ⟨hsim', hout'⟩ := ih hsim
    refine ⟨hsim', ?_⟩
    show _ :: _ = _ :: _
    rw [hout, hout']

end Simulation

def State.deref (s : State) (p : Nat) : Ref :=
  ⟨(s.heap p).key, s.mem (s.heap p).response, (s.heap p).expiry, (s.heap p).ttl⟩

theorem Inv.lookup_iff (hi : Inv s) (k : Bytes) (e : Ref) :
    (∃ p, s.entries.lookup k = some p ∧ s.deref p = e) ↔ e ∈ s.abs ∧ e.key = k := by
  constructor
  · rintro ⟨p, hp, rfl⟩
    obtain ⟨el, hel, rfl, hk⟩ := (hi.entries k p).mp hp
    exact ⟨mem_map_of_mem hel, hk⟩
  · rintro ⟨he, hk⟩
    obtain ⟨el, hel, rfl⟩ := mem_map.mp he
    exact ⟨s.value el, (hi.entries k _).mpr ⟨el, hel, rfl, hk⟩, rfl⟩

/-- **The cache refines a least-recently-used map with expiry.** -/
theorem cache_refines_lru (inWindow : Nat → Nat → Bool) (ops : List Op) :
    (exec inWindow newDNSCache ops).2 = (refExec inWindow [] ops).2 ∧
      (exec inWindow newDNSCache ops).1.abs = (refExec inWindow [] ops).1 ∧
      (∀ k e, (∃ p, (exec inWindow newDNSCache ops).1.entries.lookup k = some p ∧
          (exec inWindow newDNSCache ops).1.deref p = e) ↔
        e ∈ (exec inWindow newDNSCache ops).1.abs ∧ e.key = k) ∧
      ((exec inWindow newDNSCache ops).1.abs.map Ref.key).Nodup ∧
      (exec inWindow newDNSCache ops).1.abs.length ≤ 512 ∧
      RecencyList.ByRecency Ref.key (exec inWindow newDNSCache ops).1.uses
        (exec inWindow newDNSCache ops).1.abs := by
  obtain ⟨⟨hi, habs, hrec, -⟩, hout⟩ := sim_exec inWindow ops sim_newDNSCache
  refine ⟨hout, habs, hi.lookup_iff, hi.nodup_keys, ?_, ?_⟩
  · rw [State.abs, length_map]
    exact hi.size
  · rw [habs]
    exact hrec

end NatProxy.Tunnel.DNSCache
