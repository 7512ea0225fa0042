import NatProxy.Lib.Transition
import NatProxy.Lib.FiniteMap

/-!
# The UDP relay of the signal server

Model of `udpRelay` (`signalserver/cmd/signalserver/main.go`). A registration packet puts its source
address into one of the two slots of a session; any other packet is a data packet, and is forwarded
to the other slot of the first session found in which the source address has a slot. The collector
deletes sessions of which both slots are old.

The sessions are a Go map, so a data packet comes with the order in which the iteration visits them,
which may be any. Addresses are those of a `udp4` socket. `log` records the packets that were
handled, the newest first, with what became of them; no branch reads it.

`wellForwarded_iff`: forwarding does not depend on the order and stays inside the session in which
the source registered last exactly if every session that still has a slot for the source has the
same other peer for it. The relay does not ensure this (`movedClient_ambiguous`).
-/

namespace NatProxy.Signaling.Relay

open Lib

structure UDPAddr where
  ip : UInt32
  port : UInt16
deriving DecidableEq, Repr

def addrEqual (a b : UDPAddr) : Bool :=
  a.ip == b.ip && a.port == b.port

variable {a : UDPAddr}

@[simp] theorem addrEqual_iff {b : UDPAddr} : addrEqual a b = true ↔ a = b := by
  cases a
  cases b
  simp [addrEqual]

abbrev Key := List UInt8

/-- The slot of a session that a peer registers for. -/
inductive Role where
  | server
  | client
deriving DecidableEq, Repr

/-- The role byte of a registration: `0x01` is the client, anything else the server. -/
def Role.ofByte (b : UInt8) : Role := if b = 0x01 then .client else .server

structure RelayPeer where
  addr : UDPAddr
  updatedAt : Nat
deriving DecidableEq, Repr

structure RelaySession where
  server : Option RelayPeer := none
  client : Option RelayPeer := none
deriving DecidableEq, Repr

def RelaySession.peer (sess : RelaySession) : Role → Option RelayPeer
  | .server => sess.server
  | .client => sess.client

def RelaySession.setPeer (sess : RelaySession) (role : Role) (p : RelayPeer) : RelaySession :=
  match role with
  | .server => { sess with server := some p }
  | .client => { sess with client := some p }

theorem peer_setPeer_self (sess : RelaySession) (role : Role) (p : RelayPeer) :
    (sess.setPeer role p).peer role = some p := by
  cases role <;> rfl

variable {role : Role}

theorem peer_setPeer_of_ne (sess : RelaySession) {r : Role} (hne : r ≠ role) (p : RelayPeer) :
    (sess.setPeer role p).peer r = sess.peer r := by
  cases role with
  | server =>
    cases r with
    | server => exact absurd rfl hne
    | client => rfl
  | client =>
    cases r with
    | server => rfl
    | client => exact absurd rfl hne

/-- A packet registers its source, is forwarded to `target`, or dropped. -/
inductive Outcome where
  | registered (key : Key) (role : Role)
  | data (target : Option UDPAddr)
deriving DecidableEq, Repr

structure Event where
  time : Nat
  src : UDPAddr
  outcome : Outcome
deriving DecidableEq, Repr

structure State where
  sessions : AList fun _ : Key => RelaySession := ∅
  recv : Nat := 0
  sent : Nat := 0
  now : Nat := 0
  log : List Event := []

def State.values (s : State) : List RelaySession := s.sessions.entries.map (·.2)

/-! ## `handlePacket` and `gcLoop` -/

/-- A registration packet is the magic number, the key and the role. -/
def parseRegistration (pkt : List UInt8) : Option (Key × Role) :=
  if pkt.length = 21 ∧ pkt.take 4 = [0xDE, 0xAD, 0xBE, 0xEF] then
    some ((pkt.drop 4).take 16, Role.ofByte (pkt.getD 20 0))
  else none

def State.register (s : State) (key : Key) (role : Role) (src : UDPAddr) : State :=
  let sess := (s.sessions.lookup key).getD {}
  -- a slot that `src` has in another session stays
  { s with
    sessions := s.sessions.insert key (sess.setPeer role ⟨src, s.now⟩)
    recv := s.recv + 1
    log := ⟨s.now, src, .registered key role⟩ :: s.log }

/-- The peer in this slot has the address `src`. -/
def isAt (src : UDPAddr) : Option RelayPeer → Bool
  | some p => addrEqual p.addr src
  | none => false

def findTarget (src : UDPAddr) : List RelaySession → Option UDPAddr
  | [] => none
  | sess :: rest =>
    if isAt src sess.server then sess.client.map (·.addr)
    else if isAt src sess.client then sess.server.map (·.addr)
    else findTarget src rest

def State.forward (s : State) (src : UDPAddr) (order : List RelaySession) : State :=
  let target := findTarget src order
  -- the times in the slots stay as they are
  { s with
    recv := s.recv + 1
    sent := if target.isSome then s.sent + 1 else s.sent
    log := ⟨s.now, src, .data target⟩ :: s.log }

/-- `handlePacket`; `order` is how the iteration over the sessions visits them. -/
def State.handlePacket (s : State) (pkt : List UInt8) (src : UDPAddr)
    (order : List RelaySession) : Option State :=
  match parseRegistration pkt with
  | some (key, role) => some (s.register key role src)
  | none => if order.Perm s.values then some (s.forward src order) else none

/-- The peer in this slot has registered after the time that is `ttl` before now. -/
def State.isFresh (s : State) (ttl : Nat) : Option RelayPeer → Bool
  | some p => s.now < p.updatedAt + ttl
  | none => false

def State.stale (s : State) (ttl : Nat) (sess : RelaySession) : Bool :=
  !s.isFresh ttl sess.server && !s.isFresh ttl sess.client

def State.sweep (s : State) (ttl : Nat) : State :=
  { s with sessions := filterEntries (fun _ sess => !s.stale ttl sess) s.sessions }

inductive Action where
  | packet (pkt : List UInt8) (src : UDPAddr) (order : List RelaySession)
  | sweep
  | tick
deriving Repr

/-- One step of the relay; `gcLoop` returns at once when `ttl` is not positive. -/
def step (ttl : Nat) (s : State) : Action → Option State
  | .packet pkt src order => s.handlePacket pkt src order
  | .sweep => if 0 < ttl then some (s.sweep ttl) else none
  | .tick => some { s with now := s.now + 1 }

variable {ttl : Nat} {s t : State}

variable {sess : RelaySession}

theorem mem_values : sess ∈ s.values ↔ ∃ key, s.sessions.lookup key = some sess :=
  mem_map_entries_iff s.sessions sess

inductive Moves (ttl : Nat) (s : State) : Action → State → Prop
  | registers (pkt : List UInt8) (src : UDPAddr) (order : List RelaySession) (key : Key)
      (role : Role) (hpkt : parseRegistration pkt = some (key, role)) :
      Moves ttl s (.packet pkt src order) (s.register key role src)
  | forwards (pkt : List UInt8) (src : UDPAddr) (order : List RelaySession)
      (hpkt : parseRegistration pkt = none) (horder : order.Perm s.values) :
      Moves ttl s (.packet pkt src order) (s.forward src order)
  | sweeps (hpos : 0 < ttl) : Moves ttl s .sweep (s.sweep ttl)
  | ticks : Moves ttl s .tick { s with now := s.now + 1 }

theorem moves_of_step {a : Action} (h : step ttl s a = some t) : Moves ttl s a t := by
  cases a with
  | packet pkt src order =>
    rw [step, State.handlePacket] at h
    split at h
    case h_1 key role hpkt =>
      cases h
      exact .registers pkt src order key role hpkt
    case h_2 hpkt =>
      obtain ⟨horder, rfl⟩ := of_guarded h
      exact .forwards pkt src order hpkt horder
  | sweep =>
    obtain ⟨hpos, rfl⟩ := of_guarded h
    exact .sweeps hpos
  | tick =>
    cases h
    exact .ticks

variable {key : Key} {src : UDPAddr}

theorem lookup_register {key' : Key} : (s.register key role src).sessions.lookup key' = some sess ↔
      (key' = key ∧ ((s.sessions.lookup key).getD {}).setPeer role ⟨src, s.now⟩ = sess) ∨
        (key' ≠ key ∧ s.sessions.lookup key' = some sess) :=
  lookup_insert_eq_some_iff _ _ _ _ _

theorem lookup_sweep : (s.sweep ttl).sessions.lookup key = some sess ↔
      s.sessions.lookup key = some sess ∧ s.stale ttl sess = false := by
  rw [State.sweep, lookup_filterEntries_eq_some_iff, Bool.not_eq_true']

/-! ## The search for the target -/

/-- The source address has a slot of the session. -/
def RelaySession.holds (sess : RelaySession) (src : UDPAddr) : Prop :=
  ∃ role p, sess.peer role = some p ∧ p.addr = src

/-- The other peer of a session, seen from the address `src`. -/
def RelaySession.opposite (sess : RelaySession) (src : UDPAddr) : Option UDPAddr :=
  if isAt src sess.server then sess.client.map (·.addr)
  else if isAt src sess.client then sess.server.map (·.addr)
  else none

theorem isAt_iff {slot : Option RelayPeer} :
    isAt src slot = true ↔ ∃ p, slot = some p ∧ p.addr = src := by
  cases slot with
  | none | some p => simp [isAt]

theorem holds_iff : sess.holds src ↔ isAt src sess.server = true ∨ isAt src sess.client = true := by
  rw [isAt_iff, isAt_iff]
  constructor
  · rintro ⟨role, p, hp, rfl⟩
    cases role with
    | server => exact .inl ⟨p, hp, rfl⟩
    | client => exact .inr ⟨p, hp, rfl⟩
  · rintro (⟨p, hp, rfl⟩ | ⟨p, hp, rfl⟩)
    · exact ⟨.server, p, hp, rfl⟩
    · exact ⟨.client, p, hp, rfl⟩

instance (sess : RelaySession) (src : UDPAddr) : Decidable (sess.holds src) :=
  decidable_of_iff _ holds_iff.symm

theorem opposite_of_not_holds (h : ¬ sess.holds src) : sess.opposite src = none := by
  rw [holds_iff, not_or] at h
  rw [RelaySession.opposite, if_neg h.1, if_neg h.2]

theorem findTarget_cons (src : UDPAddr) (sess : RelaySession) (rest : List RelaySession) :
    findTarget src (sess :: rest) =
      if sess.holds src then sess.opposite src else findTarget src rest := by
  rw [findTarget, RelaySession.opposite]
  by_cases hserver : isAt src sess.server = true
  · rw [if_pos (holds_iff.2 (.inl hserver)), if_pos hserver, if_pos hserver]
  · by_cases hclient : isAt src sess.client = true
    · rw [if_pos (holds_iff.2 (.inr hclient)), if_neg hserver, if_pos hclient, if_neg hserver,
        if_pos hclient]
    · have hnot : ¬ sess.holds src := fun h => (holds_iff.1 h).elim hserver hclient
      rw [if_neg hnot, if_neg hserver, if_neg hclient]

theorem findTarget_eq {target : Option UDPAddr} {order : List RelaySession}
    (hall : ∀ sess ∈ order, sess.holds src → sess.opposite src = target)
    (hnone : (∀ sess ∈ order, ¬ sess.holds src) → target = none) :
    findTarget src order = target := by
  -- the first session that has a slot decides; before it there is nothing to find
  induction order with
  | nil => exact (hnone fun _ h => absurd h List.not_mem_nil).symm
  | cons sess rest ih =>
    rw [findTarget_cons]
    split
    case isTrue h => exact hall sess List.mem_cons_self h
    case isFalse h =>
      simp_all

theorem findTarget_perm_iff {target : Option UDPAddr} {l : List RelaySession}
    (hnone : (∀ sess ∈ l, ¬ sess.holds src) → target = none) :
    (∀ order : List RelaySession, order.Perm l → findTarget src order = target) ↔
      ∀ sess ∈ l, sess.holds src → sess.opposite src = target := by
  constructor
  · intro h sess hmem hholds
    -- the iteration may visit this session first
    have hfirst := h (sess :: l.erase sess) (List.perm_cons_erase hmem).symm
    rwa [findTarget_cons, if_pos hholds] at hfirst
  · intro h order hperm
    refine findTarget_eq (fun sess hmem => h sess (hperm.mem_iff.1 hmem)) fun hrest => hnone ?_
    exact fun sess hmem => hrest sess (hperm.mem_iff.2 hmem)

/-! ## Where an address has registered last -/

/-- The session of the latest registration from `src`. -/
def latestKey (src : UDPAddr) : List Event → Option Key
  | [] => none
  | e :: log =>
    match e.outcome with
    | .registered key _ => if e.src = src then some key else latestKey src log
    | .data _ => latestKey src log

theorem latestKey_register_self (key : Key) (role : Role) (src : UDPAddr) :
    latestKey src (s.register key role src).log = some key :=
  if_pos rfl

theorem latestKey_register_of_ne (hne : a ≠ src) :
    latestKey a (s.register key role src).log = latestKey a s.log :=
  if_neg (Ne.symm hne)

/-- The other peer of the session in which `src` has registered last. -/
def State.registeredTarget (s : State) (src : UDPAddr) : Option UDPAddr :=
  (latestKey src s.log).bind fun key => (s.sessions.lookup key).bind (·.opposite src)

theorem registeredTarget_eq (hkey : latestKey src s.log = some key)
    (hsess : s.sessions.lookup key = some sess) : s.registeredTarget src = sess.opposite src := by
  rw [State.registeredTarget, hkey, Option.bind_some, hsess, Option.bind_some]

theorem exists_of_registeredTarget {target : UDPAddr} (h : s.registeredTarget src = some target) :
    ∃ key sess, latestKey src s.log = some key ∧ s.sessions.lookup key = some sess ∧
      sess.holds src ∧ sess.opposite src = some target := by
  obtain ⟨key, hkey, h⟩ := Option.bind_eq_some_iff.1 h
  obtain ⟨sess, hsess, htarget⟩ := Option.bind_eq_some_iff.1 h
  refine ⟨key, sess, hkey, hsess, ?_, htarget⟩
  by_contra hnot
  rw [opposite_of_not_holds hnot] at htarget
  cases htarget

theorem registeredTarget_eq_none (h : ∀ sess ∈ s.values, ¬ sess.holds src) :
    s.registeredTarget src = none := by
  rw [Option.eq_none_iff_forall_ne_some]
  intro target htarget
  obtain ⟨key, sess, -, hsess, hholds, -⟩ := exists_of_registeredTarget htarget
  exact h sess (mem_values.2 ⟨key, hsess⟩) hholds

/-! ## Forwarding -/

/-- A data packet from `src` goes to its target whatever the order, and to a peer of the session in
which `src` registered last. -/
structure WellForwarded (s : State) (src : UDPAddr) : Prop where
  determined : ∀ order : List RelaySession, order.Perm s.values →
    findTarget src order = s.registeredTarget src
  inside : ∀ (order : List RelaySession) (target : UDPAddr), order.Perm s.values →
    findTarget src order = some target →
      ∃ key sess, latestKey src s.log = some key ∧ s.sessions.lookup key = some sess ∧
        sess.holds src ∧ sess.opposite src = some target

/-- Every session that has a slot for `src` has the registered target as its other peer. -/
def State.Unambiguous (s : State) (src : UDPAddr) : Prop :=
  ∀ sess ∈ s.values, sess.holds src → sess.opposite src = s.registeredTarget src

instance (s : State) (src : UDPAddr) : Decidable (s.Unambiguous src) :=
  inferInstanceAs (Decidable (∀ sess ∈ s.values, _))

theorem wellForwarded_iff_unambiguous : WellForwarded s src ↔ s.Unambiguous src := by
  constructor
  · intro h
    exact (findTarget_perm_iff registeredTarget_eq_none).1 h.determined
  · intro h
    have hdet := (findTarget_perm_iff registeredTarget_eq_none).2 h
    refine ⟨hdet, fun order target horder htarget => ?_⟩
    exact exists_of_registeredTarget ((hdet order horder).symm.trans htarget)

/-- A data packet finds a state with `P`. -/
def OnData (P : State → UDPAddr → Prop) (s : State) : Action → Prop
  | .packet pkt src _ => parseRegistration pkt = none → P s src
  | .sweep | .tick => True

instance (P : State → UDPAddr → Prop) [∀ s src, Decidable (P s src)] (s : State) :
    (a : Action) → Decidable (OnData P s a)
  | .packet pkt src _ => inferInstanceAs (Decidable (parseRegistration pkt = none → P s src))
  | .sweep | .tick => isTrue trivial

/-- **When forwarding is well defined and stays inside a session**, for every data packet. -/
theorem wellForwarded_iff (ttl : Nat) (acts : List Action) :
    AllSteps (step ttl) (OnData WellForwarded) {} acts ↔
      AllSteps (step ttl) (OnData State.Unambiguous) {} acts := by
  refine allSteps_congr (fun (_ : State) _ _ (h : True) _ => h) ?_ acts _ trivial
  intro s a t _ _
  cases a with
  | packet pkt src order => exact imp_congr_right fun _ => wellForwarded_iff_unambiguous
  | sweep | tick => exact Iff.rfl

/-! ## Addresses that are in one session at a time -/

/-- An address that registers has no slot in another session. -/
def RegistersFresh (s : State) : Action → Prop
  | .packet pkt src _ => ∀ key role, parseRegistration pkt = some (key, role) →
      ∀ key' sess, s.sessions.lookup key' = some sess → sess.holds src → key' = key
  | .sweep | .tick => True

theorem registersFresh_packet {s : State} {pkt : List UInt8} {order : List RelaySession} :
    (∀ r ∈ parseRegistration pkt, ∀ e ∈ s.sessions.entries, e.2.holds src → e.1 = r.1) ↔
      RegistersFresh s (.packet pkt src order) := by
  constructor
  · intro h key role hpkt key' sess hsess
    exact h (key, role) hpkt ⟨key', sess⟩ (AList.mem_lookup_iff.mp hsess)
  · intro h r hpkt e he
    exact h r.1 r.2 hpkt e.1 e.2 (AList.mem_lookup_iff.mpr he)

instance (s : State) : (a : Action) → Decidable (RegistersFresh s a)
  | .packet _ _ _ => decidable_of_iff _ registersFresh_packet
  | .sweep | .tick => isTrue trivial

def AtLatest (s : State) : Prop :=
  ∀ src key sess, s.sessions.lookup key = some sess → sess.holds src →
    latestKey src s.log = some key

theorem atLatest_init : AtLatest {} := by
  intro src key sess h
  cases h

theorem holds_setPeer {p : RelayPeer} (h : (sess.setPeer role p).holds a) :
    a = p.addr ∨ sess.holds a := by
  obtain ⟨r, q, hq, rfl⟩ := h
  by_cases hr : r = role
  · subst hr
    rw [peer_setPeer_self, Option.some.injEq] at hq
    exact .inl (congrArg RelayPeer.addr hq.symm)
  · rw [peer_setPeer_of_ne sess hr] at hq
    exact .inr ⟨r, q, hq, rfl⟩

theorem lookup_of_holds_getD (h : ((s.sessions.lookup key).getD {}).holds a) :
    ∃ sess, s.sessions.lookup key = some sess ∧ sess.holds a := by
  cases hsess : s.sessions.lookup key with
  | some sess =>
    rw [hsess] at h
    exact ⟨sess, rfl, h⟩
  | none =>
    rw [hsess] at h
    obtain ⟨role, p, hp, -⟩ := h
    cases role <;> cases hp

theorem atLatest_register (hs : AtLatest s)
    (hfresh : ∀ key' sess, s.sessions.lookup key' = some sess → sess.holds src → key' = key) :
    AtLatest (s.register key role src) := by
  intro a key' sess hsess hholds
  by_cases ha : a = src
  · grind [latestKey_register_self, lookup_register]
  · rw [latestKey_register_of_ne ha]
    rcases lookup_register.1 hsess with ⟨rfl, rfl⟩ | ⟨-, hold⟩
    · have hbefore := (holds_setPeer hholds).resolve_left ha
      obtain ⟨before, hlookup, hheld⟩ := lookup_of_holds_getD hbefore
      exact hs a key' before hlookup hheld
    · exact hs a key' sess hold hholds

theorem atLatest_step {a : Action} (hs : AtLatest s) (hfresh : RegistersFresh s a)
    (hstep : step ttl s a = some t) : AtLatest t := by
  cases moves_of_step hstep with
  | registers pkt src order key role hpkt => exact atLatest_register hs (hfresh key role hpkt)
  | forwards pkt src order hpkt horder | ticks => exact hs
  | sweeps hpos =>
    intro src key sess hsess hholds
    exact hs src key sess (lookup_sweep.1 hsess).1 hholds

theorem AtLatest.unambiguous (hs : AtLatest s) (src : UDPAddr) : s.Unambiguous src := by
  intro sess hmem hholds
  obtain ⟨key, hsess⟩ := mem_values.1 hmem
  exact (registeredTarget_eq (hs src key sess hsess hholds) hsess).symm

/-- If no address registers while it has a slot in another session, forwarding is well defined and
stays inside. -/
theorem wellForwarded_of_registersFresh (acts : List Action)
    (h : AllSteps (step ttl) RegistersFresh {} acts) :
    AllSteps (step ttl) (OnData WellForwarded) {} acts := by
  refine allSteps_of_invariant AtLatest (fun _ _ _ => atLatest_step) ?_ acts {} atLatest_init h
  intro s a t hs _ _
  cases a with
  | packet pkt src order => exact fun _ => wellForwarded_iff_unambiguous.2 (hs.unambiguous src)
  | sweep | tick => trivial

/-! ## Sessions of two peers, and a client that moves -/

def registration (k role : UInt8) : List UInt8 :=
  [0xDE, 0xAD, 0xBE, 0xEF] ++ List.replicate 16 k ++ [role]

def host (n : UInt16) : UDPAddr := ⟨0x0A000001, n⟩

def peers (m n : UInt16) : RelaySession := ⟨some ⟨host m, 0⟩, some ⟨host n, 0⟩⟩

/-- Two sessions of two peers, with data both ways and in both orders of the map. -/
def pairsRun : List Action :=
  [.packet (registration 1 0) (host 1) [], .packet (registration 1 1) (host 2) [],
    .packet (registration 2 0) (host 3) [], .packet (registration 2 1) (host 4) [],
    .packet [1] (host 1) [peers 3 4, peers 1 2], .packet [1] (host 2) [peers 1 2, peers 3 4],
    .packet [1] (host 4) [peers 1 2, peers 3 4], .packet [1] (host 3) [peers 3 4, peers 1 2]]

theorem wellForwarded_of_registersFresh_pairs :
    AllSteps (step 30) (OnData WellForwarded) {} pairsRun ∧
      (run (step 30) {} pairsRun).map (fun s => (s.log.take 4).map Event.outcome) =
        some [.data (host 4), .data (host 3), .data (host 1), .data (host 2)] :=
  ⟨wellForwarded_of_registersFresh _ (by decide), by decide⟩

def movedRun : List Action :=
  [.packet (registration 1 0) (host 1) [], .packet (registration 2 0) (host 2) [],
    .packet (registration 1 1) (host 9) [], .packet (registration 2 1) (host 9) []]

theorem movedClient_ambiguous :
    ∃ (s : State) (order order' : List RelaySession), run (step 30) {} movedRun = some s ∧
      order.Perm s.values ∧ order'.Perm s.values ∧
      s.registeredTarget (host 9) = some (host 2) ∧
      findTarget (host 9) order = some (host 2) ∧ findTarget (host 9) order' = some (host 1) ∧
      ¬ WellForwarded s (host 9) := by
  refine ⟨_, _, _, rfl, List.Perm.refl _, List.reverse_perm _, by decide, by decide, by decide, ?_⟩
  rw [wellForwarded_iff_unambiguous]
  decide

end NatProxy.Signaling.Relay
