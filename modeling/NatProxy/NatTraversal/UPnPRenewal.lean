import NatProxy.Lib.Transition
import NatProxy.NatTraversal.UPnP

/-!
# Renewal and removal of port mappings

Model of `RemoveUPnPMapping` and `renewLease` (`golib/nat/upnp.go`), with `TryUPnP` from
`NatTraversal.UPnP` and a router that holds the mappings added and not deleted. `TryUPnP` and
`RemoveUPnPMapping` hold `upnpMu` throughout, so each is one step; of the requests of `TryUPnP` only
the one that is granted has an effect. A renewal runs without the mutex. Its `select` may take a
tick although `stopCh` is closed, and the router answers its `AddPortMapping` in a later step.

The goroutine number `i` of `renewals` listens on the channel `i`. `removed` records the ports whose
removal has returned and that no `TryUPnP` has mapped since, `reissued` counts the requests that a
renewal issues for one of them; no branch reads them.

`staysRemoved_of_orderly`: if the steps are in order (`Orderly`), what is removed stays removed. The
code does not see to it, and a removed mapping may come back (`removed_comes_back`).
-/

namespace NatProxy.NatTraversal

open List

def uint16 (n : Int) : Int := n % 65536

abbrev Key := Int × String

def UPnPLease.key (l : UPnPLease) : Key := (l.port, l.protocol)

namespace Renew

open Lib Function

def mappingOf (k : Key) : Key := (uint16 k.1, k.2)

/-- In the `select`, with an `AddPortMapping` on its way, or returned. -/
inductive PC where
  | selecting
  | adding
  | done
deriving DecidableEq, Repr

structure State where
  leases : Leases := {}
  closed : Nat → Bool := fun _ => false
  pc : Nat → PC := fun _ => .selecting
  router : List Key := []
  removed : List Key := []
  reissued : Nat := 0

/-- The `select` sees the channel or the ticker; the router answers. -/
inductive Choice where
  | stop
  | tick
  | answer (ok : Bool)
deriving DecidableEq, Repr

inductive Action where
  | tryUPnP (env : Gateway) (internalPort externalPort : Int) (protocol : String)
      (opts : UPnPOptions)
  /-- the router carries out the deletion, or does not -/
  | removeUPnPMapping (externalPort : Int) (protocol : String) (deleted : Bool)
  | renewLease (i : Nat) (ch : Choice)

def State.addMapping (s : State) (k : Key) : State :=
  { s with router := mappingOf k :: s.router }

def State.tryUPnP (s : State) (env : Gateway) (internalPort externalPort : Int) (protocol : String)
    (opts : UPnPOptions) : State :=
  match NatTraversal.tryUPnP env internalPort externalPort protocol opts s.leases with
  | (.ok (_, port), leases) =>
    { s.addMapping (port, protocol) with
      leases := leases
      removed := s.removed.filter (· ≠ (port, protocol)) }
  | (.error _, leases) => { s with leases := leases }

def isLeaseOf (k : Key) (l : UPnPLease) : Bool := l.key = k

/-- `RemoveUPnPMapping`: the first lease for the port is closed, deleted and dropped. -/
def State.removeUPnPMapping (s : State) (k : Key) (deleted : Bool) : State :=
  match s.leases.activeLeases.find? (isLeaseOf k) with
  | some lease =>
    { s with
      closed := update s.closed lease.stopCh true
      router := if deleted then s.router.filter (· ≠ mappingOf k) else s.router
      leases := { s.leases with activeLeases := s.leases.activeLeases.eraseP (isLeaseOf k) }
      removed := k :: s.removed }
  | none => { s with removed := k :: s.removed }

def State.setPC (s : State) (i : Nat) (pc : PC) : State :=
  { s with pc := update s.pc i pc }

def State.renew (s : State) (i : Nat) (lease : UPnPLease) (ch : Choice) : Option State :=
  match s.pc i with
  | .selecting =>
    match ch with
    | .stop => if s.closed i = true then some (s.setPC i .done) else none
    | .tick =>
      -- also when the channel is closed: the `select` may pick either case
      some { s.setPC i .adding with
        reissued := if lease.key ∈ s.removed then s.reissued + 1 else s.reissued }
    | .answer _ => none
  | .adding =>
    match ch with
    | .answer true => some ((s.addMapping lease.key).setPC i .selecting)
    | .answer false => some (s.setPC i .selecting)
    | .stop | .tick => none
  | .done => none

def step (s : State) : Action → Option State
  | .tryUPnP env internalPort externalPort protocol opts =>
    some (s.tryUPnP env internalPort externalPort protocol opts)
  | .removeUPnPMapping externalPort protocol deleted =>
    some (s.removeUPnPMapping (externalPort, protocol) deleted)
  | .renewLease i ch => s.leases.renewals[i]?.bind fun r => s.renew i r.lease ch

/-! ## What stays removed -/

/-- What was removed has neither a lease nor a mapping, and no renewal asked for one. -/
structure StaysRemoved (s : State) : Prop where
  leases : ∀ k ∈ s.removed, ∀ l ∈ s.leases.activeLeases, l.key ≠ k
  router : ∀ k ∈ s.removed, k ∉ s.router
  issues : s.reissued = 0

def State.Quiet (s : State) (k : Key) : Prop :=
  ∀ i < s.leases.renewals.length, ∀ r ∈ s.leases.renewals[i]?, r.lease.key = k → s.pc i ≠ .adding

instance (s : State) (k : Key) : Decidable (s.Quiet k) :=
  inferInstanceAs (Decidable (∀ i < s.leases.renewals.length, ∀ r ∈ s.leases.renewals[i]?,
    r.lease.key = k → s.pc i ≠ .adding))

/-- Ports are below 65536; a port that is removed has at most one lease and no renewal in progress,
and the router carries out the deletion; a goroutine whose channel is closed takes no tick. -/
def Orderly (s : State) : Action → Prop
  | .tryUPnP env internalPort externalPort protocol opts =>
    match NatTraversal.tryUPnP env internalPort externalPort protocol opts s.leases with
    | (.ok (_, port), _) => uint16 port = port
    | (.error _, _) => True
  | .removeUPnPMapping externalPort protocol deleted =>
    s.leases.activeLeases.countP (isLeaseOf (externalPort, protocol)) ≤ 1 ∧
      s.Quiet (externalPort, protocol) ∧ deleted = true
  | .renewLease i ch => ch = .tick → s.closed i = false

instance (s : State) : (a : Action) → Decidable (Orderly s a)
  | .tryUPnP env internalPort externalPort protocol opts => by
    unfold Orderly
    dsimp only
    split <;> infer_instance
  | .removeUPnPMapping _ _ _ => inferInstanceAs (Decidable (_ ∧ _ ∧ _))
  | .renewLease i ch => inferInstanceAs (Decidable (ch = .tick → s.closed i = false))

/-- A renewal with an open channel has its lease registered, one with a closed channel no request on
its way, and every mapping a registered lease. -/
structure Inv (s : State) : Prop where
  stopCh : ∀ i (r : Renewal), s.leases.renewals[i]? = some r → r.lease.stopCh = i
  count : s.leases.renewals.length = s.leases.stopChs
  active : ∀ l ∈ s.leases.activeLeases, ∃ r : Renewal,
    s.leases.renewals[l.stopCh]? = some r ∧ r.lease = l
  open_active : ∀ i (r : Renewal), s.leases.renewals[i]? = some r → s.closed i = false →
    r.lease ∈ s.leases.activeLeases
  closed_quiet : ∀ i, s.closed i = true → s.pc i ≠ .adding
  idle : ∀ i, s.leases.renewals.length ≤ i → s.pc i = .selecting
  port : ∀ l ∈ s.leases.activeLeases, mappingOf l.key = l.key
  mapped : ∀ m ∈ s.router, ∃ l ∈ s.leases.activeLeases, l.key = m
  removed : ∀ k ∈ s.removed, ∀ l ∈ s.leases.activeLeases, l.key ≠ k
  issues : s.reissued = 0

theorem inv_init : Inv {} where
  stopCh i r h := by cases h
  count := rfl
  active l h := by cases h
  open_active i r h := by cases h
  closed_quiet i h := by cases h
  idle _ _ := rfl
  port l h := by cases h
  mapped m h := by cases h
  removed k h := by cases h
  issues := rfl

variable {s t : State}

theorem Inv.staysRemoved (hs : Inv s) : StaysRemoved s where
  leases := hs.removed
  router k hk hmem := by
    obtain ⟨l, hl, hkey⟩ := hs.mapped k hmem
    exact hs.removed k hk l hl hkey
  issues := hs.issues

/-! ## `TryUPnP` -/

variable {i : Nat}

theorem getElem?_concat_cases {α : Type} {l : List α} {a b : α} (h : (l ++ [a])[i]? = some b) :
    l[i]? = some b ∨ i = l.length ∧ b = a := by
  rcases Nat.lt_trichotomy i l.length with hi | rfl | hi
  · rw [getElem?_append_left hi] at h
    exact .inl h
  · rw [getElem?_concat_length, Option.some.injEq] at h
    exact .inr ⟨rfl, h.symm⟩
  · grind

theorem getElem?_concat_of_some {α : Type} {l : List α} {a b : α} (h : l[i]? = some b) :
    (l ++ [a])[i]? = some b := by
  rw [getElem?_append_left (List.getElem?_eq_some_iff.mp h).1]
  exact h

theorem Inv.add (hs : Inv s) {port : Int} (hport : uint16 port = port) (protocol : String)
    (client : Nat) (internalPort : Int) (localIP : String) (leaseDuration : Int) :
    Inv { s.addMapping (port, protocol) with
      leases := s.leases.add port protocol client internalPort localIP leaseDuration
      removed := s.removed.filter (· ≠ (port, protocol)) } where
  stopCh i r h := by
    rcases getElem?_concat_cases h with h | ⟨rfl, rfl⟩
    · exact hs.stopCh i r h
    · exact hs.count.symm
  count := by
    simp only [Leases.add, length_append, length_singleton]
    rw [hs.count]
  active l h := by
    rcases mem_append.mp h with h | h
    · obtain ⟨r, hr, hlease⟩ := hs.active l h
      exact ⟨r, getElem?_concat_of_some hr, hlease⟩
    · rw [mem_singleton] at h
      subst h
      refine ⟨⟨_, internalPort, localIP, leaseDuration⟩, ?_, rfl⟩
      simp only [Leases.add]
      rw [← hs.count]
      exact getElem?_concat_length
  open_active i r h hopen := by
    rcases getElem?_concat_cases h with h | ⟨rfl, rfl⟩
    · exact mem_append_left _ (hs.open_active i r h hopen)
    · exact mem_append_right _ (mem_singleton.mpr rfl)
  closed_quiet := hs.closed_quiet
  idle i hi := by
    refine hs.idle i ?_
    simp only [Leases.add, length_append, length_singleton] at hi
    omega
  port l h := by
    rcases mem_append.mp h with h | h
    · exact hs.port l h
    · rw [mem_singleton] at h
      subst h
      exact Prod.ext hport rfl
  mapped m h := by
    rcases mem_cons.mp h with rfl | h
    · refine ⟨_, mem_append_right _ (mem_singleton.mpr rfl), ?_⟩
      exact Prod.ext hport.symm rfl
    · obtain ⟨l, hl, hkey⟩ := hs.mapped m h
      exact ⟨l, mem_append_left _ hl, hkey⟩
  removed k hk l hl := by
    rw [mem_filter, decide_eq_true_eq] at hk
    rcases mem_append.mp hl with hl | hl
    · exact hs.removed k hk.1 l hl
    · rw [mem_singleton] at hl
      subst hl
      exact hk.2.symm
  issues := hs.issues

theorem Inv.tryUPnP (hs : Inv s) {env : Gateway} {internalPort externalPort : Int}
    {protocol : String} {opts : UPnPOptions}
    (hok : Orderly s (.tryUPnP env internalPort externalPort protocol opts)) :
    Inv (s.tryUPnP env internalPort externalPort protocol opts) := by
  have hspec := tryUPnP_spec env internalPort externalPort protocol opts s.leases
  rw [State.tryUPnP]
  rw [Orderly] at hok
  generalize NatTraversal.tryUPnP env internalPort externalPort protocol opts s.leases = r
    at hspec hok ⊢
  cases hspec with
  | mapped found client localIP leaseDuration _ =>
    exact hs.add hok protocol client internalPort localIP leaseDuration
  | refused err _ => exact { hs with }

/-! ## `RemoveUPnPMapping` -/

variable {k : Key}

theorem isLeaseOf_iff {l : UPnPLease} : isLeaseOf k l = true ↔ l.key = k := by
  rw [isLeaseOf, decide_eq_true_eq]

theorem mem_eraseP_of_ne_found {α : Type} {p : α → Bool} {l : List α} {a found : α}
    (hfound : l.find? p = some found) (ha : a ∈ l) (hne : a ≠ found) : a ∈ l.eraseP p := by
  obtain ⟨hp, as, bs, rfl, has⟩ := find?_eq_some_iff_append.mp hfound
  rw [eraseP_append_right _ (fun b hb => by simpa using has b hb), eraseP_cons_of_pos hp]
  rcases mem_append.mp ha with ha | ha
  · exact mem_append_left _ ha
  · simp_all

theorem countP_eraseP_eq_zero {α : Type} {p : α → Bool} {l : List α} (hcount : l.countP p ≤ 1) :
    (l.eraseP p).countP p = 0 := by
  induction l with
  | nil => rfl
  | cons b l ih =>
    grind

theorem key_ne_of_mem_eraseP {leases : List UPnPLease} (hcount : leases.countP (isLeaseOf k) ≤ 1)
    {l : UPnPLease} (hl : l ∈ leases.eraseP (isLeaseOf k)) : l.key ≠ k := by
  intro hkey
  exact countP_eq_zero.mp (countP_eraseP_eq_zero hcount) l hl (isLeaseOf_iff.mpr hkey)

theorem mem_eraseP_of_key_ne {leases : List UPnPLease} {l : UPnPLease} (hl : l ∈ leases)
    (hne : l.key ≠ k) : l ∈ leases.eraseP (isLeaseOf k) :=
  (mem_eraseP_of_neg (fun h => hne (isLeaseOf_iff.mp h))).mpr hl

theorem Inv.remove (hs : Inv s) {lease : UPnPLease}
    (hfound : s.leases.activeLeases.find? (isLeaseOf k) = some lease)
    (hcount : s.leases.activeLeases.countP (isLeaseOf k) ≤ 1) (hquiet : s.Quiet k) : Inv { s with
      closed := update s.closed lease.stopCh true
      router := s.router.filter (· ≠ mappingOf k)
      leases := { s.leases with activeLeases := s.leases.activeLeases.eraseP (isLeaseOf k) }
      removed := k :: s.removed } := by
  have hmem : lease ∈ s.leases.activeLeases := mem_of_find?_eq_some hfound
  have hkey : lease.key = k := isLeaseOf_iff.mp (find?_some hfound)
  obtain ⟨found, hrenewal, hlease⟩ := hs.active lease hmem
  exact
    { stopCh := hs.stopCh
      count := hs.count
      active := fun l hl => hs.active l (mem_of_mem_eraseP hl)
      open_active := fun i r hr hopen => by
        dsimp only at hopen
        have hi : i ≠ lease.stopCh := by
          rintro rfl
          rw [update_self] at hopen
          cases hopen
        rw [update_of_ne hi] at hopen
        refine mem_eraseP_of_ne_found hfound (hs.open_active i r hr hopen) ?_
        rintro rfl
        exact hi (hs.stopCh i r hr).symm
      closed_quiet := fun i hclosed => by
        by_cases hi : i = lease.stopCh
        · subst hi
          have hlt := (List.getElem?_eq_some_iff.mp hrenewal).1
          exact hquiet _ hlt found hrenewal (by rw [hlease, hkey])
        · dsimp only at hclosed
          rw [update_of_ne hi] at hclosed
          exact hs.closed_quiet i hclosed
      idle := hs.idle
      port := fun l hl => hs.port l (mem_of_mem_eraseP hl)
      mapped := fun m hm => by
        rw [mem_filter, decide_eq_true_eq] at hm
        obtain ⟨l, hl, rfl⟩ := hs.mapped m hm.1
        refine ⟨l, mem_eraseP_of_key_ne hl ?_, rfl⟩
        rintro rfl
        exact hm.2 (hs.port l hl).symm
      removed := fun k' hk' l hl => by
        rcases mem_cons.mp hk' with rfl | hk'
        · exact key_ne_of_mem_eraseP hcount hl
        · exact hs.removed k' hk' l (mem_of_mem_eraseP hl)
      issues := hs.issues }

theorem Inv.removeUPnPMapping (hs : Inv s) (hcount : s.leases.activeLeases.countP (isLeaseOf k) ≤ 1)
    (hquiet : s.Quiet k) : Inv (s.removeUPnPMapping k true) := by
  cases hfound : s.leases.activeLeases.find? (isLeaseOf k) with
  | some lease =>
    simp only [State.removeUPnPMapping, hfound]
    exact hs.remove hfound hcount hquiet
  | none =>
    simp only [State.removeUPnPMapping, hfound]
    exact
      { hs with
        removed := fun k' hk' l hl => by
          rcases mem_cons.mp hk' with rfl | hk'
          · exact fun hkey => find?_eq_none.mp hfound l hl (isLeaseOf_iff.mpr hkey)
          · exact hs.removed k' hk' l hl }

/-! ## `renewLease` -/

inductive RenewCase (s : State) (i : Nat) (lease : UPnPLease) (ch : Choice) : State → Prop where
  | rests (pc : PC) (hpc : pc ≠ .adding) : RenewCase s i lease ch (s.setPC i pc)
  | issues (hch : ch = .tick) :
      RenewCase s i lease ch { s.setPC i .adding with
        reissued := if lease.key ∈ s.removed then s.reissued + 1 else s.reissued }
  | adds (hpc : s.pc i = .adding) :
      RenewCase s i lease ch ((s.addMapping lease.key).setPC i .selecting)

theorem renew_cases {lease : UPnPLease} {ch : Choice}
    (h : s.renew i lease ch = some t) : RenewCase s i lease ch t := by
  cases hpc : s.pc i with
  | selecting =>
    simp only [State.renew, hpc] at h
    cases ch with
    | stop =>
      obtain ⟨-, rfl⟩ := of_guarded h
      exact .rests .done (by decide)
    | tick =>
      cases h
      exact .issues rfl
    | answer ok => cases h
  | adding =>
    simp only [State.renew, hpc] at h
    cases ch with
    | answer ok =>
      cases ok with
      | true =>
        cases h
        exact .adds hpc
      | false =>
        cases h
        exact .rests .selecting (by decide)
    | stop | tick => cases h
  | done => simp [State.renew, hpc] at h

theorem Inv.setPC (hs : Inv s) (hi : i < s.leases.renewals.length) {pc : PC}
    (hpc : pc = .adding → s.closed i = false) : Inv (s.setPC i pc) :=
  { hs with
    closed_quiet := fun j hclosed => by
      by_cases hji : j = i
      · subst hji
        simp only [State.setPC, update_self]
        intro hadding
        rw [show (s.setPC j pc).closed j = s.closed j from rfl, hpc hadding] at hclosed
        cases hclosed
      · simp only [State.setPC, update_of_ne hji]
        exact hs.closed_quiet j hclosed
    idle := fun j hj => by
      have hji : j ≠ i := by
        rintro rfl
        exact absurd hi (Nat.not_lt.mpr hj)
      simp only [State.setPC, update_of_ne hji]
      exact hs.idle j hj }

theorem Inv.addMapping (hs : Inv s) {l : UPnPLease} (hl : l ∈ s.leases.activeLeases) :
    Inv (s.addMapping l.key) :=
  { hs with
    mapped := fun m hm => by
      rcases mem_cons.mp hm with rfl | hm
      · exact ⟨l, hl, (hs.port l hl).symm⟩
      · exact hs.mapped m hm }

theorem RenewCase.inv {r : Renewal} {ch : Choice} (hs : Inv s) (hr : s.leases.renewals[i]? = some r)
    (hopen : ch = .tick → s.closed i = false) (h : RenewCase s i r.lease ch t) : Inv t := by
  have hi := (List.getElem?_eq_some_iff.mp hr).1
  cases h with
  | rests pc hpc => exact hs.setPC hi (fun h => absurd h hpc)
  | issues hch =>
    have hactive := hs.open_active i r hr (hopen hch)
    have hkept : r.lease.key ∉ s.removed := fun hmem => hs.removed _ hmem r.lease hactive rfl
    rw [if_neg hkept]
    exact hs.setPC hi (fun _ => hopen hch)
  | adds hpc =>
    have hnotClosed : s.closed i = false := by
      rw [← Bool.not_eq_true]
      exact fun hclosed => hs.closed_quiet i hclosed hpc
    exact (hs.addMapping (hs.open_active i r hr hnotClosed)).setPC hi (by simp)

/-! ## Runs -/

theorem inv_step {a : Action} (hs : Inv s) (hok : Orderly s a) (hstep : step s a = some t) :
    Inv t := by
  cases a with
  | tryUPnP env internalPort externalPort protocol opts =>
    cases hstep
    exact hs.tryUPnP hok
  | removeUPnPMapping externalPort protocol deleted =>
    obtain ⟨hcount, hquiet, rfl⟩ := hok
    cases hstep
    exact hs.removeUPnPMapping hcount hquiet
  | renewLease i ch =>
    rw [step, Option.bind_eq_some_iff] at hstep
    obtain ⟨r, hr, hrenew⟩ := hstep
    exact (renew_cases hrenew).inv hs hr hok

/-- **What is removed stays removed**, in every state of a run whose steps are orderly. -/
theorem staysRemoved_of_orderly (acts : List Action) (h : AllSteps step Orderly {} acts) :
    AllStates step StaysRemoved {} acts := by
  refine allStates_of_allSteps (fun t ht => ?_) h
  exact (ht.invariant Inv inv_init fun _ _ _ => inv_step).staysRemoved

def granting : Gateway where
  discoverUPnPClients _ := .ok [⟨.ok "203.0.113.7", fun _ => none, none⟩]
  getLocalIP := .ok "192.168.1.2"
  isPrivateIP _ := false
  randomPort _ _ := 20000
  tryNATPMP _ _ _ _ := .error ""
  tryPCP _ _ _ _ := .error ""

def mapPort : Action := .tryUPnP granting 10853 10853 "TCP" ⟨0, 0, 0⟩

def removePort : Action := .removeUPnPMapping 10853 "TCP" true

def mappedTwice : List Action :=
  [mapPort, .renewLease 0 .tick, .renewLease 0 (.answer true), removePort, .renewLease 0 .stop,
    mapPort, .renewLease 1 .tick, .renewLease 1 (.answer false), removePort]

theorem staysRemoved_of_mappedTwice :
    (∃ s, run step {} mappedTwice = some s ∧ (10853, "TCP") ∈ s.removed ∧ s.pc 0 = .done ∧
      s.pc 1 = .selecting) ∧ AllStates step StaysRemoved {} mappedTwice :=
  ⟨⟨_, rfl, by decide, rfl, rfl⟩, staysRemoved_of_orderly _ (by decide)⟩

theorem removed_comes_back :
    (∃ s, run step {} [mapPort, removePort, .renewLease 0 .tick, .renewLease 0 (.answer true)] =
      some s ∧ (10853, "TCP") ∈ s.removed ∧ s.reissued = 1 ∧ (10853, "TCP") ∈ s.router) ∧
    (∃ s, run step {} [mapPort, .renewLease 0 .tick, removePort, .renewLease 0 (.answer true)] =
      some s ∧ (10853, "TCP") ∈ s.removed ∧ (10853, "TCP") ∈ s.router) ∧
    ∃ s, run step {} [mapPort, mapPort, removePort, .renewLease 1 .tick,
      .renewLease 1 (.answer true)] = some s ∧ (10853, "TCP") ∈ s.removed ∧
        s.leases.activeLeases.any (isLeaseOf (10853, "TCP")) = true ∧ (10853, "TCP") ∈ s.router :=
  ⟨⟨_, rfl, by decide, rfl, by decide⟩, ⟨_, rfl, by decide, by decide⟩,
    ⟨_, rfl, by decide, by decide, by decide⟩⟩

end Renew

end NatProxy.NatTraversal
