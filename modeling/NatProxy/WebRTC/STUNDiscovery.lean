import Mathlib.Data.List.Basic
import Mathlib.Tactic.SplitIfs
import NatProxy.Lib.Transition

/-!
# STUN discovery

Model of `discoverReflexiveAddrMulti` (`golib/webrtc/peer.go`). For each server a goroutine resolves
its name, builds a request with a random transaction ID, sends it, and then appends it to `txns`.
The function itself reads datagrams until its deadline and returns the address in the first response
whose transaction ID is in `txns`.

The steps of the goroutines and of the reader may be interleaved in any way, and any datagram may
arrive at any time. `discovery`: an address is only taken from a response to a request of this call,
and there is one exactly if some step of the schedule compares such a response after its transaction
was recorded. In `answerBeforeAppend` it is compared between the sending and the recording, and the
function fails at its deadline.

A datagram is only what the loop finds in it: nothing that can be decoded, or a transaction ID and
the mapped address if there is one.
-/

namespace NatProxy.WebRTC.STUNDiscovery

open Lib List

variable {ID Addr : Type} [DecidableEq ID]

inductive Datagram (ID Addr : Type) where
  | undecodable
  | message (id : ID) (addr : Option Addr)
deriving DecidableEq, Repr

/-- `txnInfo`. -/
structure Txn (ID : Type) where
  id : ID
  server : String
deriving DecidableEq, Repr

/-- The places of a goroutine. -/
inductive Worker (ID : Type) where
  | resolving
  | resolved
  | built (id : ID)
  | written (id : ID)
  | finished
deriving DecidableEq, Repr

inductive Failure where
  | noServers
  | setDeadline
  | recv (count : Nat)
deriving DecidableEq, Repr

/-- Before the loop; in `ReadFrom`; with a datagram; at the end. -/
inductive Reader (ID Addr : Type) where
  | sleeping
  | reading
  | handling (dg : Datagram ID Addr)
  | returned (result : Except Failure Addr)

/-- `sent` and `reads` record the requests sent and the responses compared. -/
structure State (ID Addr : Type) where
  servers : List String
  workers : Nat → Worker ID := fun _ => .resolving
  txns : List (Txn ID) := []
  arrived : List (Datagram ID Addr) := []
  reader : Reader ID Addr := .sleeping
  sent : List ID := []
  reads : List (ID × Option Addr) := []

def start (servers : List String) : State ID Addr where
  servers := servers
  reader := if servers = [] then .returned (.error .noServers) else .sleeping

inductive Action (ID Addr : Type) where
  | resolve (i : Nat) (ok : Bool)
  | build (i : Nat) (id : ID)
  | write (i : Nat) (ok : Bool)
  | append (i : Nat)
  | arrive (dg : Datagram ID Addr)
  | setDeadline (ok : Bool)
  | read
  | handle
  | deadline

def State.move (s : State ID Addr) (i : Nat) (w : Worker ID) : State ID Addr :=
  { s with workers := Function.update s.workers i w }

def State.write (s : State ID Addr) (i : Nat) (ok : Bool) : Option (State ID Addr) :=
  match s.workers i with
  | .built id =>
    if ok = true then some { s.move i (.written id) with sent := id :: s.sent }
    else some (s.move i .finished)
  | _ => none

def State.append (s : State ID Addr) (i : Nat) : Option (State ID Addr) :=
  match s.workers i, s.servers[i]? with
  | .written id, some server =>
    some { s.move i .finished with txns := s.txns ++ [⟨id, server⟩] }
  | _, _ => none

/-- The server whose transaction has this ID; the loop takes the empty text for no match. -/
def matched (txns : List (Txn ID)) (id : ID) : String :=
  match txns.find? fun txn => decide (txn.id = id) with
  | some txn => txn.server
  | none => ""

def State.compare (s : State ID Addr) (id : ID) (addr : Option Addr) : State ID Addr :=
  { s with
    reads := (id, addr) :: s.reads
    reader :=
      match addr with
      | some addr => if matched s.txns id ≠ "" then .returned (.ok addr) else .reading
      | none => .reading }

def State.handle (s : State ID Addr) : Option (State ID Addr) :=
  match s.reader with
  | .handling .undecodable => some { s with reader := .reading }
  | .handling (.message id addr) => some (s.compare id addr)
  | _ => none

def step (s : State ID Addr) : Action ID Addr → Option (State ID Addr)
  | .resolve i ok =>
    match s.workers i with
    | .resolving =>
      if i < s.servers.length then some (s.move i (if ok = true then .resolved else .finished))
      else none
    | _ => none
  | .build i id =>
    match s.workers i with
    | .resolved => some (s.move i (.built id))
    | _ => none
  | .write i ok => s.write i ok
  | .append i => s.append i
  | .arrive dg => some { s with arrived := s.arrived ++ [dg] }
  | .setDeadline ok =>
    match s.reader with
    | .sleeping =>
      some { s with
        reader := if ok = true then .reading else .returned (.error .setDeadline) }
    | _ => none
  | .read =>
    match s.reader, s.arrived with
    | .reading, dg :: rest => some { s with arrived := rest, reader := .handling dg }
    | _, _ => none
  | .handle => s.handle
  | .deadline =>
    match s.reader with
    | .reading => some { s with reader := .returned (.error (.recv s.txns.length)) }
    | _ => none

/-! ## Invariants -/

/-- Only sent requests are recorded, and the reader has ended at an answer to one of them. -/
structure Inv (s : State ID Addr) : Prop where
  written : ∀ i id, s.workers i = .written id → id ∈ s.sent
  txns : ∀ txn ∈ s.txns, txn.id ∈ s.sent
  returned : ∀ addr, s.reader = .returned (.ok addr) → ∃ id ∈ s.sent, (id, some addr) ∈ s.reads

theorem mem_of_matched {txns : List (Txn ID)} {id : ID} (h : matched txns id ≠ "") :
    ∃ txn ∈ txns, txn.id = id := by
  rw [matched] at h
  split at h
  · next txn htxn =>
      refine ⟨txn, mem_of_find?_eq_some htxn, ?_⟩
      simpa using find?_some htxn
  · exact absurd rfl h

omit [DecidableEq ID] in
theorem inv_start (servers : List String) : Inv (start servers : State ID Addr) where
  written := fun _ _ h => nomatch h
  txns := fun _ h => nomatch h
  returned := by
    intro addr h
    simp only [start] at h
    split_ifs at h
    cases h

section

variable {s t : State ID Addr}

omit [DecidableEq ID] in
theorem Inv.worker (h : Inv s) (i : Nat) (w : Worker ID)
    (hworkers : t.workers = Function.update s.workers i w)
    (hsent : ∀ id, id ∈ s.sent → id ∈ t.sent) (hwritten : ∀ id, w = .written id → id ∈ t.sent)
    (htxns : ∀ txn ∈ t.txns, txn ∈ s.txns ∨ txn.id ∈ t.sent) (hreads : t.reads = s.reads)
    (hreader : t.reader = s.reader) : Inv t := by
  constructor
  case written =>
    intro j id hj
    rw [hworkers] at hj
    rcases update_cases (fun w : Worker ID => w = .written id) hj with ⟨-, hnew⟩ | ⟨-, hold⟩
    · exact hwritten id hnew
    · exact hsent id (h.written j id hold)
  case txns =>
    grind [h.txns]
  case returned =>
    grind [h.returned]

omit [DecidableEq ID] in
theorem Inv.reader (h : Inv s) (hafter : ∀ addr, t.reader ≠ .returned (.ok addr))
    (hworkers : t.workers = s.workers) (hsent : t.sent = s.sent) (htxns : t.txns = s.txns) :
    Inv t := by
  constructor
  case written =>
    rw [hworkers, hsent]
    exact h.written
  case txns =>
    rw [htxns, hsent]
    exact h.txns
  case returned => exact fun addr haddr => absurd haddr (hafter addr)

theorem Inv.compare (h : Inv s) (id : ID) (addr : Option Addr) : Inv (s.compare id addr) := by
  refine ⟨h.written, h.txns, fun addr' hreturned => ?_⟩
  simp only [State.compare] at hreturned ⊢
  cases addr with
  | none => cases hreturned
  | some addr =>
    dsimp only at hreturned
    split_ifs at hreturned with hknown
    cases hreturned
    -- what is found among the transactions was sent
    obtain ⟨txn, htxn, hid⟩ := mem_of_matched hknown
    exact ⟨id, hid ▸ h.txns txn htxn, mem_cons_self⟩

theorem inv_step (a : Action ID Addr) (h : Inv s) (hstep : step s a = some t) : Inv t := by
  cases a with
  | resolve i ok =>
    simp only [step] at hstep
    split at hstep
    · obtain ⟨-, rfl⟩ := of_guarded hstep
      refine h.worker i _ rfl (fun _ hid => hid) (fun id hid => ?_) (fun _ htxn => .inl htxn)
        rfl rfl
      split_ifs at hid
    · cases hstep
  | build i id =>
    simp only [step] at hstep
    split at hstep
    · cases hstep
      exact h.worker i (.built id) rfl (fun _ hid => hid) (fun _ hid => nomatch hid)
        (fun _ htxn => .inl htxn) rfl rfl
    · cases hstep
  | write i ok =>
    simp only [step, State.write] at hstep
    split at hstep
    case h_2 => cases hstep
    rename_i id hbuilt
    split_ifs at hstep
    · cases hstep
      refine h.worker i (.written id) rfl (fun _ hid => mem_cons_of_mem id hid)
        (fun id' hid' => ?_) (fun _ htxn => .inl htxn) rfl rfl
      cases hid'
      exact mem_cons_self
    · cases hstep
      exact h.worker i .finished rfl (fun _ hid => hid) (fun _ hid => nomatch hid)
        (fun _ htxn => .inl htxn) rfl rfl
  | append i =>
    simp only [step, State.append] at hstep
    split at hstep
    case h_2 => cases hstep
    rename_i id server hwritten hserver
    cases hstep
    refine h.worker i .finished rfl (fun _ hid => hid) (fun _ hid => nomatch hid)
      (fun txn htxn => ?_) rfl rfl
    rcases mem_append.mp htxn with hold | hnew
    · exact .inl hold
    · rw [mem_singleton] at hnew
      subst hnew
      exact .inr (h.written i id hwritten)
  | arrive dg =>
    cases hstep
    exact ⟨h.written, h.txns, h.returned⟩
  | setDeadline ok =>
    simp only [step] at hstep
    split at hstep
    · next hsleeping =>
        grind [h.reader]
    · cases hstep
  | read =>
    simp only [step] at hstep
    split at hstep
    · next dg rest hreading harrived =>
        grind [h.reader]
    · cases hstep
  | handle =>
    simp only [step, State.handle] at hstep
    split at hstep
    · next hhandling =>
        grind [h.reader]
    · next id addr hhandling =>
        cases hstep
        exact h.compare id addr
    · cases hstep
  | deadline =>
    simp only [step] at hstep
    split at hstep
    · next hreading =>
        grind [h.reader]
    · cases hstep

end

/-! ## Schedules -/

/-- The step compares a response that has an address, and `P` holds of its transaction ID. -/
def Compares (P : State ID Addr → ID → Prop) (s : State ID Addr) : Action ID Addr → Prop
  | .handle => ∃ id addr, s.reader = .handling (.message id (some addr)) ∧ P s id
  | _ => False

/-- The request with this ID has been sent by this call. -/
def Own (s : State ID Addr) (id : ID) : Prop := id ∈ s.sent

/-- The transaction with this ID has been appended to `txns`. -/
def Recorded (s : State ID Addr) (id : ID) : Prop := matched s.txns id ≠ ""

/-- The reader has returned no address. -/
def NoAddress (s : State ID Addr) : Prop := ∀ addr, s.reader ≠ .returned (.ok addr)

theorem noAddress_compare (s : State ID Addr) (id : ID) (addr : Option Addr) :
    NoAddress (s.compare id addr) ↔ ¬ (addr.isSome = true ∧ Recorded s id) := by
  cases addr with
  | none => simp [NoAddress, State.compare]
  | some addr =>
    by_cases hknown : matched s.txns id = "" <;>
      simp [NoAddress, State.compare, Recorded, hknown]

theorem noAddress_handle {s t : State ID Addr} (hstep : s.handle = some t) :
    NoAddress t ↔ ¬ Compares Recorded s .handle := by
  rw [State.handle] at hstep
  split at hstep
  · next hhandling =>
      cases hstep
      simp [NoAddress, Compares, hhandling]
  · next id addr hhandling =>
      cases hstep
      rw [noAddress_compare]
      cases addr <;> simp [Compares, hhandling]
  · cases hstep

theorem noAddress_step {s t : State ID Addr} (a : Action ID Addr) (hstep : step s a = some t) :
    NoAddress t ↔ NoAddress s ∧ ¬ Compares Recorded s a := by
  cases a with
  | handle =>
    rw [noAddress_handle hstep]
    refine ⟨fun h => ⟨fun addr haddr => ?_, h⟩, And.right⟩
    -- the loop has ended, and there is nothing to compare
    simp [step, State.handle, haddr] at hstep
  | _ =>
    simp only [Compares, not_false_eq_true, and_true]
    grind [step, State.write, State.append, State.move, NoAddress]

/-- **Which answers discovery recognises.** -/
theorem discovery (servers : List String) (schedule : List (Action ID Addr)) (s : State ID Addr)
    (h : run step (start servers) schedule = some s) :
    (∀ addr, s.reader = .returned (.ok addr) → ∃ id ∈ s.sent, (id, some addr) ∈ s.reads) ∧
    (NoAddress s ↔ AllSteps step (fun s a => ¬ Compares Recorded s a) (start servers) schedule) ∧
    (AllSteps step (fun s a => Compares Own s a → Compares Recorded s a) (start servers) schedule →
      NoAddress s → AllSteps step (fun s a => ¬ Compares Own s a) (start servers) schedule) := by
  have hinv : Inv s := (reaches_of_run h).invariant Inv (inv_start servers)
    fun _ a _ hs _ hstep => inv_step a hs hstep
  have hstart : NoAddress (start servers : State ID Addr) := by
    intro addr haddr
    obtain ⟨_, hid, _⟩ := (inv_start servers).returned addr haddr
    cases hid
  have hexact := (allSteps_of_step noAddress_step h).trans (and_iff_right hstart)
  refine ⟨hinv.returned, hexact, fun hrecorded hnone => ?_⟩
  exact allSteps_of_invariant (fun _ => True) (fun _ _ _ _ _ _ => trivial)
    (fun _ _ _ _ hboth _ hown => hboth.1 (hboth.2 hown)) schedule _ trivial
    ((hexact.mp hnone).and hrecorded)

def answerAfterAppend : List (Action Nat Nat) :=
  [.resolve 0 true, .resolve 1 true, .build 1 8, .build 0 7, .write 0 true, .append 0,
    .setDeadline true, .arrive .undecodable, .arrive (.message 9 (some 6)),
    .arrive (.message 7 (some 5)), .read, .handle, .read, .handle, .write 1 true, .read, .handle]

/-- A stray datagram and a foreign response come first; the second request is not yet recorded. -/
theorem discovery_answerAfterAppend :
    ∃ s : State Nat Nat,
      run step (start ["192.0.2.1:3478", "192.0.2.2:3478"]) answerAfterAppend = some s ∧
        s.reader = .returned (.ok 5) ∧ ∃ id ∈ s.sent, (id, some 5) ∈ s.reads := by
  obtain ⟨s, hrun, hreader⟩ : ∃ s : State Nat Nat,
      run step (start ["192.0.2.1:3478", "192.0.2.2:3478"]) answerAfterAppend = some s ∧
        s.reader = .returned (.ok 5) :=
    ⟨_, rfl, rfl⟩
  exact ⟨s, hrun, hreader, (discovery _ _ s hrun).1 5 hreader⟩

theorem answerBeforeAppend :
    ∃ s : State Nat Nat,
      run step (start ["192.0.2.1:3478"])
          [.resolve 0 true, .build 0 7, .write 0 true, .setDeadline true,
            .arrive (.message 7 (some 5)), .read, .handle, .append 0, .deadline] = some s ∧
        s.sent = [7] ∧ s.reads = [(7, some 5)] ∧ s.reader = .returned (.error (.recv 1)) :=
  ⟨_, rfl, rfl, rfl, rfl⟩

end NatProxy.WebRTC.STUNDiscovery
