import NatProxy.Lib.Transition
import NatProxy.Lib.BigEndian

/-!
# The DNS channel

Model of `dnsChannel` in `golib/tunnel/dnschannel.go`: one stream that all DNS queries of the tunnel
share. A caller goes through `query`, or is an item of a batch that `flushBatch` writes at once. It
registers its response channel in `pending` under the transaction ID of its query, and `readLoop`
hands each response to the channel that is registered under the transaction ID of the response. The
accesses of `pending`, the operations on channels and the writes are the steps, in any order and for
any number of callers.

The relay answers the written queries in any order and at any time; a response has the transaction
ID and the question of its query. What the question of a message is stays a parameter. Queries are
UDP packets, so the length in a frame never wraps, and the stream is a list of messages here.

The response channel of the call `i` is named `i`. No branch sees the names in `asked` and
`responses`.
-/

namespace NatProxy.Tunnel.DNSChannel

open Lib Function

/-- `binary.BigEndian.Uint16(msg[:2])`. -/
def txID : Bytes → UInt16
  | hi :: lo :: _ => getUint16 hi lo
  | _ => 0

abbrev Result := Except String Bytes

/-- An item of a batch before it is registered, a call of `query` before its write, the `select`, a
batch item before the first of its two `Delete`s, the deferred `Delete`. -/
inductive PC where
  | idle
  | queued
  | ignored
  | stored
  | waiting
  | timedOut
  | returning (r : Result)
  | deferred
  | done
deriving Repr

/-- `flush` is the batch of the call, `written` tells that its frame is, `respCh` is the content of
its channel, where `some none` is nil. -/
structure Call where
  query : Bytes := []
  flush : Option Nat := none
  pc : PC := .idle
  written : Bool := false
  respCh : Option (Option Bytes) := none
  result : Option Result := none

/-- Where `readLoop` is; at its end it closes what is pending. -/
inductive LoopPC where
  | reading
  | dispatch (i : Nat) (resp : Bytes)
  | closing
  | sweepSend (id : UInt16) (i : Nat)
  | sweepDelete (id : UInt16)
deriving Repr

structure Flush where
  items : List Nat
  todo : List Nat
deriving Repr

structure State where
  pending : UInt16 → Option Nat := fun _ => none
  calls : Nat → Call := fun _ => {}
  nCalls : Nat := 0
  flushes : Nat → Option Flush := fun _ => none
  nFlushes : Nat := 0
  asked : List Nat := []
  responses : List (Nat × Bytes) := []
  loop : LoopPC := .reading
  done : Bool := false

def State.setCall (s : State) (i : Nat) (c : Call) : State :=
  { s with calls := update s.calls i c }

def State.delete (s : State) (id : UInt16) : State :=
  { s with pending := update s.pending id none }

/-- `pending.Store` with the response channel of the call `i`. -/
def State.store (s : State) (i : Nat) : State :=
  { s with pending := update s.pending (txID (s.calls i).query) (some i) }

/-- A send that gives up when the channel is full. -/
def Call.offer (c : Call) (v : Option Bytes) : Call :=
  { c with respCh := some (c.respCh.getD v) }

/-! ## The callers -/

def State.beginQuery (s : State) (q : Bytes) : State :=
  let n := s.nCalls
  let t := { s with nCalls := n + 1 }
  if q.length < 12 then
    t.setCall n
      { query := q, pc := .done, written := true, result := some (.error "dns query too short") }
  else (t.setCall n { query := q, pc := .stored }).store n

def State.write (s : State) (i : Nat) (err : Option String) : Option State :=
  match (s.calls i).pc, err with
  | .stored, none =>
    some { s.setCall i { s.calls i with pc := .waiting, written := true } with
      asked := s.asked ++ [i] }
  | .stored, some e =>
    some (s.setCall i { s.calls i with
      pc := .returning (.error ("dns channel write: " ++ e)), written := true })
  | _, _ => none

def batchCalls (calls : Nat → Call) (f n : Nat) (batch : List Bytes) : Nat → Call :=
  fun i => if n ≤ i then
      match batch[i - n]? with
      | some q => { query := q, flush := some f, pc := .queued }
      | none => calls i
    else calls i

/-- `flushBatch` begins with a batch of several queries. -/
def State.beginFlush (s : State) (batch : List Bytes) : State :=
  let items := (List.range batch.length).map (s.nCalls + ·)
  { s with
    calls := batchCalls s.calls s.nFlushes s.nCalls batch
    nCalls := s.nCalls + batch.length
    flushes := update s.flushes s.nFlushes (some ⟨items, items⟩)
    nFlushes := s.nFlushes + 1 }

/-- `flushBatch` registers the next item and starts its goroutine. -/
def State.register (s : State) (f : Nat) : Option State :=
  match s.flushes f with
  | some ⟨items, i :: todo⟩ =>
    let t := { s with flushes := update s.flushes f (some ⟨items, todo⟩) }
    if 2 ≤ (s.calls i).query.length then
      some ((t.setCall i { s.calls i with pc := .waiting }).store i)
    else some (t.setCall i { s.calls i with pc := .ignored })
  | _ => none

/-- `writeBatch`. Errors are only logged; a frame without an ID gets no answer. -/
def State.writeBatch (s : State) (f : Nat) (ok : Bool) : Option State :=
  match s.flushes f with
  | some ⟨items, []⟩ =>
    some { s with
      calls := fun i =>
        if (s.calls i).flush = some f then { s.calls i with written := true } else s.calls i
      flushes := update s.flushes f none
      asked := if ok then
          s.asked ++ items.filter fun i => 2 ≤ (s.calls i).query.length
        else s.asked }
  | _ => none

/-- The `select` has a result, which the goroutine of a batch item passes on first. -/
def State.settle (s : State) (i : Nat) (c : Call) (r : Result) : State :=
  match c.flush with
  | none => s.setCall i { c with pc := .returning r }
  | some _ => s.setCall i { c with pc := .deferred, result := some r }

def State.receive (s : State) (i : Nat) : Option State :=
  match (s.calls i).pc, (s.calls i).respCh with
  | .waiting, some (some resp) => some (s.settle i { s.calls i with respCh := none } (.ok resp))
  | .waiting, some none =>
    some (s.settle i { s.calls i with respCh := none } (.error "dns channel closed"))
  | _, _ => none

def State.timeout (s : State) (i : Nat) : Option State :=
  match (s.calls i).pc, (s.calls i).flush with
  | .waiting, none =>
    some (s.setCall i { s.calls i with
      pc := .returning (.error "dns channel query timeout") })
  | .waiting, some _ => some (s.setCall i { s.calls i with pc := .timedOut })
  | _, _ => none

def State.seeDone (s : State) (i : Nat) : Option State :=
  match (s.calls i).pc with
  | .waiting => if s.done then some (s.settle i (s.calls i) (.error "dns channel closed")) else none
  | _ => none

/-- The `Delete`s of a call: that of the timeout in a batch, and the deferred ones. -/
def State.finish (s : State) (i : Nat) : Option State :=
  let t := s.delete (txID (s.calls i).query)
  match (s.calls i).pc with
  | .timedOut =>
    some (t.setCall i { s.calls i with
      pc := .deferred, result := some (.error "dns batch query timeout") })
  | .returning r => some (t.setCall i { s.calls i with pc := .done, result := some r })
  | .deferred => some (t.setCall i { s.calls i with pc := .done })
  | _ => none

/-! ## `readLoop` -/

/-- `readLoop` reads a response and looks its channel up; an invalid length ends the loop. -/
def State.read (s : State) : Option State :=
  match s.loop, s.responses with
  | .reading, (_, resp) :: rest =>
    let t := { s with responses := rest }
    if resp.length = 0 ∨ 4096 < resp.length then some { t with loop := .closing, done := true }
    else if resp.length < 2 then some t
    else
      -- `LoadAndDelete`
      match s.pending (txID resp) with
      | some i => some { t.delete (txID resp) with loop := .dispatch i resp }
      | none => some t
  | _, _ => none

/-- `readLoop` sends a response, or, when it is over, handles one key of `pending`. -/
def State.advanceLoop (s : State) : Option State :=
  match s.loop with
  | .dispatch i resp => some { s.setCall i ((s.calls i).offer (some resp)) with loop := .reading }
  | .sweepSend id i => some { s.setCall i ((s.calls i).offer none) with loop := .sweepDelete id }
  | .sweepDelete id => some { s.delete id with loop := .closing }
  | _ => none

/-! ## All parties -/

/-- What the callers do (`query` up to `finish`), the relay (`answer`) and `readLoop`. -/
inductive Action where
  | query (q : Bytes)
  | write (i : Nat) (err : Option String)
  | flush (batch : List Bytes)
  | register (f : Nat)
  | writeBatch (f : Nat) (ok : Bool)
  | receive (i : Nat)
  | timeout (i : Nat)
  | seeDone (i : Nat)
  | finish (i : Nat)
  | answer (k : Nat) (resp : Bytes)
  | read
  | readError
  | sweep (id : UInt16)
  | advanceLoop
deriving Repr

section Step

variable {Q : Type} (question : Bytes → Q)

def Answers (q resp : Bytes) : Prop :=
  2 ≤ resp.length ∧ txID resp = txID q ∧ question resp = question q

instance [DecidableEq Q] (q resp : Bytes) : Decidable (Answers question q resp) :=
  inferInstanceAs (Decidable (_ ∧ _ ∧ _))

def step [DecidableEq Q] (s : State) : Action → Option State
  | .query q => some (s.beginQuery q)
  | .write i err => s.write i err
  | .flush batch => some (s.beginFlush batch)
  | .register f => s.register f
  | .writeBatch f ok => s.writeBatch f ok
  | .receive i => s.receive i
  | .timeout i => s.timeout i
  | .seeDone i => s.seeDone i
  | .finish i => s.finish i
  -- the relay answers one of the queries that it has not answered yet
  | .answer k resp =>
    match s.asked[k]? with
    | some i =>
      if Answers question (s.calls i).query resp then
        some { s with asked := s.asked.eraseIdx k, responses := s.responses ++ [(i, resp)] }
      else none
    | none => none
  | .read => s.read
  | .readError =>
    match s.loop with
    | .reading => some { s with loop := .closing, done := true }
    | _ => none
  -- `pending.Range` visits a key
  | .sweep id =>
    match s.loop, s.pending id with
    | .closing, some i => some { s with loop := .sweepSend id i }
    | _, _ => none
  | .advanceLoop => s.advanceLoop

end Step

end NatProxy.Tunnel.DNSChannel
