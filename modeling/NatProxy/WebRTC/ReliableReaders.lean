import NatProxy.WebRTC.ReliableInvariant

/-!
# Readers that wait

The steps of `Read`, `Close` and `receiveLoop` in `golib/webrtc/media_reliable.go`, one statement at
a time. A `Read` locks `readMu`, hands out what is pending or looks at the done channel and at the
buffer, and calls `readCond.Wait`, which puts it on the list of the condition variable and unlocks
in one step. `Close` closes the done channel and broadcasts without the lock. `receiveLoop` signals
after each data frame, and returns without a signal when the inner `Read` fails. Any number of
`Read` and `Close` calls run at the same time. `Write`, `sendAck` and `retransmitLoop` do not touch
what readers wait for and are left out.

`step_cases` says what a step does, and `read_alone` connects the steps with `Endpoint.read`: a call
that nothing interrupts does the same.
-/

namespace NatProxy.WebRTC.ReliableReaders

open Lib Function
open WebRTC.ReliableRTP (Endpoint ReadResult Tagged isDataFrame)

/-! ## Goroutines -/

/-- Where a call of `Read` with a buffer of `n` bytes is. -/
inductive ReaderPC where
  | idle
  | calling (n : Nat)
  | locked (n : Nat)
  | looping (n : Nat)
  /-- The done channel was open. -/
  | checked (n : Nat)
  /-- The next payload was not in the buffer. -/
  | missed (n : Nat)
  | waiting (n : Nat)
  | woken (n : Nat)
  | returning (r : ReadResult)
  | returned (r : ReadResult)
deriving DecidableEq, Repr

inductive ReceiverPC where
  | head
  | reading
  | holding (pkt : Tagged)
  | signalling
  | exited
deriving DecidableEq, Repr

inductive CloserPC where
  | idle
  | closing
  | broadcasting
  | innerClosing
  | returned
deriving DecidableEq, Repr

/-- The connection and its goroutines. `lock` is the reader that holds `readMu`, `waiters` the list
of `readCond`. -/
structure State where
  ep : Endpoint := {}
  lock : Option Nat := none
  readers : Nat → ReaderPC := fun _ => .idle
  waiters : List Nat := []
  receiver : ReceiverPC := .head
  closers : Nat → CloserPC := fun _ => .idle
  innerFailed : Bool := false
  panicked : Bool := false

def State.setReader (s : State) (i : Nat) (pc : ReaderPC) : State :=
  { s with readers := update s.readers i pc }

def State.setCloser (s : State) (j : Nat) (pc : CloserPC) : State :=
  { s with closers := update s.closers j pc }

theorem setReader_self (s : State) (i : Nat) (pc : ReaderPC) :
    (s.setReader i pc).readers i = pc := by
  rw [State.setReader]
  exact update_self i pc s.readers

theorem setReader_of_ne (s : State) {i k : Nat} (hk : k ≠ i) (pc : ReaderPC) :
    (s.setReader i pc).readers k = s.readers k := by
  rw [State.setReader]
  exact update_of_ne hk pc s.readers

/-! ## Steps -/

/-- The rest of the last payload. -/
def servePending (e : Endpoint) (n : Nat) : Endpoint :=
  { e with
    readPending := e.readPending.drop n
    returned := e.returned ++ e.readPending.take n }

/-- The next payload. What was pending stays if it fits: a reader that has waited does not look
again. -/
def takeNext (e : Endpoint) (n : Nat) (d : Tagged) : Endpoint :=
  { e with
    readBuf := e.readBuf.erase e.readSeq
    readSeq := e.readSeq + 1
    readPending := if n < d.bytes.length then d.bytes.drop n else e.readPending
    returned := e.returned ++ d.bytes.take n
    taken := e.taken ++ [d] }

def ReaderPC.wake : ReaderPC → ReaderPC
  | .waiting n => .woken n
  | pc => pc

/-- `readCond.Signal`: the first of the list. -/
def State.signal (s : State) : State :=
  match s.waiters with
  | [] => s
  | i :: rest => { s.setReader i (s.readers i).wake with waiters := rest }

/-- `readCond.Broadcast`: all of the list. -/
def State.broadcast (s : State) : State :=
  { s with
    readers := fun i => if i ∈ s.waiters then (s.readers i).wake else s.readers i
    waiters := [] }

inductive Action where
  | read (i n : Nat)
  | lock (i : Nat)
  | pending (i : Nat)
  | check (i : Nat)
  | lookup (i : Nat)
  | wait (i : Nat)
  | unlock (i : Nat)
  | poll
  | receive (pkt : Tagged)
  | innerError
  | handle
  | signal
  | close (j : Nat)
  | closeDone (j : Nat)
  | broadcast (j : Nat)
  | innerClose (j : Nat)
deriving DecidableEq, Repr

def act (s : State) : Action → Option State
  | .read i n => if s.readers i = .idle then some (s.setReader i (.calling n)) else none
  | .lock i =>
    if s.lock = none then
      match s.readers i with
      | .calling n => some { s.setReader i (.locked n) with lock := some i }
      -- the end of `Wait`: the reader goes on at the head of the loop
      | .woken n => some { s.setReader i (.looping n) with lock := some i }
      | _ => none
    else none
  | .pending i =>
    match s.readers i with
    | .locked n =>
      if s.ep.readPending ≠ [] then
        some { s.setReader i (.returning (.data (s.ep.readPending.take n))) with
          ep := servePending s.ep n }
      else some (s.setReader i (.looping n))
    | _ => none
  | .check i =>
    match s.readers i with
    | .looping n => some (s.setReader i (if s.ep.done then .returning .eof else .checked n))
    | _ => none
  | .lookup i =>
    match s.readers i with
    | .checked n =>
      match s.ep.readBuf.lookup s.ep.readSeq with
      | some d =>
        some { s.setReader i (.returning (.data (d.bytes.take n))) with
          ep := takeNext s.ep n d }
      | none => some (s.setReader i (.missed n))
    | _ => none
  | .wait i =>
    match s.readers i with
    | .missed n =>
      some { s.setReader i (.waiting n) with waiters := s.waiters ++ [i], lock := none }
    | _ => none
  | .unlock i =>
    match s.readers i with
    | .returning r => some { s.setReader i (.returned r) with lock := none }
    | _ => none
  | .poll =>
    if s.receiver = .head then
      some { s with receiver := if s.ep.done then .exited else .reading }
    else none
  | .receive pkt => if s.receiver = .reading then some { s with receiver := .holding pkt } else none
  | .innerError =>
    if s.receiver = .reading then some { s with receiver := .exited, innerFailed := true }
    else none
  | .handle =>
    match s.receiver with
    | .holding pkt =>
      -- only a data frame needs `readMu`
      if isDataFrame pkt.bytes then
        if s.lock = none then
          some { s with ep := (s.ep.handle pkt).1, receiver := .signalling }
        else none
      else some { s with ep := (s.ep.handle pkt).1, receiver := .head }
    | _ => none
  | .signal => if s.receiver = .signalling then some { s.signal with receiver := .head } else none
  | .close j =>
    if s.closers j = .idle then
      some (s.setCloser j (if s.ep.done then .broadcasting else .closing))
    else none
  | .closeDone j =>
    if s.closers j = .closing then
      -- another `Close` was between its check and this one
      if s.ep.done then some { s with panicked := true }
      else some { s.setCloser j .broadcasting with ep := s.ep.close }
    else none
  | .broadcast j =>
    if s.closers j = .broadcasting then some (s.broadcast.setCloser j .innerClosing) else none
  | .innerClose j =>
    if s.closers j = .innerClosing then some (s.setCloser j .returned) else none

def step (s : State) (a : Action) : Option State := if s.panicked then none else act s a

/-! ## What a step does -/

/-- The reader `i` goes to `pc`, and the endpoint, the lock and the list become as given. -/
inductive ReaderStep (s : State) (i : Nat) : Action → ReaderPC → Endpoint → Option Nat → List Nat →
    Prop where
  | read (n : Nat) (hpc : s.readers i = .idle) :
      ReaderStep s i (.read i n) (.calling n) s.ep s.lock s.waiters
  | lock (n : Nat) (hpc : s.readers i = .calling n) (hlock : s.lock = none) :
      ReaderStep s i (.lock i) (.locked n) s.ep (some i) s.waiters
  | relock (n : Nat) (hpc : s.readers i = .woken n) (hlock : s.lock = none) :
      ReaderStep s i (.lock i) (.looping n) s.ep (some i) s.waiters
  | servePending (n : Nat) (hpc : s.readers i = .locked n) :
      ReaderStep s i (.pending i) (.returning (.data (s.ep.readPending.take n)))
        (servePending s.ep n) s.lock s.waiters
  | loop (n : Nat) (hpc : s.readers i = .locked n) :
      ReaderStep s i (.pending i) (.looping n) s.ep s.lock s.waiters
  | eof (n : Nat) (hpc : s.readers i = .looping n) :
      ReaderStep s i (.check i) (.returning .eof) s.ep s.lock s.waiters
  | check (n : Nat) (hpc : s.readers i = .looping n) (hopen : s.ep.done = false) :
      ReaderStep s i (.check i) (.checked n) s.ep s.lock s.waiters
  | takeNext (n : Nat) (d : Tagged) (hpc : s.readers i = .checked n) :
      ReaderStep s i (.lookup i) (.returning (.data (d.bytes.take n))) (takeNext s.ep n d) s.lock
        s.waiters
  | miss (n : Nat) (hpc : s.readers i = .checked n) :
      ReaderStep s i (.lookup i) (.missed n) s.ep s.lock s.waiters
  | wait (n : Nat) (hpc : s.readers i = .missed n) :
      ReaderStep s i (.wait i) (.waiting n) s.ep none (s.waiters ++ [i])
  | unlock (r : ReadResult) (hpc : s.readers i = .returning r) :
      ReaderStep s i (.unlock i) (.returned r) s.ep none s.waiters

inductive ReceiverStep (s : State) : Action → Endpoint → ReceiverPC → Bool → Prop where
  | exit (h : s.receiver = .head) : ReceiverStep s .poll s.ep .exited s.innerFailed
  | poll (h : s.receiver = .head) : ReceiverStep s .poll s.ep .reading s.innerFailed
  | receive (pkt : Tagged) (h : s.receiver = .reading) :
      ReceiverStep s (.receive pkt) s.ep (.holding pkt) s.innerFailed
  | error (h : s.receiver = .reading) : ReceiverStep s .innerError s.ep .exited true
  | handle (pkt : Tagged) (pc : ReceiverPC) (h : s.receiver = .holding pkt) :
      ReceiverStep s .handle (s.ep.handle pkt).1 pc s.innerFailed

inductive CloserStep (s : State) (j : Nat) : Action → CloserPC → Endpoint → Prop where
  | again (h : s.closers j = .idle) (hdone : s.ep.done = true) :
      CloserStep s j (.close j) .broadcasting s.ep
  | check (h : s.closers j = .idle) : CloserStep s j (.close j) .closing s.ep
  | closeDone (h : s.closers j = .closing) :
      CloserStep s j (.closeDone j) .broadcasting s.ep.close
  | innerClose (h : s.closers j = .innerClosing) : CloserStep s j (.innerClose j) .returned s.ep

inductive StepCase (s : State) : Action → State → Prop where
  | reader (i : Nat) {a : Action} {pc : ReaderPC} {e : Endpoint} {lock : Option Nat}
      {waiters : List Nat} (h : ReaderStep s i a pc e lock waiters) :
      StepCase s a { s.setReader i pc with ep := e, lock := lock, waiters := waiters }
  | receiver {a : Action} {e : Endpoint} {pc : ReceiverPC} {failed : Bool}
      (h : ReceiverStep s a e pc failed) :
      StepCase s a { s with ep := e, receiver := pc, innerFailed := failed }
  | signal (h : s.receiver = .signalling) : StepCase s .signal { s.signal with receiver := .head }
  | closer (j : Nat) {a : Action} {pc : CloserPC} {e : Endpoint} (h : CloserStep s j a pc e) :
      StepCase s a { s.setCloser j pc with ep := e }
  | broadcast (j : Nat) (h : s.closers j = .broadcasting) :
      StepCase s (.broadcast j) (s.broadcast.setCloser j .innerClosing)
  | panic (j : Nat) (h : s.closers j = .closing) :
      StepCase s (.closeDone j) { s with panicked := true }

section Cases

variable {s t : State}

theorem stepCase_lock {i : Nat} (h : act s (.lock i) = some t) : StepCase s (.lock i) t := by
  rw [act] at h
  by_cases hlock : s.lock = none
  · rw [if_pos hlock] at h
    split at h
    case h_1 n hpc =>
      cases h
      exact .reader _ (.lock n hpc hlock)
    case h_2 n hpc =>
      cases h
      exact .reader _ (.relock n hpc hlock)
    case h_3 => cases h
  · rw [if_neg hlock] at h
    cases h

theorem stepCase_pending {i : Nat} (h : act s (.pending i) = some t) :
    StepCase s (.pending i) t := by
  rw [act] at h
  split at h
  case h_1 n hpc =>
    by_cases hpending : s.ep.readPending ≠ []
    · rw [if_pos hpending] at h
      cases h
      exact .reader _ (.servePending n hpc)
    · rw [if_neg hpending] at h
      cases h
      exact .reader _ (.loop n hpc)
  case h_2 => cases h

theorem stepCase_lookup {i : Nat} (h : act s (.lookup i) = some t) : StepCase s (.lookup i) t := by
  rw [act] at h
  split at h
  case h_1 n hpc =>
    split at h
    case h_1 d hd =>
      cases h
      exact .reader _ (.takeNext n d hpc)
    case h_2 =>
      cases h
      exact .reader _ (.miss n hpc)
  case h_2 => cases h

theorem stepCase_handle (h : act s .handle = some t) : StepCase s .handle t := by
  rw [act] at h
  split at h
  case h_1 pkt hpc =>
    by_cases hdata : isDataFrame pkt.bytes = true
    · rw [if_pos hdata] at h
      -- with the lock free
      obtain ⟨-, rfl⟩ := of_guarded h
      exact .receiver (.handle pkt .signalling hpc)
    · rw [if_neg hdata] at h
      cases h
      exact .receiver (.handle pkt .head hpc)
  case h_2 => cases h

theorem stepCase_closeDone {j : Nat} (h : act s (.closeDone j) = some t) :
    StepCase s (.closeDone j) t := by
  rw [act] at h
  by_cases hpc : s.closers j = .closing
  · rw [if_pos hpc] at h
    by_cases hdone : s.ep.done = true
    · rw [if_pos hdone] at h
      cases h
      exact .panic j hpc
    · rw [if_neg hdone] at h
      cases h
      exact .closer _ (.closeDone hpc)
  · rw [if_neg hpc] at h
    cases h

theorem step_cases {a : Action} (h : step s a = some t) : StepCase s a t := by
  rw [step] at h
  by_cases hpanic : s.panicked = true
  · rw [if_pos hpanic] at h
    cases h
  rw [if_neg hpanic] at h
  cases a with
  | read i n =>
    obtain ⟨hpc, rfl⟩ := of_guarded h
    exact .reader _ (.read n hpc)
  | lock i => exact stepCase_lock h
  | pending i => exact stepCase_pending h
  | check i =>
    rw [act] at h
    split at h
    case h_1 n hpc =>
      cases h
      cases hdone : s.ep.done with
      | true => exact .reader _ (.eof n hpc)
      | false => exact .reader _ (.check n hpc hdone)
    case h_2 => cases h
  | lookup i => exact stepCase_lookup h
  | wait i =>
    rw [act] at h
    split at h
    case h_1 n hpc =>
      cases h
      exact .reader _ (.wait n hpc)
    case h_2 => cases h
  | unlock i =>
    rw [act] at h
    split at h
    case h_1 r hpc =>
      cases h
      exact .reader _ (.unlock r hpc)
    case h_2 => cases h
  | poll =>
    obtain ⟨hpc, rfl⟩ := of_guarded h
    cases hdone : s.ep.done with
    | true => exact .receiver (.exit hpc)
    | false => exact .receiver (.poll hpc)
  | receive pkt =>
    obtain ⟨hpc, rfl⟩ := of_guarded h
    exact .receiver (.receive pkt hpc)
  | innerError =>
    obtain ⟨hpc, rfl⟩ := of_guarded h
    exact .receiver (.error hpc)
  | handle => exact stepCase_handle h
  | signal =>
    obtain ⟨hpc, rfl⟩ := of_guarded h
    exact .signal hpc
  | close j =>
    obtain ⟨hpc, rfl⟩ := of_guarded h
    cases hdone : s.ep.done with
    | true => exact .closer _ (.again hpc hdone)
    | false => exact .closer _ (.check hpc)
  | closeDone j => exact stepCase_closeDone h
  | broadcast j =>
    obtain ⟨hpc, rfl⟩ := of_guarded h
    exact .broadcast j hpc
  | innerClose j =>
    obtain ⟨hpc, rfl⟩ := of_guarded h
    exact .closer _ (.innerClose hpc)

end Cases

/-! ## One call alone -/

/-- The steps of a call that nothing interrupts. -/
def readSteps (e : Endpoint) (i n : Nat) : List Action :=
  [.read i n, .lock i, .pending i] ++
    if e.readPending ≠ [] then [.unlock i]
    else if e.done then [.check i, .unlock i]
    else
      match e.readBuf.lookup e.readSeq with
      | some _ => [.check i, .lookup i, .unlock i]
      | none => [.check i, .lookup i, .wait i]

/-- **A call that nothing interrupts** does what `Endpoint.read` does, and waits if that is none. -/
theorem read_alone {s : State} {i : Nat} (n : Nat) (hidle : s.readers i = .idle)
    (hlock : s.lock = none) (hlive : s.panicked = false) :
    run step s (readSteps s.ep i n) = some (match s.ep.read n with
      | some (e, r) => { s.setReader i (.returned r) with ep := e }
      | none => { s.setReader i (.waiting n) with waiters := s.waiters ++ [i] }) := by
  rw [Endpoint.read, readSteps]
  by_cases hpending : s.ep.readPending ≠ []
  · rw [if_pos hpending, if_pos hpending]
    simp [run, step, act, State.setReader, servePending, hidle, hlock, hlive, hpending]
  · rw [if_neg hpending, if_neg hpending]
    have hempty := not_not.mp hpending
    cases hdone : s.ep.done with
    | true => simp [run, step, act, State.setReader, hidle, hlock, hlive, hempty, hdone]
    | false =>
      cases hd : s.ep.readBuf.lookup s.ep.readSeq with
      | some d =>
        simp [run, step, act, State.setReader, takeNext, hidle, hlock, hlive, hempty, hdone, hd]
      | none => simp [run, step, act, State.setReader, hidle, hlock, hlive, hempty, hdone, hd]

/-- Reader 1 waits; the first two payloads and the fourth have come. -/
def bufferedState : State where
  ep := { readBuf := [⟨0, [7, 8], 0⟩, ⟨1, [9], 1⟩, ⟨3, [5], 3⟩].toAList }
  readers := fun i => if i = 1 then .waiting 4 else .idle
  waiters := [1]

theorem read_alone_buffered :
    ((run step bufferedState (readSteps bufferedState.ep 0 1)).map fun s =>
        (s.readers 0, s.ep.readPending, s.waiters)) = some (.returned (.data [7]), [8], [1]) ∧
      (run step {} (readSteps {} 0 1)).map (·.waiters) = some [0] := by
  rw [read_alone 1 rfl rfl rfl, read_alone 1 rfl rfl rfl]
  exact ⟨rfl, rfl⟩

end NatProxy.WebRTC.ReliableReaders
