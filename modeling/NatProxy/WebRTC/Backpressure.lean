import NatProxy.WebRTC.SyncedSettings

/-!
# Backpressure of a data channel

Model of `newDCStreamConn` and `dcStreamConn.Write` (`golib/webrtc/dcconn.go`). A write waits while
the buffered amount of the channel is above `maxBuffered`. It is woken through `writeCh`, a channel
of one slot, into which the callback for a low amount puts a token unless there is one. The data
channel runs this callback when the amount goes from above `lowMark` to `lowMark` or below.

If `lowMark` is not larger than `maxBuffered`, the amount at which a writer waits still has to cross
it, or a callback or a token is on its way (`Awaited`). If it is larger, the amount may drain to
nothing without a callback, and the writer waits for ever (`deadlock_iff`,
`lowMarkAboveMaxBuffered`).
-/

namespace NatProxy.WebRTC.Backpressure

open Lib WebRTC.SyncedSettings

/-! ## The two marks -/

structure Marks where
  maxBuffered : Nat
  lowMark : Nat
deriving DecidableEq, Repr

def newMarks (maxBuffered lowMark : Int) : Marks where
  maxBuffered := (if maxBuffered ≤ 0 then 512 * 1024 else maxBuffered).toNat
  lowMark := (if lowMark ≤ 0 then 128 * 1024 else lowMark).toNat

def bytesOfKB (kb : Int) : Int := (kb * 1024).bmod 18446744073709551616

def marks (opts : Options) : Marks :=
  newMarks (bytesOfKB (applyServerDefaults opts).dcMaxBuffered)
    (bytesOfKB (applyServerDefaults opts).dcLowMark)

/-! ## The writer, the network and the callback -/

/-- The places of the writer. -/
inductive Writer where
  | idle
  | checking (len : Nat)
  | waiting (len : Nat)
  | sending (len : Nat)
deriving DecidableEq, Repr

/-- `callbacks` are still to run; `token`: `writeCh` is full; `closed`: `done` is closed. -/
structure State where
  amount : Nat := 0
  token : Bool := false
  callbacks : Nat := 0
  writer : Writer := .idle
  closed : Bool := false
deriving DecidableEq, Repr

inductive Action where
  | write (len : Nat)
  | check
  | wake
  | giveUp
  | send
  | drain (len : Nat)
  | callback
  | close
deriving DecidableEq, Repr

def State.check (m : Marks) (s : State) : Option State :=
  match s.writer with
  | .checking len =>
    some { s with writer := if m.maxBuffered < s.amount then .waiting len else .sending len }
  | _ => none

def State.wake (s : State) : Option State :=
  match s.writer with
  | .waiting len =>
    if s.token = true then some { s with token := false, writer := .checking len } else none
  | _ => none

def State.giveUp (s : State) : Option State :=
  match s.writer with
  | .waiting _ => if s.closed = true then some { s with writer := .idle } else none
  | _ => none

def State.send (s : State) : Option State :=
  match s.writer with
  | .sending len => some { s with amount := s.amount + len, writer := .idle }
  | _ => none

/-- The network takes `len` bytes; crossing the low mark starts the callback. -/
def State.drain (m : Marks) (s : State) (len : Nat) : Option State :=
  if len ≤ s.amount then
    some { s with
      amount := s.amount - len
      callbacks :=
        if m.lowMark < s.amount ∧ s.amount - len ≤ m.lowMark then s.callbacks + 1
        else s.callbacks }
  else none

def step (m : Marks) (s : State) : Action → Option State
  | .write len => if s.writer = .idle then some { s with writer := .checking len } else none
  | .check => s.check m
  | .wake => s.wake
  | .giveUp => s.giveUp
  | .send => s.send
  | .drain len => s.drain m len
  -- a token that is there already stays, and the new one is dropped
  | .callback =>
    if 0 < s.callbacks then some { s with callbacks := s.callbacks - 1, token := true } else none
  | .close => some { s with closed := true }

/-- The writer waits, and neither `writeCh` nor `done` will let it go on. -/
def Blocked (s : State) : Prop :=
  (∃ len, s.writer = .waiting len) ∧ s.token = false ∧ s.closed = false

/-- The writer is blocked and nothing is left that could wake it. -/
structure Deadlocked (s : State) : Prop where
  empty : s.amount = 0
  blocked : Blocked s
  noCallback : s.callbacks = 0

/-! ## A writer that waits is awaited -/

/-- A writer that waits has a token, a callback to bring one, or an amount that has yet to cross the
low mark. -/
def Awaited (m : Marks) (s : State) : Prop :=
  ∀ len, s.writer = .waiting len → s.token = true ∨ 0 < s.callbacks ∨ m.lowMark < s.amount

section

variable {m : Marks} {s t : State}

theorem Awaited.check (hm : m.lowMark ≤ m.maxBuffered) (h : s.check m = some t) :
    Awaited m t := by
  rw [State.check] at h
  split at h
  · cases h
    intro len hwait
    dsimp only at hwait ⊢
    split_ifs at hwait with hhigh
    right
    right
    omega
  · cases h

theorem Awaited.drain (hs : Awaited m s) {len : Nat} (h : s.drain m len = some t) :
    Awaited m t := by
  obtain ⟨hlen, rfl⟩ := of_guarded h
  intro len' hwait
  rcases hs len' hwait with htoken | hcallback | hhigh
  · exact .inl htoken
  · right
    left
    dsimp only
    split_ifs <;> omega
  · right
    dsimp only
    split_ifs with hcross
    · exact .inl (Nat.succ_pos _)
    · omega

theorem awaited_step (hm : m.lowMark ≤ m.maxBuffered) (a : Action) (hs : Awaited m s)
    (h : step m s a = some t) : Awaited m t := by
  cases a with
  | write len =>
    obtain ⟨-, rfl⟩ := of_guarded h
    exact fun len' hwait => nomatch hwait
  | check => exact Awaited.check hm h
  | wake =>
    simp only [step, State.wake] at h
    split at h
    · obtain ⟨-, rfl⟩ := of_guarded h
      exact fun len' hwait => nomatch hwait
    · cases h
  | giveUp =>
    simp only [step, State.giveUp] at h
    split at h
    · obtain ⟨-, rfl⟩ := of_guarded h
      exact fun len' hwait => nomatch hwait
    · cases h
  | send =>
    simp only [step, State.send] at h
    split at h
    · cases h
      exact fun len' hwait => nomatch hwait
    · cases h
  | drain len => exact hs.drain h
  | callback =>
    obtain ⟨-, rfl⟩ := of_guarded h
    exact fun len' _ => .inl rfl
  | close =>
    cases h
    exact hs

theorem not_deadlocked_of_awaited (hs : Awaited m s) : ¬ Deadlocked s := by
  rintro ⟨hempty, ⟨⟨len, hwait⟩, htoken, -⟩, hnone⟩
  rcases hs len hwait with h | h | h
  · rw [htoken] at h
    cases h
  · omega
  · omega

end

/-! ## A run into the deadlock -/

section

variable (m : Marks)

theorem reaches_amount (k : Nat) (hk : k ≤ m.maxBuffered + 1) :
    Reaches (step m) anyStep {} { amount := k } := by
  induction k with
  | zero => exact Relation.ReflTransGen.refl
  | succ k ih =>
    have hbefore := ih (by omega)
    have hwrite : run (step m) { amount := k } [.write 1, .check, .send] =
        some { amount := k + 1 } := by
      have hlow : ¬ m.maxBuffered < k := by omega
      simp [run, step, State.check, State.send, hlow]
    exact hbefore.trans (reaches_of_run hwrite)

theorem reaches_deadlock (hm : m.maxBuffered < m.lowMark) :
    Reaches (step m) anyStep {} { writer := .waiting 1 } := by
  have hfull := reaches_amount m (m.maxBuffered + 1) (Nat.le_refl _)
  have hrest : run (step m) { amount := m.maxBuffered + 1 }
      [.write 1, .check, .drain (m.maxBuffered + 1)] = some { writer := .waiting 1 } := by
    have hcross : ¬ m.lowMark < m.maxBuffered + 1 := by omega
    simp [run, step, State.check, State.drain, hcross]
  exact hfull.trans (reaches_of_run hrest)

end

/-- A writer blocked for ever at an empty buffer is reachable exactly if the low mark is above the
other. -/
theorem deadlock_iff (opts : Options) :
    (∃ s, Reaches (step (marks opts)) anyStep {} s ∧ Deadlocked s) ↔
      (marks opts).maxBuffered < (marks opts).lowMark := by
  constructor
  · rintro ⟨s, hreach, hdead⟩
    by_contra hle
    have hawaited : Awaited (marks opts) s :=
      hreach.invariant (Awaited (marks opts)) (fun len hwait => nomatch hwait)
        fun _ a _ hs _ hstep => awaited_step (Nat.le_of_not_lt hle) a hs hstep
    exact not_deadlocked_of_awaited hawaited hdead
  · intro hlt
    exact ⟨_, reaches_deadlock (marks opts) hlt, rfl, ⟨⟨1, rfl⟩, rfl, rfl⟩, rfl⟩

theorem lowMarkAboveMaxBuffered :
    let opts : Options :=
      { padding := false, paddingMax := 0, numChannels := 0, smuxStreamBuffer := 0
        smuxSessionBuffer := 0, smuxFrameSize := 0, smuxKeepAlive := 0
        smuxKeepAliveTimeout := 0, dcMaxBuffered := 256, dcLowMark := 512 }
    let frame := [Action.write 32776, .check, .send]
    run (step (marks opts)) {}
        (frame ++ frame ++ frame ++ frame ++ frame ++ frame ++ frame ++ frame ++
          [.write 32776, .check, .drain 262208]) =
      some { amount := 0, token := false, callbacks := 0, writer := .waiting 32776
             closed := false } := by
  decide

end NatProxy.WebRTC.Backpressure
