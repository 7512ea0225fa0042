import NatProxy.Lib.BigEndian
import Mathlib.Tactic.SplitIfs

/-!
# The byte stream over a data channel

Model of `dcStreamConn.Read` in `golib/webrtc/dcconn.go`. `readBuf` is one array; `pending` is a
slice of it, and the next message is read into its front. What is left to be returned is read off
the array as it is (`Conn.rest`): a byte that was overwritten before it was returned would be
missing there.
-/

namespace NatProxy.WebRTC.DCStream

open Lib List

def readBufSize : Nat := 65536

structure Message where
  bytes : Bytes
  fits : bytes.length ≤ readBufSize

/-- A slice of `readBuf`. -/
structure View where
  start : Nat
  stop : Nat
  start_le : start ≤ stop
  stop_le : stop ≤ readBufSize

/-- `rwc`: the messages to come and the error after them; without an error its `Read` waits then. -/
structure Conn where
  readBuf : Bytes
  size : readBuf.length = readBufSize
  pending : View
  messages : List Message
  err : Option String

def newDCStreamConn (messages : List Message) (err : Option String) : Conn :=
  ⟨replicate readBufSize 0, length_replicate, ⟨0, 0, Nat.le_refl 0, Nat.zero_le _⟩,
    messages, err⟩

inductive Result where
  | data (bytes : Bytes)
  | error (err : String)

def Result.bytes : Result → Bytes
  | .data bytes => bytes
  | .error _ => []

def View.bytes (v : View) (readBuf : Bytes) : Bytes := (readBuf.take v.stop).drop v.start

/-- `v[n:]`, where `n` is what `copy` into a buffer of `len` bytes returns. -/
def View.advance (v : View) (len : Nat) : View :=
  ⟨v.start + min len (v.stop - v.start), v.stop, by have := v.start_le; omega, v.stop_le⟩

/-- `c.rwc.Read(c.readBuf)` for the first of the messages. -/
def Conn.receive (c : Conn) (msg : Message) (messages : List Message) : Conn :=
  { c with
    readBuf := msg.bytes ++ c.readBuf.drop msg.bytes.length
    size := by
      rw [length_append, length_drop, c.size]
      exact Nat.add_sub_of_le msg.fits
    messages }

/-- `Read` with a buffer of `len` bytes; none while it waits. -/
def Conn.read (c : Conn) (len : Nat) : Option (Result × Conn) :=
  if 0 < c.pending.stop - c.pending.start then
    some (.data ((c.pending.bytes c.readBuf).take len),
      { c with pending := c.pending.advance len })
  else
    match c.messages with
    | [] => c.err.map fun err => (.error err, c)
    | msg :: messages =>
      let d := c.receive msg messages
      let n := msg.bytes.length
      let m := min len n
      some (.data ((d.readBuf.take n).take len), { d with
        pending := if m < n then ⟨m, n, Nat.min_le_right len n, msg.fits⟩ else d.pending })

/-- Calls with buffers of these sizes, up to one that waits. -/
def Conn.reads (c : Conn) : List Nat → List Result × Conn
  | [] => ([], c)
  | len :: lens =>
    match c.read len with
    | none => ([], c)
    | some (result, d) => (result :: (d.reads lens).1, (d.reads lens).2)

def Conn.rest (c : Conn) : Bytes :=
  c.pending.bytes c.readBuf ++ c.messages.flatMap Message.bytes

/-- At least so many calls with a buffer that is not empty return the rest. -/
def Conn.work (c : Conn) : Nat := c.rest.length + c.messages.length

theorem View.bytes_eq_nil {v : View} (h : ¬ 0 < v.stop - v.start) (buf : Bytes) :
    v.bytes buf = [] := by
  apply drop_eq_nil_of_le
  rw [length_take]
  omega

theorem View.length_bytes (v : View) {buf : Bytes} (h : buf.length = readBufSize) :
    (v.bytes buf).length = v.stop - v.start := by
  rw [View.bytes, length_drop, length_take, h, Nat.min_eq_left v.stop_le]

theorem View.take_append_advance (v : View) {buf : Bytes} (h : buf.length = readBufSize)
    (len : Nat) : (v.bytes buf).take len ++ (v.advance len).bytes buf = v.bytes buf := by
  have hdrop : (v.advance len).bytes buf = (v.bytes buf).drop (min len (v.stop - v.start)) := by
    rw [View.bytes, View.bytes, drop_drop]
    rfl
  rw [hdrop, ← v.length_bytes h, take_eq_take_min, take_append_drop]

/-- What a call does to the stream, and how much it brings it forward. -/
structure Conn.Reads (c : Conn) (len : Nat) (result : Result) (d : Conn) : Prop where
  rest : result.bytes ++ d.rest = c.rest
  err : d.err = c.err
  last : ∀ e, result = .error e → c.rest = [] ∧ c.err = some e
  work : d.work ≤ c.work - min 1 len

theorem Conn.reads_of_pending {c : Conn} (h : 0 < c.pending.stop - c.pending.start) (len : Nat) :
    c.Reads len (.data ((c.pending.bytes c.readBuf).take len))
      { c with pending := c.pending.advance len } := by
  have hrest : (c.pending.bytes c.readBuf).take len ++
      { c with pending := c.pending.advance len }.rest = c.rest := by
    rw [Conn.rest, ← append_assoc, c.pending.take_append_advance c.size]
    rfl
  refine ⟨hrest, rfl, nofun, ?_⟩
  have hlen := congrArg length hrest
  rw [length_append, length_take, c.pending.length_bytes c.size] at hlen
  show _ + c.messages.length ≤ _ + c.messages.length - min 1 len
  omega

theorem Conn.take_receive (c : Conn) (msg : Message) (messages : List Message) :
    (c.receive msg messages).readBuf.take msg.bytes.length = msg.bytes := take_left

theorem Conn.reads_of_message {c : Conn} (h : ¬ 0 < c.pending.stop - c.pending.start)
    {msg : Message} {messages : List Message} (hmsgs : c.messages = msg :: messages) {len : Nat}
    {left : View} (hleft : left.bytes (c.receive msg messages).readBuf = msg.bytes.drop len) :
    c.Reads len (.data (((c.receive msg messages).readBuf.take msg.bytes.length).take len))
      { c.receive msg messages with pending := left } := by
  have hrest : msg.bytes.take len ++ { c.receive msg messages with pending := left }.rest =
      c.rest := by
    rw [Conn.rest, hleft, ← append_assoc, take_append_drop, Conn.rest,
      View.bytes_eq_nil h, hmsgs]
    rfl
  rw [take_receive]
  refine ⟨hrest, rfl, nofun, ?_⟩
  have hlen := congrArg length hrest
  rw [length_append] at hlen
  rw [Conn.work, Conn.work, hmsgs, length_cons]
  show _ + messages.length ≤ _
  omega

theorem Conn.reads_of_read {c d : Conn} {len : Nat} {result : Result}
    (h : c.read len = some (result, d)) : c.Reads len result d := by
  rw [Conn.read] at h
  split_ifs at h with hpending
  · cases h
    exact reads_of_pending hpending len
  · split at h
    next hmsgs =>
      obtain ⟨e, he, heq⟩ := Option.map_eq_some_iff.mp h
      cases heq
      have hrest : c.rest = [] := by
        rw [Conn.rest, View.bytes_eq_nil hpending, hmsgs]
        rfl
      refine ⟨rfl, rfl, ?_, ?_⟩
      · rintro _ ⟨⟩
        exact ⟨hrest, he⟩
      · rw [Conn.work, hrest, hmsgs]
        exact Nat.zero_le _
    next msg messages hmsgs =>
      cases h
      apply reads_of_message hpending hmsgs
      split_ifs with hm
      · show ((c.receive msg messages).readBuf.take _).drop (min len msg.bytes.length) = _
        rw [take_receive, Nat.min_eq_left (by omega)]
      · rw [drop_eq_nil_of_le (by omega)]
        exact View.bytes_eq_nil hpending _

theorem Conn.work_of_waits {c : Conn} {len : Nat} (h : c.read len = none) : c.work = 0 := by
  rw [Conn.read] at h
  split_ifs at h with hpending
  split at h
  next hmsgs =>
    rw [Conn.work, Conn.rest, View.bytes_eq_nil hpending, hmsgs]
    rfl
  next => cases h

theorem Conn.rest_reads (c : Conn) (lens : List Nat) :
    (c.reads lens).1.flatMap Result.bytes ++ (c.reads lens).2.rest = c.rest := by
  induction lens generalizing c with
  | nil => rfl
  | cons len lens ih =>
    rw [Conn.reads]
    split
    next => rfl
    next result d h =>
      rw [flatMap_cons, append_assoc, ih d]
      exact (reads_of_read h).rest

theorem Conn.last_reads (c : Conn) (lens : List Nat) {before after : List Result} {e : String}
    (h : (c.reads lens).1 = before ++ .error e :: after) :
    before.flatMap Result.bytes = c.rest ∧ c.err = some e := by
  induction lens generalizing c before with
  | nil => simp [Conn.reads] at h
  | cons len lens ih =>
    rw [Conn.reads] at h
    split at h
    next => simp at h
    next result d hread =>
      have hd := reads_of_read hread
      cases before with
      | nil =>
        obtain ⟨rfl, -⟩ := cons.inj h
        obtain ⟨hrest, herr⟩ := hd.last e rfl
        exact ⟨hrest.symm, herr⟩
      | cons first before =>
        obtain ⟨rfl, htail⟩ := cons.inj h
        obtain ⟨hbefore, herr⟩ := ih d htail
        rw [flatMap_cons, hbefore, ← hd.err]
        exact ⟨hd.rest, herr⟩

theorem Conn.work_reads (c : Conn) (lens : List Nat) :
    (c.reads lens).2.work ≤ c.work - (lens.filter (0 < ·)).length := by
  induction lens generalizing c with
  | nil => exact Nat.le_refl _
  | cons len lens ih =>
    rw [Conn.reads, filter_cons]
    split
    next h =>
      rw [show c.work = 0 from work_of_waits h]
      exact Nat.zero_le _
    next result d h =>
      have hd := (reads_of_read h).work
      have hlater := ih d
      show (d.reads lens).2.work ≤ _
      split_ifs with hlen
      · rw [decide_eq_true_eq] at hlen
        rw [length_cons]
        omega
      · omega

/-- **Messages become a byte stream**, whatever the sizes of the caller's buffers. -/
theorem reads_stream (messages : List Message) (err : Option String) (sizes : List Nat) :
    let c := newDCStreamConn messages err
    let stream := messages.flatMap Message.bytes
    (c.reads sizes).1.flatMap Result.bytes ++ (c.reads sizes).2.rest = stream ∧
      (∀ before e after, (c.reads sizes).1 = before ++ .error e :: after →
        before.flatMap Result.bytes = stream ∧ err = some e) ∧
      (stream.length + messages.length ≤ (sizes.filter (0 < ·)).length →
        (c.reads sizes).1.flatMap Result.bytes = stream) := by
  intro c stream
  have hall : (c.reads sizes).1.flatMap Result.bytes ++ (c.reads sizes).2.rest = stream :=
    c.rest_reads sizes
  refine ⟨hall, fun before e after h => c.last_reads sizes h, fun hmany => ?_⟩
  have hwork : (c.reads sizes).2.work ≤ stream.length + messages.length - _ := c.work_reads sizes
  have hnil : (c.reads sizes).2.rest = [] := by
    apply eq_nil_of_length_eq_zero
    rw [Conn.work] at hwork
    omega
  rw [hnil, append_nil] at hall
  exact hall

end NatProxy.WebRTC.DCStream
