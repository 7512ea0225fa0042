import NatProxy.Lib.BigEndian

/-!
# Length-prefixed frames on a byte stream

`frame` writes a message with its length as a 16-bit number before it. `readFrames` is a loop that
reads frames from a stream and returns at a length that is zero or above a bound; it tells the
messages read and whether the loop has returned. Of a list of messages it reads those before the
first one that is empty or too long, and returns at that one (`readAll_flatMap_frame`).
-/

namespace NatProxy.Lib

open List

def frame (msg : Bytes) : Bytes := putUint16 (UInt16.ofNat msg.length) ++ msg

/-- The messages read, and whether the loop has returned at an invalid length. -/
def readFrames (max : Nat) : Nat → Bytes → List Bytes × Bool
  | fuel + 1, hi :: lo :: rest =>
    let n := (getUint16 hi lo).toNat
    if n = 0 ∨ max < n then ([], true)
    -- the loop waits for the rest of the message
    else if rest.length < n then ([], false)
    else
      let later := readFrames max fuel (rest.drop n)
      (rest.take n :: later.1, later.2)
  | _, _ => ([], false)

/-- All frames of a stream; a frame has more than two bytes. -/
def readAll (max : Nat) (stream : Bytes) : List Bytes × Bool :=
  readFrames max stream.length stream

/-- The messages that the loop reads. -/
def accepted (max : Nat) (msg : Bytes) : Bool := 0 < msg.length && msg.length ≤ max

section Rules

variable {max : Nat}

theorem accepted_iff_length {msg : Bytes} :
    accepted max msg = true ↔ 0 < msg.length ∧ msg.length ≤ max := by
  rw [accepted, Bool.and_eq_true, decide_eq_true_iff, decide_eq_true_iff]

theorem readFrames_frame_append {msg : Bytes} (hlen : msg.length < 65536) (fuel : Nat)
    (rest : Bytes) :
    readFrames max (fuel + 1) (frame msg ++ rest) =
      if accepted max msg = true then
        (msg :: (readFrames max fuel rest).1, (readFrames max fuel rest).2)
      else ([], true) := by
  have hn : (getUint16 (UInt16.ofNat msg.length >>> 8).toUInt8
      (UInt16.ofNat msg.length).toUInt8).toNat = msg.length := by
    rw [getUint16_putUint16, UInt16.toNat_ofNat']
    exact Nat.mod_eq_of_lt hlen
  have henough : ¬ (msg ++ rest).length < msg.length := by
    rw [length_append]
    omega
  show readFrames max (fuel + 1) ((UInt16.ofNat msg.length >>> 8).toUInt8 ::
    (UInt16.ofNat msg.length).toUInt8 :: (msg ++ rest)) = _
  by_cases hacc : accepted max msg = true
  · have hvalid : ¬ (msg.length = 0 ∨ max < msg.length) := by
      rw [accepted_iff_length] at hacc
      omega
    simp only [readFrames, hn, if_neg hvalid, if_neg henough, take_left', drop_left',
      if_pos hacc]
  · have hinvalid : msg.length = 0 ∨ max < msg.length := by
      rw [accepted_iff_length] at hacc
      omega
    simp only [readFrames, hn, if_pos hinvalid, if_neg hacc]

theorem readFrames_flatMap_frame {msgs : List Bytes} (h : ∀ msg ∈ msgs, msg.length < 65536)
    {fuel : Nat} (hfuel : msgs.length ≤ fuel) :
    readFrames max fuel (msgs.flatMap frame) =
      (msgs.takeWhile (accepted max), !msgs.all (accepted max)) := by
  induction msgs generalizing fuel with
  | nil =>
    rw [flatMap_nil]
    cases fuel <;> rfl
  | cons msg msgs ih =>
    cases fuel with
    | zero => exact absurd hfuel (Nat.not_succ_le_zero _)
    | succ fuel =>
      rw [flatMap_cons, readFrames_frame_append (h msg mem_cons_self),
        ih (fun m hm => h m (mem_cons_of_mem msg hm)) (Nat.le_of_succ_le_succ hfuel),
        takeWhile_cons, all_cons]
      cases accepted max msg <;> rfl

theorem length_le_length_flatMap_frame (msgs : List Bytes) :
    msgs.length ≤ (msgs.flatMap frame).length := by
  induction msgs with
  | nil => exact Nat.le_refl 0
  | cons msg msgs ih =>
    have hframe : 2 ≤ (frame msg).length := by
      rw [frame, length_append]
      exact Nat.le_add_right 2 msg.length
    rw [flatMap_cons, length_append, length_cons]
    omega

theorem readAll_flatMap_frame {msgs : List Bytes} (h : ∀ msg ∈ msgs, msg.length < 65536) :
    readAll max (msgs.flatMap frame) =
      (msgs.takeWhile (accepted max), !msgs.all (accepted max)) :=
  readFrames_flatMap_frame h (length_le_length_flatMap_frame msgs)

end Rules

end NatProxy.Lib
