import NatProxy.Lib.BitWords

/-!
# The replay filter

The sliding window of `replay.go`: the highest sequence number accepted so far, and a bit for each
of the 8192 numbers from it downwards. The bitmap is shifted in place, word by word from the top,
so that a word is read before it is overwritten (`bitAt_advanceWindow`).

A filter represents the set of the numbers it has accepted (`Represents`); `check_represents` is
the step of the refinement, and `check_iff` says of every sequence of calls which ones return true.
-/

namespace NatProxy.WebRTC.Replay

open Lib

def replayWindowSize : UInt64 := 8192

abbrev Bitmap := Vector (BitVec 64) 128

structure ReplayFilter where
  maxSeq : UInt64
  bitmap : Bitmap
  deriving DecidableEq

def newReplayFilter : ReplayFilter := ⟨0, Vector.replicate 128 0⟩

/-! ## The code -/

/-- `rf.bitmap[idx] |= 1 << bit`. -/
def setBit (bitmap : Bitmap) (offset : UInt64) : Bitmap :=
  let idx := offset.toNat / 64
  let bit := offset.toNat % 64
  bitmap.setIfInBounds idx (wordAt bitmap idx ||| 1#64 <<< bit)

def getBit (bitmap : Bitmap) (offset : UInt64) : Bool :=
  let idx := offset.toNat / 64
  let bit := offset.toNat % 64
  wordAt bitmap idx &&& 1#64 <<< bit != 0

/-- The first two loops of `advanceWindow`: `for i := 127; i >= wordShift; i--`, then
`for i := 0; i < wordShift; i++`. -/
def shiftWords (bitmap : Bitmap) (wordShift : Nat) : Bitmap :=
  let moved := forDown (overwrite fun word i => word (i - wordShift)) wordShift (128 - wordShift)
    bitmap
  forUp (overwrite fun _ _ => 0) 0 wordShift moved

/-- The third loop, `for i := 127; i > 0; i--`, and the last word. -/
def shiftBits (bitmap : Bitmap) (bitShift : Nat) : Bitmap :=
  let moved := forDown (overwrite fun word i =>
    word i <<< bitShift ||| word (i - 1) >>> (64 - bitShift)) 1 127 bitmap
  moved.setIfInBounds 0 (wordAt moved 0 <<< bitShift)

def advanceWindow (bitmap : Bitmap) (shift : UInt64) : Bitmap :=
  let wordShift := shift.toNat / 64
  let bitShift := shift.toNat % 64
  if 128 ≤ wordShift then
    Vector.replicate 128 0
  else
    let bitmap := if 0 < wordShift then shiftWords bitmap wordShift else bitmap
    if 0 < bitShift then shiftBits bitmap bitShift else bitmap

/-- `Check`, with the filter it leaves. -/
def ReplayFilter.check (rf : ReplayFilter) (seq : UInt64) : Bool × ReplayFilter :=
  if rf.maxSeq < seq then
    let shift := seq - rf.maxSeq
    let bitmap :=
      if replayWindowSize ≤ shift then Vector.replicate 128 0 else advanceWindow rf.bitmap shift
    (true, ⟨seq, setBit bitmap 0⟩)
  else
    let diff := rf.maxSeq - seq
    if replayWindowSize ≤ diff then
      (false, rf)
    else if getBit rf.bitmap diff then
      (false, rf)
    else
      (true, { rf with bitmap := setBit rf.bitmap diff })

variable {rf : ReplayFilter} {seq : UInt64}

theorem check_of_rejected (h : (rf.check seq).1 = false) : (rf.check seq).2 = rf := by
  rw [ReplayFilter.check] at h ⊢
  by_cases hnew : rf.maxSeq < seq
  · rw [if_pos hnew] at h
    cases h
  · grind

/-! ## The bitmap -/

theorem bitAt_setBit (bitmap : Bitmap) {offset : UInt64} (h : offset.toNat < 8192) (k : Nat) :
    bitAt (setBit bitmap offset) k = (bitAt bitmap k || decide (offset.toNat = k)) :=
  bitAt_setWord_or (by omega) (by omega) k

theorem getBit_eq_bitAt (bitmap : Bitmap) (offset : UInt64) :
    getBit bitmap offset = bitAt bitmap offset.toNat := by
  have hplace : offset.toNat % 64 < 64 := Nat.mod_lt _ (by omega)
  rw [getBit, bitAt, bitOf, ← BitVec.twoPow_eq, BitVec.and_twoPow]
  cases hbit : (wordAt bitmap (offset.toNat / 64)).getLsbD (offset.toNat % 64) with
  | false => rfl
  | true =>
    have hmask : BitVec.twoPow 64 (offset.toNat % 64) ≠ 0 := by
      intro hzero
      have hset := congrArg (fun word => word.getLsbD (offset.toNat % 64)) hzero
      rw [BitVec.getLsbD_twoPow] at hset
      simp [hplace] at hset
    rw [if_pos rfl]
    exact bne_iff_ne.2 hmask

variable {k : Nat}

theorem bitAt_shiftWords (bitmap : Bitmap) {wordShift : Nat} (h : wordShift < 128) (hk : k < 8192) :
    bitAt (shiftWords bitmap wordShift) k =
      (decide (64 * wordShift ≤ k) && bitAt bitmap (k - 64 * wordShift)) := by
  have hdown := wordAt_forDown (g := fun word i => word (i - wordShift))
    (fun i u v huv => huv _ (Nat.sub_le i wordShift))
    (show wordShift + (128 - wordShift) ≤ 128 by omega) bitmap (k / 64)
  have hread : wordAt (shiftWords bitmap wordShift) (k / 64) =
      moveWords wordShift (wordAt bitmap) (k / 64) := by
    rw [shiftWords, wordAt_forUp (fun _ _ _ _ => rfl) (by omega), hdown, moveWords]
    by_cases hlow : k / 64 < wordShift
    · rw [if_pos (by omega), if_neg (by omega)]
    · rw [if_neg (by omega), if_pos (by omega), if_pos (by omega)]
  rw [bitAt, bitOf, hread]
  exact bitOf_moveWords (by omega) wordShift (wordAt bitmap) k

theorem bitAt_shiftBits (bitmap : Bitmap) {bitShift : Nat} (h : bitShift < 64) (hk : k < 8192) :
    bitAt (shiftBits bitmap bitShift) k =
      (decide (bitShift ≤ k) && bitAt bitmap (k - bitShift)) := by
  have hdown := wordAt_forDown
    (g := fun word i => word i <<< bitShift ||| word (i - 1) >>> (64 - bitShift))
    (fun i u v huv => by rw [huv i (Nat.le_refl i), huv (i - 1) (Nat.sub_le i 1)])
    (show 1 + 127 ≤ 128 by omega) bitmap
  have hread : wordAt (shiftBits bitmap bitShift) (k / 64) =
      moveBits bitShift (wordAt bitmap) (k / 64) := by
    rw [shiftBits, wordAt_set (by omega), moveBits]
    by_cases hlast : k / 64 = 0
    · rw [if_pos hlast.symm, if_pos hlast, hdown, if_neg (by omega)]
    · rw [if_neg (Ne.symm hlast), if_neg hlast, hdown, if_pos (by omega)]
  rw [bitAt, bitOf, hread]
  exact bitOf_moveBits h (wordAt bitmap) k

/-- **The window moves up by exactly `shift` bits.** -/
theorem bitAt_advanceWindow (bitmap : Bitmap) {shift : UInt64} (h : shift.toNat < 8192)
    (hk : k < 8192) : bitAt (advanceWindow bitmap shift) k =
      (decide (shift.toNat ≤ k) && bitAt bitmap (k - shift.toNat)) := by
  have hsplit : shift.toNat = 64 * (shift.toNat / 64) + shift.toNat % 64 :=
    (Nat.div_add_mod _ _).symm
  have hwords : ∀ j, j < 8192 →
      bitAt (if 0 < shift.toNat / 64 then shiftWords bitmap (shift.toNat / 64) else bitmap) j =
        (decide (64 * (shift.toNat / 64) ≤ j) && bitAt bitmap (j - 64 * (shift.toNat / 64))) := by
    intro j hj
    split_ifs with hpos
    · exact bitAt_shiftWords bitmap (by omega) hj
    · have hzero : shift.toNat / 64 = 0 := by omega
      simp [hzero]
  rw [advanceWindow, if_neg (by omega)]
  by_cases hbits : 0 < shift.toNat % 64
  · have hle : (shift.toNat % 64 ≤ k ∧ 64 * (shift.toNat / 64) ≤ k - shift.toNat % 64) ↔
        shift.toNat ≤ k := by
      omega
    have hsub : k - shift.toNat % 64 - 64 * (shift.toNat / 64) = k - shift.toNat := by omega
    rw [if_pos hbits, bitAt_shiftBits _ (by omega) hk, hwords _ (by omega), ← Bool.and_assoc,
      ← Bool.decide_and, decide_eq_decide.2 hle, hsub]
  · have hwhole : 64 * (shift.toNat / 64) = shift.toNat := by omega
    rw [if_neg hbits, hwords k hk, hwhole]

/-! ## The refinement -/

/-- The largest number of a list, 0 if it is empty. -/
def newest : List UInt64 → UInt64
  | [] => 0
  | seq :: rest => if newest rest < seq then seq else newest rest

/-- What the filter is for: a number is let in once, unless it is 8192 or more behind. -/
def Accepts (accepted : List UInt64) (seq : UInt64) : Prop :=
  seq ∉ accepted ∧ (newest accepted < seq ∨ newest accepted - seq < replayWindowSize)

/-- The filter has accepted exactly these numbers: bit `k` stands for `maxSeq - k`. -/
structure Represents (rf : ReplayFilter) (accepted : List UInt64) : Prop where
  max : rf.maxSeq = newest accepted
  bits : ∀ k, k < 8192 →
    (bitAt rf.bitmap k = true ↔ ∃ seq ∈ accepted, seq.toNat + k = rf.maxSeq.toNat)

variable {accepted : List UInt64}

theorem le_newest (h : seq ∈ accepted) : seq ≤ newest accepted := by
  induction accepted with
  | nil => exact absurd h List.not_mem_nil
  | cons first rest ih =>
    rw [newest]
    rcases List.mem_cons.1 h with rfl | htail
    · split_ifs with hlt
      · exact UInt64.le_refl seq
      · exact UInt64.not_lt.1 hlt
    · split_ifs with hlt
      · exact UInt64.le_trans (ih htail) (UInt64.le_of_lt hlt)
      · exact ih htail

theorem represents_new : Represents newReplayFilter [] where
  max := rfl
  bits k _ := by
    rw [newReplayFilter, bitAt_replicate_zero]
    simp

theorem Represents.mem_iff (h : Represents rf accepted) (hle : seq ≤ rf.maxSeq)
    (hnear : (rf.maxSeq - seq).toNat < 8192) :
    seq ∈ accepted ↔ bitAt rf.bitmap (rf.maxSeq - seq).toNat = true := by
  have hnat : seq.toNat ≤ rf.maxSeq.toNat := UInt64.le_iff_toNat_le.1 hle
  have hsub : (rf.maxSeq - seq).toNat = rf.maxSeq.toNat - seq.toNat :=
    UInt64.toNat_sub_of_le _ _ hle
  rw [h.bits _ hnear]
  constructor
  · intro hmem
    exact ⟨seq, hmem, by omega⟩
  · grind [UInt64.toNat_inj]

theorem Represents.advance (h : Represents rf accepted) (hlt : rf.maxSeq < seq) :
    (rf.check seq).1 = true ∧ Represents (rf.check seq).2 (seq :: accepted) := by
  have hnat : rf.maxSeq.toNat < seq.toNat := UInt64.lt_iff_toNat_lt.1 hlt
  have hsub : (seq - rf.maxSeq).toNat = seq.toNat - rf.maxSeq.toNat :=
    UInt64.toNat_sub_of_le _ _ (UInt64.le_of_lt hlt)
  have hwindow : replayWindowSize ≤ seq - rf.maxSeq ↔ 8192 ≤ (seq - rf.maxSeq).toNat :=
    UInt64.le_iff_toNat_le
  rw [ReplayFilter.check, if_pos hlt]
  refine ⟨rfl, ?_, ?_⟩
  · show seq = newest (seq :: accepted)
    rw [newest, if_pos (h.max ▸ hlt)]
  · intro k hk
    -- an older number keeps its bit if it is still in the window
    have hold : bitAt (if replayWindowSize ≤ seq - rf.maxSeq then Vector.replicate 128 0
        else advanceWindow rf.bitmap (seq - rf.maxSeq)) k = true ↔
        ∃ old ∈ accepted, old.toNat + k = seq.toNat := by
      have hbelow : ∀ old ∈ accepted, old.toNat ≤ rf.maxSeq.toNat := fun old hmem =>
        UInt64.le_iff_toNat_le.1 (h.max ▸ le_newest hmem)
      by_cases hfar : replayWindowSize ≤ seq - rf.maxSeq
      · have hfar' := hwindow.1 hfar
        rw [if_pos hfar, bitAt_replicate_zero]
        constructor
        · intro hfalse
          cases hfalse
        · rintro ⟨old, hmem, hsum⟩
          have := hbelow old hmem
          omega
      · have hnear : (seq - rf.maxSeq).toNat < 8192 :=
          Nat.lt_of_not_le fun hge => hfar (hwindow.2 hge)
        rw [if_neg hfar, bitAt_advanceWindow _ hnear hk, Bool.and_eq_true, decide_eq_true_iff,
          h.bits _ (by omega)]
        constructor
        · rintro ⟨hge, old, hmem, hsum⟩
          exact ⟨old, hmem, by omega⟩
        · rintro ⟨old, hmem, hsum⟩
          have := hbelow old hmem
          exact ⟨by omega, old, hmem, by omega⟩
    show bitAt (setBit _ 0) k = true ↔ ∃ old ∈ seq :: accepted, old.toNat + k = seq.toNat
    rw [bitAt_setBit _ (by decide), Bool.or_eq_true, decide_eq_true_iff, hold]
    constructor
    · grind
    · grind

theorem Represents.mark (h : Represents rf accepted) (hle : seq ≤ rf.maxSeq)
    (hnear : (rf.maxSeq - seq).toNat < 8192) :
    Represents { rf with bitmap := setBit rf.bitmap (rf.maxSeq - seq) } (seq :: accepted) where
  max := by
    rw [newest, if_neg (h.max ▸ UInt64.not_lt.2 hle)]
    exact h.max
  bits k hk := by
    have hnat : seq.toNat ≤ rf.maxSeq.toNat := UInt64.le_iff_toNat_le.1 hle
    have hsub : (rf.maxSeq - seq).toNat = rf.maxSeq.toNat - seq.toNat :=
      UInt64.toNat_sub_of_le _ _ hle
    show bitAt (setBit rf.bitmap (rf.maxSeq - seq)) k = true ↔
      ∃ old ∈ seq :: accepted, old.toNat + k = rf.maxSeq.toNat
    rw [bitAt_setBit _ hnear, Bool.or_eq_true, decide_eq_true_iff, h.bits k hk]
    constructor
    · grind
    · grind

/-- **One call.** The answer is that of the specification, and the filter represents the accepted
numbers afterwards. -/
theorem check_represents (h : Represents rf accepted) (seq : UInt64) :
    Accepts accepted seq ∧ (rf.check seq).1 = true ∧
        Represents (rf.check seq).2 (seq :: accepted) ∨
      ¬ Accepts accepted seq ∧ rf.check seq = (false, rf) := by
  rw [Accepts, ← h.max]
  by_cases hlt : rf.maxSeq < seq
  · grind [UInt64.not_lt, le_newest, h.advance, h.max]
  · have hle : seq ≤ rf.maxSeq := UInt64.not_lt.1 hlt
    rw [ReplayFilter.check, if_neg hlt]
    by_cases hfar : replayWindowSize ≤ rf.maxSeq - seq
    · simp_all
    · have hlt' : rf.maxSeq - seq < replayWindowSize := UInt64.not_le.1 hfar
      have hnear : (rf.maxSeq - seq).toNat < 8192 := UInt64.lt_iff_toNat_lt.1 hlt'
      rw [if_neg hfar, getBit_eq_bitAt, h.mem_iff hle hnear]
      by_cases hseen : bitAt rf.bitmap (rf.maxSeq - seq).toNat = true
      · right
        rw [if_pos hseen]
        exact ⟨fun haccepts => haccepts.1 hseen, rfl⟩
      · left
        rw [if_neg hseen]
        exact ⟨⟨hseen, .inr hlt'⟩, rfl, h.mark hle hnear⟩

/-! ## Sequences of calls -/

def call (s : ReplayFilter × List UInt64) (seq : UInt64) : ReplayFilter × List UInt64 :=
  let (ok, rf) := s.1.check seq
  (rf, if ok then seq :: s.2 else s.2)

/-- A fresh filter after a sequence of calls, with the numbers that it accepted. -/
def calls (seqs : List UInt64) : ReplayFilter × List UInt64 :=
  seqs.foldl call (newReplayFilter, [])

theorem call_represents {s : ReplayFilter × List UInt64} (h : Represents s.1 s.2)
    (seq : UInt64) : Represents (call s seq).1 (call s seq).2 := by
  obtain ⟨-, hok, hrep⟩ | ⟨-, hrejected⟩ := check_represents h seq
  · show Represents (s.1.check seq).2 (if (s.1.check seq).1 then seq :: s.2 else s.2)
    rw [if_pos hok]
    exact hrep
  · rw [call, hrejected]
    exact h

theorem calls_represents (seqs : List UInt64) :
    Represents (calls seqs).1 (calls seqs).2 := by
  induction seqs using List.reverseRecOn with
  | nil => exact represents_new
  | append_singleton earlier seq ih =>
    rw [calls, List.foldl_append]
    exact call_represents ih seq

/-- **The filter meets its specification** after any sequence of calls. -/
theorem check_iff (earlier : List UInt64) (seq : UInt64) :
    ((calls earlier).1.check seq).1 = true ↔
      seq ∉ (calls earlier).2 ∧
        (newest (calls earlier).2 < seq ∨
          newest (calls earlier).2 - seq < replayWindowSize) := by
  obtain ⟨haccepts, hok, -⟩ | ⟨hnot, hrejected⟩ :=
    check_represents (calls_represents earlier) seq
  · exact iff_of_true hok haccepts
  · rw [hrejected]
    exact iff_of_false Bool.false_ne_true hnot

end NatProxy.WebRTC.Replay
