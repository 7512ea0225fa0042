import NatProxy.Lib.BigEndian

/-!
# The choice of codec and frame rate

Model of `golib/webrtc/media_codec.go`. A word of the seed is converted to `int`, and its truncated
remainder by the length of a table is the index. Where `int` has 32 bits, a word from `2 ^ 31` on
becomes negative, and so does its remainder unless it is 0; a negative index panics. There are four
codecs and three frame rates.

`selection_iff` says for which seeds both platforms select, and select the same.
-/

namespace NatProxy.WebRTC.MediaCodec

open Lib

structure MediaCodecInfo where
  name : String
  payloadType : UInt8
  clockRate : UInt32
deriving DecidableEq, Repr

def mediaCodecs : List MediaCodecInfo :=
  [⟨"H264", 96, 90000⟩, ⟨"VP8", 97, 90000⟩, ⟨"VP9", 98, 90000⟩, ⟨"AV1", 35, 90000⟩]

def frameRates : List Int := [25, 30, 60]

inductive WordSize where
  | bits32
  | bits64
deriving DecidableEq, Repr

def WordSize.toInt : WordSize → UInt32 → Int
  | .bits32, w => w.toBitVec.toInt
  | .bits64, w => w.toNat

/-- `table[int(w) % len(table)]`, where an index outside of the table panics. -/
def pick {α : Type} (size : WordSize) (table : List α) (w : UInt32) : Option α :=
  match (size.toInt w).tmod table.length with
  | .ofNat i => table[i]?
  | .negSucc _ => none

def uint32 (b : Bytes) : UInt32 := UInt32.ofNat (getNat b)

def selectCodec (size : WordSize) (seed : Bytes) : Option MediaCodecInfo :=
  if seed.length < 4 then mediaCodecs[0]? else pick size mediaCodecs (uint32 (seed.take 4))

def selectFrameRate (size : WordSize) (seed : Bytes) : Option Int :=
  if seed.length < 8 then some 30 else pick size frameRates (uint32 ((seed.drop 4).take 4))

/-- No platform panics, and both select the same. -/
def Agree {α : Type} (select : WordSize → Option α) : Prop :=
  (∀ size, (select size).isSome = true) ∧ select .bits32 = select .bits64

section

variable {α : Type} {table : List α} {w : UInt32}

theorem pick_of_nonneg {size : WordSize} {n : Nat} (h : size.toInt w = n) :
    pick size table w = table[n % table.length]? := by
  rw [pick, h, ← Int.ofNat_tmod]

theorem pick_bits64 (table : List α) (w : UInt32) :
    pick .bits64 table w = table[w.toNat % table.length]? := pick_of_nonneg rfl

theorem toInt_of_lt (h : w.toNat < 2147483648) : WordSize.bits32.toInt w = w.toNat := by
  rw [WordSize.toInt, BitVec.toInt_eq_toNat_of_lt]
  · rfl
  · show 2 * w.toNat < 4294967296
    omega

theorem pick_bits32 (h : 2147483648 ≤ w.toNat) :
    pick .bits32 table w = if table.length ∣ 4294967296 - w.toNat then table[0]? else none := by
  have hlt := w.toNat_lt
  have hint : WordSize.bits32.toInt w = -((4294967296 - w.toNat : Nat) : Int) := by
    have hlarge : ¬ 2 * w.toBitVec.toNat < 4294967296 := by
      show ¬ 2 * w.toNat < 4294967296
      omega
    rw [WordSize.toInt, BitVec.toInt_eq_toNat_cond, if_neg hlarge]
    show (w.toNat : Int) - 4294967296 = _
    omega
  rw [pick, hint, Int.neg_tmod, ← Int.ofNat_tmod]
  split_ifs with hdvd
  · rw [Nat.mod_eq_zero_of_dvd hdvd]
    rfl
  · have hpos : 0 < (4294967296 - w.toNat) % table.length :=
      Nat.pos_of_ne_zero fun hzero => hdvd (Nat.dvd_of_mod_eq_zero hzero)
    obtain ⟨k, hk⟩ := Nat.exists_eq_add_of_lt hpos
    rw [Nat.zero_add] at hk
    rw [hk]
    rfl

theorem agree_sizes_iff {select : WordSize → Option α} :
    Agree select ↔ (select .bits32).isSome = true ∧ select .bits32 = select .bits64 := by
  refine ⟨fun h => ⟨h.1 .bits32, h.2⟩, fun ⟨hsome, heq⟩ => ⟨fun size => ?_, heq⟩⟩
  cases size with
  | bits32 => exact hsome
  | bits64 => exact heq ▸ hsome

theorem agree_pick_iff (hne : table ≠ []) : Agree (pick · table w) ↔ w.toNat < 2147483648 ∨
    (table.length ∣ 4294967296 - w.toNat ∧ table[0]? = table[w.toNat % table.length]?) := by
  have hpos := List.length_pos_iff.mpr hne
  rw [agree_sizes_iff, pick_bits64]
  rcases Nat.lt_or_ge w.toNat 2147483648 with hlt | hge
  · rw [pick_of_nonneg (toInt_of_lt hlt)]
    simp [hlt, Nat.mod_lt _ hpos]
  · rw [pick_bits32 hge]
    split_ifs with hdvd
    · simp [hdvd, hpos, Nat.not_lt.mpr hge]
    · simp [hdvd, Nat.not_lt.mpr hge]

end

theorem agree_selectCodec_iff (seed : Bytes) : Agree (selectCodec · seed) ↔ seed.length < 4 ∨
    (uint32 (seed.take 4)).toNat < 2147483648 ∨ 4 ∣ (uint32 (seed.take 4)).toNat := by
  by_cases hshort : seed.length < 4
  · simp [selectCodec, hshort, Agree, mediaCodecs]
  · simp only [selectCodec, hshort, if_false, false_or]
    generalize uint32 (seed.take 4) = w
    have hw := w.toNat_lt
    have hmod : 4 ∣ 4294967296 - w.toNat ↔ 4 ∣ w.toNat := by omega
    rw [agree_pick_iff (by decide), show mediaCodecs.length = 4 from rfl, hmod]
    refine or_congr_right ⟨fun h => h.1, fun hdvd => ⟨hdvd, ?_⟩⟩
    rw [Nat.mod_eq_zero_of_dvd hdvd]

theorem agree_selectFrameRate_iff (seed : Bytes) : Agree (selectFrameRate · seed) ↔
    seed.length < 8 ∨ (uint32 ((seed.drop 4).take 4)).toNat < 2147483648 := by
  by_cases hshort : seed.length < 8
  · simp [selectFrameRate, hshort, Agree]
  · simp only [selectFrameRate, hshort, if_false, false_or]
    generalize uint32 ((seed.drop 4).take 4) = w
    have hw := w.toNat_lt
    rw [agree_pick_iff (by decide), show frameRates.length = 3 from rfl, or_iff_left_iff_imp]
    rintro ⟨hdvd, heq⟩
    -- the remainders are 0 and 1
    rw [show w.toNat % 3 = 1 by omega] at heq
    cases heq

/-- **When both platforms select the same**: the first word of the seed is below `2 ^ 31` or a
multiple of 4, and the second one is below `2 ^ 31`. -/
theorem selection_iff (seed : Bytes) :
    (Agree (selectCodec · seed) ∧ Agree (selectFrameRate · seed)) ↔
      (seed.length < 4 ∨ (uint32 (seed.take 4)).toNat < 2147483648 ∨
          4 ∣ (uint32 (seed.take 4)).toNat) ∧
        (seed.length < 8 ∨ (uint32 ((seed.drop 4).take 4)).toNat < 2147483648) :=
  and_congr (agree_selectCodec_iff seed) (agree_selectFrameRate_iff seed)

/-- A seed with which a platform of 32 bits has no codec, and another frame rate. -/
theorem highWords_disagree :
    selectCodec .bits32 [0x80, 0, 0, 1, 0x80, 0, 0, 2] = none ∧
      selectCodec .bits64 [0x80, 0, 0, 1, 0x80, 0, 0, 2] = some ⟨"VP8", 97, 90000⟩ ∧
      selectFrameRate .bits32 [0x80, 0, 0, 1, 0x80, 0, 0, 2] = some 25 ∧
      selectFrameRate .bits64 [0x80, 0, 0, 1, 0x80, 0, 0, 2] = some 30 := by
  decide +kernel

end NatProxy.WebRTC.MediaCodec
