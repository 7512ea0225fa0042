import Mathlib.Data.List.Basic
import Mathlib.Data.Nat.Bits
import Mathlib.Logic.Function.Iterate

/-!
# Big-endian numbers in byte strings

`putUint16` writes a 16-bit number as two bytes, high byte first, and `getUint16` reads one back;
reading what was written gives the number (`getUint16_putUint16`). `UInt16.ofNat` is the conversion
of a length, which drops everything above the sixteen low bits.

`putNat` and `getNat` do the same for numbers of any width; `putUint64` and `getUint64` are their
use for eight bytes.
-/

namespace NatProxy.Lib

abbrev Bytes := List UInt8

def putUint16 (v : UInt16) : Bytes := [(v >>> 8).toUInt8, v.toUInt8]

def getUint16 (hi lo : UInt8) : UInt16 := (hi.toUInt16 <<< 8) ||| lo.toUInt16

theorem getUint16_toNat (hi lo : UInt8) :
    (getUint16 hi lo).toNat = hi.toNat * 256 + lo.toNat := by
  have hhi := hi.toNat_lt
  have hlo := lo.toNat_lt
  simp only [getUint16, UInt16.toNat_or, UInt16.toNat_shiftLeft, UInt8.toNat_toUInt16,
    UInt16.reduceToNat, Nat.reduceMod]
  rw [Nat.mod_eq_of_lt (by rw [Nat.shiftLeft_eq]; omega),
    ← Nat.shiftLeft_add_eq_or_of_lt (by omega), Nat.shiftLeft_eq]

/-- **Round trip of a 16-bit number.** -/
theorem getUint16_putUint16 (v : UInt16) :
    getUint16 (v >>> 8).toUInt8 v.toUInt8 = v := by
  have hv := v.toNat_lt
  apply UInt16.toNat.inj
  rw [getUint16_toNat, UInt16.toNat_toUInt8, UInt16.toNat_toUInt8, UInt16.toNat_shiftRight]
  simp only [UInt16.reduceToNat, Nat.reduceMod, Nat.shiftRight_eq_div_pow, Nat.reducePow]
  omega

theorem putUint16_getUint16 (hi lo : UInt8) : putUint16 (getUint16 hi lo) = [hi, lo] := by
  have hlo := lo.toNat_lt
  have hhi := hi.toNat_lt
  have hhigh : (getUint16 hi lo >>> 8).toUInt8 = hi := by
    apply UInt8.toNat.inj
    rw [UInt16.toNat_toUInt8, UInt16.toNat_shiftRight, getUint16_toNat]
    simp only [UInt16.reduceToNat, Nat.reduceMod, Nat.shiftRight_eq_div_pow, Nat.reducePow]
    omega
  have hlow : (getUint16 hi lo).toUInt8 = lo := by
    apply UInt8.toNat.inj
    rw [UInt16.toNat_toUInt8, getUint16_toNat]
    omega
  rw [putUint16, hhigh, hlow]

theorem ofNat_uint16_eq_iff (m n : Nat) :
    UInt16.ofNat m = UInt16.ofNat n ↔ m % 65536 = n % 65536 := by
  rw [← UInt16.toNat_inj, UInt16.toNat_ofNat', UInt16.toNat_ofNat']

/-! ## Any width -/

def putNat : Nat → Nat → Bytes
  | 0, _ => []
  | width + 1, v => putNat width (v / 256) ++ [UInt8.ofNat v]

def getNat (b : Bytes) : Nat := b.foldl (fun acc byte => acc * 256 + byte.toNat) 0

@[simp] theorem length_putNat (width v : Nat) : (putNat width v).length = width := by
  induction width generalizing v with
  | zero => rfl
  | succ width ih => rw [putNat, List.length_append, ih, List.length_singleton]

theorem getNat_putNat {width v : Nat} (h : (fun x => x / 256)^[width] v = 0) :
    getNat (putNat width v) = v := by
  induction width generalizing v with
  | zero => exact h.symm
  | succ width ih =>
    have htail : getNat (putNat width (v / 256)) = v / 256 := ih h
    have hbyte : (UInt8.ofNat v).toNat = v % 256 := UInt8.toNat_ofNat'
    rw [getNat] at htail
    rw [putNat, getNat, List.foldl_append, htail, List.foldl_cons, List.foldl_nil, hbyte]
    omega

theorem getNat_putUint16 (v : UInt16) : getNat (putUint16 v) = v.toNat := by
  have hvalue : getNat (putUint16 v) = (0 * 256 + (v >>> 8).toUInt8.toNat) * 256 +
      v.toUInt8.toNat := rfl
  rw [hvalue, Nat.zero_mul, Nat.zero_add, ← getUint16_toNat, getUint16_putUint16]

def putUint64 (v : UInt64) : Bytes := putNat 8 v.toNat

def getUint64 (b : Bytes) : UInt64 := UInt64.ofNat (getNat b)

/-- **Round trip of a 64-bit number.** -/
theorem getUint64_putUint64 (v : UInt64) : getUint64 (putUint64 v) = v := by
  have hv := v.toNat_lt
  have hwidth : (fun x => x / 256)^[8] v.toNat = 0 := by
    show v.toNat / 256 / 256 / 256 / 256 / 256 / 256 / 256 / 256 = 0
    omega
  rw [getUint64, putUint64, getNat_putNat hwidth]
  exact UInt64.ofNat_toNat

end NatProxy.Lib
