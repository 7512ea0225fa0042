import Mathlib.Data.List.Basic

/-!
# Base64

Encoding of bytes by groups of three into four characters of an alphabet, with or without padding,
and decoding. An `Alphabet` carries the characters, the way back, and the proof that one undoes the
other, so that the round trip (`decode_encode`) is proved once for all of them. Decoding does not
look at the bits that a short last group leaves over, and `decodeLines` not at line breaks.
-/

namespace NatProxy.Lib.Base64

open List

/-- The characters of the numbers below 64; the padding character and the line breaks are none of
them. -/
structure Alphabet where
  char : Nat → Char
  index : Char → Option Nat
  index_char : ∀ i < 64, index (char i) = some i
  index_pad : index '=' = none
  index_cr : index '\r' = none
  index_lf : index '\n' = none

namespace Alphabet

variable (α : Alphabet)

theorem char_ne {c : Char} (hc : α.index c = none) {i : Nat} (hi : i < 64) : α.char i ≠ c := by
  intro h
  have hindex := α.index_char i hi
  rw [h, hc] at hindex
  cases hindex

theorem char_ne_pad {i : Nat} (hi : i < 64) : α.char i ≠ '=' := α.char_ne α.index_pad hi

end Alphabet

def letters : List Char :=
  "ABCDEFGHIJKLMNOPQRSTUVWXYZabcdefghijklmnopqrstuvwxyz0123456789".toList

theorem isAlphanum_of_mem_letters : ∀ c ∈ letters, c.isAlphanum = true :=
  all_eq_true.mp (by decide)

theorem idxOf?_letters {c : Char} (hc : c.isAlphanum = false) {added : List Char}
    (hadded : c ∉ added) : (letters ++ added).idxOf? c = none := by
  have hletters : c ∉ letters := by
    intro hmem
    rw [isAlphanum_of_mem_letters c hmem] at hc
    cases hc
  rw [idxOf?_eq_none_iff]
  exact not_mem_append hletters hadded

def std : Alphabet where
  char i := (letters ++ ['+', '/']).getD i 'A'
  index c := (letters ++ ['+', '/']).idxOf? c
  index_char := by decide +kernel
  index_pad := idxOf?_letters (by decide) (by decide)
  index_cr := idxOf?_letters (by decide) (by decide)
  index_lf := idxOf?_letters (by decide) (by decide)

def url : Alphabet where
  char i := (letters ++ ['-', '_']).getD i 'A'
  index c := (letters ++ ['-', '_']).idxOf? c
  index_char := by decide +kernel
  index_pad := idxOf?_letters (by decide) (by decide)
  index_cr := idxOf?_letters (by decide) (by decide)
  index_lf := idxOf?_letters (by decide) (by decide)

/-- The alphabet with `+` and `/`, that reads the characters of the other one too. -/
def either : Alphabet where
  char := std.char
  index c := (std.index c).or (url.index c)
  index_char := by
    intro i hi
    rw [std.index_char i hi]
    rfl
  index_pad := by rw [std.index_pad, url.index_pad]; rfl
  index_cr := by rw [std.index_cr, url.index_cr]; rfl
  index_lf := by rw [std.index_lf, url.index_lf]; rfl

/-! ## Groups -/

section Groups

variable (α : Alphabet) (padded : Bool)

def pad (n : Nat) : List Char := if padded then replicate n '=' else []

def encode : List UInt8 → List Char
  | [] => []
  | [a] => α.char (a.toNat / 4) :: α.char (a.toNat % 4 * 16) :: pad padded 2
  | [a, b] =>
    α.char (a.toNat / 4) :: α.char (a.toNat % 4 * 16 + b.toNat / 16) ::
      α.char (b.toNat % 16 * 4) :: pad padded 1
  | a :: b :: c :: rest =>
    α.char (a.toNat / 4) :: α.char (a.toNat % 4 * 16 + b.toNat / 16) ::
      α.char (b.toNat % 16 * 4 + c.toNat / 64) :: α.char (c.toNat % 64) :: encode rest

def decode1 (c d : Char) : Option (List UInt8) :=
  match α.index c, α.index d with
  | some x, some y => some [UInt8.ofNat (x * 4 + y / 16)]
  | _, _ => none

def decode2 (c d e : Char) : Option (List UInt8) :=
  match α.index c, α.index d, α.index e with
  | some x, some y, some z =>
    some [UInt8.ofNat (x * 4 + y / 16), UInt8.ofNat (y % 16 * 16 + z / 4)]
  | _, _, _ => none

def decode3 (c d e f : Char) : Option (List UInt8) :=
  match α.index c, α.index d, α.index e, α.index f with
  | some x, some y, some z, some w =>
    some [UInt8.ofNat (x * 4 + y / 16), UInt8.ofNat (y % 16 * 16 + z / 4),
      UInt8.ofNat (z % 4 * 64 + w)]
  | _, _, _, _ => none

def decode : List Char → Option (List UInt8)
  | [] => some []
  | [_] => none
  | [c, d] => if padded then none else decode1 α c d
  | [c, d, e] => if padded then none else decode2 α c d e
  | c :: d :: e :: f :: rest =>
    if padded = true ∧ rest = [] ∧ f = '=' then
      if e = '=' then decode1 α c d else decode2 α c d e
    else
      match decode3 α c d e f, decode rest with
      | some group, some bytes => some (group ++ bytes)
      | _, _ => none

def decodeLines (cs : List Char) : Option (List UInt8) :=
  decode α padded (cs.filter fun c => !(c == '\r' || c == '\n'))

end Groups

theorem encode_congr {α β : Alphabet} (h : α.char = β.char) (padded : Bool) (bytes : List UInt8) :
    encode α padded bytes = encode β padded bytes := by
  induction bytes using encode.induct with
  | case1 => rfl
  | case2 a | case3 a b => rw [encode, encode, h]
  | case4 a b c rest ih => rw [encode, encode, h, ih]

/-! ## The round trip -/

section RoundTrip

variable {α : Alphabet} {padded : Bool}

theorem decode1_encode (a : UInt8) :
    decode1 α (α.char (a.toNat / 4)) (α.char (a.toNat % 4 * 16)) = some [a] := by
  have ha := a.toNat_lt
  rw [decode1, α.index_char _ (by omega), α.index_char _ (by omega)]
  have h1 : a.toNat / 4 * 4 + a.toNat % 4 * 16 / 16 = a.toNat := by omega
  simp only [h1, UInt8.ofNat_toNat]

theorem decode2_encode (a b : UInt8) :
    decode2 α (α.char (a.toNat / 4)) (α.char (a.toNat % 4 * 16 + b.toNat / 16))
      (α.char (b.toNat % 16 * 4)) = some [a, b] := by
  have ha := a.toNat_lt
  have hb := b.toNat_lt
  rw [decode2, α.index_char _ (by omega), α.index_char _ (by omega), α.index_char _ (by omega)]
  have h1 : a.toNat / 4 * 4 + (a.toNat % 4 * 16 + b.toNat / 16) / 16 = a.toNat := by omega
  have h2 : (a.toNat % 4 * 16 + b.toNat / 16) % 16 * 16 + b.toNat % 16 * 4 / 4 = b.toNat := by
    omega
  simp only [h1, h2, UInt8.ofNat_toNat]

theorem decode3_encode (a b c : UInt8) :
    decode3 α (α.char (a.toNat / 4)) (α.char (a.toNat % 4 * 16 + b.toNat / 16))
      (α.char (b.toNat % 16 * 4 + c.toNat / 64)) (α.char (c.toNat % 64)) = some [a, b, c] := by
  have ha := a.toNat_lt
  have hb := b.toNat_lt
  have hc := c.toNat_lt
  rw [decode3, α.index_char _ (by omega), α.index_char _ (by omega), α.index_char _ (by omega),
    α.index_char _ (by omega)]
  have h1 : a.toNat / 4 * 4 + (a.toNat % 4 * 16 + b.toNat / 16) / 16 = a.toNat := by omega
  have h2 : (a.toNat % 4 * 16 + b.toNat / 16) % 16 * 16 +
      (b.toNat % 16 * 4 + c.toNat / 64) / 4 = b.toNat := by omega
  have h3 : (b.toNat % 16 * 4 + c.toNat / 64) % 4 * 64 + c.toNat % 64 = c.toNat := by omega
  simp only [h1, h2, h3, UInt8.ofNat_toNat]

/-- **Decoding undoes encoding.** -/
theorem decode_encode (bytes : List UInt8) :
    decode α padded (encode α padded bytes) = some bytes := by
  induction bytes using encode.induct with
  | case1 => rfl
  | case2 a =>
    cases padded with
    | true | false => simp [encode, pad, decode, decode1_encode]
  | case3 a b =>
    -- the third character is no padding
    have hne : α.char (b.toNat % 16 * 4) ≠ '=' := by
      have hb := b.toNat_lt
      exact α.char_ne_pad (by omega)
    cases padded with
    | true => simp [encode, pad, decode, decode2_encode, hne]
    | false => simp [encode, pad, decode, decode2_encode]
  | case4 a b c rest ih =>
    have hne : α.char (c.toNat % 64) ≠ '=' := α.char_ne_pad (Nat.mod_lt _ (by decide))
    simp [encode, decode, decode3_encode, hne, ih]

/-! ## Characters -/

theorem forall_mem_encode {P : Char → Prop} (hchar : ∀ i < 64, P (α.char i)) (hpad : P '=')
    (bytes : List UInt8) : ∀ c ∈ encode α padded bytes, P c := by
  have hpads : ∀ n, ∀ c ∈ pad padded n, P c := by
    intro n c hc
    rw [pad] at hc
    split_ifs at hc with hpadded
    · rw [eq_of_mem_replicate hc]
      exact hpad
    · exact absurd hc not_mem_nil
  induction bytes using encode.induct with
  | case1 => simp [encode]
  | case2 a =>
    have ha := a.toNat_lt
    simp only [encode, forall_mem_cons]
    exact ⟨hchar _ (by omega), hchar _ (by omega), hpads 2⟩
  | case3 a b =>
    have ha := a.toNat_lt
    have hb := b.toNat_lt
    simp only [encode, forall_mem_cons]
    exact ⟨hchar _ (by omega), hchar _ (by omega), hchar _ (by omega), hpads 1⟩
  | case4 a b c rest ih =>
    have ha := a.toNat_lt
    have hb := b.toNat_lt
    have hc := c.toNat_lt
    simp only [encode, forall_mem_cons]
    exact ⟨hchar _ (by omega), hchar _ (by omega), hchar _ (by omega), hchar _ (by omega), ih⟩

theorem decodeLines_encode (bytes : List UInt8) :
    decodeLines α padded (encode α padded bytes) = some bytes := by
  have hkept : (encode α padded bytes).filter (fun c => !(c == '\r' || c == '\n')) =
      encode α padded bytes := by
    rw [filter_eq_self]
    refine forall_mem_encode (fun i hi => ?_) (by decide) bytes
    have hcr := α.char_ne α.index_cr hi
    have hlf := α.char_ne α.index_lf hi
    simp [hcr, hlf]
  rw [decodeLines, hkept, decode_encode]

end RoundTrip

end NatProxy.Lib.Base64
