import Mathlib.Data.List.DropRight
import Mathlib.Data.List.TakeWhile

/-!
# Texts

Removing the characters of a class from both ends of a text, finding a text in another, cutting a
text at a character, hexadecimal digits, and the bytes of a text in UTF-8, as numbers or as the
characters with these numbers.
-/

namespace NatProxy.Lib.Text

open List

/-- The characters with the property `White_Space`. -/
def isSpace (c : Char) : Bool :=
  ('\t' ≤ c && c ≤ '\r') || c == ' ' || c == '\u0085' || c == '\u00a0' || c == '\u1680' ||
    ('\u2000' ≤ c && c ≤ '\u200a') || c == '\u2028' || c == '\u2029' || c == '\u202f' ||
    c == '\u205f' || c == '\u3000'

/-- What Dart trims: also the byte order mark. -/
def isDartSpace (c : Char) : Bool := isSpace c || c == '\ufeff'

section Trim

variable (p : Char → Bool)

def trim (cs : List Char) : List Char := (cs.dropWhile p).rdropWhile p

variable {p}

theorem trim_eq_self {cs : List Char} (h : ∀ c ∈ cs, p c = false) : trim p cs = cs := by
  have hfront : cs.dropWhile p = cs := by
    cases cs with
    | nil => rfl
    | cons c cs => rw [dropWhile_cons_of_neg (by simp [h c])]
  rw [trim, hfront, rdropWhile_eq_self_iff]
  intro hne
  simp [h _ (getLast_mem hne)]

theorem dropWhile_append_cons {c : Char} (hc : p c = false) (front rest : List Char) :
    (front ++ c :: rest).dropWhile p = front.dropWhile p ++ c :: rest := by
  rw [dropWhile_append, dropWhile_cons_of_neg (by simp [hc])]
  split_ifs with hempty
  · rw [List.isEmpty_iff.mp hempty, nil_append]
  · rfl

theorem trim_append {c d : Char} (hc : p c = false) (hd : p d = false) (front middle : List Char) :
    trim p (front ++ c :: middle ++ [d]) = front.dropWhile p ++ c :: middle ++ [d] := by
  rw [trim, append_assoc, cons_append, dropWhile_append_cons hc, ← cons_append,
    ← append_assoc, rdropWhile_concat_neg _ _ _ (by simp [hd])]

theorem forall_mem_eq_false {cs : List Char} (h : cs.any p = false) : ∀ c ∈ cs, p c = false := by
  intro c hc
  rw [← Bool.not_eq_true]
  exact any_eq_false.mp h c hc

end Trim

variable {cs : List Char}

theorem forall_mem_of_all {p : Char → Prop} [DecidablePred p]
    (h : (cs.all fun c => decide (p c)) = true) : ∀ c ∈ cs, p c := by
  intro c hc
  exact of_decide_eq_true (all_eq_true.mp h c hc)

def trimSpace (cs : List Char) : List Char := trim isSpace cs

def contains (text : List Char) : List Char → Bool
  | [] => text.isEmpty
  | c :: cs => text.isPrefixOf (c :: cs) || contains text cs

variable {text : List Char}

/-- What comes before the first `sep`, and what comes after it if there is one. -/
def cut (sep : Char) (cs : List Char) : List Char × Option (List Char) :=
  match cs.dropWhile (· != sep) with
  | [] => (cs, none)
  | _ :: after => (cs.takeWhile (· != sep), some after)

variable {sep : Char}

theorem cut_of_notMem (h : sep ∉ cs) : cut sep cs = (cs, none) := by
  have hdrop : cs.dropWhile (· != sep) = [] := by
    rw [dropWhile_eq_nil_iff]
    intro c hc
    rw [bne_iff_ne]
    rintro rfl
    exact h hc
  rw [cut, hdrop]

theorem cut_append {before : List Char} (h : sep ∉ before) (after : List Char) :
    cut sep (before ++ sep :: after) = (before, some after) := by
  have hne : ∀ c ∈ before, (c != sep) = true := by
    intro c hc
    rw [bne_iff_ne]
    rintro rfl
    exact h hc
  rw [cut, dropWhile_append_of_pos hne, dropWhile_cons_of_neg (by simp),
    takeWhile_append_of_pos hne, takeWhile_cons_of_neg (by simp), append_nil]

/-- A text after its separator, if there is one. -/
def delimited (sep : Char) : Option (List Char) → List Char
  | none => []
  | some text => sep :: text

theorem cut_delimited {before : List Char} (h : sep ∉ before)
    (after : Option (List Char)) : cut sep (before ++ delimited sep after) = (before, after) := by
  cases after with
  | none => rw [delimited, append_nil, cut_of_notMem h]
  | some text => rw [delimited, cut_append h]

theorem cut_split (sep : Char) (cs : List Char) :
    cs = (cut sep cs).1 ++ delimited sep (cut sep cs).2 ∧ sep ∉ (cut sep cs).1 := by
  by_cases h : sep ∈ cs
  · obtain ⟨before, after, hsplit, hnot⟩ := eq_append_cons_of_mem h
    rw [hsplit, cut_append hnot]
    exact ⟨rfl, hnot⟩
  · rw [cut_of_notMem h]
    exact ⟨(append_nil cs).symm, h⟩

def cutLast (sep : Char) (cs : List Char) : Option (List Char × List Char) :=
  match cut sep cs.reverse with
  | (after, some before) => some (before.reverse, after.reverse)
  | (_, none) => none

theorem cutLast_of_notMem (h : sep ∉ cs) : cutLast sep cs = none := by
  rw [cutLast, cut_of_notMem (by simpa using h)]

theorem exists_last_of_mem (h : sep ∈ cs) :
    ∃ before after, cs = before ++ sep :: after ∧ sep ∉ after := by
  obtain ⟨after, before, hsplit, hnot⟩ := eq_append_cons_of_mem (mem_reverse.mpr h)
  refine ⟨before.reverse, after.reverse, ?_, by simpa using hnot⟩
  rw [← reverse_reverse cs, hsplit]
  simp

theorem cutLast_append (sep : Char) (before : List Char) {after : List Char} (h : sep ∉ after) :
    cutLast sep (before ++ sep :: after) = some (before, after) := by
  have hreverse : (before ++ sep :: after).reverse = after.reverse ++ sep :: before.reverse := by
    simp
  rw [cutLast, hreverse, cut_append (by simpa using h)]
  simp

theorem mem_intercalate {α : Type} {x sep : α} {ls : List (List α)}
    (h : x ∈ [sep].intercalate ls) : x = sep ∨ ∃ l ∈ ls, x ∈ l := by
  induction ls with
  | nil => simp at h
  | cons l ls ih =>
    by_cases hls : ls = []
    · subst hls
      rw [intercalate_singleton] at h
      exact .inr ⟨l, by simp, h⟩
    · rw [intercalate_cons_of_ne_nil hls] at h
      simp only [mem_append, mem_singleton] at h
      rcases h with (h | h) | h
      · exact .inr ⟨l, mem_cons_self, h⟩
      · exact .inl h
      · rcases ih h with h | ⟨m, hm, hx⟩
        · exact .inl h
        · exact .inr ⟨m, mem_cons_of_mem l hm, hx⟩

theorem mem_intercalate_of_mem {α : Type} {x : α} (sep : α) {ls : List (List α)} {l : List α}
    (hl : l ∈ ls) (hx : x ∈ l) : x ∈ [sep].intercalate ls := by
  induction ls with
  | nil => cases hl
  | cons m ls ih =>
    by_cases hls : ls = []
    · subst hls
      rw [intercalate_singleton]
      rw [mem_singleton] at hl
      rwa [← hl]
    · rw [intercalate_cons_of_ne_nil hls]
      simp only [mem_append]
      rcases mem_cons.mp hl with rfl | hl
      · exact .inl (.inl hx)
      · exact .inr (ih hl)

/-! ## Letters and hexadecimal digits -/

variable {c : Char}

theorem eq_of_toLower {x : Char} (hc : c.isAlpha = false) (h : x.toLower = c) : x = c := by
  unfold Char.toLower at h
  split at h
  · rename_i hx
    subst h
    unfold Char.isAlpha Char.isUpper Char.isLower at hc
    simp only [Bool.or_eq_false_iff, Bool.and_eq_false_iff, decide_eq_false_iff_not,
      UInt32.le_iff_toNat_le, ge_iff_le, UInt32.toNat_add] at hc hx
    have hA : 'A'.val.toNat = 65 := rfl
    have hZ : 'Z'.val.toNat = 90 := rfl
    have ha : 'a'.val.toNat = 97 := rfl
    have hz : 'z'.val.toNat = 122 := rfl
    have hd : ('a'.val - 'A'.val).toNat = 32 := rfl
    omega
  · exact h

theorem toNat_lt_of_isAlphanum (h : c.isAlphanum = true) : c.toNat < 128 := by
  unfold Char.isAlphanum Char.isAlpha Char.isUpper Char.isLower Char.isDigit at h
  simp only [Bool.or_eq_true, Bool.and_eq_true, decide_eq_true_eq, UInt32.le_iff_toNat_le,
    ge_iff_le] at h
  have hc : c.toNat = c.val.toNat := rfl
  have hZ : 'Z'.val.toNat = 90 := rfl
  have hz : 'z'.val.toNat = 122 := rfl
  have h9 : '9'.val.toNat = 57 := rfl
  omega

def upperHex (n : Nat) : Char := "0123456789ABCDEF".toList.getD n '0'

def hexValue (c : Char) : Option Nat := "0123456789abcdef".toList.idxOf? c.toLower

theorem hexValue_upperHex : ∀ n < 16, hexValue (upperHex n) = some n := by decide

theorem isAlphanum_upperHex (n : Nat) : (upperHex n).isAlphanum = true := by
  have hsmall : ∀ m < 16, (upperHex m).isAlphanum = true := by decide
  by_cases hn : n < 16
  · exact hsmall n hn
  · have hout : "0123456789ABCDEF".toList[n]? = none := getElem?_eq_none (Nat.le_of_not_lt hn)
    rw [upperHex, getD_eq_getElem?_getD, hout]
    rfl

variable {n : Nat}

theorem hexValue_lt (h : hexValue c = some n) : n < 16 := by
  rw [hexValue, idxOf?_eq_some_iff] at h
  obtain ⟨hn, -⟩ := h
  exact hn

theorem toNat_lt_of_hexValue (h : hexValue c = some n) : c.toNat < 128 := by
  -- the lower case of a hexadecimal digit is one of sixteen characters
  by_contra hlarge
  have hlower : c.toLower = c := by
    refine dif_neg ?_
    intro hupper
    have hZ : 'Z'.val.toNat = 90 := rfl
    have hc : c.toNat = c.val.toNat := rfl
    have hle := UInt32.le_iff_toNat_le.mp hupper.2
    omega
  have hdigits : ∀ d ∈ "0123456789abcdef".toList, d.toNat < 128 := by simp
  have hsome : (hexValue c).isSome = true := by rw [h]; rfl
  rw [hexValue, isSome_idxOf?, hlower] at hsome
  exact hlarge (hdigits c hsome)

/-! ## Bytes -/

def utf8Encode (cs : List Char) : List UInt8 := cs.flatMap String.utf8EncodeChar

def utf8Decode (bytes : List UInt8) : Option (List Char) :=
  bytes.toByteArray.utf8Decode?.map Array.toList

theorem utf8Decode_utf8Encode (cs : List Char) : utf8Decode (utf8Encode cs) = some cs := by
  have hcore : (utf8Encode cs).toByteArray = cs.utf8Encode := rfl
  rw [utf8Decode, hcore, utf8Decode?_utf8Encode]
  rfl

theorem utf8Encode_append (a b : List Char) : utf8Encode (a ++ b) = utf8Encode a ++ utf8Encode b :=
  flatMap_append

theorem utf8Encode_flatten (texts : List (List Char)) :
    utf8Encode texts.flatten = (texts.map utf8Encode).flatten := by
  induction texts with
  | nil => rfl
  | cons text texts ih => rw [flatten_cons, utf8Encode_append, ih, map_cons,
      flatten_cons]

variable {a b : List Char}

theorem utf8Encode_inj (h : utf8Encode a = utf8Encode b) : a = b := by
  have hdecode := congrArg utf8Decode h
  rw [utf8Decode_utf8Encode, utf8Decode_utf8Encode] at hdecode
  exact Option.some.inj hdecode

theorem eq_utf8Encode_of_utf8Decode {bytes : List UInt8} (h : utf8Decode bytes = some cs) :
    ∃ cs', bytes = utf8Encode cs' := by
  obtain ⟨chars, hchars, -⟩ := Option.map_eq_some_iff.mp h
  have hvalid := ByteArray.isSome_utf8Decode?_iff.mp (Option.isSome_of_eq_some hchars)
  obtain ⟨m, hm⟩ := hvalid
  exact ⟨m, toByteArray_inj.mp hm⟩

theorem last_utf8EncodeChar (c : Char) :
    ∃ b, (String.utf8EncodeChar c).getLast? = some b ∧ b.toNat < 0xc0 := by
  rw [String.utf8EncodeChar]
  split_ifs with h1 h2 h3
  all_goals
    refine ⟨_, rfl, ?_⟩
    simp only [getLast, UInt8.toNat_ofNat']
    omega

theorem last_utf8Encode {b : UInt8} (h : (utf8Encode cs).getLast? = some b) : b.toNat < 0xc0 := by
  rcases eq_nil_or_concat cs with rfl | ⟨front, c, rfl⟩
  · cases h
  · obtain ⟨b', hb', hlt⟩ := last_utf8EncodeChar c
    have hlast : (utf8Encode (front ++ [c])).getLast? = some b' := by
      rw [utf8Encode_append, getLast?_append]
      simp [utf8Encode, hb']
    rw [concat_eq_append, hlast] at h
    cases h
    exact hlt

theorem first_utf8EncodeChar (c : Char) :
    ∃ b, (String.utf8EncodeChar c).head? = some b ∧ (b.toNat < 0x80 ∨ 0xc0 ≤ b.toNat) := by
  rw [String.utf8EncodeChar]
  split_ifs with h1 h2 h3
  all_goals
    refine ⟨_, rfl, ?_⟩
    rw [UInt8.toNat_ofNat']
    omega

theorem first_utf8Encode {b : UInt8} (h : (utf8Encode cs).head? = some b) :
    b.toNat < 0x80 ∨ 0xc0 ≤ b.toNat := by
  cases cs with
  | nil => cases h
  | cons c cs =>
    obtain ⟨b', hb', hlt⟩ := first_utf8EncodeChar c
    have hfirst : (utf8Encode (c :: cs)).head? = some b' := by
      rw [utf8Encode, flatMap_cons, head?_append, hb']
      rfl
    rw [hfirst] at h
    cases h
    exact hlt

theorem eq_of_take_utf8Encode (h : (utf8Encode (c :: cs)).take 3 = [0xef, 0xbb, 0xbf]) :
    c = '\ufeff' := by
  rw [utf8Encode, flatMap_cons, String.utf8EncodeChar] at h
  split_ifs at h with h1 h2 h3
  all_goals
    have hfirst : (UInt8.ofNat _).toNat = 0xef := congrArg UInt8.toNat (cons.inj h).1
    rw [UInt8.toNat_ofNat'] at hfirst
  · omega
  · omega
  · -- the three bytes hold all bits of the character
    obtain ⟨hsecond, hrest⟩ := cons.inj (cons.inj h).2
    have hsecond' : (UInt8.ofNat _).toNat = 0xbb := congrArg UInt8.toNat hsecond
    have hthird : (UInt8.ofNat _).toNat = 0xbf := congrArg UInt8.toNat (cons.inj hrest).1
    rw [UInt8.toNat_ofNat'] at hsecond' hthird
    have hval : c.val.toNat = 0xfeff := by omega
    exact Char.ext (UInt32.toNat_inj.mp hval)
  · omega

/-- A string of bytes, where each byte is the character with its number. -/
def byteChars (cs : List Char) : List Char :=
  (utf8Encode cs).map fun b => Char.ofNat b.toNat

theorem byteChars_append (a b : List Char) : byteChars (a ++ b) = byteChars a ++ byteChars b := by
  simp [byteChars, utf8Encode]

theorem utf8EncodeChar_ascii (h : c.toNat < 128) :
    String.utf8EncodeChar c = [UInt8.ofNat c.toNat] := by
  have hv : c.val.toNat ≤ 127 := by
    have : c.val.toNat = c.toNat := rfl
    omega
  simp only [String.utf8EncodeChar, hv, if_true]
  rfl

theorem byteChars_singleton (h : c.toNat < 128) : byteChars [c] = [c] := by
  have hbyte : (UInt8.ofNat c.toNat).toNat = c.toNat := by
    rw [UInt8.toNat_ofNat']
    omega
  simp [byteChars, utf8Encode, utf8EncodeChar_ascii h, hbyte]

theorem head?_byteChars (h : c.toNat < 128) (cs : List Char) :
    (byteChars (c :: cs)).head? = some c := by
  rw [← singleton_append, byteChars_append, byteChars_singleton h]
  rfl

theorem toNat_byteChar (b : UInt8) : (Char.ofNat b.toNat).toNat = b.toNat := by
  have hvalid : b.toNat.isValidChar := by
    have hb := b.toNat_lt
    left
    omega
  rw [Char.ofNat, dif_pos hvalid]
  rfl

theorem toNat_ofNat (h : n < 256) : (Char.ofNat n).toNat = n := by
  have hbyte := toNat_byteChar (UInt8.ofNat n)
  simpa [Nat.mod_eq_of_lt h] using hbyte

theorem toNat_lt_of_mem_byteChars (h : c ∈ byteChars cs) : c.toNat < 256 := by
  obtain ⟨b, -, rfl⟩ := mem_map.mp h
  rw [toNat_byteChar]
  exact b.toNat_lt

/-- `utf8.DecodeRune`: the character, or U+FFFD, and how many further bytes it has. -/
def decodeRune (first : UInt8) (rest : List UInt8) : Char × Nat :=
  let bad := ('\ufffd', 0)
  let within (low high : Nat) (b : UInt8) : Bool := low ≤ b.toNat && b.toNat ≤ high
  let low6 (b : UInt8) : Nat := b.toNat % 64
  let x := first.toNat
  if x < 0x80 then (Char.ofNat x, 0)
  else if 0xc2 ≤ x ∧ x ≤ 0xdf then
    match rest with
    | b :: _ => if within 0x80 0xbf b then (Char.ofNat (x % 32 * 64 + low6 b), 1) else bad
    | [] => bad
  else if 0xe0 ≤ x ∧ x ≤ 0xef then
    match rest with
    | b :: c :: _ =>
      -- no overlong forms and no surrogates
      if within (if x = 0xe0 then 0xa0 else 0x80) (if x = 0xed then 0x9f else 0xbf) b &&
          within 0x80 0xbf c then
        (Char.ofNat ((x % 16 * 64 + low6 b) * 64 + low6 c), 2)
      else bad
    | _ => bad
  else if 0xf0 ≤ x ∧ x ≤ 0xf4 then
    match rest with
    | b :: c :: d :: _ =>
      if within (if x = 0xf0 then 0x90 else 0x80) (if x = 0xf4 then 0x8f else 0xbf) b &&
          within 0x80 0xbf c && within 0x80 0xbf d then
        (Char.ofNat (((x % 8 * 64 + low6 b) * 64 + low6 c) * 64 + low6 d), 3)
      else bad
    | _ => bad
  else bad

/-- The characters of a Go string, of which the first `skip` bytes have been read. -/
def runesFrom : (skip : Nat) → List UInt8 → List Char
  | _, [] => []
  | skip + 1, _ :: bs => runesFrom skip bs
  | 0, b :: bs => (decodeRune b bs).1 :: runesFrom (decodeRune b bs).2 bs

def runes (bytes : List UInt8) : List Char := runesFrom 0 bytes

/-- An ASCII byte does not go on with a character. -/
theorem decodeRune_append {c : UInt8} (hc : c.toNat < 0x80) (first : UInt8) (a b : List UInt8) :
    decodeRune first (a ++ c :: b) = decodeRune first a ∧ (decodeRune first a).2 ≤ a.length := by
  unfold decodeRune
  match a with
  | [] => grind
  | [a₁] => grind
  | [a₁, a₂] => grind
  | a₁ :: a₂ :: a₃ :: a => grind

theorem runesFrom_append {c : UInt8} (hc : c.toNat < 0x80) (a b : List UInt8) :
    ∀ skip ≤ a.length, runesFrom skip (a ++ c :: b) =
      runesFrom skip a ++ Char.ofNat c.toNat :: runes b := by
  induction a with
  | nil =>
    intro skip hskip
    obtain rfl := Nat.le_zero.mp hskip
    have hdecode : decodeRune c b = (Char.ofNat c.toNat, 0) := if_pos hc
    show (decodeRune c b).1 :: runesFrom (decodeRune c b).2 b = _
    rw [hdecode]
    rfl
  | cons x a ih =>
    intro skip hskip
    cases skip with
    | succ skip => exact ih skip (Nat.le_of_succ_le_succ hskip)
    | zero =>
      obtain ⟨hdecode, hlen⟩ := decodeRune_append hc x a b
      rw [cons_append, runesFrom, hdecode, ih _ hlen]
      rfl

theorem runes_append {c : UInt8} (hc : c.toNat < 0x80) (a b : List UInt8) :
    runes (a ++ c :: b) = runes a ++ Char.ofNat c.toNat :: runes b :=
  runesFrom_append hc a b 0 (Nat.zero_le _)

end NatProxy.Lib.Text
