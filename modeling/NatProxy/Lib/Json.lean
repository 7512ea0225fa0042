import NatProxy.Lib.Text
import Mathlib.Data.List.Basic

/-!
# JSON texts

A reader for JSON texts, and a writer for objects whose members are scalars, in the manner of Go's
`encoding/json`: no blanks, and in strings the escapes that are safe inside HTML. A number is kept
as its literal, so that a reader may decide what to do with a fraction or an exponent.
-/

namespace NatProxy.Lib.Json

open List

/-! ## Values -/

inductive Scalar where
  | bool (b : Bool)
  | num (literal : List Char)
  | str (s : List Char)
deriving DecidableEq, Repr

inductive Value where
  | null
  | scalar (s : Scalar)
  | arr (items : List Value)
  | obj (members : List (List Char × Value))

/-! ## Writing -/

def hexDigit (n : Nat) : Char := "0123456789abcdef".toList.getD n '0'

def escapeChar (c : Char) : List Char :=
  if c = '"' then ['\\', '"']
  else if c = '\\' then ['\\', '\\']
  else if c = Char.ofNat 0x08 then ['\\', 'b']
  else if c = Char.ofNat 0x0c then ['\\', 'f']
  else if c = '\n' then ['\\', 'n']
  else if c = '\r' then ['\\', 'r']
  else if c = '\t' then ['\\', 't']
  else if c.toNat < 0x20 ∨ c = '<' ∨ c = '>' ∨ c = '&' then
    ['\\', 'u', '0', '0', hexDigit (c.toNat / 16), hexDigit (c.toNat % 16)]
  else if c = Char.ofNat 0x2028 then ['\\', 'u', '2', '0', '2', '8']
  else if c = Char.ofNat 0x2029 then ['\\', 'u', '2', '0', '2', '9']
  else [c]

def printString (s : List Char) : List Char := '"' :: s.flatMap escapeChar ++ ['"']

def printScalar : Scalar → List Char
  | .bool true => ['t', 'r', 'u', 'e']
  | .bool false => ['f', 'a', 'l', 's', 'e']
  | .num literal => literal
  | .str s => printString s

def printMember (m : List Char × Scalar) : List Char := printString m.1 ++ ':' :: printScalar m.2

def printObject (ms : List (List Char × Scalar)) : List Char :=
  '{' :: [','].intercalate (ms.map printMember) ++ ['}']

def printArray (texts : List (List Char)) : List Char := '[' :: [','].intercalate texts ++ [']']

def printInt : Int → List Char
  | .ofNat n => Nat.toDigits 10 n
  | .negSucc n => '-' :: Nat.toDigits 10 (n + 1)

/-! ## Reading -/

def isSpace (c : Char) : Bool := c = ' ' || c = '\n' || c = '\r' || c = '\t'

def skipSpace (cs : List Char) : List Char := cs.dropWhile isSpace

def hex4 (a b c d : Char) : Option Nat :=
  match Text.hexValue a, Text.hexValue b, Text.hexValue c, Text.hexValue d with
  | some x, some y, some z, some w => some (((x * 16 + y) * 16 + z) * 16 + w)
  | _, _, _, _ => none

def unescape (c : Char) : Option Char :=
  if c = '"' ∨ c = '\\' ∨ c = '/' then some c
  else if c = 'b' then some (Char.ofNat 0x08)
  else if c = 'f' then some (Char.ofNat 0x0c)
  else if c = 'n' then some '\n'
  else if c = 'r' then some '\r'
  else if c = 't' then some '\t'
  else none

def isSurrogate (n : Nat) : Bool := 0xd800 ≤ n && n < 0xe000

def isHighSurrogate (n : Nat) : Bool := 0xd800 ≤ n && n < 0xdc00

def isLowSurrogate (n : Nat) : Bool := 0xdc00 ≤ n && n < 0xe000

def surrogatePair (high low : Nat) : Char :=
  Char.ofNat ((high - 0xd800) * 0x400 + (low - 0xdc00) + 0x10000)

def replacement : Char := Char.ofNat 0xfffd

/-- A piece of a string: a character, or the number in an escape. -/
inductive Piece where
  | char (c : Char)
  | code (n : Nat)

def consPiece (p : Piece) : Option (List Piece × List Char) → Option (List Piece × List Char)
  | some (ps, rest) => some (p :: ps, rest)
  | none => none

/-- The pieces of a string after its opening quote, and what follows it. -/
def scanPieces : List Char → Option (List Piece × List Char)
  | [] => none
  | c :: cs =>
    if c = '"' then some ([], cs)
    else if c = '\\' then
      match cs with
      | 'u' :: a :: b :: c :: d :: cs =>
        match hex4 a b c d with
        | some n => consPiece (.code n) (scanPieces cs)
        | none => none
      | e :: cs =>
        match unescape e with
        | some c => consPiece (.char c) (scanPieces cs)
        | none => none
      | [] => none
    else if c.toNat < 0x20 then none
    else consPiece (.char c) (scanPieces cs)

/-- The characters after a high surrogate. One that is part of no pair is replaced. -/
def joinPieces : Option Nat → List Piece → List Char
  | none, [] => []
  | some _, [] => [replacement]
  | none, .char c :: ps => c :: joinPieces none ps
  | some _, .char c :: ps => replacement :: c :: joinPieces none ps
  | none, .code n :: ps =>
    if isHighSurrogate n then joinPieces (some n) ps
    else if isSurrogate n then replacement :: joinPieces none ps
    else Char.ofNat n :: joinPieces none ps
  | some high, .code n :: ps =>
    if isLowSurrogate n then surrogatePair high n :: joinPieces none ps
    else if isHighSurrogate n then replacement :: joinPieces (some n) ps
    else replacement :: Char.ofNat n :: joinPieces none ps

def scanString (cs : List Char) : Option (List Char × List Char) :=
  match scanPieces cs with
  | some (ps, rest) => some (joinPieces none ps, rest)
  | none => none

/-! ### Numbers -/

def isNumberChar (c : Char) : Bool :=
  c.isDigit || c = '-' || c = '+' || c = '.' || c = 'e' || c = 'E'

/-- Digits, at least one, to the end. -/
def isDigits (cs : List Char) : Bool := !cs.isEmpty && cs.all Char.isDigit

def isExponent : List Char → Bool
  | [] => true
  | c :: cs =>
    (c = 'e' || c = 'E') &&
      match cs with
      | '+' :: cs => isDigits cs
      | '-' :: cs => isDigits cs
      | cs => isDigits cs

def isFraction : List Char → Bool
  | '.' :: cs =>
    !(cs.takeWhile Char.isDigit).isEmpty && isExponent (cs.dropWhile Char.isDigit)
  | cs => isExponent cs

/-- A number without its sign: no other digit follows a leading zero. -/
def isUnsigned : List Char → Bool
  | [] => false
  | c :: cs =>
    if c = '0' then isFraction cs
    else c.isDigit && isFraction (cs.dropWhile Char.isDigit)

def isNumber : List Char → Bool
  | '-' :: cs => isUnsigned cs
  | cs => isUnsigned cs

def parseInt : List Char → Option Int
  | '-' :: cs => if isDigits cs then some (-(Nat.ofDigitChars 10 cs 0 : Nat)) else none
  | cs => if isDigits cs then some (Nat.ofDigitChars 10 cs 0 : Nat) else none

/-! ### Values -/

/-- The elements of an array or an object, at least one, up to the character `close`; the number
bounds them. -/
def parseElements {α : Type} (element : List Char → Option (α × List Char)) (close : Char) :
    Nat → List Char → Option (List α × List Char)
  | 0, _ => none
  | n + 1, cs =>
    match element cs with
    | none => none
    | some (a, rest) =>
      match skipSpace rest with
      | [] => none
      | c :: rest =>
        if c = ',' then
          (parseElements element close n rest).map fun (as, rest) => (a :: as, rest)
        else if c = close then some ([a], rest)
        else none

/-- What follows the bracket of an array or an object. -/
def parseGroup {α : Type} (element : List Char → Option (α × List Char)) (close : Char)
    (cs : List Char) : Option (List α × List Char) :=
  match skipSpace cs with
  | [] => none
  | c :: rest => if c = close then some ([], rest) else parseElements element close cs.length cs

def parseMember (value : List Char → Option (Value × List Char)) (cs : List Char) :
    Option ((List Char × Value) × List Char) :=
  match skipSpace cs with
  | '"' :: cs =>
    match scanString cs with
    | none => none
    | some (k, rest) =>
      match skipSpace rest with
      | ':' :: rest => (value rest).map fun (v, rest) => ((k, v), rest)
      | _ => none
  | _ => none

/-- A value that is no string, array or object. -/
def parseWord (cs : List Char) : Option (Value × List Char) :=
  if "null".toList.isPrefixOf cs then some (.null, cs.drop 4)
  else if "true".toList.isPrefixOf cs then some (.scalar (.bool true), cs.drop 4)
  else if "false".toList.isPrefixOf cs then some (.scalar (.bool false), cs.drop 5)
  else
    let literal := cs.takeWhile isNumberChar
    if isNumber literal then some (.scalar (.num literal), cs.dropWhile isNumberChar) else none

/-- A value of at most the given depth, and what follows it. -/
def parseValue : Nat → List Char → Option (Value × List Char)
  | 0, _ => none
  | n + 1, cs =>
    match skipSpace cs with
    | '"' :: cs => (scanString cs).map fun (s, rest) => (.scalar (.str s), rest)
    | '[' :: cs => (parseGroup (parseValue n) ']' cs).map fun (vs, rest) => (.arr vs, rest)
    | '{' :: cs =>
      (parseGroup (parseMember (parseValue n)) '}' cs).map fun (ms, rest) => (.obj ms, rest)
    | cs => parseWord cs

def parse (cs : List Char) : Option Value :=
  match parseValue cs.length cs with
  | some (v, rest) => if skipSpace rest = [] then some v else none
  | none => none

/-! ## The round trip of strings -/

theorem hexValue_hexDigit : ∀ n < 16, Text.hexValue (hexDigit n) = some n := by decide

variable {n : Nat}

theorem hex4_escape (hn : n < 256) :
    hex4 '0' '0' (hexDigit (n / 16)) (hexDigit (n % 16)) = some n := by
  have hzero : Text.hexValue '0' = some 0 := by decide
  rw [hex4, hzero, hexValue_hexDigit _ (by omega), hexValue_hexDigit _ (by omega)]
  simp only [Option.some.injEq]
  omega

theorem joinPieces_code (hn : n < 0xd800) (ps : List Piece) :
    joinPieces none (.code n :: ps) = Char.ofNat n :: joinPieces none ps := by
  have hhigh : isHighSurrogate n = false := by
    simp [isHighSurrogate]
    omega
  have hsurrogate : isSurrogate n = false := by
    simp [isSurrogate]
    omega
  simp [joinPieces, hhigh, hsurrogate]

theorem scanPieces_quote (cs : List Char) : scanPieces ('"' :: cs) = some ([], cs) := by
  rw [scanPieces.eq_def]
  simp

variable {c : Char}

theorem scanPieces_plain (hquote : c ≠ '"') (hback : c ≠ '\\') (hplain : ¬ c.toNat < 0x20)
    (cs : List Char) : scanPieces (c :: cs) = consPiece (.char c) (scanPieces cs) := by
  rw [scanPieces.eq_def]
  simp only [hquote, hback, hplain, if_false]

theorem scanPieces_unescape {e : Char} (he : e ≠ 'u') (hc : unescape e = some c)
    (cs : List Char) : scanPieces ('\\' :: e :: cs) = consPiece (.char c) (scanPieces cs) := by
  rw [scanPieces.eq_def]
  simp [he, hc]

theorem scanPieces_code {a b d : Char} (h : hex4 a b c d = some n) (cs : List Char) :
    scanPieces ('\\' :: 'u' :: a :: b :: c :: d :: cs) = consPiece (.code n) (scanPieces cs) := by
  rw [scanPieces.eq_def]
  simp [h]

theorem newline_of_hex4 {a b d : Char} (h : hex4 a b c d = some n) : '\n' ∉ [a, b, c, d] := by
  have hnone : Text.hexValue '\n' = none := by decide
  intro hmem
  simp only [mem_cons, not_mem_nil, or_false] at hmem
  unfold hex4 at h
  rcases hmem with rfl | rfl | rfl | rfl <;> simp [hnone] at h

/-- The text is on one line, and is read as the character. -/
structure Escaped (c : Char) (text : List Char) : Prop where
  newline : '\n' ∉ text
  scan : ∃ p, (∀ ps, joinPieces none (p :: ps) = c :: joinPieces none ps) ∧
    ∀ cs, scanPieces (text ++ cs) = consPiece p (scanPieces cs)

theorem escaped_code {a b d e : Char} (h : hex4 a b d e = some n) (hn : n < 0xd800)
    (hc : Char.ofNat n = c) : Escaped c ['\\', 'u', a, b, d, e] := by
  have hnew := newline_of_hex4 h
  refine ⟨by simpa using hnew, .code n, fun ps => ?_, scanPieces_code h⟩
  rw [joinPieces_code hn, hc]

theorem escaped_escapeChar (c : Char) : Escaped c (escapeChar c) := by
  have hletter {p : Prop} [Decidable p] {e : Char} {text : List Char} (he : e ≠ 'u' ∧ '\n' ≠ e)
      (hc : p → unescape e = some c) (htext : ¬ p → Escaped c text) :
      Escaped c (if p then ['\\', e] else text) := by
    refine iteInduction (fun hp => ⟨by simpa using he.2, .char c, fun _ => rfl, ?_⟩) htext
    exact scanPieces_unescape he.1 (hc hp)
  rw [escapeChar]
  -- one branch of the definition after the other
  refine hletter (by decide) (by rintro rfl; rfl) fun hquote => ?_
  refine hletter (by decide) (by rintro rfl; rfl) fun hback => ?_
  refine hletter (by decide) (by rintro rfl; rfl) fun _ => ?_
  refine hletter (by decide) (by rintro rfl; rfl) fun _ => ?_
  refine hletter (by decide) (by rintro rfl; rfl) fun _ => ?_
  refine hletter (by decide) (by rintro rfl; rfl) fun _ => ?_
  refine hletter (by decide) (by rintro rfl; rfl) fun _ => ?_
  refine iteInduction (fun hcode => ?_) fun hcode => ?_
  · have hlt : c.toNat < 256 := by
      rcases hcode with h | rfl | rfl | rfl
      · omega
      all_goals decide
    exact escaped_code (hex4_escape hlt) (by omega) (Char.ofNat_toNat c)
  refine iteInduction (fun h => escaped_code (by decide) (by decide) h.symm) fun _ => ?_
  refine iteInduction (fun h => escaped_code (by decide) (by decide) h.symm) fun _ => ?_
  have hplain : ¬ c.toNat < 0x20 := fun h => hcode (.inl h)
  refine ⟨?_, .char c, fun _ => rfl, scanPieces_plain hquote hback hplain⟩
  rw [mem_singleton]
  rintro rfl
  exact hplain (by decide)

theorem scanPieces_escape (s rest : List Char) :
    ∃ ps, joinPieces none ps = s ∧
      scanPieces (s.flatMap escapeChar ++ '"' :: rest) = some (ps, rest) := by
  induction s with
  | nil => exact ⟨[], rfl, scanPieces_quote rest⟩
  | cons c s ih =>
    obtain ⟨ps, hjoin, hscan⟩ := ih
    obtain ⟨p, hp, hescape⟩ := (escaped_escapeChar c).scan
    refine ⟨p :: ps, ?_, ?_⟩
    · rw [hp, hjoin]
    · rw [List.flatMap_cons, List.append_assoc, hescape, hscan]
      rfl

theorem scanString_escape (s rest : List Char) :
    scanString (s.flatMap escapeChar ++ '"' :: rest) = some (s, rest) := by
  obtain ⟨ps, hjoin, hscan⟩ := scanPieces_escape s rest
  simp only [scanString, hscan, hjoin]

/-! ## The round trip of numbers -/

theorem isDigits_toDigits (n : Nat) : isDigits (Nat.toDigits 10 n) = true := by
  rw [isDigits, Bool.and_eq_true, all_eq_true]
  constructor
  · simp [Nat.toDigits_ne_nil]
  · intro c hc
    exact Nat.isDigit_of_mem_toDigits (by decide) (by decide) hc

theorem toDigits_eq_cons (n : Nat) :
    Nat.toDigits 10 n = ['0'] ∨ ∃ c cs, Nat.toDigits 10 n = c :: cs ∧ c ≠ '0' := by
  induction n using Nat.base_induction 10 (by decide) with
  | single m hm =>
    grind [Nat.toDigits_of_lt_base, Nat.lt_of_succ_lt_succ]
  | digit m k hk hm ih =>
    rw [← Nat.toDigits_append_toDigits (by decide) hm hk]
    rcases ih with hzero | ⟨c, cs, hcons, hne⟩
    · -- the leading part is positive
      rw [← Nat.ofDigitChars_ten_toDigits (n := m), hzero] at hm
      exact absurd hm (by decide)
    · exact .inr ⟨c, cs ++ Nat.toDigits 10 k, by rw [hcons]; rfl, hne⟩

theorem isDigits_cons {cs : List Char} (h : isDigits (c :: cs) = true) :
    c.isDigit = true ∧ cs.all Char.isDigit = true := by
  simpa [isDigits] using h

theorem ne_minus_of_isDigit (h : c.isDigit = true) : c ≠ '-' := by
  rintro rfl
  exact absurd h (by decide)

theorem isUnsigned_toDigits (n : Nat) : isUnsigned (Nat.toDigits 10 n) = true := by
  have hdigits := isDigits_toDigits n
  rcases toDigits_eq_cons n with hzero | ⟨c, cs, hcons, hne⟩
  · rw [hzero]
    decide
  · rw [hcons] at hdigits ⊢
    obtain ⟨hc, hcs⟩ := isDigits_cons hdigits
    have hdrop : cs.dropWhile Char.isDigit = [] := by
      rw [dropWhile_eq_nil_iff]
      exact all_eq_true.mp hcs
    simp [isUnsigned, hne, hc, hdrop, isFraction, isExponent]

theorem isNumber_printInt (i : Int) : isNumber (printInt i) = true := by
  cases i with
  | negSucc n => exact isUnsigned_toDigits (n + 1)
  | ofNat n =>
    have hdigits := isDigits_toDigits n
    have hunsigned := isUnsigned_toDigits n
    rw [printInt]
    cases hcs : Nat.toDigits 10 n with
    | nil => exact absurd hcs Nat.toDigits_ne_nil
    | cons c cs =>
      rw [hcs] at hdigits hunsigned
      have hne := ne_minus_of_isDigit (isDigits_cons hdigits).1
      simpa [isNumber, hne] using hunsigned

theorem isNumberChar_printInt (i : Int) : ∀ c ∈ printInt i, isNumberChar c = true := by
  have hdigits (n : Nat) : ∀ c ∈ Nat.toDigits 10 n, isNumberChar c = true := by
    intro c hc
    simp [isNumberChar, Nat.isDigit_of_mem_toDigits (by decide) (by decide) hc]
  cases i with
  | ofNat n => exact hdigits n
  | negSucc n =>
    intro c hc
    rcases mem_cons.mp hc with rfl | hc
    · decide
    · exact hdigits (n + 1) c hc

theorem parseInt_printInt (i : Int) : parseInt (printInt i) = some i := by
  cases i with
  | negSucc n =>
    simp [printInt, parseInt, isDigits_toDigits, Int.negSucc_eq]
  | ofNat n =>
    have hdigits := isDigits_toDigits n
    have hvalue := Nat.ofDigitChars_ten_toDigits (n := n)
    rw [printInt]
    cases hcs : Nat.toDigits 10 n with
    | nil => exact absurd hcs Nat.toDigits_ne_nil
    | cons c cs =>
      rw [hcs] at hdigits hvalue
      have hne := ne_minus_of_isDigit (isDigits_cons hdigits).1
      simp [parseInt, hne, hdigits, hvalue]

/-! ## The round trip of objects -/

/-- A number is a literal that is one. -/
def Scalar.Wf : Scalar → Prop
  | .num literal => isNumber literal = true ∧ ∀ c ∈ literal, isNumberChar c = true
  | .bool _ | .str _ => True

theorem wf_printInt (i : Int) : (Scalar.num (printInt i)).Wf :=
  ⟨isNumber_printInt i, isNumberChar_printInt i⟩

theorem isNumber_cons {literal : List Char} (h : isNumber literal = true) :
    ∃ c cs, literal = c :: cs ∧ (c.isDigit = true ∨ c = '-') := by
  cases literal with
  | nil => exact absurd h (by decide)
  | cons c cs =>
    refine ⟨c, cs, rfl, ?_⟩
    by_cases hminus : c = '-'
    · exact .inr hminus
    · left
      have hunsigned : isUnsigned (c :: cs) = true := by simpa [isNumber, hminus] using h
      rw [isUnsigned] at hunsigned
      split_ifs at hunsigned with hzero
      · rw [hzero]
        decide
      · exact (Bool.and_eq_true _ _ ▸ hunsigned).1

theorem isSpace_of_isNumberChar (h : isNumberChar c = true) : isSpace c = false := by
  simp only [isSpace, Bool.or_eq_false_iff, decide_eq_false_iff_not]
  refine ⟨⟨⟨?_, ?_⟩, ?_⟩, ?_⟩ <;> rintro rfl <;> exact absurd h (by decide)

/-- Nothing that would go on with a number. -/
def Ends (cs : List Char) : Prop := ∀ c ∈ cs.head?, isNumberChar c = false

theorem ends_cons (h : isNumberChar c = false) (cs : List Char) : Ends (c :: cs) :=
  fun _ hc => Option.some.inj hc ▸ h

theorem parseWord_number {literal rest : List Char} (hwf : (Scalar.num literal).Wf)
    (hend : Ends rest) : parseWord (literal ++ rest) = some (.scalar (.num literal), rest) := by
  obtain ⟨hnumber, hchars⟩ := hwf
  have hrest : rest.takeWhile isNumberChar = [] ∧ rest.dropWhile isNumberChar = rest := by
    cases rest with
    | nil => exact ⟨rfl, rfl⟩
    | cons c rest => simp [hend c rfl]
  have htake : (literal ++ rest).takeWhile isNumberChar = literal := by
    rw [takeWhile_append_of_pos hchars, hrest.1, append_nil]
  have hdrop : (literal ++ rest).dropWhile isNumberChar = rest := by
    rw [dropWhile_append_of_pos hchars, hrest.2]
  obtain ⟨d, ds, rfl, hd⟩ := isNumber_cons hnumber
  -- the first character is that of no other word
  have hword : d ≠ 'n' ∧ d ≠ 't' ∧ d ≠ 'f' := by
    refine ⟨?_, ?_, ?_⟩ <;> rintro rfl <;> exact absurd hd (by decide)
  obtain ⟨hn, ht, hf⟩ := hword
  rw [cons_append] at htake hdrop ⊢
  have hnull : "null".toList.isPrefixOf (d :: (ds ++ rest)) = false := by
    simp [isPrefixOf, hn.symm]
  have htrue : "true".toList.isPrefixOf (d :: (ds ++ rest)) = false := by
    simp [isPrefixOf, ht.symm]
  have hfalse : "false".toList.isPrefixOf (d :: (ds ++ rest)) = false := by
    simp [isPrefixOf, hf.symm]
  simp only [parseWord, hnull, htrue, hfalse, htake, hdrop, hnumber, if_true]
  rfl

theorem skipSpace_cons (h : isSpace c = false) (cs : List Char) : skipSpace (c :: cs) = c :: cs :=
  dropWhile_cons_of_neg (by simp [h])

/-! ## One line -/

theorem newline_notMem_printString (s : List Char) : '\n' ∉ printString s := by
  have hbody : '\n' ∉ s.flatMap escapeChar := by
    intro h
    obtain ⟨c, -, hc⟩ := mem_flatMap.mp h
    exact (escaped_escapeChar c).newline hc
  simp [printString, hbody]

theorem newline_notMem_printScalar {v : Scalar} (hwf : v.Wf) : '\n' ∉ printScalar v := by
  cases v with
  | bool b => cases b <;> simp [printScalar]
  | num literal =>
    intro h
    exact absurd (hwf.2 _ h) (by decide)
  | str s => exact newline_notMem_printString s

theorem newline_notMem_intercalate {texts : List (List Char)} (h : ∀ text ∈ texts, '\n' ∉ text) :
    '\n' ∉ [','].intercalate texts := by
  intro hmem
  rcases Text.mem_intercalate hmem with hcomma | ⟨text, htext, hc⟩
  · exact absurd hcomma (by simp)
  · exact h text htext hc

theorem newline_notMem_printArray {texts : List (List Char)} (h : ∀ text ∈ texts, '\n' ∉ text) :
    '\n' ∉ printArray texts := by
  simp [printArray, newline_notMem_intercalate h]

theorem newline_notMem_printObject {ms : List (List Char × Scalar)} (hwf : ∀ m ∈ ms, m.2.Wf) :
    '\n' ∉ printObject ms := by
  have hmembers : ∀ text ∈ ms.map printMember, '\n' ∉ text := by
    intro text htext
    obtain ⟨m, hm, rfl⟩ := mem_map.mp htext
    simp [printMember, newline_notMem_printString, newline_notMem_printScalar (hwf m hm)]
  simp [printObject, newline_notMem_intercalate hmembers]

end NatProxy.Lib.Json
