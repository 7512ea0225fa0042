import NatProxy.Lib.Text
import Mathlib.Tactic.SplitIfs

/-!
# The generated configuration

`scripts/apply_env.dart` writes a class with one constant for each entry of a `.env` file: a boolean
or an integer where the value is written as one, and a string otherwise. `readDeclaration` reads
such a declaration as Dart does, for literals without interpolation.

`denotes_iff` says which entries are read back as their values. `int.tryParse` takes a plus sign and
Dart has none (`plusSign_unreadable`), the dollar sign is not escaped, and a key need not be a name.
-/

namespace NatProxy.App.EnvConfig

open Lib.Text List

/-! ## The script -/

structure Line where
  text : List Char
  noBreak : '\n' ∉ text ∧ '\r' ∉ text

/-- The key and the value of a line. -/
def entry (raw : Line) : Option (List Char × List Char) :=
  let line := trim isDartSpace raw.text
  if line = [] ∨ line.head? = some '#' then none
  else if '=' ∉ line ∨ line.idxOf '=' < 1 then none
  else
    let key := trim isDartSpace (line.take (line.idxOf '='))
    let val := trim isDartSpace (line.drop (line.idxOf '=' + 1))
    if key = [] then none else some (key, val)

/-- The value of digits, of which there is at least one. -/
def number (base : Nat) (digits : List Char) : Option Nat :=
  if digits = [] then none
  else digits.foldlM (fun n c => (hexValue c).bind fun v =>
    if v < base then some (n * base + v) else none) 0

/-- An integer after its sign. What is written in hexadecimal may have 64 bits. -/
def integer (negative : Bool) (s : List Char) : Option Int :=
  let signed (n : Nat) : Int := if negative then -n else n
  if s.take 2 = "0x".toList ∨ s.take 2 = "0X".toList then
    (number 16 (s.drop 2)).bind fun n =>
      if n < 1 <<< 64 then some (Int.bmod (signed n) (1 <<< 64)) else none
  else
    (number 10 s).bind fun n =>
      if n < 1 <<< 63 ∨ (negative = true ∧ n = 1 <<< 63) then some (signed n) else none

def intTryParse : List Char → Option Int
  | [] => none
  | c :: s =>
    if c = '+' then integer false s
    else if c = '-' then integer true s
    else integer false (c :: s)

def replaceAll (c : Char) (text s : List Char) : List Char :=
  s.flatMap fun d => if d = c then text else [d]

def escaped (val : List Char) : List Char :=
  replaceAll '\'' ['\\', '\''] (replaceAll '\\' ['\\', '\\'] val)

def modifiers : List Char := "  static const ".toList

def assign : List Char := " = ".toList

def constant (type key literal : List Char) : List Char :=
  modifiers ++ (type ++ ' ' :: (key ++ (assign ++ (literal ++ [';']))))

/-- What is generated for a key and its value. -/
def declaration (key val : List Char) : List Char :=
  if val = "true".toList ∨ val = "false".toList then constant "bool".toList key val
  else if (intTryParse val).isSome then constant "int".toList key val
  else constant "String".toList key ('\'' :: (escaped val ++ ['\'']))

/-! ## Dart -/

inductive Value where
  | bool (b : Bool)
  | int (n : Int)
  | string (s : List Char)
deriving DecidableEq, Repr

def reservedWords : List String :=
  ["assert", "break", "case", "catch", "class", "const", "continue", "default", "do", "else",
    "enum", "extends", "false", "final", "finally", "for", "if", "in", "is", "new", "null",
    "rethrow", "return", "super", "switch", "this", "throw", "true", "try", "var", "void", "while",
    "with"]

def isNameChar (c : Char) : Bool := c.isAlphanum || c = '_' || c = '$'

def isName (s : List Char) : Bool :=
  s ≠ [] && s.all isNameChar && !(s.headD '0').isDigit && String.ofList s ∉ reservedWords

/-- What a backslash and the character stand for. The escapes by number are left out. -/
def escapeOf (c : Char) : Option Char :=
  match c with
  | 'n' => '\n'
  | 'r' => '\r'
  | 't' => '\t'
  | 'b' => '\x08'
  | 'f' => '\x0c'
  | 'v' => '\x0b'
  | 'x' => none
  | 'u' => none
  | c => c

/-- What follows the quote of a string. Text with an interpolation is not read. -/
def unquote : List Char → Option (List Char)
  | [] => none
  | c :: rest =>
    if c = '\'' then if rest = [] then some [] else none
    else if c = '\\' then
      match rest with
      | [] => none
      | d :: rest => (escapeOf d).bind fun e => (unquote rest).map (e :: ·)
    else if c = '$' ∨ c = '\n' ∨ c = '\r' then none
    else (unquote rest).map (c :: ·)

/-- An integer literal, with or without a minus sign. -/
def readInt : List Char → Option Int
  | [] => none
  | c :: s => if c = '-' then integer true s else integer false (c :: s)

def readLiteral (type literal : List Char) : Option Value :=
  if type = "bool".toList then
    if literal = "true".toList then some (.bool true)
    else if literal = "false".toList then some (.bool false) else none
  else if type = "int".toList then (readInt literal).map .int
  else if type = "String".toList ∧ literal.head? = some '\'' then
    (unquote literal.tail).map .string
  else none

/-- The name and the value of a constant. -/
def readDeclaration (text : List Char) : Option (List Char × Value) := do
  let rest ← text.dropPrefix? modifiers
  let type := rest.takeWhile (· != ' ')
  let rest ← (rest.dropWhile (· != ' ')).dropPrefix? [' ']
  let name := rest.takeWhile isNameChar
  let rest ← (rest.dropWhile isNameChar).dropPrefix? assign
  let literal ← rest.dropSuffix? [';']
  let value ← readLiteral type literal
  if isName name then some (name, value) else none

/-! ## Reading back -/

/-- The value that a text denotes. -/
def denoted (val : List Char) : Value :=
  if val = "true".toList then .bool true
  else if val = "false".toList then .bool false
  else
    match intTryParse val with
    | some n => .int n
    | none => .string val

theorem dropPrefix?_append (front rest : List Char) :
    dropPrefix? (front ++ rest) front = some rest :=
  dropPrefix?_append_of_beq rest (beq_self_eq_true front)

theorem dropSuffix?_append (front rest : List Char) :
    dropSuffix? (front ++ rest) rest = some front :=
  dropSuffix?_eq_some_iff.mpr ⟨rest, rfl, beq_self_eq_true rest⟩

theorem span_append {p : Char → Bool} {front rest : List Char} {c : Char}
    (h : ∀ c ∈ front, p c = true) (hc : p c = false) :
    (front ++ c :: rest).takeWhile p = front ∧ (front ++ c :: rest).dropWhile p = c :: rest := by
  rw [takeWhile_append_of_pos h, dropWhile_append_of_pos h]
  simp [hc]

theorem readDeclaration_constant {type key literal : List Char} (htype : ' ' ∉ type) (v : Value) :
    readDeclaration (constant type key literal) = some (key, v) ↔
      isName key = true ∧ readLiteral type literal = some v := by
  have hspace : ∀ c ∈ type, (c != ' ') = true := by
    intro c hc
    rw [bne_iff_ne]
    rintro rfl
    exact htype hc
  have hword : ∀ rest, (type ++ ' ' :: rest).takeWhile (· != ' ') = type ∧
      (type ++ ' ' :: rest).dropWhile (· != ' ') = ' ' :: rest :=
    fun _ => span_append hspace (bne_self_eq_false ' ')
  have hblank : ∀ rest, dropPrefix? (' ' :: rest) [' '] = some rest := dropPrefix?_append [' ']
  simp only [readDeclaration, constant, dropPrefix?_append, Option.bind_eq_bind, Option.bind_some,
    hword, hblank]
  by_cases hkey : isName key = true
  · have hchars : ∀ c ∈ key, isNameChar c = true := by
      simp only [isName, Bool.and_eq_true, all_eq_true] at hkey
      exact hkey.1.1.2
    have hname : ∀ rest, (key ++ (assign ++ rest)).takeWhile isNameChar = key ∧
        (key ++ (assign ++ rest)).dropWhile isNameChar = assign ++ rest :=
      fun _ => span_append hchars (by decide)
    simp only [hname, dropPrefix?_append, Option.bind_some, dropSuffix?_append, hkey, if_true,
      true_and]
    cases readLiteral type literal <;> simp
  · -- what is read has a name in it, so it is not the key
    refine iff_of_false ?_ fun h => hkey h.1
    intro h
    simp only [Option.bind_eq_some_iff] at h
    obtain ⟨rest, -, body, -, value, -, h⟩ := h
    split_ifs at h with hname
    rw [(Prod.mk.inj (Option.some.inj h)).1] at hname
    exact hkey hname

theorem escaped_cons (c : Char) (val : List Char) : escaped (c :: val) =
    (if c = '\\' then ['\\', '\\'] else if c = '\'' then ['\\', '\''] else [c]) ++ escaped val := by
  simp only [escaped, replaceAll, flatMap_cons, flatMap_append]
  split_ifs with hback hquote
  · rfl
  · simp [hquote]
  · simp [hquote]

theorem unquote_escape (c : Char) (rest : List Char) :
    unquote ('\\' :: c :: rest) = (escapeOf c).bind fun e => (unquote rest).map (e :: ·) := by
  rw [unquote.eq_def]
  rfl

theorem unquote_char {c : Char} (hback : c ≠ '\\') (hquote : c ≠ '\'') (rest : List Char) :
    unquote (c :: rest) =
      if c = '$' ∨ c = '\n' ∨ c = '\r' then none else (unquote rest).map (c :: ·) := by
  rw [unquote.eq_def]
  simp only [hback, hquote, if_false]

theorem unquote_escaped {val : List Char} (hbreak : '\n' ∉ val ∧ '\r' ∉ val) :
    unquote (escaped val ++ ['\'']) = if '$' ∈ val then none else some val := by
  induction val with
  | nil => rfl
  | cons c val ih =>
    simp only [mem_cons, not_or] at hbreak
    have hmap : (unquote (escaped val ++ ['\''])).map (c :: ·) =
        if '$' ∈ val then none else some (c :: val) := by
      rw [ih ⟨hbreak.1.2, hbreak.2.2⟩]
      split <;> rfl
    rw [escaped_cons, append_assoc]
    by_cases hdollar : c = '$'
    · subst hdollar
      rw [if_neg (by decide), if_neg (by decide), singleton_append,
        unquote_char (by decide) (by decide)]
      simp
    · have hmem : '$' ∈ c :: val ↔ '$' ∈ val := by simp [Ne.symm hdollar]
      simp only [hmem]
      rw [← hmap]
      split_ifs with hback hquote
      · subst hback
        exact unquote_escape _ _
      · subst hquote
        exact unquote_escape _ _
      · rw [singleton_append, unquote_char hback hquote, if_neg]
        rintro (h | h | h)
        · exact hdollar h
        · exact hbreak.1.1 h.symm
        · exact hbreak.2.1 h.symm

theorem integer_plus (s : List Char) : integer false ('+' :: s) = none := by
  have hplus : hexValue '+' = none := by decide
  simp [integer, number, hplus]

theorem readInt_eq_iff {val : List Char} {n : Int} (h : intTryParse val = some n) :
    readInt val = some n ↔ val.head? ≠ some '+' := by
  cases val with
  | nil => cases h
  | cons c s =>
    by_cases hplus : c = '+'
    · subst hplus
      simp [readInt, integer_plus]
    · rw [intTryParse, if_neg hplus] at h
      simp [readInt, h, hplus]

/-- The values that their declarations denote. -/
def Safe (val : List Char) : Prop :=
  match denoted val with
  | .bool _ => True
  | .int _ => val.head? ≠ some '+'
  | .string _ => '$' ∉ val

theorem readDeclaration_declaration {key val : List Char} (hbreak : '\n' ∉ val ∧ '\r' ∉ val) :
    readDeclaration (declaration key val) = some (key, denoted val) ↔
      isName key = true ∧ Safe val := by
  rw [declaration]
  by_cases hbool : val = "true".toList ∨ val = "false".toList
  · rw [if_pos hbool, readDeclaration_constant (by decide)]
    rcases hbool with rfl | rfl
    · exact and_congr_right fun _ => iff_of_true rfl trivial
    · exact and_congr_right fun _ => iff_of_true rfl trivial
  · obtain ⟨htrue, hfalse⟩ := not_or.mp hbool
    rw [if_neg hbool]
    cases hint : intTryParse val with
    | some n =>
      have hdenoted : denoted val = .int n := by
        rw [denoted, if_neg htrue, if_neg hfalse, hint]
      have hread : readLiteral "int".toList val = (readInt val).map .int := rfl
      rw [if_pos Option.isSome_some, readDeclaration_constant (by decide), Safe, hdenoted, hread]
      simp [← readInt_eq_iff hint]
    | none =>
      have hdenoted : denoted val = .string val := by
        rw [denoted, if_neg htrue, if_neg hfalse, hint]
      have hread : readLiteral "String".toList ('\'' :: (escaped val ++ ['\''])) =
          (unquote (escaped val ++ ['\''])).map .string := rfl
      rw [if_neg (by simp), readDeclaration_constant (by decide), Safe, hdenoted, hread,
        unquote_escaped hbreak]
      simp

theorem mem_of_mem_trim {p : Char → Bool} {cs : List Char} {c : Char} (h : c ∈ trim p cs) :
    c ∈ cs :=
  (dropWhile_sublist p).subset ((List.rdropWhile_prefix p _).subset h)

theorem mem_of_entry {raw : Line} {key val : List Char} (h : entry raw = some (key, val)) {c : Char}
    (hc : c ∈ val) : c ∈ raw.text := by
  simp only [entry] at h
  split_ifs at h
  rw [← (Prod.mk.inj (Option.some.inj h)).2] at hc
  exact mem_of_mem_trim (mem_of_mem_drop (mem_of_mem_trim hc))

/-- **The declaration of a line denotes its value if and only if** the key is a name, an integer
has no plus sign, and a string no dollar sign. -/
theorem denotes_iff (raw : Line) :
    (∀ key val, entry raw = some (key, val) →
        readDeclaration (declaration key val) = some (key, denoted val)) ↔
      ∀ key val, entry raw = some (key, val) → isName key = true ∧ Safe val := by
  refine forall₂_congr fun key val => forall_congr' fun h => ?_
  apply readDeclaration_declaration
  exact ⟨mt (mem_of_entry h) raw.noBreak.1, mt (mem_of_entry h) raw.noBreak.2⟩

/-- **A plus sign.** The declaration is no Dart; with a dollar sign it is not the value. -/
theorem plusSign_unreadable :
    entry ⟨"PORT=+5".toList, by decide⟩ = some ("PORT".toList, "+5".toList) ∧
      denoted "+5".toList = .int 5 ∧
      declaration "PORT".toList "+5".toList = "  static const int PORT = +5;".toList ∧
      readDeclaration "  static const int PORT = +5;".toList = none ∧
      declaration "KEY".toList "a$b".toList = "  static const String KEY = 'a$b';".toList ∧
      readDeclaration "  static const String KEY = 'a$b';".toList = none := by
  decide +kernel

end NatProxy.App.EnvConfig
