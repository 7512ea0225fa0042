import NatProxy.Lib.Json
import Mathlib.Data.List.Chain
import Mathlib.Data.List.TakeWhile

/-!
# Where a JSON text ends

The reader of `Json` takes a value off the front of a text. What it takes is read so whatever
follows (`Consumed`): it ends with a character that is no blank, and no line of it begins with a
`d`. The texts of an array or an object are made of such texts (`Elements`), and every text that
is read is one (`parseValue_local`). So blanks after a text change nothing, and a text with anything
else after it is none (`parse_append_of_parse`). What the writer has written is read back
(`parse_printObject`, `parse_printArray`).
-/

namespace NatProxy.Lib.Json

open List

/-! ## Blanks -/

def Blank (cs : List Char) : Prop := ∀ c ∈ cs, isSpace c = true

theorem blank_nil : Blank [] := fun _ h => nomatch h

theorem skipSpace_split (cs : List Char) : ∃ bs, cs = bs ++ skipSpace cs ∧ Blank bs :=
  ⟨cs.takeWhile isSpace, takeWhile_append_dropWhile.symm, fun _ hc => mem_takeWhile_imp hc⟩

variable {cs : List Char}

theorem skipSpace_eq_nil_iff : skipSpace cs = [] ↔ Blank cs :=
  dropWhile_eq_nil_iff

variable {bs : List Char}

theorem Blank.skipSpace_append (h : Blank bs) (cs : List Char) :
    skipSpace (bs ++ cs) = skipSpace cs :=
  dropWhile_append_of_pos h

theorem Blank.ends_append (h : Blank bs) (hcs : Ends cs) : Ends (bs ++ cs) := by
  cases bs with
  | nil => exact hcs
  | cons b bs =>
    intro c hc
    obtain rfl : b = c := Option.some.inj hc
    by_contra hnumber
    have hspace := isSpace_of_isNumberChar ((Bool.not_eq_false _).mp hnumber)
    exact Bool.false_ne_true (hspace.symm.trans (h b mem_cons_self))

/-! ## What a reader has taken -/

/-- No line of the text, which stands at the beginning of one, begins with a `d`. -/
def Clear (cs : List Char) : Prop := ('\n' :: cs).IsChain fun a b => a = '\n' → b ≠ 'd'

theorem Clear.append {a b : List Char} (ha : Clear a) (hb : Clear b) : Clear (a ++ b) :=
  IsChain.append ha hb.tail fun _ _ _ hy _ => hb.rel_head? hy rfl

theorem clear_of_notMem (h : 'd' ∉ cs) : Clear cs := by
  apply (pairwise_of_forall_mem_list _).isChain
  rintro a - b hb - rfl
  exact h (mem_of_ne_of_mem (by decide) hb)

theorem Blank.clear (h : Blank bs) : Clear bs :=
  clear_of_notMem fun hd => absurd (h _ hd) (by decide)

theorem clear_quote (h : '\n' ∉ cs) : Clear ('"' :: cs) := by
  apply IsChain.cons _ fun y hy _ => Option.some.inj hy ▸ (by decide)
  apply (pairwise_of_forall_mem_list _).isChain
  rintro a ha b - rfl
  exact absurd (mem_of_ne_of_mem (by decide) ha) h

structure Solid (cs : List Char) : Prop where
  clear : Clear cs
  last : ∃ c ∈ cs.getLast?, isSpace c = false

theorem Solid.append_left {a b : List Char} (hb : Solid b) (ha : Clear a) : Solid (a ++ b) := by
  obtain ⟨c, hc, hspace⟩ := hb.last
  refine ⟨ha.append hb.clear, c, ?_, hspace⟩
  rw [getLast?_append, Option.mem_def.mp hc]
  rfl

variable {c : Char}

theorem solid_singleton (hd : c ≠ 'd') (hspace : isSpace c = false) : Solid [c] :=
  ⟨clear_of_notMem fun h => hd (mem_singleton.mp h).symm, c, rfl, hspace⟩

theorem Solid.ne_nil (h : Solid cs) : cs ≠ [] := by
  rintro rfl
  obtain ⟨c, hc, -⟩ := h.last
  cases hc

/-- The reader `p` takes `used` for `a`, whatever follows, if its bound on the depth is large
enough. -/
structure Consumed {α : Type} (p : Nat → List Char → Option (α × List Char)) (a : α)
    (used : List Char) : Prop extends Solid used where
  read : ∀ n, used.length ≤ n → ∀ tail, Ends tail → p n (used ++ tail) = some (a, tail)

/-- What `q` reads is taken so by `p`. -/
def Local {α : Type} (p : Nat → List Char → Option (α × List Char))
    (q : List Char → Option (α × List Char)) : Prop :=
  ∀ cs a rest, q cs = some (a, rest) → ∃ used, cs = used ++ rest ∧ Consumed p a used

/-! ## Strings, numbers and words -/

/-- The text begins with the rest of a string, up to its closing quote. -/
def Quoted (ps : List Piece) (cs rest : List Char) : Prop :=
  ∃ used, cs = used ++ '"' :: rest ∧ '\n' ∉ used ∧
    ∀ tail, scanPieces (used ++ '"' :: tail) = some (ps, tail)

variable {rest : List Char}

theorem quoted_append (front : List Char) {p : Piece} {ps : List Piece}
    (hscan : ∀ cs, scanPieces (front ++ cs) = consPiece p (scanPieces cs)) (hnew : '\n' ∉ front)
    (h : consPiece p (scanPieces cs) = some (ps, rest))
    (ih : ∀ {ps}, scanPieces cs = some (ps, rest) → Quoted ps cs rest) :
    Quoted ps (front ++ cs) rest := by
  cases hcs : scanPieces cs with
  | none =>
    rw [hcs] at h
    cases h
  | some r =>
    obtain ⟨ps', rest'⟩ := r
    rw [hcs] at h
    cases h
    obtain ⟨used, rfl, hused, hread⟩ := ih hcs
    refine ⟨front ++ used, (append_assoc ..).symm, ?_, fun tail => ?_⟩
    · rw [mem_append, not_or]
      exact ⟨hnew, hused⟩
    · rw [append_assoc, hscan, hread]
      rfl

theorem quoted_of_scanPieces {ps : List Piece}
    (h : scanPieces cs = some (ps, rest)) : Quoted ps cs rest := by
  fun_induction scanPieces cs generalizing ps with
  | case1 | case4 | case6 | case7 | case8 => cases h
  | case2 cs =>
    cases h
    exact ⟨[], rfl, not_mem_nil, scanPieces_quote⟩
  | case3 a b c d cs n hhex _ ih =>
    have hdigits := newline_of_hex4 hhex
    exact quoted_append ['\\', 'u', a, b, c, d] (scanPieces_code hhex) (by simpa using hdigits) h ih
  | case5 e cs hne c he _ ih =>
    have hu : e ≠ 'u' := by
      rintro rfl
      exact Option.some_ne_none c (he.symm.trans (by decide))
    have hnew : '\n' ≠ e := by
      rintro rfl
      exact Option.some_ne_none c (he.symm.trans (by decide))
    exact quoted_append ['\\', e] (scanPieces_unescape hu he) (by simpa using hnew) h ih
  | case9 c cs hquote hback hplain ih =>
    have hnew : '\n' ≠ c := by
      rintro rfl
      exact hplain (by decide)
    exact quoted_append [c] (scanPieces_plain hquote hback hplain) (by simpa using hnew) h ih

theorem scanString_local {s : List Char} (h : scanString cs = some (s, rest)) :
    ∃ used, cs = used ++ rest ∧ Solid ('"' :: used) ∧
      ∀ tail, scanString (used ++ tail) = some (s, tail) := by
  unfold scanString at h
  cases hs : scanPieces cs with
  | none =>
    rw [hs] at h
    cases h
  | some r =>
    obtain ⟨ps, rest'⟩ := r
    rw [hs] at h
    cases h
    obtain ⟨used, rfl, hnew, hread⟩ := quoted_of_scanPieces hs
    have hquote : Solid ['"'] := solid_singleton (by decide) (by decide)
    refine ⟨used ++ ['"'], by rw [append_assoc, singleton_append],
      hquote.append_left (clear_quote hnew), ?_⟩
    intro tail
    rw [append_assoc, singleton_append, scanString, hread]

theorem parseWord_local : Local (fun _ => parseWord) parseWord := by
  intro cs v rest h
  have hword (word : List Char) (w : Value) (hcs : word.isPrefixOf cs = true)
      (hread : ∀ tail, parseWord (word ++ tail) = some (w, tail)) (hsolid : Solid word) :
      ∃ used, cs = used ++ rest ∧ Consumed (fun _ => parseWord) v used := by
    obtain ⟨tail, rfl⟩ := isPrefixOf_iff_prefix.mp hcs
    rw [hread tail] at h
    cases h
    exact ⟨word, rfl, hsolid, fun _ _ tail _ => hread tail⟩
  have hsolid {word : List Char} {c : Char} (hd : 'd' ∉ word) (hc : word.getLast? = some c)
      (hspace : isSpace c = false) : Solid word := ⟨clear_of_notMem hd, c, hc, hspace⟩
  by_cases hnull : "null".toList.isPrefixOf cs = true
  · exact hword _ .null hnull (fun _ => rfl) (hsolid (by decide) rfl rfl)
  by_cases htrue : "true".toList.isPrefixOf cs = true
  · exact hword _ (.scalar (.bool true)) htrue (fun _ => rfl) (hsolid (by decide) rfl rfl)
  by_cases hfalse : "false".toList.isPrefixOf cs = true
  · exact hword _ (.scalar (.bool false)) hfalse (fun _ => rfl) (hsolid (by decide) rfl rfl)
  rw [parseWord, if_neg hnull, if_neg htrue, if_neg hfalse] at h
  simp only [Option.ite_none_right_eq_some, Option.some.injEq, Prod.mk.injEq] at h
  obtain ⟨hnumber, rfl, rfl⟩ := h
  have hchars : ∀ c ∈ cs.takeWhile isNumberChar, isNumberChar c = true :=
    fun c hc => mem_takeWhile_imp hc
  have hne : cs.takeWhile isNumberChar ≠ [] := by
    obtain ⟨d, ds, hlit, -⟩ := isNumber_cons hnumber
    rw [hlit]
    exact cons_ne_nil d ds
  refine ⟨_, takeWhile_append_dropWhile.symm, ⟨?_, _, getLast?_eq_some_getLast hne, ?_⟩,
    fun _ _ tail htail => parseWord_number ⟨hnumber, hchars⟩ htail⟩
  · exact clear_of_notMem fun hd => absurd (hchars _ hd) (by decide)
  · exact isSpace_of_isNumberChar (hchars _ (getLast_mem hne))

/-! ## Elements -/

section Elements

variable {α : Type} {p : Nat → List Char → Option (α × List Char)} {close : Char}

/-- The text of elements with the values `as`, with commas between them and `close` at the end. -/
inductive Elements (p : Nat → List Char → Option (α × List Char)) (close : Char) :
    List α → List Char → Prop where
  | last {a : α} {used bs : List Char} (ha : Consumed p a used) (hbs : Blank bs) :
      Elements p close [a] (used ++ (bs ++ [close]))
  | cons {a : α} {as : List α} {used bs rest : List Char} (ha : Consumed p a used)
      (hbs : Blank bs) (h : Elements p close as rest) :
      Elements p close (a :: as) (used ++ (bs ++ ([','] ++ rest)))

/-- A character that closes an array or an object. -/
def Closes (close : Char) : Prop := close = ']' ∨ close = '}'

theorem Closes.solid (h : Closes close) : Solid [close] := by
  rcases h with rfl | rfl <;> exact solid_singleton (by decide) (by decide)

variable {as : List α} {used : List Char}

theorem Elements.solid (hclose : Closes close) (h : Elements p close as used) : Solid used := by
  induction h with
  | last ha hbs => exact (hclose.solid.append_left hbs.clear).append_left ha.clear
  | cons ha hbs _ ih =>
    have hcomma : Clear [','] := clear_of_notMem (by decide)
    exact ((ih.append_left hcomma).append_left hbs.clear).append_left ha.clear

theorem Elements.read (hclose : Closes close) (h : Elements p close as used) (n : Nat)
    (hn : used.length ≤ n) (tail : List Char) :
    ∀ k, used.length ≤ k → parseElements (p n) close k (used ++ tail) = some (as, tail) := by
  have hcomma (cs : List Char) : skipSpace (',' :: cs) = ',' :: cs := skipSpace_cons (by decide) cs
  have hskip (cs : List Char) : skipSpace (close :: cs) = close :: cs := by
    rcases hclose with rfl | rfl <;> exact skipSpace_cons (by decide) cs
  have hne : close ≠ ',' := by rcases hclose with rfl | rfl <;> decide
  have hends (cs : List Char) : Ends (close :: cs) := by
    rcases hclose with rfl | rfl <;> exact ends_cons (by decide) cs
  induction h with
  | @last a used bs ha hbs =>
    intro k hk
    simp only [length_append, length_singleton] at hn hk
    obtain ⟨k, rfl⟩ : ∃ k', k = k' + 1 := ⟨k - 1, by omega⟩
    have hread := ha.read n (by omega) (bs ++ close :: tail) (hbs.ends_append (hends _))
    simp only [append_assoc, cons_append, nil_append, parseElements, hread,
      hbs.skipSpace_append, hskip, hne, if_false, if_true]
  | @cons a as used bs rest ha hbs _ ih =>
    intro k hk
    simp only [length_append, length_singleton] at hn hk
    obtain ⟨k, rfl⟩ : ∃ k', k = k' + 1 := ⟨k - 1, by omega⟩
    have hread := ha.read n (by omega) (bs ++ ',' :: (rest ++ tail))
      (hbs.ends_append (ends_cons (by decide) _))
    simp only [append_assoc, cons_append, nil_append, parseElements, hread,
      hbs.skipSpace_append, hcomma, if_true, ih (by omega) k (by omega), Option.map_some]

variable {cs : List Char}

theorem elements_of_parse {q : List Char → Option (α × List Char)} (hq : Local p q) {k : Nat}
    {rest : List Char} (h : parseElements q close k cs = some (as, rest)) :
    ∃ used, cs = used ++ rest ∧ Elements p close as used := by
  induction k generalizing cs as with
  | zero => cases h
  | succ k ih =>
    rw [parseElements] at h
    split at h
    · cases h
    next a after ha =>
    obtain ⟨used, rfl, hused⟩ := hq cs a after ha
    obtain ⟨bs, hbs, hblank⟩ := skipSpace_split after
    split at h
    · cases h
    next c after' hskip =>
    rw [hskip] at hbs
    split_ifs at h with hcomma hclose
    · obtain ⟨⟨as', rest'⟩, hitems, heq⟩ := Option.map_eq_some_iff.mp h
      cases heq
      obtain ⟨later, rfl, hlater⟩ := ih hitems
      exact ⟨_, by simp [hbs, hcomma], .cons hused hblank hlater⟩
    · cases h
      exact ⟨_, by simp [hbs, hclose], .last hused hblank⟩

theorem Solid.skipSpace_append (h : Solid cs) (tail : List Char) :
    skipSpace (cs ++ tail) = skipSpace cs ++ tail ∧ skipSpace cs ≠ [] := by
  have hne : skipSpace cs ≠ [] := by
    intro hnil
    obtain ⟨c, hc, hspace⟩ := h.last
    have hblank := skipSpace_eq_nil_iff.mp hnil c (mem_of_getLast? hc)
    exact Bool.false_ne_true (hspace.symm.trans hblank)
  refine ⟨?_, hne⟩
  exact dropWhile_append.trans (if_neg fun h => hne (isEmpty_iff.mp h))

/-- No element begins with the character that closes the group. -/
def Opens (p : Nat → List Char → Option (α × List Char)) (close : Char) : Prop :=
  ∀ a used, Consumed p a used → (skipSpace used).head? ≠ some close

theorem Elements.head (hopens : Opens p close) (h : Elements p close as used) (tail : List Char) :
    ∃ c rest, skipSpace (used ++ tail) = c :: rest ∧ c ≠ close := by
  obtain ⟨a, first, later, ha, rfl⟩ : ∃ a first later, Consumed p a first ∧
      used = first ++ later := by
    cases h with
    | last ha _ | cons ha _ _ => exact ⟨_, _, _, ha, rfl⟩
  obtain ⟨hskip, hne⟩ := ha.skipSpace_append (later ++ tail)
  obtain ⟨c, rest, hcons⟩ := exists_cons_of_ne_nil hne
  have hc := hopens a first ha
  rw [hcons] at hskip hc
  exact ⟨c, rest ++ (later ++ tail), by rw [append_assoc, hskip]; rfl,
    fun heq => hc (congrArg some heq)⟩

/-- The text after the bracket of an array or an object. -/
inductive Group (p : Nat → List Char → Option (α × List Char)) (close : Char) :
    List α → List Char → Prop where
  | empty {bs : List Char} (hbs : Blank bs) : Group p close [] (bs ++ [close])
  | elements {as : List α} {used : List Char} (h : Elements p close as used) :
      Group p close as used

theorem Group.solid (hclose : Closes close) (h : Group p close as used) : Solid used := by
  cases h with
  | empty hbs => exact hclose.solid.append_left hbs.clear
  | elements h => exact h.solid hclose

theorem Group.read (hclose : Closes close) (hopens : Opens p close) (h : Group p close as used)
    (n : Nat) (hn : used.length ≤ n) (tail : List Char) :
    parseGroup (p n) close (used ++ tail) = some (as, tail) := by
  cases h with
  | @empty bs hbs =>
    have hskip : skipSpace (close :: tail) = close :: tail := by
      rcases hclose with rfl | rfl <;> exact skipSpace_cons (by decide) tail
    rw [append_assoc, singleton_append, parseGroup, hbs.skipSpace_append, hskip]
    exact if_pos rfl
  | elements h =>
    obtain ⟨c, rest, hskip, hc⟩ := h.head hopens tail
    have hread := h.read hclose n hn tail (used ++ tail).length (by simp)
    simp only [parseGroup, hskip, if_neg hc, hread]

theorem group_of_parse {q : List Char → Option (α × List Char)} (hq : Local p q)
    {rest : List Char} (h : parseGroup q close cs = some (as, rest)) :
    ∃ used, cs = used ++ rest ∧ Group p close as used := by
  obtain ⟨bs, hbs, hblank⟩ := skipSpace_split cs
  rw [parseGroup] at h
  split at h
  · cases h
  next c after hskip =>
  rw [hskip] at hbs
  split_ifs at h with hc
  · cases h
    exact ⟨_, by simp [hbs, hc], .empty hblank⟩
  · obtain ⟨used, hused, helements⟩ := elements_of_parse hq h
    exact ⟨used, hused, .elements helements⟩

end Elements

/-! ## Members and values -/

variable {used : List Char} {v : Value}

theorem consumed_member {k bs' usedV : List Char} (hbs : Blank bs)
    (hkey : Solid ('"' :: used)) (hread : ∀ tail, scanString (used ++ tail) = some (k, tail))
    (hbs' : Blank bs') (hv : Consumed parseValue v usedV) :
    Consumed (fun n => parseMember (parseValue n)) (k, v)
      (bs ++ ('"' :: used ++ (bs' ++ ([':'] ++ usedV)))) where
  toSolid := by
    have hcolon : Clear [':'] := clear_of_notMem (by decide)
    exact (((hv.append_left hcolon).append_left hbs'.clear).append_left hkey.clear).append_left
      hbs.clear
  read := by
    intro n hn tail htail
    simp only [length_append, length_cons] at hn
    have hquote : ∀ cs, skipSpace ('"' :: cs) = '"' :: cs := skipSpace_cons (by decide)
    have hcolon : ∀ cs, skipSpace (':' :: cs) = ':' :: cs := skipSpace_cons (by decide)
    simp only [append_assoc, cons_append, nil_append, parseMember, hbs.skipSpace_append, hquote,
      hread, hbs'.skipSpace_append, hcolon, hv.read n (by omega) tail htail, Option.map_some]

theorem parseMember_local {q : List Char → Option (Value × List Char)} (hq : Local parseValue q) :
    Local (fun n => parseMember (parseValue n)) (parseMember q) := by
  intro cs m rest h
  obtain ⟨bs, hbs, hblank⟩ := skipSpace_split cs
  unfold parseMember at h
  split at h
  case h_2 => cases h
  rename_i cs' hskip
  rw [hskip] at hbs
  split at h
  · cases h
  next k after hkey =>
  obtain ⟨used, rfl, hsolid, hread⟩ := scanString_local hkey
  obtain ⟨bs', hbs', hblank'⟩ := skipSpace_split after
  split at h
  case h_2 => cases h
  rename_i after' hskip'
  rw [hskip'] at hbs'
  obtain ⟨⟨v, rest'⟩, hv, heq⟩ := Option.map_eq_some_iff.mp h
  cases heq
  obtain ⟨usedV, rfl, hV⟩ := hq _ _ _ hv
  exact ⟨_, by simp [hbs, hbs'], consumed_member hblank hsolid hread hblank' hV⟩

theorem Blank.parseValue_append (h : Blank bs) (n : Nat) (cs : List Char) :
    parseValue n (bs ++ cs) = parseValue n cs := by
  cases n with
  | zero => rfl
  | succ n => simp only [parseValue, h.skipSpace_append]

theorem consumed_blank (hbs : Blank bs)
    (h : Consumed parseValue v used) : Consumed parseValue v (bs ++ used) where
  toSolid := h.append_left hbs.clear
  read := by
    intro n hn tail htail
    rw [length_append] at hn
    rw [append_assoc, hbs.parseValue_append, h.read n (by omega) tail htail]

theorem consumed_string {s : List Char} (hsolid : Solid ('"' :: used))
    (hread : ∀ tail, scanString (used ++ tail) = some (s, tail)) :
    Consumed parseValue (.scalar (.str s)) ('"' :: used) where
  toSolid := hsolid
  read := by
    intro n hn tail _
    obtain ⟨n, rfl⟩ : ∃ n', n = n' + 1 := ⟨n - 1, by rw [length_cons] at hn; omega⟩
    have hskip : skipSpace ('"' :: (used ++ tail)) = _ := skipSpace_cons (by decide) _
    simp only [cons_append, parseValue, hskip, hread, Option.map_some]

theorem parseValue_word (hspace : isSpace c = false) (hc : c ≠ '"' ∧ c ≠ '[' ∧ c ≠ '{') (n : Nat)
    (cs : List Char) : parseValue (n + 1) (c :: cs) = parseWord (c :: cs) := by
  rw [parseValue, skipSpace_cons hspace]
  simp [hc]

theorem opens_value : Opens parseValue ']' := by
  intro v used h hclose
  have hread := h.read (used.length + 1) (by omega) [] nofun
  rw [append_nil, parseValue] at hread
  cases hskip : skipSpace used with
  | nil =>
    rw [hskip] at hclose
    cases hclose
  | cons c rest =>
    rw [hskip] at hclose hread
    obtain rfl : c = ']' := Option.some.inj hclose
    simp [parseWord, isPrefixOf, isNumberChar, isNumber, isUnsigned] at hread

theorem opens_member : Opens (fun n => parseMember (parseValue n)) '}' := by
  intro v used h hclose
  have hread := h.read used.length (Nat.le_refl _) [] nofun
  rw [append_nil] at hread
  cases hskip : skipSpace used with
  | nil =>
    rw [hskip] at hclose
    cases hclose
  | cons c rest =>
    rw [hskip] at hclose
    obtain rfl : c = '}' := Option.some.inj hclose
    simp [parseMember, hskip] at hread

theorem consumed_group {α : Type} {p : Nat → List Char → Option (α × List Char)}
    {bracket close : Char} {value : List α → Value}
    (hvalue : ∀ n cs, parseValue (n + 1) (bracket :: cs) =
      (parseGroup (p n) close cs).map fun r => (value r.1, r.2))
    (hd : 'd' ≠ bracket) (hclose : Closes close) (hopens : Opens p close) {as : List α}
    (h : Group p close as used) :
    Consumed parseValue (value as) (bracket :: used) where
  toSolid := (h.solid hclose).append_left (clear_of_notMem (mt mem_singleton.mp hd))
  read := by
    intro n hn tail _
    rw [length_cons] at hn
    obtain ⟨n, rfl⟩ : ∃ n', n = n' + 1 := ⟨n - 1, by omega⟩
    rw [cons_append, hvalue, h.read hclose hopens n (by omega) tail]
    rfl

theorem consumed_array {vs : List Value} (h : Group parseValue ']' vs used) :
    Consumed parseValue (.arr vs) ('[' :: used) :=
  consumed_group (fun _ _ => rfl) (by decide) (.inl rfl) opens_value h

theorem consumed_object {ms : List (List Char × Value)}
    (h : Group (fun n => parseMember (parseValue n)) '}' ms used) :
    Consumed parseValue (.obj ms) ('{' :: used) :=
  consumed_group (fun _ _ => rfl) (by decide) (.inr rfl) opens_member h

/-- **What is read as a value is read so whatever follows.** -/
theorem parseValue_local (n : Nat) : Local parseValue (parseValue n) := by
  induction n with
  | zero => exact fun _ _ _ h => nomatch h
  | succ n ih =>
    intro cs v rest h
    obtain ⟨bs, hbs, hblank⟩ := skipSpace_split cs
    suffices ∃ used, skipSpace cs = used ++ rest ∧ Consumed parseValue v used by
      obtain ⟨used, hused, hconsumed⟩ := this
      exact ⟨bs ++ used, by rw [append_assoc, ← hused, ← hbs], consumed_blank hblank hconsumed⟩
    rw [parseValue] at h
    split at h
    · next cs' hskip =>
      obtain ⟨⟨s, rest'⟩, hs, heq⟩ := Option.map_eq_some_iff.mp h
      cases heq
      obtain ⟨used, rfl, hsolid, hread⟩ := scanString_local hs
      exact ⟨'"' :: used, hskip, consumed_string hsolid hread⟩
    · next cs' hskip =>
      obtain ⟨⟨vs, rest'⟩, hvs, heq⟩ := Option.map_eq_some_iff.mp h
      cases heq
      obtain ⟨used, rfl, hgroup⟩ := group_of_parse ih hvs
      exact ⟨'[' :: used, hskip, consumed_array hgroup⟩
    · next cs' hskip =>
      obtain ⟨⟨ms, rest'⟩, hms, heq⟩ := Option.map_eq_some_iff.mp h
      cases heq
      obtain ⟨used, rfl, hgroup⟩ := group_of_parse (parseMember_local ih) hms
      exact ⟨'{' :: used, hskip, consumed_object hgroup⟩
    · next hquote harray hobject =>
      obtain ⟨used, hused, hword⟩ := parseWord_local _ _ _ h
      refine ⟨used, hused, hword.toSolid, fun m hm tail htail => ?_⟩
      obtain ⟨c, used, rfl⟩ := exists_cons_of_ne_nil hword.ne_nil
      have hspace := head?_dropWhile_not isSpace cs
      rw [← skipSpace, hused] at hspace
      have hc : c ≠ '"' ∧ c ≠ '[' ∧ c ≠ '{' := by
        refine ⟨?_, ?_, ?_⟩ <;> rintro rfl
        · exact hquote _ hused
        · exact harray _ hused
        · exact hobject _ hused
      rw [length_cons] at hm
      obtain ⟨m, rfl⟩ : ∃ m', m = m' + 1 := ⟨m - 1, by omega⟩
      rw [cons_append, parseValue_word hspace hc]
      exact hword.read (m + 1) hm tail htail

/-! ## Texts -/

theorem consumed_of_parseValue {n : Nat} {text : List Char} (h : parseValue n text = some (v, [])) :
    Consumed parseValue v text := by
  obtain ⟨used, hused, hconsumed⟩ := parseValue_local n _ _ _ h
  rwa [append_nil, ← hused] at *

theorem parse_of_consumed (h : Consumed parseValue v used) (hrest : Ends rest) :
    parse (used ++ rest) = if skipSpace rest = [] then some v else none := by
  rw [parse, h.read _ (by simp) rest hrest]

theorem parse_consumed {text : List Char} (h : Consumed parseValue v text) :
    parse text = some v := by
  have hparse : parse (text ++ []) = _ := parse_of_consumed h nofun
  rwa [append_nil] at hparse

theorem Blank.ends (h : Blank bs) : Ends bs := by
  have hends : Ends (bs ++ []) := h.ends_append nofun
  rwa [append_nil] at hends

theorem consumed_of_parse (h : parse cs = some v) :
    ∃ used bs, cs = used ++ bs ∧ Consumed parseValue v used ∧ Blank bs := by
  rw [parse] at h
  split at h
  · next w rest hw =>
    obtain ⟨used, hused, hconsumed⟩ := parseValue_local _ _ _ _ hw
    split_ifs at h with hrest
    cases h
    exact ⟨used, rest, hused, hconsumed, skipSpace_eq_nil_iff.mp hrest⟩
  · cases h

/-- A text that is read has no line that begins with a `d`. -/
theorem clear_of_parse (h : parse cs = some v) : Clear cs := by
  obtain ⟨used, bs, rfl, hconsumed, hbs⟩ := consumed_of_parse h
  exact hconsumed.clear.append hbs.clear

theorem parse_append_of_parse {tail : List Char} (h : parse cs = some v)
    (htail : Ends tail) : parse (cs ++ tail) = if skipSpace tail = [] then some v else none := by
  obtain ⟨used, bs, rfl, hconsumed, hbs⟩ := consumed_of_parse h
  rw [append_assoc, parse_of_consumed hconsumed (hbs.ends_append htail), hbs.skipSpace_append]

/-- Blanks at the end of a text change nothing. -/
theorem parse_append_blank (cs : List Char) (hbs : Blank bs) : parse (cs ++ bs) = parse cs := by
  cases hcs : parse cs with
  | some v => rw [parse_append_of_parse hcs hbs.ends, if_pos (skipSpace_eq_nil_iff.mpr hbs)]
  | none =>
    rw [Option.eq_none_iff_forall_ne_some]
    intro v h
    obtain ⟨used, rest, heq, hconsumed, hrest⟩ := consumed_of_parse h
    rcases append_eq_append_iff.mp heq with ⟨x, hused, hx⟩ | ⟨x, rfl, rfl⟩
    · -- the end of `used` is no blank
      obtain ⟨c, hc, hspace⟩ := hconsumed.last
      rcases eq_or_ne x [] with rfl | hne
      · rw [append_nil] at hused
        rw [← hused, parse_consumed hconsumed] at hcs
        cases hcs
      · rw [hused, getLast?_append_of_ne_nil _ hne] at hc
        have hmem : c ∈ bs := by
          rw [hx]
          exact mem_append_left _ (mem_of_getLast? hc)
        exact Bool.false_ne_true (hspace.symm.trans (hbs c hmem))
    · have hx : Blank x := fun c hc => hrest c (mem_append_left _ hc)
      rw [parse_of_consumed hconsumed hx.ends, if_pos (skipSpace_eq_nil_iff.mpr hx)] at hcs
      cases hcs

/-! ## What the writer has written -/

theorem consumed_printScalar {v : Scalar} (hwf : v.Wf) :
    Consumed parseValue (.scalar v) (printScalar v) := by
  cases v with
  | str s =>
    apply consumed_of_parseValue (n := 1)
    have hskip : skipSpace ('"' :: (s.flatMap escapeChar ++ ['"'])) = _ :=
      skipSpace_cons (by decide) _
    simp [printScalar, printString, parseValue, hskip, scanString_escape]
  | bool b => cases b <;> exact consumed_of_parseValue (n := 1) rfl
  | num literal =>
    have hparse : parseWord (literal ++ []) = _ := parseWord_number hwf (fun _ hc => by cases hc)
    obtain ⟨d, ds, rfl, hd⟩ := isNumber_cons hwf.1
    have hspace := isSpace_of_isNumberChar (hwf.2 d mem_cons_self)
    have hhead : d ≠ '"' ∧ d ≠ '[' ∧ d ≠ '{' := by
      refine ⟨?_, ?_, ?_⟩ <;> rintro rfl <;> exact absurd hd (by decide)
    apply consumed_of_parseValue (n := 1)
    rw [printScalar, parseValue_word hspace hhead]
    rwa [append_nil] at hparse

theorem consumed_printMember {m : List Char × Scalar} (hwf : m.2.Wf) :
    Consumed (fun n => parseMember (parseValue n)) (m.1, .scalar m.2) (printMember m) := by
  obtain ⟨used, hused, hsolid, hread⟩ := scanString_local (scanString_escape m.1 [])
  have hmember := consumed_member blank_nil hsolid hread blank_nil (consumed_printScalar hwf)
  rw [append_nil] at hused
  rw [← hused] at hmember
  exact hmember

theorem elements_intercalate {α : Type} {p : Nat → List Char → Option (α × List Char)}
    {items : List (List Char × α)} (hne : items ≠ [])
    (h : ∀ item ∈ items, Consumed p item.2 item.1) (close : Char) :
    Elements p close (items.map Prod.snd) ([','].intercalate (items.map Prod.fst) ++ [close]) := by
  induction items with
  | nil => exact absurd rfl hne
  | cons item items ih =>
    have hitem := h item mem_cons_self
    by_cases hlast : items = []
    · subst hlast
      rw [map_singleton, map_singleton, intercalate_singleton]
      exact .last hitem blank_nil
    · have hmap : items.map Prod.fst ≠ [] := mt map_eq_nil_iff.mp hlast
      have hrest := ih hlast fun item' hitem' => h item' (mem_cons_of_mem item hitem')
      rw [map_cons, map_cons, intercalate_cons_of_ne_nil hmap, append_assoc, append_assoc]
      exact .cons hitem blank_nil hrest

theorem group_intercalate {α : Type} {p : Nat → List Char → Option (α × List Char)}
    {items : List (List Char × α)} (h : ∀ item ∈ items, Consumed p item.2 item.1) (close : Char) :
    Group p close (items.map Prod.snd) ([','].intercalate (items.map Prod.fst) ++ [close]) := by
  by_cases hne : items = []
  · subst hne
    exact .empty blank_nil
  · exact .elements (elements_intercalate hne h close)

def values (ms : List (List Char × Scalar)) : List (List Char × Value) :=
  ms.map fun (k, v) => (k, .scalar v)

theorem consumed_printObject {ms : List (List Char × Scalar)} (hwf : ∀ m ∈ ms, m.2.Wf) :
    Consumed parseValue (.obj (values ms)) (printObject ms) := by
  have hmembers : ∀ item ∈ ms.map fun m => (printMember m, (m.1, Value.scalar m.2)),
      Consumed (fun n => parseMember (parseValue n)) item.2 item.1 := by
    intro item hitem
    obtain ⟨m, hm, rfl⟩ := mem_map.mp hitem
    exact consumed_printMember (hwf m hm)
  have hgroup := group_intercalate hmembers '}'
  rw [map_map, map_map] at hgroup
  exact consumed_object hgroup

/-- **An object that was written is read back.** -/
theorem parse_printObject {ms : List (List Char × Scalar)} (hwf : ∀ m ∈ ms, m.2.Wf) :
    parse (printObject ms) = some (.obj (values ms)) := parse_consumed (consumed_printObject hwf)

/-- **An array that was written is read back**, if its items are. -/
theorem parse_printArray {items : List (List Char × Value)}
    (h : ∀ item ∈ items, Consumed parseValue item.2 item.1) :
    parse (printArray (items.map Prod.fst)) = some (.arr (items.map Prod.snd)) :=
  parse_consumed (consumed_array (group_intercalate h ']'))

end NatProxy.Lib.Json
