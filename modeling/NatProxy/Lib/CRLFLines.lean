import Mathlib.Data.List.Infix
import Mathlib.Data.List.Flatten

/-!
# Lines that end in CRLF

`splitLines` is `strings.Split` at CRLF, `joinLines` is `strings.Join` with it, and `index` is
`strings.Index`, with the two parts of the text instead of a position. A line is a text without
CRLF. It may start with `\n` and end in `\r`: the CRLF after it is found all the same, so lines
that are joined are split again (`splitLines_joinLines`, `splitLines_text`). A pattern without `\r`
and `\n` that does not stand in a line is found after it (`index_line`).
-/

namespace NatProxy.Lib.CRLFLines

open List

def crlf : List Char := ['\r', '\n']

def splitLines : List Char → List (List Char)
  | [] => [[]]
  | '\r' :: '\n' :: cs => [] :: splitLines cs
  | c :: cs => (splitLines cs).modifyHead (c :: ·)

def joinLines (lines : List (List Char)) : List Char := crlf.intercalate lines

def text (lines : List (List Char)) : List Char := lines.flatMap (· ++ crlf)

def IsLine (line : List Char) : Prop := ¬ crlf <:+: line

section

variable {c : Char} {line rest : List Char} {lines : List (List Char)}

theorem isLine_of_notMem (h : '\r' ∉ line) : IsLine line := by
  intro hin
  exact h (hin.subset mem_cons_self)

theorem IsLine.tail (h : IsLine (c :: line)) : IsLine line := by
  intro hin
  exact h (hin.trans (suffix_cons c line).isInfix)

theorem splitLines_cons (h : c = '\r' → rest.head? ≠ some '\n') :
    splitLines (c :: rest) = (splitLines rest).modifyHead (c :: ·) := by
  rw [splitLines]
  rintro cs rfl rfl
  exact h rfl rfl

theorem splitLines_line (h : IsLine line) (rest : List Char) (hrest : rest.head? ≠ some '\n') :
    splitLines (line ++ rest) = (splitLines rest).modifyHead (line ++ ·) := by
  induction line with
  | nil =>
    rw [nil_append]
    cases splitLines rest with
    | nil | cons first others => rfl
  | cons c line ih =>
    have hnext : c = '\r' → (line ++ rest).head? ≠ some '\n' := by
      rintro rfl hhead
      cases line with
      | nil => exact hrest hhead
      | cons d line =>
        obtain rfl : d = '\n' := Option.some.inj hhead
        exact h ⟨[], line, rfl⟩
    rw [cons_append, splitLines_cons hnext, ih h.tail, modifyHead_modifyHead]
    rfl

theorem splitLines_of_isLine (h : IsLine line) : splitLines line = [line] := by
  have hsplit := splitLines_line h [] (by simp)
  rw [append_nil] at hsplit
  rw [hsplit, splitLines, modifyHead_cons, append_nil]

theorem splitLines_append (h : IsLine line) (rest : List Char) :
    splitLines (line ++ crlf ++ rest) = line :: splitLines rest := by
  rw [append_assoc, splitLines_line h _ (by simp [crlf])]
  show modifyHead _ ([] :: splitLines rest) = _
  rw [modifyHead_cons, append_nil]

theorem head?_of_splitLines {cs : List Char} (h : splitLines cs = (c :: line) :: lines) :
    cs.head? = some c := by
  fun_cases splitLines cs with
  | case1 | case2 cs => cases h
  | case3 d cs hnext =>
    rw [splitLines] at h
    · cases hsplit : splitLines cs with
      | nil =>
        rw [hsplit] at h
        cases h
      | cons first others =>
        rw [hsplit, modifyHead_cons] at h
        cases h
        rfl
    · exact hnext

theorem isLine_of_mem_splitLines {cs : List Char} : ∀ line ∈ splitLines cs, IsLine line := by
  fun_induction splitLines cs with
  | case1 => simp [IsLine, crlf]
  | case2 cs ih => exact forall_mem_cons.mpr ⟨by simp [IsLine, crlf], ih⟩
  | case3 c cs hnext ih =>
    cases hsplit : splitLines cs with
    | nil => simp
    | cons first others =>
      rw [hsplit, forall_mem_cons] at ih
      refine forall_mem_cons.mpr ⟨fun hin => ?_, ih.2⟩
      -- the CRLF would start with `c`, and the text would go on with `\n`
      rcases infix_cons_iff.mp hin with hstart | hlater
      · obtain ⟨rfl, more, rfl⟩ := cons_prefix_cons.mp hstart
        obtain ⟨cs, rfl⟩ := head?_eq_some_iff.mp (head?_of_splitLines hsplit)
        exact hnext cs rfl rfl
      · exact ih.1 hlater

theorem splitLines_text (h : ∀ line ∈ lines, IsLine line) :
    splitLines (text lines) = lines ++ [[]] := by
  induction lines with
  | nil => rfl
  | cons line lines ih =>
    rw [text, flatMap_cons, splitLines_append (h line mem_cons_self)]
    exact congrArg (line :: ·) (ih fun l hl => h l (mem_cons_of_mem line hl))

theorem splitLines_joinLines (h : ∀ line ∈ lines, IsLine line) (hne : lines ≠ []) :
    splitLines (joinLines lines) = lines := by
  induction lines with
  | nil => exact absurd rfl hne
  | cons line lines ih =>
    have hline := h line mem_cons_self
    by_cases hnil : lines = []
    · subst hnil
      rw [joinLines, intercalate_singleton, splitLines_of_isLine hline]
    · rw [joinLines, intercalate_cons_of_ne_nil hnil, splitLines_append hline]
      exact congrArg (line :: ·) (ih (fun l hl => h l (mem_cons_of_mem line hl)) hnil)

theorem joinLines_concat_nil (lines : List (List Char)) :
    joinLines (lines ++ [[]]) = text lines := by
  induction lines with
  | nil => rfl
  | cons line lines ih =>
    rw [joinLines, cons_append, intercalate_cons_of_ne_nil (by simp), text, flatMap_cons]
    exact congrArg (line ++ crlf ++ ·) ih

theorem joinLines_append_crlf (h : lines ≠ []) :
    joinLines lines ++ crlf = text lines := by
  induction lines with
  | nil => exact absurd rfl h
  | cons line lines ih =>
    by_cases hnil : lines = []
    · subst hnil
      simp [joinLines, text]
    · rw [joinLines, intercalate_cons_of_ne_nil hnil, append_assoc]
      exact congrArg (line ++ crlf ++ ·) (ih hnil)

theorem text_injective {others : List (List Char)} (h : ∀ line ∈ lines, IsLine line)
    (hothers : ∀ line ∈ others, IsLine line) (heq : text lines = text others) :
    lines = others := by
  have hsplit := congrArg splitLines heq
  rw [splitLines_text h, splitLines_text hothers] at hsplit
  exact append_cancel_right hsplit

end

/-! ## A pattern that stands in no line -/

section

variable {pat line rest : List Char} {sep : Char}

/-- The text before the first `pat`, and the text from there on. -/
def index (pat : List Char) : List Char → Option (List Char × List Char)
  | [] => if pat = [] then some ([], []) else none
  | c :: cs =>
    if pat.isPrefixOf (c :: cs) then some ([], c :: cs)
    else (index pat cs).map fun (before, rest) => (c :: before, rest)

theorem prefix_of_prefix_append_cons (hsep : sep ∉ pat) (h : pat <+: line ++ sep :: rest) :
    pat <+: line := by
  rcases prefix_or_prefix_of_prefix h (prefix_append line (sep :: rest)) with hp | hp
  · exact hp
  · obtain ⟨more, rfl⟩ := hp
    rw [prefix_append_right_inj] at h
    cases more with
    | nil => rw [append_nil]
    | cons d more =>
      obtain ⟨rfl, -⟩ := cons_prefix_cons.mp h
      exact absurd (by simp) hsep

theorem index_append_cons (hsep : sep ∉ pat) (h : ¬ pat <:+: line) (rest : List Char) :
    index pat (line ++ sep :: rest) =
      (index pat rest).map fun (before, rest) => (line ++ sep :: before, rest) := by
  have hno : ∀ front, ¬ pat <:+: front → ¬ pat.isPrefixOf (front ++ sep :: rest) = true := by
    intro front hfront
    rw [List.isPrefixOf_iff_prefix]
    exact fun hp => hfront (prefix_of_prefix_append_cons hsep hp).isInfix
  induction line with
  | nil =>
    have hfirst := hno [] h
    rw [nil_append] at hfirst ⊢
    rw [index, if_neg hfirst]
    rfl
  | cons c line ih =>
    have hline : ¬ pat <:+: line := fun hp => h (hp.trans (suffix_cons c line).isInfix)
    have hfirst := hno (c :: line) h
    rw [cons_append] at hfirst ⊢
    rw [index, if_neg hfirst, ih hline, Option.map_map]
    rfl

theorem index_line (hpat : ∀ c ∈ crlf, c ∉ pat) (h : ¬ pat <:+: line) :
    index pat (line ++ crlf ++ rest) =
      (index pat rest).map fun (before, rest) => (line ++ crlf ++ before, rest) := by
  have hnil : ¬ pat <:+: [] := fun hp => h (hp.trans (nil_suffix.isInfix))
  have hnewline := index_append_cons (hpat '\n' (by simp [crlf])) hnil rest
  rw [nil_append] at hnewline
  rw [crlf, append_assoc, cons_append, cons_append, nil_append,
    index_append_cons (hpat '\r' (by simp [crlf])) h, hnewline, Option.map_map]
  simp [Function.comp_def]

theorem index_self (hne : pat ≠ []) : index pat (pat ++ rest) = some ([], pat ++ rest) := by
  obtain ⟨c, cs, rfl⟩ := exists_cons_of_ne_nil hne
  rw [cons_append, index, if_pos]
  rw [List.isPrefixOf_iff_prefix]
  exact prefix_append (c :: cs) rest

end

end NatProxy.Lib.CRLFLines
