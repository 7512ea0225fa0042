import Mathlib.Data.List.Basic

/-!
# Text that arrives in pieces and is split at blank lines

`splitBlank` splits a text at each blank line, from left to right: the parts before the last one are
complete, the last one is what has been read of the next. A reader that appends what arrives to the
last part and splits again gets the same parts as one that splits all of it at once
(`splitBlank_append`), wherever the pieces are cut.
-/

namespace NatProxy.Lib.BlankLines

open List

def onFirst (front : List Char) : List (List Char) → List (List Char)
  | [] => [front]
  | part :: parts => (front ++ part) :: parts

/-- `split('\n\n')`. -/
def splitBlank : List Char → List (List Char)
  | [] => [[]]
  | '\n' :: '\n' :: cs => [] :: splitBlank cs
  | c :: cs => onFirst [c] (splitBlank cs)

theorem onFirst_ne (front : List Char) (parts : List (List Char)) : onFirst front parts ≠ [] := by
  cases parts with
  | nil | cons part parts => exact cons_ne_nil _ _

theorem splitBlank_ne (cs : List Char) : splitBlank cs ≠ [] := by
  fun_cases splitBlank cs with
  | case1 | case2 rest => exact cons_ne_nil _ _
  | case3 c rest hblank => exact onFirst_ne _ _

theorem exists_splitBlank (cs : List Char) : ∃ part parts, splitBlank cs = part :: parts :=
  exists_cons_of_ne_nil (splitBlank_ne cs)

theorem splitBlank_cons {c : Char} {cs : List Char} (h : c = '\n' → cs.head? ≠ some '\n') :
    splitBlank (c :: cs) = onFirst [c] (splitBlank cs) := by
  rw [splitBlank]
  rintro rest rfl rfl
  exact h rfl rfl

theorem eq_of_splitBlank {cs part : List Char} (h : splitBlank cs = [part]) : part = cs := by
  fun_induction splitBlank cs generalizing part with
  | case1 =>
    cases h
    rfl
  | case2 rest ih => exact absurd (cons.inj h).2 (splitBlank_ne rest)
  | case3 c cs hblank ih =>
    obtain ⟨first, others, hsplit⟩ := exists_splitBlank cs
    rw [hsplit] at h
    obtain ⟨rfl, rfl⟩ := cons.inj h
    rw [ih hsplit]
    rfl

/-- **Splitting goes on where it stopped.** The parts that were complete stay, and the last one is
continued. -/
theorem splitBlank_append {cs tail : List Char} {parts : List (List Char)}
    (h : splitBlank cs = parts ++ [tail]) (more : List Char) :
    splitBlank (cs ++ more) = parts ++ splitBlank (tail ++ more) := by
  cases parts with
  | nil =>
    rw [nil_append] at h ⊢
    rw [eq_of_splitBlank h]
  | cons part parts =>
    -- the parts are taken off one character at a time, as they were found
    fun_induction splitBlank cs generalizing part parts with
    | case1 => exact absurd (cons.inj h).2.symm (by simp)
    | case2 rest ih =>
      obtain ⟨rfl, hrest⟩ := cons.inj h
      show [] :: splitBlank (rest ++ more) = _
      cases parts with
      | nil =>
        rw [eq_of_splitBlank hrest]
        rfl
      | cons part parts =>
        rw [ih part parts hrest]
        rfl
    | case3 c cs hblank ih =>
      obtain ⟨first, others, hsplit⟩ := exists_splitBlank cs
      rw [hsplit] at h
      obtain ⟨hpart, rfl⟩ := cons.inj h
      have hnext : c = '\n' → (cs ++ more).head? ≠ some '\n' := by
        rintro rfl
        cases cs with
        | nil =>
          -- a single character has no second part
          exact absurd (cons.inj hsplit).2.symm (by simp)
        | cons d cs => exact fun hd => hblank cs rfl (congrArg (· :: cs) (Option.some.inj hd))
      rw [cons_append, splitBlank_cons hnext, ih first parts hsplit, ← hpart]
      rfl

theorem splitBlank_line {line : List Char} (h : '\n' ∉ line) (rest : List Char) :
    splitBlank (line ++ rest) = onFirst line (splitBlank rest) := by
  obtain ⟨part, parts, hsplit⟩ := exists_splitBlank rest
  rw [hsplit]
  induction line with
  | nil => exact hsplit
  | cons c line ih =>
    have hc : c ≠ '\n' := fun heq => h (heq ▸ mem_cons_self)
    have hline := ih fun hmem => h (mem_cons_of_mem c hmem)
    rw [cons_append, splitBlank_cons fun heq => absurd heq hc, hline]
    rfl

theorem splitBlank_newline {line : List Char} (hne : line ≠ []) (h : '\n' ∉ line)
    (rest : List Char) :
    splitBlank ('\n' :: (line ++ rest)) = onFirst ('\n' :: line) (splitBlank rest) := by
  have hnext : '\n' = '\n' → (line ++ rest).head? ≠ some '\n' := by
    intro _ hhead
    obtain ⟨c, line, rfl⟩ := exists_cons_of_ne_nil hne
    exact h (Option.some.inj hhead ▸ mem_cons_self)
  obtain ⟨part, parts, hsplit⟩ := exists_splitBlank rest
  rw [splitBlank_cons hnext, splitBlank_line h, hsplit]
  rfl

end NatProxy.Lib.BlankLines
