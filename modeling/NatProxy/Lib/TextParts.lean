import NatProxy.Lib.Text

/-!
# The parts of a text

What trimming leaves of a text, and the words of a text, which are its longest parts without a blank
(`strings.Fields`, and what remains of a split at runs of blanks when its empty parts are dropped).
-/

namespace NatProxy.Lib.TextParts

open Lib.Text List

variable {p : Char → Bool}

/-! ## Trimmed texts -/

structure Tight (p : Char → Bool) (s : List Char) : Prop where
  ne : s ≠ []
  head : ∀ c ∈ s.head?, p c = false
  last : ∀ c ∈ s.getLast?, p c = false

theorem length_trim_le (s : List Char) : (trim p s).length ≤ s.length :=
  (List.rdropWhile_prefix p (s.dropWhile p)).length_le.trans (dropWhile_suffix p).length_le

variable {s : List Char}

theorem trim_eq_self_of_length_le (h : s.length ≤ (trim p s).length) : trim p s = s := by
  have hback := List.rdropWhile_prefix p (s.dropWhile p)
  have hfront := dropWhile_suffix (l := s) p
  have hdrop : s.dropWhile p = s :=
    hfront.eq_of_length_le (h.trans hback.length_le)
  rw [hdrop] at hback
  have htrim : trim p s = s.rdropWhile p := by rw [trim, hdrop]
  rw [htrim] at h ⊢
  exact hback.eq_of_length_le h

theorem dropWhile_blanks {front : List Char} (hfront : ∀ c ∈ front, p c = true)
    (hs : ∀ c ∈ s.head?, p c = false) : (front ++ s).dropWhile p = s := by
  rw [dropWhile_append_of_pos hfront]
  cases s with
  | nil => rfl
  | cons c s =>
    have hc : p c = false := hs c rfl
    rw [dropWhile_cons_of_neg (by simp [hc])]

theorem Tight.trim (h : Tight p s) (front back : List Char) (hfront : ∀ c ∈ front, p c = true)
    (hback : ∀ c ∈ back, p c = true) : Text.trim p (front ++ s ++ back) = s := by
  have hhead : ∀ c ∈ (s ++ back).head?, p c = false := by
    rw [head?_append_of_ne_nil s h.ne]
    exact h.head
  have hlast : ∀ c ∈ s.reverse.head?, p c = false := by
    rw [head?_reverse]
    exact h.last
  have hblanks : ∀ c ∈ back.reverse, p c = true := by
    intro c hc
    exact hback c (mem_reverse.mp hc)
  rw [Text.trim, append_assoc, dropWhile_blanks hfront hhead, rdropWhile,
    reverse_append, dropWhile_blanks hblanks hlast, reverse_reverse]

theorem Tight.trim_self (h : Tight p s) : Text.trim p s = s := by
  have htrim := h.trim [] [] (by simp) (by simp)
  rwa [nil_append, append_nil] at htrim

theorem Tight.append {a b : List Char} (ha : Tight p a) (middle : List Char) (hb : Tight p b) :
    Tight p (a ++ middle ++ b) where
  ne := by simp [ha.ne]
  head := by
    rw [append_assoc, head?_append_of_ne_nil a ha.ne]
    exact ha.head
  last := by
    rw [getLast?_append_of_ne_nil _ hb.ne]
    exact hb.last

theorem tight_trim (h : trim p s ≠ []) : Tight p (trim p s) where
  ne := h
  head := by
    obtain ⟨rest, hrest⟩ := List.rdropWhile_prefix p (s.dropWhile p)
    have hhead : (s.dropWhile p).head? = (trim p s).head? := by
      rw [← hrest]
      exact head?_append_of_ne_nil _ h
    intro c hc
    rw [← hhead] at hc
    have hnot := head?_dropWhile_not p s
    rw [Option.mem_def.mp hc] at hnot
    simpa using hnot
  last := by
    intro c hc
    have hnot := rdropWhile_last_not p (s.dropWhile p) h
    rw [getLast?_eq_getLast_of_ne_nil h, Option.mem_some_iff] at hc
    rw [← hc, ← Bool.not_eq_true]
    exact hnot

theorem forall_of_trim_eq_nil (h : trim p s = []) : ∀ c ∈ s, p c = true := by
  have hrest := rdropWhile_eq_nil_iff.mp h
  intro c hc
  rw [← takeWhile_append_dropWhile (p := p) (l := s)] at hc
  rcases mem_append.mp hc with hc | hc
  · exact mem_takeWhile_imp hc
  · exact hrest c hc

/-! ## The last separator -/

variable {sep : Char}

theorem eq_of_cutLast {cs before after : List Char}
    (h : cutLast sep cs = some (before, after)) : cs = before ++ sep :: after := by
  by_cases hmem : sep ∈ cs
  · grind [exists_last_of_mem, cutLast_append]
  · rw [cutLast_of_notMem hmem] at h
    cases h

/-! ## Words -/

/-- `strings.FieldsFunc`. -/
def fields (p : Char → Bool) (cs : List Char) : List (List Char) :=
  (cs.splitOnP p).filter fun word => !word.isEmpty

theorem fields_append_cons (hsep : p sep = true) (xs ys : List Char) :
    fields p (xs ++ sep :: ys) = fields p xs ++ fields p ys := by
  rw [fields, splitOnP_append_cons xs ys hsep, filter_append]
  rfl

structure IsWord (p : Char → Bool) (word : List Char) : Prop where
  ne : word ≠ []
  chars : ∀ c ∈ word, p c = false

theorem IsWord.fields {word : List Char} (h : IsWord p word) : fields p word = [word] := by
  rw [TextParts.fields, splitOnP_eq_singleton h.chars]
  simp [h.ne]

theorem forall_mem_splitOnP (cs : List Char) :
    ∀ part ∈ cs.splitOnP p, ∀ c ∈ part, p c = false := by
  induction cs with
  | nil => simp [splitOnP_nil]
  | cons d cs ih =>
    rw [splitOnP_cons_eq_if_modifyHead]
    split_ifs with hd
    · grind
    · cases hsplit : cs.splitOnP p with
      | nil => simp
      | cons first parts =>
        rw [hsplit] at ih
        rw [modifyHead_cons]
        intro part hpart c hc
        rcases mem_cons.mp hpart with rfl | hpart
        · rcases mem_cons.mp hc with rfl | hc
          · simpa using hd
          · exact ih first mem_cons_self c hc
        · exact ih part (mem_cons_of_mem first hpart) c hc

theorem isWord_of_mem_fields {cs word : List Char} (h : word ∈ fields p cs) : IsWord p word := by
  obtain ⟨hmem, hne⟩ := mem_filter.mp h
  exact ⟨by simpa using hne, forall_mem_splitOnP cs word hmem⟩

theorem fields_cons_ne_nil {c : Char} (hc : p c = false) (cs : List Char) :
    fields p (c :: cs) ≠ [] := by
  obtain ⟨first, parts, hparts⟩ := exists_cons_of_ne_nil (splitOnP_ne_nil p cs)
  rw [fields, splitOnP_cons_eq_if_modifyHead, hc, if_neg Bool.false_ne_true, hparts,
    modifyHead_cons, filter_cons_of_pos (by simp)]
  exact cons_ne_nil _ _

theorem fields_intercalate (hsep : p sep = true) {words : List (List Char)}
    (h : ∀ word ∈ words, IsWord p word) : fields p ([sep].intercalate words) = words := by
  induction words with
  | nil => rfl
  | cons word words ih =>
    have hword := h word mem_cons_self
    have hwords := ih fun w hw => h w (mem_cons_of_mem word hw)
    by_cases hnil : words = []
    · subst hnil
      rw [intercalate_singleton]
      exact hword.fields
    · rw [intercalate_cons_of_ne_nil hnil, append_assoc, singleton_append,
        fields_append_cons hsep, hword.fields, hwords]
      rfl

theorem length_intercalate_splitOnP (sep : Char) (cs : List Char) :
    ([sep].intercalate (cs.splitOnP p)).length = cs.length := by
  induction cs with
  | nil => rfl
  | cons c cs ih =>
    obtain ⟨first, parts, hparts⟩ := exists_cons_of_ne_nil (splitOnP_ne_nil p cs)
    rw [splitOnP_cons_eq_if_modifyHead, hparts]
    rw [hparts] at ih
    split_ifs with hc
    · rw [intercalate_cons_of_ne_nil (cons_ne_nil _ _)]
      simp [ih]
    · simp_all

theorem length_intercalate_fields_le (sep : Char) (cs : List Char) :
    ([sep].intercalate (fields p cs)).length ≤ cs.length := by
  have hfilter : ∀ parts : List (List Char),
      ([sep].intercalate (parts.filter fun word => !word.isEmpty)).length ≤
        ([sep].intercalate parts).length := by
    intro parts
    induction parts with
    | nil => exact Nat.le_refl _
    | cons part parts ih =>
      by_cases hparts : parts = []
      · subst hparts
        cases part <;> simp
      · rw [intercalate_cons_of_ne_nil hparts]
        cases part with
        | nil =>
          grind
        | cons c part =>
          rw [filter_cons_of_pos (by simp)]
          by_cases hrest : (parts.filter fun word => !word.isEmpty) = []
          · rw [hrest, intercalate_singleton]
            simp only [length_append]
            omega
          · rw [intercalate_cons_of_ne_nil hrest]
            simp only [length_append]
            omega
  rw [← length_intercalate_splitOnP (p := p) sep cs]
  exact hfilter _

end NatProxy.Lib.TextParts
