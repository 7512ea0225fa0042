import Mathlib.Data.List.Infix
import Mathlib.Tactic.SplitIfs

/-!
# Reading a stream line by line

A scanner cuts a stream at a separator. It has a buffer of `limit` elements: a line that does not
fit in it, together with its separator, ends the scan. The stream is what has arrived so far, so a
line without its separator has not been read.

`scanLines_flatMap`: the lines before the first that does not fit are read as they were written.
-/

namespace NatProxy.Lib.LineScanner

open List

variable {α : Type} [DecidableEq α] (sep : α) (limit : Nat)

/-- The lines that are read when `line` is in the buffer, and whether one was too long. -/
def scanFrom (line : List α) : List α → List (List α) × Bool
  | [] => ([], false)
  | c :: cs =>
    if c = sep then (line :: (scanFrom [] cs).1, (scanFrom [] cs).2)
    else if limit ≤ line.length + 1 then ([], true)
    else scanFrom (line ++ [c]) cs

def scanLines (stream : List α) : List (List α) × Bool := scanFrom sep limit [] stream

variable {sep limit}

theorem scanFrom_append {line content : List α} (hsep : sep ∉ content)
    (hfits : line.length + content.length < limit) (rest : List α) :
    scanFrom sep limit line (content ++ sep :: rest) =
      ((line ++ content) :: (scanLines sep limit rest).1, (scanLines sep limit rest).2) := by
  induction content generalizing line with
  | nil =>
    rw [nil_append, scanFrom, if_pos rfl, append_nil]
    rfl
  | cons c content ih =>
    have hc : c ≠ sep := fun heq => hsep (heq ▸ mem_cons_self)
    rw [length_cons] at hfits
    have hroom : ¬ limit ≤ line.length + 1 := by omega
    have hgrown : (line ++ [c]).length + content.length < limit := by
      rw [length_append, length_singleton]
      omega
    have hrest := ih (fun hmem => hsep (mem_cons_of_mem c hmem)) hgrown
    rw [cons_append, scanFrom, if_neg hc, if_neg hroom, hrest, append_assoc]
    rfl

theorem scanLines_append {content : List α} (hsep : sep ∉ content)
    (hfits : content.length < limit) (rest : List α) :
    scanLines sep limit (content ++ sep :: rest) =
      (content :: (scanLines sep limit rest).1, (scanLines sep limit rest).2) := by
  have hfits' : ([] : List α).length + content.length < limit := by
    rw [length_nil]
    omega
  exact scanFrom_append hsep hfits' rest

theorem scanFrom_long {line content : List α} (hsep : sep ∉ content) (hline : line.length < limit)
    (hlong : limit ≤ line.length + content.length) (rest : List α) :
    scanFrom sep limit line (content ++ rest) = ([], true) := by
  induction content generalizing line with
  | nil =>
    rw [length_nil] at hlong
    omega
  | cons c content ih =>
    have hc : c ≠ sep := fun heq => hsep (heq ▸ mem_cons_self)
    rw [cons_append, scanFrom, if_neg hc]
    by_cases hfull : limit ≤ line.length + 1
    · rw [if_pos hfull]
    · rw [if_neg hfull]
      have hgrown : (line ++ [c]).length = line.length + 1 := by
        rw [length_append, length_singleton]
      apply ih
      · exact fun hmem => hsep (mem_cons_of_mem c hmem)
      · omega
      · rw [length_cons] at hlong
        omega

/-- **The lines before the first that does not fit are read as they were written.** -/
theorem scanLines_flatMap (hlimit : 0 < limit) {lines : List (List α)}
    (h : ∀ line ∈ lines, sep ∉ line) :
    scanLines sep limit (lines.flatMap fun line => line ++ [sep]) =
      (lines.takeWhile (·.length < limit), !lines.all (·.length < limit)) := by
  induction lines with
  | nil => rfl
  | cons line lines ih =>
    have hsep := h line mem_cons_self
    have hrest := ih fun line' hline' => h line' (mem_cons_of_mem line hline')
    rw [flatMap_cons, append_assoc, singleton_append, takeWhile_cons, all_cons]
    by_cases hfits : line.length < limit
    · simp only [scanLines_append hsep hfits, hrest, hfits, decide_true, if_true, Bool.true_and]
    · have hlong : limit ≤ ([] : List α).length + line.length := by
        rw [length_nil]
        omega
      rw [scanLines, scanFrom_long hsep hlimit hlong, decide_eq_false hfits]
      rfl

/-- A line that is read stands behind a separator, or at the beginning. -/
theorem infix_of_mem_scanFrom {front stream line : List α}
    (h : line ∈ (scanFrom sep limit front stream).1) :
    sep :: line <:+: sep :: front ++ stream := by
  induction stream generalizing front with
  | nil => cases h
  | cons c stream ih =>
    unfold scanFrom at h
    split_ifs at h with hc hfull
    · rcases mem_cons.mp h with rfl | h
      · exact (prefix_append _ _).isInfix
      · rw [hc]
        exact (ih h).trans (suffix_append _ _).isInfix
    · cases h
    · have hinfix := ih h
      rwa [← cons_append, append_assoc] at hinfix

end NatProxy.Lib.LineScanner
