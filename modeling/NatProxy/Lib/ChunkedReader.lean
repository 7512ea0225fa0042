import Mathlib.Data.List.Basic

/-!
# Reading a stream that comes in chunks

A `Reader` gives the items of a stream by calls of `read`, which may return fewer items than asked
for, none at all, or the end together with the last items. How the calls answer is a list that the
reader carries, so a statement about every reader is one about every way to cut the stream. A call
that has used up the list gives what it is asked for.

`readFull` is a loop that fills a buffer, and `copyN` one that throws away a number of items. Both
depend on the stream alone and take from it exactly what they return (`readFull_eq`, `copyN_eq`).
-/

namespace NatProxy.Lib.ChunkedReader

open List

variable {α : Type}

/-- A call gives at most `most` items, and with `eof` the end as soon as no item is left. -/
structure Answer where
  most : Nat
  eof : Bool
deriving DecidableEq, Repr

/-- What is left of a stream, and how the next calls answer. -/
structure Reader (α : Type) where
  rest : List α
  answers : List Answer
deriving DecidableEq, Repr

structure Given (α : Type) where
  items : List α
  eof : Bool
  reader : Reader α

/-- `Read` with a buffer of `n` items. -/
def Reader.read (r : Reader α) (n : Nat) : Given α :=
  match r.answers with
  | [] => ⟨r.rest.take n, (r.rest.drop n).isEmpty, ⟨r.rest.drop n, []⟩⟩
  | a :: answers =>
    let k := min n a.most
    ⟨r.rest.take k, (r.rest.drop k).isEmpty && a.eof, ⟨r.rest.drop k, answers⟩⟩

theorem read_spec (r : Reader α) (n : Nat) :
    r.rest = (r.read n).items ++ (r.read n).reader.rest ∧ (r.read n).items.length ≤ n ∧
      ((r.read n).eof = true → (r.read n).reader.rest = []) := by
  unfold Reader.read
  cases r.answers with
  | nil =>
    refine ⟨(take_append_drop _ _).symm, length_take_le _ _, fun h => ?_⟩
    exact List.isEmpty_iff.mp h
  | cons a answers =>
    refine ⟨(take_append_drop _ _).symm, ?_, fun h => ?_⟩
    · exact Nat.le_trans (length_take_le _ _) (Nat.min_le_left _ _)
    · exact List.isEmpty_iff.mp (Bool.and_eq_true_iff.mp h).1

theorem read_progress {r : Reader α} {n : Nat} (h : (r.read n).eof = false) :
    (r.read n).reader.answers.length < r.answers.length ∨
      (r.read n).reader.answers.length = r.answers.length ∧ (r.read n).items.length = n := by
  unfold Reader.read at h ⊢
  cases hanswers : r.answers with
  | cons a answers => exact .inl (Nat.lt_succ_self _)
  | nil =>
    rw [hanswers] at h
    refine .inr ⟨rfl, length_take_of_le ?_⟩
    have hne : r.rest.drop n ≠ [] := isEmpty_eq_false_iff.mp h
    exact Nat.le_of_lt (drop_eq_nil_iff.not.mp hne |> Nat.lt_of_not_le)

/-- How much of what is missing a loop asks for in one call. -/
structure Window where
  size : Nat → Nat
  pos : ∀ n, 0 < n → 0 < size n
  le : ∀ n, size n ≤ n

/-- Reads until `left` items have been given or the end is told. -/
def Reader.gather (w : Window) (left : Nat) (r : Reader α) : List α × Reader α :=
  if left = 0 then ([], r)
  else
    let given := r.read (w.size left)
    if given.eof = true then (given.items, given.reader)
    else
      let later := given.reader.gather w (left - given.items.length)
      (given.items ++ later.1, later.2)
termination_by r.answers.length + left
decreasing_by
  rename_i hleft hopen
  have hpos := w.pos left (Nat.pos_of_ne_zero hleft)
  rcases read_progress (Bool.eq_false_iff.mpr hopen) with hless | ⟨hsame, hall⟩
  · omega
  · omega

/-- **The loop depends on the stream alone.** -/
theorem gather_eq (w : Window) (left : Nat) (r : Reader α) :
    (r.gather w left).1 = r.rest.take left ∧ (r.gather w left).2.rest = r.rest.drop left := by
  induction left, r using Reader.gather.induct w with
  | case1 r =>
    rw [Reader.gather, if_pos rfl]
    exact ⟨rfl, rfl⟩
  | case2 left r hleft given hend =>
    obtain ⟨hrest, hlen, hnone⟩ := read_spec r (w.size left)
    have hempty := hnone hend
    rw [Reader.gather, if_neg hleft]
    dsimp only
    rw [if_pos hend]
    rw [hempty, append_nil] at hrest
    have hall : r.rest.length ≤ left := by
      rw [hrest]
      exact Nat.le_trans hlen (w.le left)
    rw [take_of_length_le hall, drop_eq_nil_of_le hall]
    exact ⟨hrest.symm, hempty⟩
  | case3 left r hleft given hopen ih =>
    obtain ⟨hrest, hlen, -⟩ := read_spec r (w.size left)
    have hle : (r.read (w.size left)).items.length ≤ left :=
      Nat.le_trans hlen (w.le left)
    rw [Reader.gather, if_neg hleft]
    dsimp only
    rw [if_neg hopen]
    dsimp only
    rw [ih.1, ih.2]
    -- the first call gave the front of the stream, and the later ones what is missing
    constructor
    · conv_rhs => rw [hrest, take_append, take_of_length_le hle]
    · conv_rhs => rw [hrest, drop_append, drop_eq_nil_of_le hle, nil_append]

/-! ## Filling a buffer -/

inductive ReadError where
  | eof
  | unexpectedEOF
deriving DecidableEq, Repr

def Window.whole : Window where
  size n := n
  pos _ h := h
  le n := Nat.le_refl n

/-- `io.ReadFull` with a buffer of `n` items. -/
def Reader.readFull (r : Reader α) (n : Nat) : Except ReadError (List α) × Reader α :=
  let got := r.gather .whole n
  if n ≤ got.1.length then (.ok got.1, got.2)
  else (.error (if got.1.isEmpty then .eof else .unexpectedEOF), got.2)

def fullOf (n : Nat) (stream : List α) : Except ReadError (List α) :=
  if n ≤ stream.length then .ok (stream.take n)
  else .error (if stream.isEmpty then .eof else .unexpectedEOF)

theorem readFull_eq (r : Reader α) (n : Nat) :
    (r.readFull n).1 = fullOf n r.rest ∧ (r.readFull n).2.rest = r.rest.drop n := by
  obtain ⟨hgot, hrest⟩ := gather_eq .whole n r
  unfold Reader.readFull fullOf
  dsimp only
  rw [hgot, length_take]
  by_cases hn : n ≤ r.rest.length
  · rw [if_pos hn, if_pos (Nat.le_min.mpr ⟨Nat.le_refl n, hn⟩)]
    exact ⟨rfl, hrest⟩
  · have hall : r.rest.take n = r.rest := take_of_length_le (Nat.le_of_not_le hn)
    rw [if_neg hn, if_neg fun h => hn (Nat.le_min.mp h).2, hall]
    exact ⟨rfl, hrest⟩

/-! ## Throwing items away -/

def Window.discard : Window where
  size n := min n 8192
  pos n h := Nat.lt_min.mpr ⟨h, by decide⟩
  le n := Nat.min_le_left n 8192

/-- `io.CopyN(io.Discard, r, n)`. -/
def Reader.copyN (r : Reader α) (n : Nat) : Except ReadError Unit × Reader α :=
  let got := r.gather .discard n
  if got.1.length = n then (.ok (), got.2) else (.error .eof, got.2)

theorem copyN_eq (r : Reader α) (n : Nat) :
    (r.copyN n).1 = (if n ≤ r.rest.length then .ok () else .error .eof) ∧
      (r.copyN n).2.rest = r.rest.drop n := by
  obtain ⟨hgot, hrest⟩ := gather_eq .discard n r
  unfold Reader.copyN
  dsimp only
  rw [hgot, length_take]
  by_cases hn : n ≤ r.rest.length
  · rw [if_pos hn, if_pos (Nat.min_eq_left hn)]
    exact ⟨rfl, hrest⟩
  · rw [if_neg hn, if_neg (by omega)]
    exact ⟨rfl, hrest⟩

end NatProxy.Lib.ChunkedReader
