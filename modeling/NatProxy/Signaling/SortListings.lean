import NatProxy.Lib.Swaps

/-!
# The order of the listings

Model of `sortByUpdatedDesc` in `signalserver/cmd/signalserver/main.go`. The inner loop brings the
newest of the listings from `i` on to the place `i`, by an exchange each time it meets a newer one.
What it does to the part that is not sorted yet is `pass`, and `sortByUpdatedDesc_sorts` follows by
an induction over the length of this part.
-/

namespace NatProxy.Signaling.SortListings

open List Lib.Swaps

variable {Listing : Type} (updatedAt : Listing → Int)

/-- The body of the inner loop: `list[j].UpdatedAt.After(list[i].UpdatedAt)` is asked. -/
def exchange (i : Nat) (list : List Listing) (j : Nat) : List Listing :=
  match list[i]?, list[j]? with
  | some x, some y => if updatedAt x < updatedAt y then list.swap i j else list
  | _, _ => list

def innerLoop (list : List Listing) (i : Nat) : List Listing :=
  (range' (i + 1) (list.length - (i + 1))).foldl (exchange updatedAt i) list

def sortByUpdatedDesc (list : List Listing) : List Listing :=
  (range' 0 list.length).foldl (innerLoop updatedAt) list

/-- What the inner loop makes of the listing at the place `i` and of those behind it. -/
def pass (x : Listing) : List Listing → Listing × List Listing
  | [] => (x, [])
  | y :: ys =>
    if updatedAt x < updatedAt y then ((pass y ys).1, x :: (pass y ys).2)
    else ((pass x ys).1, y :: (pass x ys).2)

theorem pass_perm (x : Listing) (ys : List Listing) :
    ((pass updatedAt x ys).1 :: (pass updatedAt x ys).2).Perm (x :: ys) := by
  induction ys generalizing x with
  | nil => exact .refl _
  | cons y ys ih =>
    rw [pass]
    split_ifs with hnewer
    · exact (List.Perm.swap _ _ _).trans ((ih y).cons x)
    · exact (List.Perm.swap _ _ _).trans (((ih x).cons y).trans (.swap _ _ _))

theorem le_pass (x : Listing) (ys : List Listing) :
    ∀ z ∈ x :: ys, updatedAt z ≤ updatedAt (pass updatedAt x ys).1 := by
  induction ys generalizing x with
  | nil => simp [pass]
  | cons y ys ih =>
    rw [pass]
    split_ifs with hnewer
    · have hy := forall_mem_cons.mp (ih y)
      exact forall_mem_cons.mpr ⟨Int.le_trans (Int.le_of_lt hnewer) hy.1, ih y⟩
    · have hx := forall_mem_cons.mp (ih x)
      have hyx := Int.le_trans (Int.not_lt.mp hnewer) hx.1
      exact forall_mem_cons.mpr ⟨hx.1, forall_mem_cons.mpr ⟨hyx, hx.2⟩⟩

theorem foldl_exchange (front middle ys : List Listing) (x : Listing) :
    (range' (front.length + (middle.length + 1)) ys.length).foldl
        (exchange updatedAt front.length) (front ++ x :: (middle ++ ys)) =
      front ++ (pass updatedAt x ys).1 :: (middle ++ (pass updatedAt x ys).2) := by
  induction ys generalizing middle x with
  | nil => rfl
  | cons y ys ih =>
    have hstep : exchange updatedAt front.length (front ++ x :: (middle ++ y :: ys))
        (front.length + (middle.length + 1)) = if updatedAt x < updatedAt y then
          front ++ y :: (middle ++ [x] ++ ys) else front ++ x :: (middle ++ [y] ++ ys) := by
      rw [exchange, swap_append]
      simp
    have hnext : ∀ z : Listing, front.length + (middle.length + 1) + 1 =
        front.length + ((middle ++ [z]).length + 1) := by simp; omega
    rw [length_cons, range'_succ, foldl_cons, hstep, pass]
    split_ifs with hnewer
    · rw [hnext x, ih (middle ++ [x]) y]
      simp
    · rw [hnext y, ih (middle ++ [y]) x]
      simp

theorem innerLoop_append (front ys : List Listing) (x : Listing) :
    innerLoop updatedAt (front ++ x :: ys) front.length =
      front ++ (pass updatedAt x ys).1 :: (pass updatedAt x ys).2 := by
  have hlength : (front ++ x :: ys).length - (front.length + 1) = ys.length := by simp; omega
  rw [innerLoop, hlength]
  exact foldl_exchange updatedAt front [] ys x

theorem foldl_innerLoop (front rest : List Listing) : ∃ sorted : List Listing,
    (range' front.length rest.length).foldl (innerLoop updatedAt) (front ++ rest) =
      front ++ sorted ∧ sorted.Perm rest ∧
      sorted.Pairwise fun x y => updatedAt y ≤ updatedAt x := by
  induction hn : rest.length generalizing front rest with
  | zero =>
    rw [length_eq_zero_iff.mp hn]
    exact ⟨[], by simp, .refl _, .nil⟩
  | succ n ih =>
    obtain ⟨x, ys, rfl⟩ := exists_cons_of_length_eq_add_one hn
    have hperm := pass_perm updatedAt x ys
    have hlength : (pass updatedAt x ys).2.length = n := by
      have hcons := hperm.length_eq
      simp only [length_cons] at hcons hn
      omega
    obtain ⟨sorted, heq, hsorted, hpairwise⟩ :=
      ih (front ++ [(pass updatedAt x ys).1]) (pass updatedAt x ys).2 hlength
    refine ⟨(pass updatedAt x ys).1 :: sorted, ?_, (hsorted.cons _).trans hperm, ?_⟩
    · rw [range'_succ, foldl_cons, innerLoop_append]
      simpa using heq
    · refine pairwise_cons.mpr ⟨fun z hz => ?_, hpairwise⟩
      apply le_pass updatedAt x ys
      exact hperm.subset (mem_cons_of_mem _ (hsorted.subset hz))

/-- **The listings are sorted**: they are a permutation, and none is followed by one that was
updated later. -/
theorem sortByUpdatedDesc_sorts (list : List Listing) :
    (sortByUpdatedDesc updatedAt list).Perm list ∧
      (sortByUpdatedDesc updatedAt list).Pairwise fun x y => updatedAt y ≤ updatedAt x := by
  obtain ⟨sorted, heq, hperm, hpairwise⟩ := foldl_innerLoop updatedAt [] list
  rw [nil_append, nil_append] at heq
  rw [show sortByUpdatedDesc updatedAt list = sorted from heq]
  exact ⟨hperm, hpairwise⟩

end NatProxy.Signaling.SortListings
