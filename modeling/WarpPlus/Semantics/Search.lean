import Mathlib

/-! Binary search for the first index at which a predicate holds, as Go's
`sort.Search` computes it.

`search n f` keeps `f (i - 1) = false` and `f j = true` as the invariant of its
interval `[i, j)`; on a predicate that is monotone on `[0, n)` it returns the
first index where `f` holds, or `n` when there is none.
-/

set_option autoImplicit false

namespace BinarySearch

/-- The loop `for i < j { h := (i + j) / 2; if !f(h) { i = h + 1 } else { j = h } }`. -/
def searchLoop (f : Nat → Bool) (i j : Nat) : Nat :=
  if i < j then
    let h := (i + j) / 2
    if !f h then searchLoop f (h + 1) j else searchLoop f i h
  else i
termination_by j - i

def search (n : Nat) (f : Nat → Bool) : Nat := searchLoop f 0 n

/-- `f` never turns false again on `[0, n)` once it is true. -/
def MonotoneOn (n : Nat) (f : Nat → Bool) : Prop :=
  ∀ a b, a ≤ b → b < n → f a = true → f b = true

theorem searchLoop_spec (n : Nat) (f : Nat → Bool) (monotone : MonotoneOn n f) (i j : Nat)
    (ordered : i ≤ j) (bounded : j ≤ n) (below : ∀ k < i, f k = false)
    (above : ∀ k, j ≤ k → k < n → f k = true) :
    searchLoop f i j ≤ n ∧ (∀ k < searchLoop f i j, f k = false) ∧
      (∀ k, searchLoop f i j ≤ k → k < n → f k = true) := by
  induction i, j using searchLoop.induct f with
  | case1 i j inside h miss ih =>
    rw [searchLoop, if_pos inside, if_pos miss]
    have missed : f ((i + j) / 2) = false := by simpa using miss
    -- everything up to the midpoint is false, since `f` is monotone
    refine ih (by omega) bounded (fun k lt => ?_) above
    by_cases early : k < i
    · exact below k early
    · cases hk : f k
      · rfl
      · exact absurd (monotone k ((i + j) / 2) (by omega) (by omega) hk) (by simp [missed])
  | case2 i j inside h hit ih =>
    rw [searchLoop, if_pos inside, if_neg hit]
    have found : f ((i + j) / 2) = true := by simpa using hit
    refine ih (by omega) (by omega) below (fun k lo hi => ?_)
    exact monotone _ k lo hi found
  | case3 i j outside =>
    rw [searchLoop, if_neg outside]
    exact ⟨by omega, below, fun k lo hi => above k (by omega) hi⟩

theorem search_spec (n : Nat) (f : Nat → Bool) (monotone : MonotoneOn n f) :
    search n f ≤ n ∧ (∀ k < search n f, f k = false) ∧
      (∀ k, search n f ≤ k → k < n → f k = true) :=
  searchLoop_spec n f monotone 0 n (Nat.zero_le n) (Nat.le_refl n) (fun _ lt => absurd lt (by omega))
    (fun _ lo hi => absurd hi (by omega))

theorem pairwise_insert_at_search {α β : Type} [LinearOrder β] (key : α → β) (l : List α) (x : α)
    (above : Nat → Bool) (sorted : l.Pairwise fun a b => key a ≤ key b)
    (agrees : ∀ i (inside : i < l.length), above i = decide (key x < key l[i])) :
    (l.take (search l.length above) ++ x :: l.drop (search l.length above)).Pairwise
      fun a b => key a ≤ key b := by
  have monotone : MonotoneOn l.length above := by
    intro a b ordered inside holds
    have first : a < l.length := by omega
    rw [agrees a first, decide_eq_true_eq] at holds
    rw [agrees b inside, decide_eq_true_eq]
    rcases Nat.eq_or_lt_of_le ordered with same | earlier
    · subst same
      exact holds
    · exact lt_of_lt_of_le holds (List.pairwise_iff_getElem.mp sorted a b first inside earlier)
  obtain ⟨-, below, atOrAbove⟩ := search_spec l.length above monotone
  have whole := sorted
  rw [← List.take_append_drop (search l.length above) l, List.pairwise_append] at whole
  obtain ⟨front, back, across⟩ := whole
  have frontLe : ∀ a ∈ l.take (search l.length above), key a ≤ key x := by
    intro a member
    obtain ⟨j, bound, rfl⟩ := List.mem_take_iff_getElem.mp member
    have miss := below j (by omega)
    rw [agrees j (by omega), decide_eq_false_iff_not] at miss
    exact not_lt.mp miss
  have backGe : ∀ b ∈ l.drop (search l.length above), key x ≤ key b := by
    intro b member
    obtain ⟨j, bound, rfl⟩ := List.mem_drop_iff_getElem.mp member
    have hit := atOrAbove (search l.length above + j) (by omega) (by omega)
    rw [agrees _ (by omega), decide_eq_true_eq] at hit
    exact le_of_lt hit
  refine List.pairwise_append.mpr ⟨front, List.pairwise_cons.mpr ⟨backGe, back⟩, ?_⟩
  intro a inFront b inRest
  rcases List.mem_cons.mp inRest with rfl | inBack
  · exact frontLe a inFront
  · exact across a inFront b inBack

end BinarySearch
