import Mathlib

/-! Go slices of a fixed array, by value.

An array is a list whose length is its capacity. The slice expression `a[lo:hi]`
is in range when `lo ≤ hi ≤ cap(a)` and panics otherwise: `slice` answers its
elements, or `none` for the panic. `copy(a[lo:hi], src)` writes the first
`min (hi - lo) (len src)` elements of `src` from `lo` on and leaves the rest of
the array as it was; `copy` answers the array after it. The source is a value
read before anything is written, which is Go's rule for overlapping slices.
-/

set_option autoImplicit false

namespace GoSlice

variable {α : Type}

/-- `a[lo:hi]`. -/
def slice (arr : List α) (lo hi : Nat) : Option (List α) :=
  if lo ≤ hi ∧ hi ≤ arr.length then some ((arr.take hi).drop lo) else none

/-- `copy(a[lo:hi], src)`, answering the array it leaves. -/
def copy (arr : List α) (lo hi : Nat) (src : List α) : Option (List α) :=
  if lo ≤ hi ∧ hi ≤ arr.length then
    let count := min (hi - lo) src.length
    some (arr.take lo ++ src.take count ++ arr.drop (lo + count))
  else none

/-- `a[i] = v`, which panics outside the slice. -/
def store (arr : List α) (i : Nat) (v : α) : Option (List α) :=
  if i < arr.length then some (arr.set i v) else none

section
variable {arr : List α} {lo hi : Nat}

theorem slice_of_le (ordered : lo ≤ hi) (inside : hi ≤ arr.length) :
    slice arr lo hi = some ((arr.take hi).drop lo) := by
  simp [slice, ordered, inside]

theorem copy_of_lt (outside : arr.length < hi) (src : List α) : copy arr lo hi src = none := by
  simp only [copy]
  rw [if_neg (by omega)]

theorem copy_of_length {src : List α} (fits : lo + src.length = hi) (inside : hi ≤ arr.length) :
    copy arr lo hi src = some (arr.take lo ++ src ++ arr.drop hi) := by
  have count : min (hi - lo) src.length = src.length := by omega
  simp only [copy]
  rw [if_pos ⟨by omega, inside⟩, count, List.take_length, fits]

theorem length_of_copy {src arr' : List α} (copied : copy arr lo hi src = some arr') :
    arr'.length = arr.length := by
  unfold copy at copied
  split_ifs at copied with inside
  cases copied
  simp only [List.length_append, List.length_take, List.length_drop]
  omega

theorem getElem?_of_store {i : Nat} {v : α} {arr' : List α} (stored : store arr i v = some arr') (j : Nat) :
    arr'[j]? = if i = j then some v else arr[j]? := by
  unfold store at stored
  split_ifs at stored with inside
  cases stored
  simp [List.getElem?_set, inside]

theorem length_of_store {i : Nat} {v : α} {arr' : List α} (stored : store arr i v = some arr') :
    arr'.length = arr.length := by
  unfold store at stored
  split_ifs at stored
  cases stored
  exact List.length_set

end

theorem slice_append_front (front rest : List α) :
    slice (front ++ rest) 0 front.length = some front := by
  rw [slice_of_le (Nat.zero_le _) (by simp)]
  simp

end GoSlice
