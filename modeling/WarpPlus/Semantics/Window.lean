import Mathlib

/-! The anti-replay specification of RFC 6479 over an abstract window.

The state is the set of counters admitted so far. A counter is admitted when it
is below the limit, was never admitted, and is ahead of the largest admitted
counter or at most `window` behind it.
-/

set_option autoImplicit false

namespace ReplayWindow

/-- The largest admitted counter, and zero before any was admitted. -/
def top (seen : Finset ℕ) : ℕ := seen.sup id

def Admits (window : ℕ) (seen : Finset ℕ) (counter limit : ℕ) : Prop :=
  counter < limit ∧ counter ∉ seen ∧ (top seen < counter ∨ top seen - counter ≤ window)

instance (window : ℕ) (seen : Finset ℕ) (counter limit : ℕ) :
    Decidable (Admits window seen counter limit) :=
  inferInstanceAs (Decidable (_ ∧ _ ∧ _))

/-- Answer one counter against its limit, admitting it when the answer is yes. -/
def validate (window : ℕ) (seen : Finset ℕ) (call : ℕ × ℕ) : Bool × Finset ℕ :=
  if Admits window seen call.1 call.2 then (true, insert call.1 seen) else (false, seen)

@[simp] theorem top_empty : top ∅ = 0 := rfl

theorem le_top {seen : Finset ℕ} {counter : ℕ} (member : counter ∈ seen) : counter ≤ top seen :=
  show id counter ≤ seen.sup id from Finset.le_sup member

theorem not_mem_of_top_lt {seen : Finset ℕ} {counter : ℕ} (ahead : top seen < counter) :
    counter ∉ seen :=
  fun member => absurd (le_top member) (Nat.not_le.mpr ahead)

theorem top_insert (seen : Finset ℕ) (counter : ℕ) :
    top (insert counter seen) = max counter (top seen) := by
  simp [top, Finset.sup_insert]

theorem validate_fst (window : ℕ) (seen : Finset ℕ) (call : ℕ × ℕ) :
    (validate window seen call).1 = decide (Admits window seen call.1 call.2) := by
  unfold validate
  split <;> simp_all

theorem validate_snd (window : ℕ) (seen : Finset ℕ) (call : ℕ × ℕ) :
    (validate window seen call).2 =
      if Admits window seen call.1 call.2 then insert call.1 seen else seen := by
  unfold validate
  split <;> rfl

end ReplayWindow
