import WarpPlus.Replay.Filter
import WarpPlus.Semantics.Machine
import WarpPlus.Semantics.Window

/-! The ring bitmap refines the anti-replay window of RFC 6479.

`Represents f seen` is the simulation relation: `last` is the largest admitted
counter, and the 128 blocks that end at `last`'s block hold exactly the
admitted counters of those blocks. Slots of other blocks are unconstrained;
`Reset` leaves them dirty, and they are cleared before the window enters them.
-/

set_option autoImplicit false

namespace WarpPlus.Replay

open ReplayWindow

/-- The 128 blocks that end at the block of `top` hold exactly the counters of `seen`. -/
def WindowBits (ring : Fin 128 → Block) (top : Nat) (seen : Finset Nat) : Prop :=
  ∀ b, top / 64 ≤ b + 127 → b ≤ top / 64 →
    ∀ j < 64, (ring (slot b)).toNat.testBit j = true ↔ 64 * b + j ∈ seen

structure Represents (f : Filter) (seen : Finset Nat) : Prop where
  last_eq : f.last.toNat = top seen
  window : WindowBits f.ring (top seen) seen

theorem slot_eq_iff {a b top : Nat} (lowA : top / 64 ≤ a + 127) (highA : a ≤ top / 64)
    (lowB : top / 64 ≤ b + 127) (highB : b ≤ top / 64) : slot a = slot b ↔ a = b := by
  rw [Fin.ext_iff]
  simp only [slot]
  omega

theorem checkAndSet_window {f : Filter} {seen : Finset Nat} {top : Nat} (counter : UInt64)
    (low : top / 64 ≤ counter.toNat / 64 + 127) (high : counter.toNat / 64 ≤ top / 64)
    (bits : WindowBits f.ring top seen) :
    (f.checkAndSet counter).1 = decide (counter.toNat ∉ seen) ∧
      WindowBits (f.checkAndSet counter).2.ring top (insert counter.toNat seen) := by
  have split : 64 * (counter.toNat / 64) + counter.toNat % 64 = counter.toNat :=
    Nat.div_add_mod _ _
  constructor
  · have own := bits (counter.toNat / 64) low high (counter.toNat % 64) (Nat.mod_lt _ (by decide))
    rw [split] at own
    rw [Filter.checkAndSet_fst, Bool.eq_iff_iff]
    simpa using own.not
  · intro b lowB highB j below
    have sameSlot := slot_eq_iff lowB highB low high
    have sameCounter : 64 * b + j = counter.toNat ↔
        b = counter.toNat / 64 ∧ j = counter.toNat % 64 := by omega
    rw [Filter.checkAndSet_testBit, Bool.or_eq_true, decide_eq_true_eq, bits b lowB highB j below,
      sameSlot, Finset.mem_insert, sameCounter, or_comm]

theorem moved_window {f : Filter} {seen : Finset Nat} (holds : Represents f seen)
    (counter : UInt64) (ahead : f.last < counter) :
    WindowBits (clearBlocks f.ring (f.last >>> blockBitLog + 1)
      (min (counter.toNat / 64 - f.last.toNat / 64) 128)) counter.toNat seen := by
  have last := holds.last_eq
  have ahead' := UInt64.lt_iff_toNat_lt.mp ahead
  have bounded := f.last.toNat_lt
  have start : (f.last >>> blockBitLog + 1).toNat = f.last.toNat / 64 + 1 := by
    rw [UInt64.toNat_add, shiftRight_blockBitLog_toNat, UInt64.toNat_one]
    exact Nat.mod_eq_of_lt (by omega)
  intro b low high j below
  rw [clearBlocks_apply _ _ _ _ (by rw [start]; omega), start]
  split
  · next hit =>
    -- a cleared slot belongs to a block past `last`, so none of its counters was admitted
    obtain ⟨k, before, same⟩ := hit
    have past : f.last.toNat / 64 < b := by simp only [slot] at same; omega
    have fresh : 64 * b + j ∉ seen := fun member => by
      have := le_top member
      omega
    simp [fresh]
  · next miss =>
    have kept : b ≤ f.last.toNat / 64 := by
      refine Nat.not_lt.mp fun past => miss ⟨(b - f.last.toNat / 64 - 1) % 128, by omega, ?_⟩
      simp only [slot]
      omega
    exact holds.window b (by omega) (by omega) j below

section step

variable {f : Filter} {seen : Finset Nat} (holds : Represents f seen) {counter limit : UInt64}
include holds

theorem Represents.step_of_limit (overLimit : limit ≤ counter) :
    (f.validateCounter counter limit).1 = (validate 8128 seen (counter.toNat, limit.toNat)).1 ∧
      Represents (f.validateCounter counter limit).2
        (validate 8128 seen (counter.toNat, limit.toNat)).2 := by
  have refused : ¬ Admits 8128 seen counter.toNat limit.toNat :=
    fun admits => absurd (UInt64.le_iff_toNat_le.mp overLimit) (Nat.not_le.mpr admits.1)
  rw [Filter.validateCounter_of_limit f overLimit, validate_fst, validate_snd, if_neg refused]
  exact ⟨by simp [refused], holds⟩

theorem Represents.step_of_ahead (under : counter < limit) (ahead : f.last < counter) :
    (f.validateCounter counter limit).1 = (validate 8128 seen (counter.toNat, limit.toNat)).1 ∧
      Represents (f.validateCounter counter limit).2
        (validate 8128 seen (counter.toNat, limit.toNat)).2 := by
  have ahead' : top seen < counter.toNat := holds.last_eq ▸ UInt64.lt_iff_toNat_lt.mp ahead
  have admits : Admits 8128 seen counter.toNat limit.toNat :=
    ⟨UInt64.lt_iff_toNat_lt.mp under, not_mem_of_top_lt ahead', .inl ahead'⟩
  obtain ⟨answer, bits⟩ := @checkAndSet_window
    ⟨counter, clearBlocks f.ring (f.last >>> blockBitLog + 1)
      (min (counter.toNat / 64 - f.last.toNat / 64) 128)⟩ seen counter.toNat counter
    (Nat.le_add_right _ _) (Nat.le_refl _) (moved_window holds counter ahead)
  have newTop : top (insert counter.toNat seen) = counter.toNat := by
    rw [top_insert]
    omega
  rw [Filter.validateCounter_of_ahead f under ahead, validate_fst, validate_snd, if_pos admits,
    answer]
  refine ⟨by simp [not_mem_of_top_lt ahead', admits], ⟨?_, ?_⟩⟩
  · rw [Filter.checkAndSet_last, newTop]
  · rw [newTop]
    exact bits

theorem Represents.step_of_behind (under : counter < limit) (behind : counter ≤ f.last)
    (far : windowSize < f.last - counter) :
    (f.validateCounter counter limit).1 = (validate 8128 seen (counter.toNat, limit.toNat)).1 ∧
      Represents (f.validateCounter counter limit).2
        (validate 8128 seen (counter.toNat, limit.toNat)).2 := by
  have far' : 8128 < top seen - counter.toNat := by
    rw [UInt64.lt_iff_toNat_lt, UInt64.toNat_sub_of_le _ _ behind, windowSize_toNat,
      holds.last_eq] at far
    exact far
  have notAhead : ¬ top seen < counter.toNat := by
    rw [← holds.last_eq]
    exact Nat.not_lt.mpr (UInt64.le_iff_toNat_le.mp behind)
  have refused : ¬ Admits 8128 seen counter.toNat limit.toNat := by
    rintro ⟨-, -, ahead | near⟩
    · exact notAhead ahead
    · omega
  rw [Filter.validateCounter_of_behind f under behind far, validate_fst, validate_snd,
    if_neg refused]
  exact ⟨by simp [refused], holds⟩

theorem Represents.step_of_within (under : counter < limit) (behind : counter ≤ f.last)
    (near : f.last - counter ≤ windowSize) :
    (f.validateCounter counter limit).1 = (validate 8128 seen (counter.toNat, limit.toNat)).1 ∧
      Represents (f.validateCounter counter limit).2
        (validate 8128 seen (counter.toNat, limit.toNat)).2 := by
  have behind' : counter.toNat ≤ top seen := holds.last_eq ▸ UInt64.le_iff_toNat_le.mp behind
  have near' : top seen - counter.toNat ≤ 8128 := by
    rw [UInt64.le_iff_toNat_le, UInt64.toNat_sub_of_le _ _ behind, windowSize_toNat,
      holds.last_eq] at near
    exact near
  obtain ⟨answer, bits⟩ := checkAndSet_window counter (by omega) (Nat.div_le_div_right behind')
    holds.window
  have sameTop : top (insert counter.toNat seen) = top seen := by
    rw [top_insert]
    omega
  have admitsIff : Admits 8128 seen counter.toNat limit.toNat ↔ counter.toNat ∉ seen :=
    ⟨fun admits => admits.2.1, fun fresh => ⟨UInt64.lt_iff_toNat_lt.mp under, fresh, .inr near'⟩⟩
  rw [Filter.validateCounter_of_within f under behind near, validate_fst, validate_snd, answer]
  refine ⟨by simp [admitsIff], ?_⟩
  -- a replayed counter leaves the admitted set as it was, and its bit already set
  have admitted : (if Admits 8128 seen counter.toNat limit.toNat then insert counter.toNat seen
      else seen) = insert counter.toNat seen := by
    split
    · rfl
    · next refused => exact (Finset.insert_eq_of_mem (not_not.mp (mt admitsIff.mpr refused))).symm
  rw [admitted]
  exact ⟨by rw [Filter.checkAndSet_last, holds.last_eq, sameTop], by rw [sameTop]; exact bits⟩

theorem Represents.step :
    (f.validateCounter counter limit).1 = (validate 8128 seen (counter.toNat, limit.toNat)).1 ∧
      Represents (f.validateCounter counter limit).2
        (validate 8128 seen (counter.toNat, limit.toNat)).2 := by
  by_cases overLimit : limit ≤ counter
  · exact holds.step_of_limit overLimit
  have under : counter < limit := UInt64.not_le.mp overLimit
  by_cases ahead : f.last < counter
  · exact holds.step_of_ahead under ahead
  have behind : counter ≤ f.last := UInt64.not_lt.mp ahead
  by_cases far : windowSize < f.last - counter
  · exact holds.step_of_behind under behind far
  · exact holds.step_of_within under behind (UInt64.not_lt.mp far)

end step

theorem represents_zero : Represents Filter.zero ∅ := by
  refine ⟨rfl, ?_⟩
  intro b _ _ j _
  simp [Filter.zero]

theorem represents_reset (f : Filter) : Represents f.reset ∅ := by
  refine ⟨rfl, ?_⟩
  intro b _ high j _
  have first : b = 0 := by simpa using high
  subst first
  simp [Filter.reset, slot]

/-- The filter as a machine over calls `(counter, limit)`. -/
def Filter.call (f : Filter) (call : UInt64 × UInt64) : Bool × Filter :=
  f.validateCounter call.1 call.2

/-- From the zero filter, or from `Reset` of a filter in any state, every sequence of
`ValidateCounter` calls answers exactly as the anti-replay window with
`windowSize` = 8128 does. -/
theorem validateCounter_refines_window (calls : List (UInt64 × UInt64)) (f : Filter) :
    (Transition.run Filter.call Filter.zero calls).1 =
        (Transition.run (validate windowSize.toNat) ∅
          (calls.map fun call => (call.1.toNat, call.2.toNat))).1 ∧
      (Transition.run Filter.call f.reset calls).1 =
        (Transition.run (validate windowSize.toNat) ∅
          (calls.map fun call => (call.1.toNat, call.2.toNat))).1 := by
  have simulation := Transition.run_outputs_eq Filter.call (validate windowSize.toNat)
    (fun call => (call.1.toNat, call.2.toNat)) Represents
    (fun state spec call holds => @Represents.step state spec holds call.1 call.2)
  exact ⟨simulation calls _ _ represents_zero, simulation calls _ _ (represents_reset f)⟩

end WarpPlus.Replay
