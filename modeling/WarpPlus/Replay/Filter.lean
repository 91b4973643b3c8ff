import Mathlib

/-! The anti-replay filter of `replay/replay.go`.

The filter keeps the largest accepted counter and a ring of 128 blocks of 64
bits. Block `b` of the counter space lives in ring slot `b mod 128`; moving
the window forward clears the slots of the blocks it enters, at most the whole
ring. `Reset` clears only `ring[0]`.
-/

set_option autoImplicit false

namespace WarpPlus.Replay

/-- `type block uint64` -/
abbrev Block := UInt64

def blockBitLog : UInt64 := 6
def blockBits : UInt64 := (1 : UInt64) <<< blockBitLog
def ringBlocks : UInt64 := (1 : UInt64) <<< (7 : UInt64)
def windowSize : UInt64 := (ringBlocks - 1) * blockBits
def blockMask : UInt64 := ringBlocks - 1
def bitMask : UInt64 := blockBits - 1

@[simp] theorem blockBitLog_toNat : blockBitLog.toNat = 6 := rfl
@[simp] theorem ringBlocks_toNat : ringBlocks.toNat = 128 := rfl
@[simp] theorem windowSize_toNat : windowSize.toNat = 8128 := rfl
@[simp] theorem blockMask_toNat : blockMask.toNat = 127 := rfl
@[simp] theorem bitMask_toNat : bitMask.toNat = 63 := rfl

/-- The ring slot `i & blockMask`. -/
def ringIndex (i : UInt64) : Fin 128 :=
  ⟨(i &&& blockMask).toNat, by
    rw [UInt64.toNat_and, blockMask_toNat]
    exact Nat.lt_of_le_of_lt Nat.and_le_right (by decide)⟩

structure Filter where
  last : UInt64
  ring : Fin 128 → Block

/-- The zero value, an empty filter ready to use. -/
def Filter.zero : Filter := ⟨0, fun _ => 0⟩

def Filter.reset (f : Filter) : Filter :=
  { last := 0, ring := Function.update f.ring 0 0 }

/-- `for i := from; i <= from+count-1; i++ { ring[i&blockMask] = 0 }`. The loop
of `ValidateCounter` runs `diff` times from `current+1`; its bound never wraps,
since `current < 2^58` and `diff ≤ ringBlocks`. -/
def clearBlocks (ring : Fin 128 → Block) (i : UInt64) : Nat → Fin 128 → Block
  | 0 => ring
  | count + 1 => clearBlocks (Function.update ring (ringIndex i) 0) (i + 1) count

/-- The check-and-set tail of `ValidateCounter`: set the counter's bit and
report whether it was clear. -/
def Filter.checkAndSet (f : Filter) (counter : UInt64) : Bool × Filter :=
  let indexBlock := ringIndex (counter >>> blockBitLog)
  let indexBit := counter &&& bitMask
  let old := f.ring indexBlock
  let new := old ||| ((1 : UInt64) <<< indexBit)
  (old != new, { f with ring := Function.update f.ring indexBlock new })

/-- Overlimit counters (`≥ limit`) are always rejected; a counter ahead of the
window moves it forward, one behind it is rejected, and otherwise the bit decides. -/
def Filter.validateCounter (f : Filter) (counter limit : UInt64) : Bool × Filter :=
  if counter ≥ limit then (false, f)
  else
    let indexBlock := counter >>> blockBitLog
    if counter > f.last then
      let current := f.last >>> blockBitLog
      let diff := if indexBlock - current > ringBlocks then ringBlocks else indexBlock - current
      Filter.checkAndSet { last := counter, ring := clearBlocks f.ring (current + 1) diff.toNat } counter
    else if f.last - counter > windowSize then (false, f)
    else f.checkAndSet counter

@[simp] theorem ringIndex_val (i : UInt64) : (ringIndex i).val = i.toNat % 128 := by
  simp only [ringIndex, UInt64.toNat_and, blockMask_toNat]
  exact Nat.and_two_pow_sub_one_eq_mod _ 7

@[simp] theorem Filter.checkAndSet_last (f : Filter) (counter : UInt64) :
    (f.checkAndSet counter).2.last = f.last := rfl

/-- Ring slot of block `b` of the counter space. -/
def slot (b : Nat) : Fin 128 := ⟨b % 128, Nat.mod_lt _ (by decide)⟩

theorem ringIndex_eq_slot (i : UInt64) : ringIndex i = slot i.toNat := Fin.ext (ringIndex_val i)

theorem shiftRight_blockBitLog_toNat (i : UInt64) : (i >>> blockBitLog).toNat = i.toNat / 64 := by
  rw [UInt64.toNat_shiftRight, blockBitLog_toNat, Nat.shiftRight_eq_div_pow]

theorem bit_toNat (counter : UInt64) :
    ((1 : UInt64) <<< (counter &&& bitMask)).toNat = 2 ^ (counter.toNat % 64) := by
  have low : (counter &&& bitMask).toNat = counter.toNat % 64 := by
    rw [UInt64.toNat_and, bitMask_toNat]
    exact Nat.and_two_pow_sub_one_eq_mod _ 6
  have small : 2 ^ (counter.toNat % 64) < 2 ^ 64 :=
    Nat.pow_lt_pow_right (by decide) (Nat.mod_lt _ (by decide))
  rw [UInt64.toNat_shiftLeft, low, UInt64.toNat_one, Nat.mod_mod, Nat.one_shiftLeft,
    Nat.mod_eq_of_lt small]

theorem or_two_pow_eq_self_iff (a k : Nat) : a ||| 2 ^ k = a ↔ a.testBit k = true := by
  constructor
  · intro same
    have bit := congrArg (fun value => value.testBit k) same
    simpa [Nat.testBit_or, Nat.testBit_two_pow] using bit.symm
  · intro set
    apply Nat.eq_of_testBit_eq
    intro j
    by_cases here : k = j
    · subst here; simp [Nat.testBit_or, set]
    · simp [Nat.testBit_or, here]

theorem Filter.checkAndSet_fst (f : Filter) (counter : UInt64) :
    (f.checkAndSet counter).1 =
      !(f.ring (slot (counter.toNat / 64))).toNat.testBit (counter.toNat % 64) := by
  simp only [checkAndSet]
  rw [ringIndex_eq_slot, shiftRight_blockBitLog_toNat]
  generalize f.ring (slot (counter.toNat / 64)) = old
  have same : (old == (old ||| (1 : UInt64) <<< (counter &&& bitMask))) =
      old.toNat.testBit (counter.toNat % 64) := by
    rw [Bool.eq_iff_iff, beq_iff_eq, ← UInt64.toNat_inj, UInt64.toNat_or, bit_toNat, eq_comm,
      or_two_pow_eq_self_iff]
  simp [bne, same]

theorem Filter.checkAndSet_testBit (f : Filter) (counter : UInt64) (s : Fin 128) (j : Nat) :
    ((f.checkAndSet counter).2.ring s).toNat.testBit j =
      ((f.ring s).toNat.testBit j ||
        decide (s = slot (counter.toNat / 64) ∧ j = counter.toNat % 64)) := by
  simp only [checkAndSet]
  rw [ringIndex_eq_slot, shiftRight_blockBitLog_toNat]
  by_cases here : s = slot (counter.toNat / 64)
  · subst here
    rw [Function.update_self, UInt64.toNat_or, bit_toNat]
    simp [Nat.testBit_or, Nat.testBit_two_pow, eq_comm]
  · simp [here]

theorem clearBlocks_apply (ring : Fin 128 → Block) (i : UInt64) (count : Nat) (s : Fin 128)
    (fits : i.toNat + count < 2 ^ 64) :
    clearBlocks ring i count s =
      if ∃ k < count, (i.toNat + k) % 128 = s.val then 0 else ring s := by
  induction count generalizing ring i with
  | zero => simp [clearBlocks]
  | succ count ih =>
    have next : (i + 1).toNat = i.toNat + 1 := by
      rw [UInt64.toNat_add, UInt64.toNat_one]
      exact Nat.mod_eq_of_lt (by omega)
    have shift : (∃ k < count + 1, (i.toNat + k) % 128 = s.val) ↔
        i.toNat % 128 = s.val ∨ ∃ k < count, (i.toNat + 1 + k) % 128 = s.val := by
      constructor
      · rintro ⟨k, below, hit⟩
        cases k with
        | zero => exact .inl hit
        | succ k => exact .inr ⟨k, by omega, by rw [← hit]; congr 1; omega⟩
      · rintro (hit | ⟨k, below, hit⟩)
        · exact ⟨0, by omega, hit⟩
        · exact ⟨k + 1, by omega, by rw [← hit]; congr 1; omega⟩
    rw [clearBlocks, ih _ _ (by omega), next]
    by_cases later : ∃ k < count, (i.toNat + 1 + k) % 128 = s.val
    · rw [if_pos later, if_pos (shift.mpr (.inr later))]
    · rw [if_neg later]
      by_cases first : i.toNat % 128 = s.val
      · have here : s = ringIndex i := Fin.ext (by rw [ringIndex_val, first])
        rw [if_pos (shift.mpr (.inl first)), here, Function.update_self]
      · have elsewhere : s ≠ ringIndex i := fun same => first (by rw [same, ringIndex_val])
        have miss : ¬ ∃ k < count + 1, (i.toNat + k) % 128 = s.val :=
          fun hit => (shift.mp hit).elim first later
        rw [if_neg miss, Function.update_of_ne elsewhere]

section validateCounter

variable (f : Filter) {counter limit : UInt64}

theorem Filter.validateCounter_of_limit (overLimit : limit ≤ counter) :
    f.validateCounter counter limit = (false, f) := by
  simp [validateCounter, overLimit]

theorem Filter.validateCounter_of_ahead (under : counter < limit) (ahead : f.last < counter) :
    f.validateCounter counter limit =
      Filter.checkAndSet
        { last := counter,
          ring := clearBlocks f.ring (f.last >>> blockBitLog + 1)
            (min (counter.toNat / 64 - f.last.toNat / 64) 128) } counter := by
  have blocks : f.last >>> blockBitLog ≤ counter >>> blockBitLog := by
    rw [UInt64.le_iff_toNat_le, shiftRight_blockBitLog_toNat, shiftRight_blockBitLog_toNat]
    exact Nat.div_le_div_right (Nat.le_of_lt (UInt64.lt_iff_toNat_lt.mp ahead))
  have diff : (counter >>> blockBitLog - f.last >>> blockBitLog).toNat =
      counter.toNat / 64 - f.last.toNat / 64 := by
    rw [UInt64.toNat_sub_of_le _ _ blocks, shiftRight_blockBitLog_toNat,
      shiftRight_blockBitLog_toNat]
  have notOver : ¬ limit ≤ counter := UInt64.not_le.mpr under
  simp only [validateCounter, ge_iff_le, notOver, if_false, gt_iff_lt, ahead, if_true]
  congr 4
  split
  · next far =>
    rw [UInt64.lt_iff_toNat_lt, diff, ringBlocks_toNat] at far
    rw [ringBlocks_toNat]
    omega
  · next near =>
    rw [UInt64.lt_iff_toNat_lt, diff, ringBlocks_toNat] at near
    rw [diff]
    omega

theorem Filter.validateCounter_of_behind (under : counter < limit) (behind : counter ≤ f.last)
    (far : windowSize < f.last - counter) : f.validateCounter counter limit = (false, f) := by
  have notOver : ¬ limit ≤ counter := UInt64.not_le.mpr under
  have notAhead : ¬ f.last < counter := UInt64.not_lt.mpr behind
  simp [validateCounter, notOver, notAhead, far]

theorem Filter.validateCounter_of_within (under : counter < limit) (behind : counter ≤ f.last)
    (near : f.last - counter ≤ windowSize) :
    f.validateCounter counter limit = f.checkAndSet counter := by
  have notOver : ¬ limit ≤ counter := UInt64.not_le.mpr under
  have notAhead : ¬ f.last < counter := UInt64.not_lt.mpr behind
  have notFar : ¬ windowSize < f.last - counter := UInt64.not_lt.mpr near
  simp [validateCounter, notOver, notAhead, notFar]

end validateCounter

end WarpPlus.Replay
