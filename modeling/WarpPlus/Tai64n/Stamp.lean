import WarpPlus.Semantics.Bits
import WarpPlus.Device.InitiationReplay

/-! TAI64N labels of `tai64n`: `stamp` writes a time as 64-bit seconds offset by
`base`, then 32-bit nanoseconds with their low 24 bits cleared, both big-endian,
and `Timestamp.After` compares the twelve bytes in order.

A time is its count of nanoseconds from the Unix epoch, so `t.Unix()` and
`t.Nanosecond()` are the quotient and remainder by `10^9`, rounded down before
the epoch as Go rounds them. On twelve bytes the order of `After` is the order of
the number they write (`Bits.lt_iff_bigEndian_lt`), which is the seconds and
then the nanoseconds' 2^24-nanosecond bucket: while the seconds stay in range,
`stamp` never runs back, moves on once the time has moved 2^24 nanoseconds, and
does not move inside one bucket (`stamp_monotone`).
-/

set_option autoImplicit false

namespace WarpPlus.Tai64n

open Device.Initiation (Timestamp after)

def base : Nat := 0x400000000000000a

def whitenerMask : UInt32 := 0x1000000 - 1

/-- `Time.Unix`. -/
def unix (t : Int) : Int := t / 1000000000

/-- `Time.Nanosecond`. -/
def nanosecond (t : Int) : Int := t % 1000000000

def stamp (t : Int) : Timestamp :=
  -- `base + uint64(t.Unix())` in 64-bit arithmetic
  let secs := ((base : Int) + unix t) % 2 ^ 64
  let nano := (nanosecond t).toNat.toUInt32 &&& ~~~whitenerMask
  Bits.putUint 8 secs.toNat ++ Bits.putUint 4 nano.toNat

/-- The 2^24-nanosecond bucket of its second that a time falls in. -/
def bucket (t : Int) : Nat := (nanosecond t).toNat / 2 ^ 24

theorem nanosecond_lt (t : Int) : nanosecond t < 1000000000 := by
  unfold nanosecond
  omega

theorem bucket_mul_lt (t : Int) : bucket t * 2 ^ 24 < 2 ^ 32 := by
  have := nanosecond_lt t
  unfold bucket
  omega

theorem and_not_whitenerMask {n : Nat} (small : n < 2 ^ 32) :
    (n.toUInt32 &&& ~~~whitenerMask).toNat = n / 2 ^ 24 * 2 ^ 24 := by
  have mask : (~~~whitenerMask).toNat = 0xff000000 := by decide
  have low : ∀ i < 32, (0xff000000 : Nat).testBit i = decide (24 ≤ i) := by decide
  rw [UInt32.toNat_and, mask, UInt32.toNat_ofNat', Nat.mod_eq_of_lt small, ← Nat.shiftLeft_eq,
    ← Nat.shiftRight_eq_div_pow]
  apply Nat.eq_of_testBit_eq
  intro i
  rw [Nat.testBit_and, Nat.testBit_shiftLeft, Nat.testBit_shiftRight]
  by_cases inside : i < 32
  · rw [low i inside]
    by_cases high : 24 ≤ i
    · simp [high]
    · simp [high]
  · -- above bit 31 the value has no bit
    have beyond : (2 : Nat) ^ 32 ≤ 2 ^ i := Nat.pow_le_pow_right (by decide) (by omega)
    have unset : n.testBit i = false := Nat.testBit_eq_false_of_lt (Nat.lt_of_lt_of_le small beyond)
    have shifted : 24 + (i - 24) = i := by omega
    simp [unset, shifted]

theorem bigEndian_stamp (t : Int) :
    Bits.bigEndian (stamp t) = (((base : Int) + unix t) % 2 ^ 64).toNat * 2 ^ 32 + bucket t * 2 ^ 24 := by
  have nano : ((nanosecond t).toNat.toUInt32 &&& ~~~whitenerMask).toNat = bucket t * 2 ^ 24 :=
    and_not_whitenerMask (by have := nanosecond_lt t; omega)
  have secs : (((base : Int) + unix t) % 2 ^ 64).toNat < 2 ^ 64 := by omega
  rw [stamp, Bits.bigEndian_append, Bits.bigEndian_putUint, Bits.bigEndian_putUint, Bits.length_putUint,
    nano, Nat.mod_eq_of_lt secs, Nat.mod_eq_of_lt (bucket_mul_lt t)]

theorem offset_seconds {s : Int} (range : -(base : Int) ≤ s ∧ s < 2 ^ 64 - base) :
    ((base : Int) + s) % 2 ^ 64 = base + s := by
  have baseValue : (base : Int) = 4611686018427387914 := rfl
  exact Int.emod_eq_of_lt (by omega) (by omega)

section InRange

variable {t1 t2 : Int}
  (range1 : -(base : Int) ≤ unix t1 ∧ unix t1 < 2 ^ 64 - base)
  (range2 : -(base : Int) ≤ unix t2 ∧ unix t2 < 2 ^ 64 - base)

include range1 range2

theorem bigEndian_stamp_lt_iff :
    Bits.bigEndian (stamp t1) < Bits.bigEndian (stamp t2) ↔
      unix t1 < unix t2 ∨ unix t1 = unix t2 ∧ bucket t1 < bucket t2 := by
  have wrap1 := offset_seconds range1
  have wrap2 := offset_seconds range2
  rw [bigEndian_stamp, bigEndian_stamp, wrap1, wrap2,
    Bits.mul_add_lt_mul_add_iff (bucket_mul_lt t1) (bucket_mul_lt t2)]
  omega

end InRange

theorem unix_le {t1 t2 : Int} (ordered : t1 ≤ t2) :
    unix t1 < unix t2 ∨ unix t1 = unix t2 ∧ nanosecond t1 ≤ nanosecond t2 := by
  unfold unix nanosecond
  omega

/-- For all times `t1 ≤ t2` whose seconds are in range: the later stamp is never
before the earlier one, it is after it once `2^24` nanoseconds have passed, and
the two are equal in one second and one bucket. -/
theorem stamp_monotone {t1 t2 : Int}
    (range1 : -(base : Int) ≤ unix t1 ∧ unix t1 < 2 ^ 64 - base)
    (range2 : -(base : Int) ≤ unix t2 ∧ unix t2 < 2 ^ 64 - base) (ordered : t1 ≤ t2) :
    after (stamp t1) (stamp t2) = false ∧
      (2 ^ 24 ≤ t2 - t1 → after (stamp t2) (stamp t1) = true) ∧
      (unix t1 = unix t2 → bucket t1 = bucket t2 → stamp t1 = stamp t2) := by
  have length : (stamp t1).length = (stamp t2).length := by simp [stamp]
  have order := unix_le ordered
  refine ⟨?_, fun apart => ?_, fun second same => ?_⟩
  · -- the earlier stamp is not after the later one
    rw [after, decide_eq_false_iff_not, Bits.lt_iff_bigEndian_lt length.symm,
      bigEndian_stamp_lt_iff range2 range1]
    unfold bucket
    omega
  · -- `2^24` nanoseconds move the seconds or the bucket
    have moved : unix t1 < unix t2 ∨ unix t1 = unix t2 ∧ bucket t1 < bucket t2 := by
      unfold bucket
      unfold unix nanosecond at *
      omega
    rw [after, decide_eq_true_iff, Bits.lt_iff_bigEndian_lt length,
      bigEndian_stamp_lt_iff range1 range2]
    exact moved
  · -- one second and one bucket write the same bytes
    have nano : (nanosecond t1).toNat.toUInt32 &&& ~~~whitenerMask =
        (nanosecond t2).toNat.toUInt32 &&& ~~~whitenerMask := by
      apply UInt32.toNat_inj.mp
      rw [and_not_whitenerMask (by have := nanosecond_lt t1; omega),
        and_not_whitenerMask (by have := nanosecond_lt t2; omega)]
      unfold bucket at same
      rw [same]
    simp only [stamp, second, nano]

/-- The times of `TestMonotonic`: `time.Unix(0, 123456789)` and 20 ms later. -/
theorem stamp_monotone_twentyMs :
    (-(base : Int) ≤ unix 123456789 ∧ unix 123456789 < 2 ^ 64 - base) ∧
      (-(base : Int) ≤ unix 143456789 ∧ unix 143456789 < 2 ^ 64 - base) ∧ (123456789 : Int) ≤ 143456789 ∧
      after (stamp 123456789) (stamp 143456789) = false ∧
      (2 ^ 24 ≤ (143456789 : Int) - 123456789 → after (stamp 143456789) (stamp 123456789) = true) ∧
      (unix 123456789 = unix 143456789 → bucket 123456789 = bucket 143456789 →
        stamp 123456789 = stamp 143456789) :=
  ⟨by decide, by decide, by decide, stamp_monotone (by decide) (by decide) (by decide)⟩

end WarpPlus.Tai64n
