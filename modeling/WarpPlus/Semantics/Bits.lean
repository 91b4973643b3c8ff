import Mathlib

/-! Byte strings read as big-endian bit strings.

`bitAt bytes i` is bit `i` counting from the most significant bit of the first byte.
`bigEndian` reads bytes as one number, as `binary.BigEndian.Uint32` and `Uint64` do, and
`leadingZeros w x` is `bits.LeadingZeros` of a `w`-bit word. The leading zeros of the
exclusive or of two such words count the bits the byte strings agree on before the first
bit where they differ (`agree_leadingZeros`, `bitAt_ne_leadingZeros`).
-/

set_option autoImplicit false

namespace Bits

/-- Bit `i` of a big-endian byte string, from the most significant bit of byte 0. -/
def bitAt (bytes : List UInt8) (i : Nat) : Bool :=
  (bytes.getD (i / 8) 0).toNat.testBit (7 - i % 8)

def bigEndian (bytes : List UInt8) : Nat :=
  bytes.foldl (fun acc byte => acc * 256 + byte.toNat) 0

/-- `binary.BigEndian.PutUint16` of `uint16(v)`. -/
def putUint16 (v : Nat) : List UInt8 :=
  [(v % 65536 / 256).toUInt8, (v % 65536 % 256).toUInt8]

/-- `binary.BigEndian.PutUint32` and `PutUint64` for `n` = 4 and 8: the `n` bytes
of `v`, most significant first, cut to `n` bytes. -/
def putUint : Nat → Nat → List UInt8
  | 0, _ => []
  | n + 1, v => putUint n (v / 256) ++ [(v % 256).toUInt8]

/-- The zero bits above the highest set bit of `x` in a word of `w` bits. -/
def leadingZeros (w x : Nat) : Nat :=
  w - x.size

/-- The first `n` bits of two byte strings agree. -/
def Agree (a b : List UInt8) (n : Nat) : Prop :=
  ∀ i < n, bitAt a i = bitAt b i

theorem Agree.refl (a : List UInt8) (n : Nat) : Agree a a n := fun _ _ => rfl

theorem Agree.symm {a b : List UInt8} {n : Nat} (agree : Agree a b n) : Agree b a n :=
  fun i below => (agree i below).symm

theorem Agree.trans {a b d : List UInt8} {n : Nat} (first : Agree a b n) (second : Agree b d n) :
    Agree a d n :=
  fun i below => (first i below).trans (second i below)

theorem Agree.mono {a b : List UInt8} {n m : Nat} (agree : Agree a b n) (le : m ≤ n) : Agree a b m :=
  fun i below => agree i (Nat.lt_of_lt_of_le below le)

theorem Agree.succ {a b : List UInt8} {n : Nat} (agree : Agree a b n) (bit : bitAt a n = bitAt b n) :
    Agree a b (n + 1) := fun i below => by
  by_cases before : i < n
  · exact agree i before
  · rwa [show i = n by omega]

/-! ### Bits of appended, cut and shifted strings -/

theorem bitAt_take (bytes : List UInt8) {n i : Nat} (inside : i < 8 * n) :
    bitAt (bytes.take n) i = bitAt bytes i := by
  unfold bitAt
  have byte : i / 8 < n := by omega
  rw [List.getD_eq_getElem?_getD, List.getD_eq_getElem?_getD, List.getElem?_take_of_lt byte]

theorem bitAt_append (front back : List UInt8) (i : Nat) :
    bitAt (front ++ back) i =
      if i < 8 * front.length then bitAt front i else bitAt back (i - 8 * front.length) := by
  unfold bitAt
  split
  · next inside =>
    have byte : i / 8 < front.length := by omega
    rw [List.getD_append _ _ _ _ byte]
  · next outside =>
    have byte : front.length ≤ i / 8 := by omega
    have index : (i - 8 * front.length) / 8 = i / 8 - front.length := by omega
    have offset : (i - 8 * front.length) % 8 = i % 8 := by omega
    rw [List.getD_append_right _ _ _ _ byte, index, offset]

theorem bitAt_drop (bytes : List UInt8) (n i : Nat) :
    bitAt (bytes.drop n) i = bitAt bytes (i + 8 * n) := by
  unfold bitAt
  have index : (i + 8 * n) / 8 = i / 8 + n := by omega
  have offset : (i + 8 * n) % 8 = i % 8 := by omega
  rw [index, offset, List.getD_eq_getElem?_getD, List.getD_eq_getElem?_getD, List.getElem?_drop,
    Nat.add_comm n]

theorem Agree.of_take {a b : List UInt8} {n k : Nat} (le : k ≤ 8 * n)
    (agree : Agree (a.take n) (b.take n) k) : Agree a b k := fun i below => by
  rw [← bitAt_take a (Nat.lt_of_lt_of_le below le), ← bitAt_take b (Nat.lt_of_lt_of_le below le)]
  exact agree i below

theorem Agree.of_take_drop {a b : List UInt8} {n k : Nat}
    (front : Agree (a.take n) (b.take n) (8 * n)) (back : Agree (a.drop n) (b.drop n) k) :
    Agree a b (8 * n + k) := fun i below => by
  by_cases inFront : i < 8 * n
  · exact Agree.of_take (Nat.le_refl _) front i inFront
  · have shifted := back (i - 8 * n) (by omega)
    rwa [bitAt_drop, bitAt_drop, Nat.sub_add_cancel (by omega)] at shifted

theorem eq_of_bitAt {a b : List UInt8} (length : a.length = b.length)
    (same : ∀ i < 8 * a.length, bitAt a i = bitAt b i) : a = b := by
  apply List.ext_getElem length
  intro k inA inB
  apply UInt8.toNat_inj.mp
  apply Nat.eq_of_testBit_eq
  intro j
  by_cases low : j < 8
  · have bit := same (8 * k + (7 - j)) (by omega)
    have index : (8 * k + (7 - j)) / 8 = k := by omega
    have offset : 7 - (8 * k + (7 - j)) % 8 = j := by omega
    simpa only [bitAt, index, offset, List.getD_eq_getElem _ _ inA,
      List.getD_eq_getElem _ _ inB] using bit
  · rw [Nat.testBit_lt_two_pow (Nat.lt_of_lt_of_le (UInt8.toNat_lt _) (Nat.pow_le_pow_right
      (by decide) (by omega))), Nat.testBit_lt_two_pow (Nat.lt_of_lt_of_le (UInt8.toNat_lt _)
      (Nat.pow_le_pow_right (by decide) (by omega)))]

theorem bitAt_cons (byte : UInt8) (rest : List UInt8) (i : Nat) :
    bitAt (byte :: rest) i = if i < 8 then byte.toNat.testBit (7 - i) else bitAt rest (i - 8) := by
  have split := bitAt_append [byte] rest i
  simp only [List.singleton_append, List.length_singleton, Nat.mul_one] at split
  rw [split]
  split
  · next inside =>
    have index : i / 8 = 0 := by omega
    have offset : i % 8 = i := by omega
    simp [bitAt, index, offset]
  · rfl

theorem bitAt_of_le (bytes : List UInt8) {i : Nat} (outside : 8 * bytes.length ≤ i) :
    bitAt bytes i = false := by
  have byte : bytes.length ≤ i / 8 := by omega
  rw [bitAt, List.getD_eq_default _ _ byte, UInt8.toNat_zero, Nat.zero_testBit]

theorem bitAt_zipWith_and {a b : List UInt8} (length : a.length = b.length) (i : Nat) :
    bitAt (List.zipWith (· &&& ·) a b) i = (bitAt a i && bitAt b i) := by
  by_cases inside : i / 8 < a.length
  · have zipped : (List.zipWith (· &&& ·) a b).getD (i / 8) 0 = a.getD (i / 8) 0 &&& b.getD (i / 8) 0 := by
      rw [List.getD_eq_getElem _ _ (by simp [length] at inside ⊢; omega), List.getElem_zipWith,
        List.getD_eq_getElem _ _ inside, List.getD_eq_getElem _ _ (length ▸ inside)]
    rw [bitAt, zipped, UInt8.toNat_and, Nat.testBit_and]
    rfl
  · rw [bitAt_of_le _ (by simp [length] at inside ⊢; omega), bitAt_of_le a (by omega)]
    rfl

/-! ### Bits of masked strings -/

/-- Every bit from `n` on is zero. -/
def Masked (bytes : List UInt8) (n : Nat) : Prop :=
  ∀ i, n ≤ i → bitAt bytes i = false

theorem eq_of_agree_of_masked {a b : List UInt8} {n : Nat} (length : a.length = b.length)
    (agree : Agree a b n) (maskedA : Masked a n) (maskedB : Masked b n) : a = b :=
  eq_of_bitAt length fun i _ => by
    by_cases below : i < n
    · exact agree i below
    · rw [maskedA i (by omega), maskedB i (by omega)]

/-! ### Big-endian numbers -/

theorem bigEndian_append_singleton (bytes : List UInt8) (byte : UInt8) :
    bigEndian (bytes ++ [byte]) = 2 ^ 8 * bigEndian bytes + byte.toNat := by
  simp only [bigEndian, List.foldl_append, List.foldl_cons, List.foldl_nil]
  omega

theorem bigEndian_lt (bytes : List UInt8) : bigEndian bytes < 2 ^ (8 * bytes.length) := by
  induction bytes using List.reverseRecOn with
  | nil => simp [bigEndian]
  | append_singleton bytes byte ih =>
    rw [bigEndian_append_singleton, List.length_append, List.length_singleton, Nat.mul_add,
      Nat.pow_add, Nat.mul_comm (2 ^ (8 * bytes.length))]
    have small := UInt8.toNat_lt byte
    calc 2 ^ 8 * bigEndian bytes + byte.toNat
        < 2 ^ 8 * bigEndian bytes + 2 ^ 8 := by omega
      _ = 2 ^ 8 * (bigEndian bytes + 1) := by rw [Nat.mul_add, Nat.mul_one]
      _ ≤ 2 ^ 8 * 2 ^ (8 * bytes.length) := Nat.mul_le_mul_left _ ih

theorem foldl_bigEndian (acc : Nat) (bytes : List UInt8) :
    bytes.foldl (fun acc byte => acc * 256 + byte.toNat) acc = acc * 2 ^ (8 * bytes.length) + bigEndian bytes := by
  induction bytes generalizing acc with
  | nil => simp [bigEndian]
  | cons byte bytes ih =>
    have first := ih (0 * 256 + byte.toNat)
    simp only [bigEndian, List.foldl_cons] at first ⊢
    rw [ih, first, List.length_cons, Nat.mul_add, Nat.mul_one, Nat.pow_add, Nat.zero_mul, Nat.zero_add]
    -- the old accumulator is shifted by one more byte
    rw [Nat.add_mul, Nat.add_assoc, Nat.mul_assoc, Nat.mul_comm 256]
    rfl

theorem bigEndian_append (front back : List UInt8) :
    bigEndian (front ++ back) = bigEndian front * 2 ^ (8 * back.length) + bigEndian back := by
  rw [bigEndian, List.foldl_append]
  exact foldl_bigEndian _ back

theorem bigEndian_cons (byte : UInt8) (bytes : List UInt8) :
    bigEndian (byte :: bytes) = byte.toNat * 2 ^ (8 * bytes.length) + bigEndian bytes := by
  have split := bigEndian_append [byte] bytes
  simpa [bigEndian] using split

theorem mul_add_lt_mul_add_iff {x y a b base : Nat} (smallA : a < base) (smallB : b < base) :
    x * base + a < y * base + b ↔ x < y ∨ x = y ∧ a < b := by
  constructor
  · intro less
    rcases Nat.lt_trichotomy x y with below | same | above
    · exact .inl below
    · subst same
      exact .inr ⟨rfl, by omega⟩
    · have : y * base + b < x * base := by
        calc y * base + b < (y + 1) * base := by rw [Nat.succ_mul]; omega
          _ ≤ x * base := Nat.mul_le_mul_right _ above
      omega
  · rintro (below | ⟨rfl, less⟩)
    · calc x * base + a < (x + 1) * base := by rw [Nat.succ_mul]; omega
        _ ≤ y * base := Nat.mul_le_mul_right _ below
        _ ≤ y * base + b := Nat.le_add_right _ _
    · omega

theorem lt_iff_bigEndian_lt {front back : List UInt8} (same : front.length = back.length) :
    front < back ↔ bigEndian front < bigEndian back := by
  induction front generalizing back with
  | nil =>
    rw [List.length_nil, eq_comm, List.length_eq_zero_iff] at same
    subst same
    simp [bigEndian]
  | cons x front ih =>
    cases back with
    | nil => simp at same
    | cons y back =>
      have length : front.length = back.length := by simpa using same
      rw [List.cons_lt_cons_iff, bigEndian_cons, bigEndian_cons, length,
        mul_add_lt_mul_add_iff (length ▸ bigEndian_lt front) (bigEndian_lt back),
        ih length, UInt8.lt_iff_toNat_lt, UInt8.toNat_inj]

@[simp] theorem length_putUint (n v : Nat) : (putUint n v).length = n := by
  induction n generalizing v with
  | zero => rfl
  | succ n ih => simp [putUint, ih]

theorem bigEndian_putUint (n v : Nat) : bigEndian (putUint n v) = v % 2 ^ (8 * n) := by
  induction n generalizing v with
  | zero => simp [putUint, bigEndian, Nat.mod_one]
  | succ n ih =>
    have low : ((v % 256).toUInt8).toNat = v % 256 := by
      simp [Nat.toUInt8_eq, UInt8.toNat_ofNat']
    rw [putUint, bigEndian_append_singleton, ih, low, Nat.mul_add, Nat.mul_one, Nat.pow_add,
      Nat.mul_comm (2 ^ (8 * n)), Nat.mod_mul, Nat.add_comm]

@[simp] theorem length_putUint16 (v : Nat) : (putUint16 v).length = 2 := rfl

theorem bigEndian_putUint16 (v : Nat) : bigEndian (putUint16 v) = v % 65536 := by
  simp [putUint16, bigEndian]
  omega

theorem masked_add_lt {value width shift randInt : Nat} (inRange : value < 2 ^ width) (within : shift ≤ width)
    (drawn : randInt < 2 ^ shift) : (value >>> shift) <<< shift + randInt < 2 ^ width := by
  have high : value / 2 ^ shift < 2 ^ (width - shift) := by
    rw [Nat.div_lt_iff_lt_mul (Nat.two_pow_pos _), ← Nat.pow_add, Nat.sub_add_cancel within]
    exact inRange
  rw [Nat.shiftRight_eq_div_pow, Nat.shiftLeft_eq]
  calc value / 2 ^ shift * 2 ^ shift + randInt
      < (value / 2 ^ shift + 1) * 2 ^ shift := by rw [Nat.add_mul, Nat.one_mul]; omega
    _ ≤ 2 ^ (width - shift) * 2 ^ shift := Nat.mul_le_mul_right _ high
    _ = 2 ^ width := by rw [← Nat.pow_add, Nat.sub_add_cancel within]

theorem masked_add_shiftRight (value : Nat) {shift randInt : Nat} (drawn : randInt < 2 ^ shift) :
    ((value >>> shift) <<< shift + randInt) >>> shift = value >>> shift := by
  simp only [Nat.shiftRight_eq_div_pow, Nat.shiftLeft_eq]
  rw [Nat.add_comm, Nat.add_mul_div_right _ _ (Nat.two_pow_pos _), Nat.div_eq_of_lt drawn, Nat.zero_add]

theorem testBit_bigEndian (bytes : List UInt8) {i : Nat} (inside : i < 8 * bytes.length) :
    (bigEndian bytes).testBit (8 * bytes.length - 1 - i) = bitAt bytes i := by
  induction bytes using List.reverseRecOn generalizing i with
  | nil => simp at inside
  | append_singleton bytes byte ih =>
    rw [bigEndian_append_singleton, Nat.testBit_two_pow_mul_add _ (UInt8.toNat_lt byte),
      bitAt_append]
    simp only [List.length_append, List.length_singleton] at inside ⊢
    by_cases front : i < 8 * bytes.length
    · -- a bit of the earlier bytes, above the last byte
      rw [if_neg (by omega), if_pos front, ← ih front]
      congr 1
      omega
    · -- a bit of the last byte
      rw [if_pos (by omega), if_neg front]
      have index : (i - 8 * bytes.length) / 8 = 0 := by omega
      have offset : 7 - (i - 8 * bytes.length) % 8 = 8 * (bytes.length + 1) - 1 - i := by omega
      simp [bitAt, index, offset]

/-! ### Leading zeros -/

theorem leadingZeros_le (w x : Nat) : leadingZeros w x ≤ w := Nat.sub_le _ _

theorem leadingZeros_eq_self {w : Nat} : leadingZeros w 0 = w := by
  simp [leadingZeros]

theorem testBit_of_lt_leadingZeros {w x i : Nat} (above : i < leadingZeros w x) :
    x.testBit (w - 1 - i) = false := by
  apply Nat.testBit_lt_two_pow
  calc x < 2 ^ x.size := Nat.lt_size_self x
    _ ≤ 2 ^ (w - 1 - i) := Nat.pow_le_pow_right (by decide) (by unfold leadingZeros at above; omega)

theorem testBit_leadingZeros {w x : Nat} (small : x < 2 ^ w) (nonzero : x ≠ 0) :
    x.testBit (w - 1 - leadingZeros w x) = true := by
  have fits : x.size ≤ w := Nat.size_le.mpr small
  have positive : 0 < x.size := Nat.size_pos.mpr (Nat.pos_of_ne_zero nonzero)
  have top : w - 1 - leadingZeros w x = x.size - 1 := by unfold leadingZeros; omega
  rw [top]
  apply Nat.testBit_of_two_pow_le_and_two_pow_add_one_gt
  · exact Nat.lt_size.mp (by omega)
  · rw [Nat.sub_add_cancel positive]
    exact Nat.lt_size_self x

theorem leadingZeros_lt {w x : Nat} (small : x < 2 ^ w) (nonzero : x ≠ 0) : leadingZeros w x < w := by
  have positive : 0 < x.size := Nat.size_pos.mpr (Nat.pos_of_ne_zero nonzero)
  have fits : x.size ≤ w := Nat.size_le.mpr small
  unfold leadingZeros
  omega

/-! ### Common prefixes of byte strings -/

section common

variable {a b : List UInt8} (length : a.length = b.length)
include length

/-- Two strings agree on the bits above the highest set bit of the exclusive or of their
numbers. -/
theorem agree_leadingZeros :
    Agree a b (leadingZeros (8 * a.length) (bigEndian a ^^^ bigEndian b)) := by
  intro i below
  have inside : i < 8 * a.length :=
    Nat.lt_of_lt_of_le below (leadingZeros_le _ _)
  have zero := testBit_of_lt_leadingZeros below
  rw [Nat.testBit_xor, testBit_bigEndian a inside, length, testBit_bigEndian b (length ▸ inside)]
    at zero
  simpa using zero

/-- and differ at the next one, when the numbers differ. -/
theorem bitAt_ne_leadingZeros (different : bigEndian a ^^^ bigEndian b ≠ 0) :
    bitAt a (leadingZeros (8 * a.length) (bigEndian a ^^^ bigEndian b)) ≠
      bitAt b (leadingZeros (8 * a.length) (bigEndian a ^^^ bigEndian b)) := by
  have small : bigEndian a ^^^ bigEndian b < 2 ^ (8 * a.length) :=
    Nat.xor_lt_two_pow (bigEndian_lt a) (length ▸ bigEndian_lt b)
  have inside := leadingZeros_lt small different
  have one := testBit_leadingZeros small different
  rw [Nat.testBit_xor, testBit_bigEndian a inside, length,
    testBit_bigEndian b (length ▸ inside)] at one
  intro same
  rw [← length, same] at one
  simp at one

theorem agree_of_xor_eq_zero (same : bigEndian a ^^^ bigEndian b = 0) :
    Agree a b (8 * a.length) := by
  have full := agree_leadingZeros length
  rwa [same, leadingZeros_eq_self] at full

end common

/-! ### Longest match

`longest f n` is `f` at the largest index up to `n` where it is defined: the value of the
longest prefix of length at most `n` that a table holds. -/

section longest

variable {α : Type}

def longest (f : Nat → Option α) : Nat → Option α
  | 0 => f 0
  | n + 1 => (f (n + 1)).or (longest f n)

theorem longest_eq_none {f : Nat → Option α} {n : Nat} (none : ∀ k ≤ n, f k = Option.none) :
    longest f n = Option.none := by
  induction n with
  | zero => exact none 0 (Nat.le_refl 0)
  | succ n ih =>
    rw [longest, none (n + 1) (Nat.le_refl _), Option.none_or]
    exact ih fun k le => none k (Nat.le_succ_of_le le)

theorem longest_congr {f g : Nat → Option α} {n : Nat} (same : ∀ k ≤ n, f k = g k) :
    longest f n = longest g n := by
  induction n with
  | zero => exact same 0 (Nat.le_refl 0)
  | succ n ih =>
    rw [longest, longest, same (n + 1) (Nat.le_refl _),
      ih fun k le => same k (Nat.le_succ_of_le le)]

theorem longest_update_of_none {g : Nat → Option α} {c n : Nat} (v : Option α) (le : c ≤ n)
    (none : ∀ k ≤ c, g k = Option.none) :
    longest (Function.update g c v) n = (longest g n).or v := by
  induction n, le using Nat.le_induction with
  | base =>
    rw [longest_eq_none none, Option.none_or]
    cases c with
    | zero => simp [longest]
    | succ c =>
      rw [longest, Function.update_self, longest_congr (g := g) fun k le => by
        rw [Function.update_of_ne (by omega)], longest_eq_none fun k le => none k (by omega),
        Option.or_none]
  | succ n le ih =>
    rw [longest, longest, Function.update_of_ne (by omega), ih, Option.or_assoc]

theorem longest_eq_some_iff {f : Nat → Option α} {n : Nat} {v : α} :
    longest f n = some v ↔ ∃ c ≤ n, f c = some v ∧ ∀ k, c < k → k ≤ n → f k = Option.none := by
  induction n with
  | zero =>
    constructor
    · intro found
      exact ⟨0, Nat.le_refl 0, found, fun k above below => absurd above (by omega)⟩
    · rintro ⟨c, le, found, -⟩
      rwa [Nat.le_zero.mp le] at found
  | succ n ih =>
    rw [longest]
    cases top : f (n + 1) with
    | some w =>
      simp only [Option.some_or, Option.some.injEq]
      constructor
      · rintro rfl
        exact ⟨n + 1, Nat.le_refl _, top, fun k above below => absurd below (by omega)⟩
      · rintro ⟨c, le, found, later⟩
        by_cases at_top : c = n + 1
        · rw [at_top, top] at found
          exact Option.some.inj found
        · rw [later (n + 1) (by omega) (Nat.le_refl _)] at top
          cases top
    | none =>
      rw [Option.none_or, ih]
      constructor
      · rintro ⟨c, le, found, later⟩
        refine ⟨c, Nat.le_succ_of_le le, found, fun k above below => ?_⟩
        by_cases at_top : k = n + 1
        · rw [at_top, top]
        · exact later k above (by omega)
      · rintro ⟨c, le, found, later⟩
        have below : c ≤ n := by
          by_contra above
          rw [show c = n + 1 by omega, top] at found
          cases found
        exact ⟨c, below, found, fun k above le => later k above (Nat.le_succ_of_le le)⟩

end longest

/-! ### Little-endian words

A machine word as a little-endian host stores it, as the control messages of the
Linux socket interface lay out their headers. -/

/-- The `n` bytes of `v`, least significant first, cut to `n` bytes. -/
def putUintLE : Nat → Nat → List UInt8
  | 0, _ => []
  | n + 1, v => (v % 256).toUInt8 :: putUintLE n (v / 256)

/-- Bytes read as one number, least significant first. -/
def littleEndian : List UInt8 → Nat
  | [] => 0
  | byte :: rest => byte.toNat + 256 * littleEndian rest

@[simp] theorem length_putUintLE (n v : Nat) : (putUintLE n v).length = n := by
  induction n generalizing v with
  | zero => rfl
  | succ n ih => simp [putUintLE, ih]

theorem littleEndian_putUintLE (n v : Nat) : littleEndian (putUintLE n v) = v % 2 ^ (8 * n) := by
  induction n generalizing v with
  | zero => simp [putUintLE, littleEndian, Nat.mod_one]
  | succ n ih =>
    have low : ((v % 256).toUInt8).toNat = v % 256 := by
      simp [Nat.toUInt8_eq, UInt8.toNat_ofNat']
    have width : 2 ^ (8 * (n + 1)) = 256 * 2 ^ (8 * n) := by
      rw [Nat.mul_succ, Nat.pow_add, Nat.mul_comm]
    rw [putUintLE, littleEndian, ih, low, width, Nat.mod_mul]

end Bits
