import WarpPlus.Semantics.Bits

/-! The Internet checksum of `tun/checksum.go`.

`checksumNoFold` adds big-endian 32-bit words to a 64-bit accumulator in an
unrolled cascade: blocks of 128 bytes while they last, then one block each of 64,
32, 16, 8 and 4 bytes where that many remain, then a 16-bit word and a last byte
shifted up by 8. `checksum` folds the carries back four times and keeps the low
16 bits.

`cascade b` is the exact sum of what the cascade adds. Every step keeps
"accumulator plus what is still to add" (`Stage.total`), and while that total is
below `2^64` no addition wraps, so the result is `initial + cascade b`
(`checksumNoFold_toNat`). A 32-bit word is two 16-bit words shifted by `2^16`,
which is 1 modulo `0xffff`, so the cascade agrees with the RFC 1071 sum of 16-bit
words (`cascade_mod`). RFC 1071's own
fold, `endAroundCarry`, adds the carries back until the sum fits in 16 bits; it does not
change under one fold of the machine, and four folds already fit, so the checksum is
exactly RFC 1071's value (`checksum_rfc1071`), with `0xffff` kept apart from `0`.
-/

set_option autoImplicit false

namespace WarpPlus.Tun

open Bits

/-- `n` unrolled `ac += uint64(binary.BigEndian.Uint32(b[4j:4j+4]))`. -/
def addWords (ac : UInt64) (b : List UInt8) : Nat → UInt64
  | 0 => ac
  | n + 1 => addWords (ac + (bigEndian (b.take 4)).toUInt64) (b.drop 4) n

/-- One unrolled block: `width / 4` words, when `width` bytes remain. -/
def block (width : Nat) (state : UInt64 × List UInt8) : UInt64 × List UInt8 :=
  if width ≤ state.2.length then (addWords state.1 state.2 (width / 4), state.2.drop width) else state

/-- The `for len(b) >= 128` loop, given `fuel` rounds. -/
def loop128 : Nat → UInt64 × List UInt8 → UInt64 × List UInt8
  | 0, state => state
  | fuel + 1, state =>
    if 128 ≤ state.2.length then loop128 fuel (addWords state.1 state.2 32, state.2.drop 128) else state

/-- `if len(b) >= 2`: one 16-bit word. -/
def pair (state : UInt64 × List UInt8) : UInt64 × List UInt8 :=
  if 2 ≤ state.2.length then (state.1 + (bigEndian (state.2.take 2)).toUInt64, state.2.drop 2) else state

/-- `if len(b) == 1`: the last byte as the high byte of a word. -/
def single (state : UInt64 × List UInt8) : UInt64 :=
  if state.2.length = 1 then state.1 + ((state.2.headD 0).toUInt64 <<< 8) else state.1

/-- `checksumNoFold`; the loop cannot run more rounds than `b` has bytes. -/
def checksumNoFold (b : List UInt8) (initial : UInt64) : UInt64 :=
  single (pair (block 4 (block 8 (block 16 (block 32 (block 64 (loop128 b.length (initial, b))))))))

/-- `ac = (ac >> 16) + (ac & 0xffff)`. -/
def foldCarry (ac : UInt64) : UInt64 := (ac >>> 16) + (ac &&& 0xffff)

def checksum (b : List UInt8) (initial : UInt64) : UInt16 :=
  (foldCarry (foldCarry (foldCarry (foldCarry (checksumNoFold b initial))))).toUInt16

def pseudoHeaderChecksumNoFold (protocol : UInt8) (srcAddr dstAddr : List UInt8) (totalLen : UInt16) :
    UInt64 :=
  let sum := checksumNoFold srcAddr 0
  let sum := checksumNoFold dstAddr sum
  let sum := checksumNoFold [0, protocol] sum
  checksumNoFold (putUint16 totalLen.toNat) sum

/-! ### The sums the cascade computes -/

/-- The 32-bit words of `b` that the cascade reads, in order. -/
def words32 : List UInt8 → List Nat
  | a :: b :: c :: d :: rest => bigEndian [a, b, c, d] :: words32 rest
  | _ => []

/-- The bytes after the last whole 32-bit word. -/
def tail32 : List UInt8 → List UInt8
  | _ :: _ :: _ :: _ :: rest => tail32 rest
  | rest => rest

/-- RFC 1071's big-endian 16-bit words, an odd last byte padded with a zero low byte. -/
def words16 : List UInt8 → List Nat
  | a :: b :: rest => (a.toNat * 256 + b.toNat) :: words16 rest
  | [a] => [a.toNat * 256]
  | [] => []

/-- What the cascade adds to its accumulator: the 32-bit words, then the last
three bytes or fewer as 16-bit words. -/
def cascade (b : List UInt8) : Nat := (words32 b).sum + (words16 (tail32 b)).sum

theorem bigEndian_four (a b c d : UInt8) :
    bigEndian [a, b, c, d] = (a.toNat * 256 + b.toNat) * 65536 + (c.toNat * 256 + d.toNat) := by
  simp only [bigEndian, List.foldl_cons, List.foldl_nil]
  omega

@[simp] theorem words32_short {b : List UInt8} (short : b.length < 4) : words32 b = [] := by
  match b, short with
  | [], _ | [_], _ | [_, _], _ | [_, _, _], _ => rfl

@[simp] theorem tail32_short {b : List UInt8} (short : b.length < 4) : tail32 b = b := by
  match b, short with
  | [], _ | [_], _ | [_, _], _ | [_, _, _], _ => rfl

theorem take_succ_words {a b c d : UInt8} {rest : List UInt8} (n : Nat) :
    (a :: b :: c :: d :: rest).take (4 * (n + 1)) = a :: b :: c :: d :: rest.take (4 * n) := by
  rw [Nat.mul_succ]
  rfl

theorem drop_succ_words {a b c d : UInt8} {rest : List UInt8} (n : Nat) :
    (a :: b :: c :: d :: rest).drop (4 * (n + 1)) = rest.drop (4 * n) := by
  rw [Nat.mul_succ]
  rfl

theorem words32_take_drop (n : Nat) {b : List UInt8} (long : 4 * n ≤ b.length) :
    words32 (b.take (4 * n)) ++ words32 (b.drop (4 * n)) = words32 b ∧ tail32 (b.drop (4 * n)) = tail32 b := by
  induction n generalizing b with
  | zero => simp
  | succ n ih =>
    match b, long with
    | a :: b :: c :: d :: rest, long =>
      have inner := ih (b := rest) (by simp at long; omega)
      rw [take_succ_words, drop_succ_words]
      simp only [words32, tail32, List.cons_append, inner.1, inner.2, and_self]

theorem cascade_take_drop (n : Nat) {b : List UInt8} (long : 4 * n ≤ b.length) :
    cascade b = (words32 (b.take (4 * n))).sum + cascade (b.drop (4 * n)) := by
  obtain ⟨split, tail⟩ := words32_take_drop n long
  rw [cascade, cascade, ← split, List.sum_append, tail, Nat.add_assoc]

/-! ### No step of the cascade wraps -/

theorem toNat_add_of_lt {x y : UInt64} (fits : x.toNat + y.toNat < 2 ^ 64) : (x + y).toNat = x.toNat + y.toNat := by
  rw [UInt64.toNat_add]
  exact Nat.mod_eq_of_lt fits

theorem addWords_toNat (n : Nat) {ac : UInt64} {b : List UInt8} (long : 4 * n ≤ b.length)
    (fits : ac.toNat + (words32 (b.take (4 * n))).sum < 2 ^ 64) :
    (addWords ac b n).toNat = ac.toNat + (words32 (b.take (4 * n))).sum := by
  induction n generalizing ac b with
  | zero => simp [addWords]
  | succ n ih =>
    match b, long with
    | a :: b :: c :: d :: rest, long =>
      rw [take_succ_words, words32, List.sum_cons] at fits ⊢
      have word : (bigEndian [a, b, c, d]).toUInt64.toNat = bigEndian [a, b, c, d] := by
        simp only [Nat.toUInt64, UInt64.toNat_ofNat']
        exact Nat.mod_eq_of_lt (by omega)
      have added : (ac + (bigEndian [a, b, c, d]).toUInt64).toNat = ac.toNat + bigEndian [a, b, c, d] := by
        rw [toNat_add_of_lt (by rw [word]; omega), word]
      have rest4 : (a :: b :: c :: d :: rest).take 4 = [a, b, c, d] := rfl
      rw [addWords, rest4, List.drop_succ_cons, List.drop_succ_cons, List.drop_succ_cons, List.drop_succ_cons,
        List.drop_zero, ih (by simp at long; omega) (by rw [added]; omega), added]
      omega

/-- A state of the cascade: the accumulator and the bytes still to read. Its
total is the accumulator plus what the rest of the cascade adds. -/
def Stage.total (state : UInt64 × List UInt8) : Nat := state.1.toNat + cascade state.2

theorem block_total (width : Nat) (aligned : width % 4 = 0) (state : UInt64 × List UInt8)
    (fits : Stage.total state < 2 ^ 64) : Stage.total (block width state) = Stage.total state := by
  unfold block
  split_ifs with long
  · have words : 4 * (width / 4) = width := by omega
    have split := cascade_take_drop (width / 4) (b := state.2) (by omega)
    rw [words] at split
    have within : state.1.toNat + (words32 (state.2.take width)).sum < 2 ^ 64 := by
      unfold Stage.total at fits
      omega
    simp only [Stage.total]
    rw [addWords_toNat (width / 4) (by omega) (by rw [words]; exact within), words, split]
    omega
  · rfl

theorem loop128_total (fuel : Nat) {state : UInt64 × List UInt8} (fits : Stage.total state < 2 ^ 64) :
    Stage.total (loop128 fuel state) = Stage.total state := by
  induction fuel generalizing state with
  | zero => rfl
  | succ fuel ih =>
    unfold loop128
    split_ifs with long
    · -- one round is the block of 128 bytes
      have round : (addWords state.1 state.2 32, state.2.drop 128) = block 128 state := by
        simp [block, long]
      rw [round] at ⊢
      have kept := block_total 128 (by decide) state fits
      rw [ih (by rw [kept]; exact fits), kept]
    · rfl

theorem loop128_length (fuel : Nat) {state : UInt64 × List UInt8} (enough : state.2.length < 128 * fuel + 128) :
    (loop128 fuel state).2.length < 128 := by
  induction fuel generalizing state with
  | zero => simpa [loop128] using enough
  | succ fuel ih =>
    unfold loop128
    split_ifs with long
    · exact ih (by simp only [List.length_drop]; omega)
    · omega

theorem block_length (width : Nat) {state : UInt64 × List UInt8} (below : state.2.length < 2 * width) :
    (block width state).2.length < width := by
  unfold block
  split_ifs with long
  · simp only [List.length_drop]
    omega
  · omega

theorem single_pair_toNat {state : UInt64 × List UInt8} (short : state.2.length < 4)
    (fits : Stage.total state < 2 ^ 64) : (single (pair state)).toNat = Stage.total state := by
  obtain ⟨ac, rest⟩ := state
  unfold Stage.total at fits ⊢
  simp only [cascade, words32_short short, tail32_short short, List.sum_nil, Nat.zero_add] at fits ⊢
  have word : ∀ a b : UInt8, (bigEndian [a, b]).toUInt64.toNat = a.toNat * 256 + b.toNat := by
    intro a b
    have := a.toNat_lt
    have := b.toNat_lt
    simp only [bigEndian, List.foldl_cons, List.foldl_nil, Nat.toUInt64, UInt64.toNat_ofNat']
    omega
  have high : ∀ a : UInt8, (a.toUInt64 <<< 8).toNat = a.toNat * 256 := by
    intro a
    have := a.toNat_lt
    rw [UInt64.toNat_shiftLeft, UInt8.toNat_toUInt64, show (8 : UInt64).toNat % 64 = 8 from rfl,
      Nat.shiftLeft_eq]
    omega
  -- at most three bytes are left: one case for each count
  rcases rest with _ | ⟨a, _ | ⟨b, _ | ⟨c, _ | ⟨d, rest⟩⟩⟩⟩
  · rfl
  · -- one byte, shifted up
    have value : single (pair (ac, [a])) = ac + (a.toUInt64 <<< 8) := rfl
    simp only [words16, List.sum_cons, List.sum_nil, Nat.add_zero] at fits ⊢
    rw [value, toNat_add_of_lt (by rw [high]; omega), high]
  · -- one 16-bit word
    have value : single (pair (ac, [a, b])) = ac + (bigEndian [a, b]).toUInt64 := rfl
    simp only [words16, List.sum_cons, List.sum_nil, Nat.add_zero] at fits ⊢
    rw [value, toNat_add_of_lt (by rw [word]; omega), word]
  · -- a word, then the last byte
    simp only [words16, List.sum_cons, List.sum_nil, Nat.add_zero] at fits ⊢
    have first : (ac + (bigEndian [a, b]).toUInt64).toNat = ac.toNat + (a.toNat * 256 + b.toNat) := by
      -- omega gives up on the strict bound with these coefficients, so bound by `fits`
      have within : ac.toNat + (bigEndian [a, b]).toUInt64.toNat < 2 ^ 64 := by
        rw [word]
        exact Nat.lt_of_le_of_lt (by omega) fits
      rw [toNat_add_of_lt within, word]
    have within : (ac + (bigEndian [a, b]).toUInt64).toNat + (c.toUInt64 <<< 8).toNat < 2 ^ 64 := by
      rw [first, high]
      exact Nat.lt_of_le_of_lt (by omega) fits
    have value : single (pair (ac, [a, b, c])) = ac + (bigEndian [a, b]).toUInt64 + (c.toUInt64 <<< 8) := rfl
    rw [value, toNat_add_of_lt within, first, high]
    omega
  · -- four bytes or more were handled by the blocks
    simp only [List.length_cons] at short
    omega

/-- While the exact sum fits in 64 bits, `checksumNoFold` computes it. -/
theorem checksumNoFold_toNat {b : List UInt8} {initial : UInt64} (fits : initial.toNat + cascade b < 2 ^ 64) :
    (checksumNoFold b initial).toNat = initial.toNat + cascade b := by
  have start : Stage.total (initial, b) < 2 ^ 64 := fits
  have loop := loop128_total b.length start
  have b64 := block_total 64 (by decide) (loop128 b.length (initial, b)) (by omega)
  have b32 := block_total 32 (by decide) (block 64 (loop128 b.length (initial, b))) (by omega)
  have b16 := block_total 16 (by decide)
    (block 32 (block 64 (loop128 b.length (initial, b)))) (by omega)
  have b8 := block_total 8 (by decide)
    (block 16 (block 32 (block 64 (loop128 b.length (initial, b))))) (by omega)
  have b4 := block_total 4 (by decide)
    (block 8 (block 16 (block 32 (block 64 (loop128 b.length (initial, b)))))) (by omega)
  -- the blocks leave fewer than four bytes
  have short : (block 4 (block 8 (block 16 (block 32 (block 64 (loop128 b.length (initial, b))))))).2.length < 4 :=
    block_length 4 (block_length 8 (block_length 16 (block_length 32 (block_length 64
      (loop128_length b.length (by simp; omega))))))
  rw [checksumNoFold, single_pair_toNat short (by omega)]
  simp only [Stage.total] at loop b64 b32 b16 b8 b4 ⊢
  omega

/-! ### The cascade is the RFC 1071 sum -/

theorem length_lt_four {rest : List UInt8}
    (notFour : ∀ a b c d tail, rest = a :: b :: c :: d :: tail → False) : rest.length < 4 := by
  match rest, notFour with
  | [], _ | [_], _ | [_, _], _ | [_, _, _], _ => simp
  | _ :: _ :: _ :: _ :: _, notFour => exact absurd rfl (notFour _ _ _ _ _)

/-- Modulo `0xffff` a 32-bit word is its two 16-bit words. -/
theorem cascade_mod (b : List UInt8) : cascade b % 0xffff = (words16 b).sum % 0xffff := by
  induction b using words32.induct with
  | case1 a b c d rest ih =>
    simp only [cascade, words32, tail32, words16, List.sum_cons, bigEndian_four] at ih ⊢
    omega
  | case2 rest notFour =>
    have short := length_lt_four notFour
    simp [cascade, words32_short short, tail32_short short]

theorem sum_words32_le (b : List UInt8) : (words32 b).sum ≤ (2 ^ 32 - 1) * (b.length / 4) := by
  induction b using words32.induct with
  | case1 a b c d rest ih =>
    have word := bigEndian_four a b c d
    have := a.toNat_lt
    have := b.toNat_lt
    have := c.toNat_lt
    have := d.toNat_lt
    simp only [words32, List.sum_cons, List.length_cons] at ih ⊢
    have step : (rest.length + 1 + 1 + 1 + 1) / 4 = rest.length / 4 + 1 := by omega
    rw [step, Nat.mul_succ]
    omega
  | case2 rest notFour =>
    have short := length_lt_four notFour
    simp [words32_short short]

theorem sum_words16_tail32_lt (b : List UInt8) : (words16 (tail32 b)).sum < 2 ^ 17 := by
  induction b using words32.induct with
  | case1 a b c d rest ih => simpa [tail32] using ih
  | case2 rest notFour =>
    have short := length_lt_four notFour
    rw [tail32_short short]
    match rest, short with
    | [], _ => simp [words16]
    | [a], _ => have := a.toNat_lt; simp [words16]; omega
    | [a, b], _ => have := a.toNat_lt; have := b.toNat_lt; simp [words16]; omega
    | [a, b, c], _ => have := a.toNat_lt; have := b.toNat_lt; have := c.toNat_lt; simp [words16]; omega

/-! ### Folding the carries -/

theorem foldCarry_toNat (ac : UInt64) : (foldCarry ac).toNat = ac.toNat / 65536 + ac.toNat % 65536 := by
  have high : (ac >>> 16).toNat = ac.toNat / 65536 := by
    simp [UInt64.toNat_shiftRight, Nat.shiftRight_eq_div_pow]
  have low : (ac &&& 0xffff).toNat = ac.toNat % 65536 := by
    rw [UInt64.toNat_and, show (0xffff : UInt64).toNat = 2 ^ 16 - 1 from rfl, Nat.and_two_pow_sub_one_eq_mod]
  have bound := ac.toNat_lt
  rw [foldCarry, UInt64.toNat_add, high, low]
  exact Nat.mod_eq_of_lt (by omega)

theorem foldCarry_le {ac : UInt64} {q : Nat} (bound : ac.toNat ≤ q * 65536 + 65534) :
    (foldCarry ac).toNat ≤ q + 65534 := by
  rw [foldCarry_toNat]
  omega

theorem fold_four_le (ac : UInt64) :
    (foldCarry (foldCarry (foldCarry (foldCarry ac)))).toNat ≤ 0xffff := by
  have first : (foldCarry ac).toNat ≤ 2 ^ 32 * 65536 + 65534 := by
    have := ac.toNat_lt
    rw [foldCarry_toNat]
    omega
  have second := foldCarry_le first
  have third := foldCarry_le (q := 65536) (by omega : (foldCarry (foldCarry ac)).toNat ≤ 65536 * 65536 + 65534)
  have fourth := foldCarry_le (q := 1) (by omega : (foldCarry (foldCarry (foldCarry ac))).toNat ≤ 1 * 65536 + 65534)
  omega

/-! ### RFC 1071's fold -/

/-- RFC 1071's reference fold, `while (sum >> 16) sum = (sum & 0xffff) + (sum >> 16)`. -/
def endAroundCarry (sum : Nat) : Nat :=
  if sum < 65536 then sum else endAroundCarry (sum % 65536 + sum / 65536)
termination_by sum
decreasing_by omega

theorem endAroundCarry_eq (sum : Nat) :
    endAroundCarry sum = if sum = 0 then 0 else (sum - 1) % 0xffff + 1 := by
  induction sum using endAroundCarry.induct with
  | case1 sum fits =>
    rw [endAroundCarry, if_pos fits]
    split <;> omega
  | case2 sum carries ih =>
    rw [endAroundCarry, if_neg carries, ih]
    split <;> split <;> omega

theorem endAroundCarry_of_le {sum : Nat} (fits : sum ≤ 0xffff) : endAroundCarry sum = sum := by
  rw [endAroundCarry, if_pos (by omega)]

theorem endAroundCarry_foldCarry (ac : UInt64) :
    endAroundCarry (foldCarry ac).toNat = endAroundCarry ac.toNat := by
  rw [endAroundCarry_eq, endAroundCarry_eq, foldCarry_toNat]
  split <;> split <;> omega

theorem cascade_eq_zero_iff (b : List UInt8) : cascade b = 0 ↔ (words16 b).sum = 0 := by
  induction b using words32.induct with
  | case1 a b c d rest ih =>
    simp only [cascade, words32, tail32, words16, List.sum_cons, bigEndian_four] at ih ⊢
    omega
  | case2 rest notFour =>
    have short := length_lt_four notFour
    simp [cascade, words32_short short, tail32_short short]

/-- For a byte slice shorter than `2^31` and an initial value below `2^63`, the
cascade never wraps (it computes `initial + cascade b` exactly), four folds leave at
most `0xffff` so `uint16` keeps the whole value, and the checksum is RFC 1071's
end-around-carry sum of `initial` and the 16-bit words of `b`. -/
theorem checksum_rfc1071 (b : List UInt8) (initial : UInt64) (short : b.length < 2 ^ 31)
    (small : initial.toNat < 2 ^ 63) :
    (checksumNoFold b initial).toNat = initial.toNat + cascade b ∧
      (foldCarry (foldCarry (foldCarry (foldCarry (checksumNoFold b initial))))).toNat ≤ 0xffff ∧
      (checksum b initial).toNat = (foldCarry (foldCarry (foldCarry (foldCarry (checksumNoFold b initial))))).toNat ∧
      (checksum b initial).toNat = endAroundCarry (initial.toNat + (words16 b).sum) := by
  have words := sum_words32_le b
  have tail := sum_words16_tail32_lt b
  have fits : initial.toNat + cascade b < 2 ^ 64 := by
    have within : (2 ^ 32 - 1) * (b.length / 4) ≤ (2 ^ 32 - 1) * 2 ^ 29 :=
      Nat.mul_le_mul_left _ (by omega)
    unfold cascade
    omega
  have exact := checksumNoFold_toNat fits
  have folded := fold_four_le (checksumNoFold b initial)
  have narrow : (checksum b initial).toNat =
      (foldCarry (foldCarry (foldCarry (foldCarry (checksumNoFold b initial))))).toNat := by
    rw [checksum, UInt64.toNat_toUInt16]
    exact Nat.mod_eq_of_lt (by omega)
  refine ⟨exact, folded, narrow, ?_⟩
  -- the 32-bit words leave the residue and the zero test of the 16-bit ones
  have residue : (initial.toNat + cascade b) % 0xffff = (initial.toNat + (words16 b).sum) % 0xffff := by
    rw [Nat.add_mod, cascade_mod, ← Nat.add_mod]
  have zero := cascade_eq_zero_iff b
  calc (checksum b initial).toNat
      = endAroundCarry (foldCarry (foldCarry (foldCarry (foldCarry (checksumNoFold b initial))))).toNat := by
        rw [narrow, endAroundCarry_of_le folded]
    _ = endAroundCarry (initial.toNat + cascade b) := by
        rw [endAroundCarry_foldCarry, endAroundCarry_foldCarry, endAroundCarry_foldCarry,
          endAroundCarry_foldCarry, exact]
    _ = endAroundCarry (initial.toNat + (words16 b).sum) := by
        rw [endAroundCarry_eq, endAroundCarry_eq]
        split <;> split <;> omega

/-- Five bytes from zero: a 4-byte block, then one odd byte. -/
theorem checksum_rfc1071_fiveBytes :
    ([0x45, 0x00, 0x00, 0x1c, 0x40] : List UInt8).length < 2 ^ 31 ∧ (0 : UInt64).toNat < 2 ^ 63 ∧
      (checksumNoFold [0x45, 0x00, 0x00, 0x1c, 0x40] 0).toNat = (0 : UInt64).toNat + cascade [0x45, 0x00, 0x00, 0x1c, 0x40] ∧
      (foldCarry (foldCarry (foldCarry (foldCarry (checksumNoFold [0x45, 0x00, 0x00, 0x1c, 0x40] 0))))).toNat ≤ 0xffff ∧
      (checksum [0x45, 0x00, 0x00, 0x1c, 0x40] 0).toNat =
        (foldCarry (foldCarry (foldCarry (foldCarry (checksumNoFold [0x45, 0x00, 0x00, 0x1c, 0x40] 0))))).toNat ∧
      (checksum [0x45, 0x00, 0x00, 0x1c, 0x40] 0).toNat =
        endAroundCarry ((0 : UInt64).toNat + (words16 [0x45, 0x00, 0x00, 0x1c, 0x40]).sum) :=
  ⟨by decide, by decide, checksum_rfc1071 _ _ (by decide) (by decide)⟩

end WarpPlus.Tun
