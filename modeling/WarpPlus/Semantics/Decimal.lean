import Mathlib

/-! Decimal numbers in Go strings, which are byte strings: `strconv.Itoa` (also
`fmt`'s `%d`) of a non-negative value, `strconv.Atoi` for a 64-bit `int`, and
`strconv.ParseUint` in base 10.

`Atoi` takes an optional sign and then a non-empty run of digits whose value fits
the type; `ParseUint` takes digits only. The printed form of `n` is core's
`Nat.toDigits 10 n` in ASCII, so reading it back is `Nat.ofDigitChars_ten_toDigits`
with the range checks around it.
-/

set_option autoImplicit false

namespace GoText

/-- The byte of an ASCII character. -/
def byteOf (c : Char) : UInt8 := c.toNat.toUInt8

/-- A Go string literal written in ASCII. -/
def ascii (s : String) : List UInt8 := s.toList.map byteOf

def isDigit (b : UInt8) : Bool := 48 ≤ b && b ≤ 57

/-- `strconv.Itoa` of a non-negative value. -/
def itoa (n : Nat) : List UInt8 := (Nat.toDigits 10 n).map byteOf

/-- `fmt`'s `%d` of a signed value. -/
def formatInt (n : Int) : List UInt8 := if n < 0 then 45 :: itoa n.natAbs else itoa n.toNat

/-- The value of a run of digits. -/
def digitsValue (digits : List UInt8) : Nat :=
  digits.foldl (fun acc b => 10 * acc + (b.toNat - 48)) 0

/-- `strconv.Atoi` with a 64-bit `int`: an optional `-` or `+`, then digits. -/
def atoi (s : List UInt8) : Option Int :=
  let signed := s.head? = some 45 ∨ s.head? = some 43
  let digits := if signed then s.tail else s
  if digits ≠ [] ∧ digits.all isDigit = true then
    let n := digitsValue digits
    if s.head? = some 45 then (if n ≤ 2 ^ 63 then some (-(n : Int)) else none)
    else if n < 2 ^ 63 then some n else none
  else none

/-- `strconv.ParseUint(s, 10, bitSize)`. -/
def parseUint (s : List UInt8) (bitSize : Nat) : Option Nat :=
  if s ≠ [] ∧ s.all isDigit = true then
    if digitsValue s < 2 ^ bitSize then some (digitsValue s) else none
  else none

theorem byteOf_digit {c : Char} (digit : c.isDigit = true) : (byteOf c).toNat = c.toNat := by
  have bound := (Char.isDigit_iff_toNat.mp digit).2
  simp only [byteOf, Nat.toUInt8]
  exact Nat.mod_eq_of_lt (by simp at bound; omega)

theorem isDigit_of_mem_itoa {n : Nat} {b : UInt8} (member : b ∈ itoa n) : isDigit b = true := by
  obtain ⟨c, digitMember, rfl⟩ := List.mem_map.mp member
  have digit := Nat.isDigit_of_mem_toDigits (by decide) (by decide) digitMember
  have range := Char.isDigit_iff_toNat.mp digit
  simp only [Char.reduceToNat] at range
  simp only [isDigit, Bool.and_eq_true, decide_eq_true_eq, UInt8.le_iff_toNat_le, byteOf_digit digit]
  exact ⟨by simpa using range.1, by simpa using range.2⟩

theorem itoa_ne_nil (n : Nat) : itoa n ≠ [] := by
  simp [itoa, Nat.toDigits_ne_nil]

theorem not_mem_itoa {b : UInt8} (notDigit : isDigit b = false) (n : Nat) : b ∉ itoa n :=
  fun member => absurd (isDigit_of_mem_itoa member) (by simp [notDigit])

theorem head_itoa_ne_zero {n : Nat} (positive : 0 < n) : (itoa n).head? ≠ some 48 := by
  -- on the number of digits: the first digit of `n` is the first digit of `n / 10`
  induction n using Nat.strongRecOn with
  | _ n ih =>
    by_cases small : n < 10
    · have oneDigit : ∀ k < 10, 0 < k → ([k.digitChar].map byteOf).head? ≠ some 48 := by decide
      rw [itoa, Nat.toDigits_of_lt_base small]
      exact oneDigit n small positive
    · rw [itoa, Nat.toDigits_of_base_le (by decide) (by omega), List.map_append,
        List.head?_append_of_ne_nil _ (by simp)]
      exact ih (n / 10) (by omega) (by omega)

theorem digitsValue_map_byteOf (cs : List Char) (digits : ∀ c ∈ cs, c.isDigit = true) (init : Nat) :
    (cs.map byteOf).foldl (fun acc b => 10 * acc + (b.toNat - 48)) init = Nat.ofDigitChars 10 cs init := by
  induction cs generalizing init with
  | nil => rfl
  | cons c cs ih =>
    simp only [List.map_cons, List.foldl_cons, Nat.ofDigitChars_cons,
      byteOf_digit (digits c List.mem_cons_self), Char.reduceToNat]
    exact ih (fun d member => digits d (List.mem_cons_of_mem _ member)) _

@[simp] theorem digitsValue_itoa (n : Nat) : digitsValue (itoa n) = n := by
  unfold digitsValue itoa
  rw [digitsValue_map_byteOf _ (fun c member =>
    Nat.isDigit_of_mem_toDigits (by decide) (by decide) member)]
  exact Nat.ofDigitChars_ten_toDigits

theorem all_isDigit_itoa (n : Nat) : (itoa n).all isDigit = true :=
  List.all_eq_true.mpr fun _ member => isDigit_of_mem_itoa member

theorem atoi_of_digits {s : List UInt8} (digits : s ≠ [] ∧ s.all isDigit = true)
    (small : digitsValue s < 2 ^ 63) : atoi s = some (digitsValue s : Int) := by
  have head : ∀ b, s.head? = some b → isDigit b = true := fun b first =>
    List.all_eq_true.mp digits.2 b (List.mem_of_mem_head? first)
  have notMinus : ¬ s.head? = some 45 := fun minus => absurd (head _ minus) (by decide)
  have notPlus : ¬ s.head? = some 43 := fun plus => absurd (head _ plus) (by decide)
  simp only [atoi, notMinus, notPlus, or_self, if_false, small, if_true]
  rw [if_pos digits]

theorem atoi_itoa {n : Nat} (small : n < 2 ^ 63) : atoi (itoa n) = some (n : Int) := by
  have parsed := atoi_of_digits ⟨itoa_ne_nil n, all_isDigit_itoa n⟩ (by rwa [digitsValue_itoa])
  rwa [digitsValue_itoa] at parsed

theorem parseUint_itoa {n bitSize : Nat} (fits : n < 2 ^ bitSize) :
    parseUint (itoa n) bitSize = some n := by
  simp only [parseUint, digitsValue_itoa, fits, if_true]
  rw [if_pos ⟨itoa_ne_nil n, all_isDigit_itoa n⟩]

theorem exists_digitChar_of_mem_toDigits {b n : Nat} (base : 1 < b) {c : Char} (member : c ∈ Nat.toDigits b n) :
    ∃ d < b, c = d.digitChar := by
  induction n using Nat.strong_induction_on with
  | _ n ih =>
    rw [Nat.toDigits_eq_if base] at member
    split at member
    · next small => exact ⟨n, small, List.mem_singleton.mp member⟩
    · rcases List.mem_append.mp member with member | member
      · exact ih (n / b) (Nat.div_lt_self (by omega) base) member
      · exact ⟨n % b, Nat.mod_lt _ (by omega), List.mem_singleton.mp member⟩

theorem length_itoa_le_iff {n k : Nat} (positive : 0 < k) : (itoa n).length ≤ k ↔ n < 10 ^ k := by
  rw [itoa, List.length_map]
  exact Nat.length_toDigits_le_iff (by decide) positive

end GoText
