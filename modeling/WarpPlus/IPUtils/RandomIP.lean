import WarpPlus.Scanner.Iterator
import WarpPlus.Semantics.Bits

/-! `RandomIPFromPrefix` of `iputils`, over the `netip` addresses of the scanner model.

An address is its family and its value: 32 bits for IPv4 and 128 for IPv6. The
function masks the prefix, adds a random host part below `2 ^ (BitLen - Bits)` to
the 16-byte form of the start and unmaps the sum. For an IPv4 prefix the sum stays
in `::ffff:0:0/96`, so it unmaps to an IPv4 address inside the prefix. For an IPv6
prefix that covers part of `::ffff:0:0/96`, a draw that lands there unmaps to an
IPv4 address, which `Contains` refuses as of the other family.
-/

set_option autoImplicit false

namespace WarpPlus.Scanner

/-- The value fits the family's width. -/
def Addr.InRange : Addr → Prop
  | .v4 value => value < 2 ^ 32
  | .v6 value => value < 2 ^ 128

def Addr.bitLen : Addr → Nat
  | .v4 _ => 32
  | .v6 _ => 128

/-- `Is4In6`: an IPv6 address in `::ffff:0:0/96`. -/
def Addr.is4In6 : Addr → Bool
  | .v4 _ => false
  | .v6 value => value >>> 32 == 0xffff

/-- `Prefix.IsValid`: `PrefixFrom` accepts at most the family's width of bits. -/
def Prefix.isValid (p : Prefix) : Bool := p.bits ≤ p.addr.bitLen

/-- `Addr.Prefix(bits)`: the host bits cleared. -/
def Addr.mask (ip : Addr) (bits : Nat) : Addr :=
  match ip with
  | .v4 value => .v4 ((value >>> (32 - bits)) <<< (32 - bits))
  | .v6 value => .v6 ((value >>> (128 - bits)) <<< (128 - bits))

/-- `Prefix.Masked` of a valid prefix. -/
def Prefix.masked (p : Prefix) : Prefix := ⟨p.addr.mask p.bits, p.bits⟩

/-- `Prefix.Contains`, without zones: a valid prefix, the same family, and the
prefix's bits agree (Go compares them through an exclusive or). -/
def Prefix.contains (p : Prefix) (ip : Addr) : Bool :=
  p.isValid &&
    match p.addr, ip with
    | .v4 prefixValue, .v4 value => value >>> (32 - p.bits) == prefixValue >>> (32 - p.bits)
    | .v6 prefixValue, .v6 value => value >>> (128 - p.bits) == prefixValue >>> (128 - p.bits)
    | _, _ => false

end WarpPlus.Scanner

namespace WarpPlus.IPUtils

open WarpPlus.Scanner

inductive RandomIPError where
  /-- "mapped v4 addresses not supported" -/
  | mapped
  /-- "invalid cidr: %s" -/
  | invalidCidr
  /-- `FillBytes` panics on a sum past 16 bytes. -/
  | panicked
  deriving DecidableEq, Repr

/-- `RandomIPFromPrefix`, given the value `randInt` that `Rand` drew below
`2 ^ (BitLen - Bits)`. An invalid prefix masks to the zero prefix, which is not
mapped, so checking validity first gives the same answer. -/
def randomIPFromPrefix (cidr : Prefix) (randInt : Nat) : Except RandomIPError Addr :=
  if !cidr.isValid then .error .invalidCidr
  else
    let startingAddress := cidr.masked.addr
    if startingAddress.is4In6 then .error .mapped
    else
      match addIP startingAddress randInt with
      | some randomAddress => .ok randomAddress
      | none => .error .panicked

theorem addIP_v6 {start randInt : Nat} (fits : start + randInt < 2 ^ 128) :
    addIP (.v6 start) randInt = some (Addr.v6 (start + randInt)).unmap := by
  simp only [addIP, Addr.as16, fits, if_true]

/-- For an IPv6 prefix whose start is not mapped, every draw gives an address, and
the prefix contains it exactly when the 16-byte sum lies outside `::ffff:0:0/96`;
a sum inside unmaps to an IPv4 address. -/
theorem randomIPFromPrefix_v6 {value bits randInt : Nat} (inRange : value < 2 ^ 128) (valid : bits ≤ 128)
    (notMapped : (Prefix.masked ⟨.v6 value, bits⟩).addr.is4In6 = false) (drawn : randInt < 2 ^ (128 - bits)) :
    ∃ a, randomIPFromPrefix ⟨.v6 value, bits⟩ randInt = .ok a ∧
      (Prefix.contains ⟨.v6 value, bits⟩ a = true ↔
        ((Prefix.masked ⟨.v6 value, bits⟩).addr.as16 + randInt) >>> 32 ≠ 0xffff) := by
  have fits := Bits.masked_add_lt inRange (Nat.sub_le 128 bits) drawn
  have isValid : Prefix.isValid ⟨.v6 value, bits⟩ = true := by
    simp [Prefix.isValid, Addr.bitLen, valid]
  have start : (Prefix.masked ⟨.v6 value, bits⟩).addr = .v6 ((value >>> (128 - bits)) <<< (128 - bits)) := rfl
  have result : randomIPFromPrefix ⟨.v6 value, bits⟩ randInt =
      .ok (Addr.v6 ((value >>> (128 - bits)) <<< (128 - bits) + randInt)).unmap := by
    rw [randomIPFromPrefix, if_neg (by simp [isValid])]
    dsimp only
    rw [if_neg (by simp [notMapped]), start, addIP_v6 fits]
  refine ⟨_, result, ?_⟩
  rw [start, Addr.as16]
  by_cases mapped : ((value >>> (128 - bits)) <<< (128 - bits) + randInt) / 2 ^ 32 = 0xffff
  · -- the sum unmaps to IPv4, of the other family
    have inMapped : ((value >>> (128 - bits)) <<< (128 - bits) + randInt) >>> 32 = 0xffff := by
      rw [Nat.shiftRight_eq_div_pow _ 32, mapped]
    simp only [Addr.unmap, if_pos mapped, Prefix.contains, Bool.and_false, inMapped, ne_eq,
      not_true_eq_false, Bool.false_eq_true]
  · have outside : ((value >>> (128 - bits)) <<< (128 - bits) + randInt) >>> 32 ≠ 0xffff := by
      rw [Nat.shiftRight_eq_div_pow _ 32]
      exact mapped
    simp only [Addr.unmap, if_neg mapped, Prefix.contains, isValid, Bits.masked_add_shiftRight value drawn,
      beq_self_eq_true, Bool.and_self, outside, ne_eq, not_false_eq_true]

/-- `::/0` with the draw `0xffff00000000`, whose sum is `::ffff:0.0.0.0`. -/
theorem randomIPFromPrefix_v6_everything :
    (0 : Nat) < 2 ^ 128 ∧ 0 ≤ 128 ∧ (Prefix.masked ⟨.v6 0, 0⟩).addr.is4In6 = false ∧
      0xffff00000000 < 2 ^ (128 - 0) ∧
      ∃ a, randomIPFromPrefix ⟨.v6 0, 0⟩ 0xffff00000000 = .ok a ∧
        (Prefix.contains ⟨.v6 0, 0⟩ a = true ↔
          ((Prefix.masked ⟨.v6 0, 0⟩).addr.as16 + 0xffff00000000) >>> 32 ≠ 0xffff) :=
  ⟨by decide, by decide, by decide, by decide,
    randomIPFromPrefix_v6 (by decide) (by decide) (by decide) (by decide)⟩

end WarpPlus.IPUtils
