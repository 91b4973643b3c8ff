import Mathlib

/-! The address iterator of `iterator/iterator.go`: a linear congruential
generator per prefix, whose indices are added to the prefix's address.

Big integers are natural numbers. An address is its family and its value
(`As16` maps an IPv4 address into `::ffff:0:0/96`); the zone plays no part.
`NewLCG` loops on random draws until `checkHullDobell` accepts one, so the
model takes the accepted draw as an argument. `addIP` answers `none` where
`FillBytes` panics on a sum past 128 bits. `lastIP` and the `stop` field feed
nothing the iterator reads and are left out.
-/

set_option autoImplicit false

namespace WarpPlus.Scanner

structure LCG where
  modulus : Nat
  multiplier : Nat
  increment : Nat
  current : Nat
  deriving DecidableEq, Repr

/-- `c` and `m` coprime, and `a - 1` divisible by 4 when `m` is (`x & 3 == 0` is
`x % 4 == 0` in two's complement, so `a = 0` gives `-1 & 3 = 3`). -/
def checkHullDobell (modulus multiplier increment : Nat) : Bool :=
  Nat.gcd increment modulus == 1 &&
    (modulus % 4 != 0 || ((multiplier : Int) - 1) % 4 == 0)

/-- `NewLCG(size)` once its loop has drawn an accepted `multiplier` and `increment`. -/
def newLCG (size multiplier increment : Nat) : LCG := ⟨size, multiplier, increment, 0⟩

/-- `Next`: `nil` once `current` reaches the modulus, else the next state. -/
def LCG.next (lcg : LCG) : Option Nat × LCG :=
  if lcg.current = lcg.modulus then (none, lcg)
  else
    let next := (lcg.multiplier * lcg.current + lcg.increment) % lcg.modulus
    (some next, { lcg with current := next })

/-- The values of `n` successive calls of `Next`. -/
def LCG.take (lcg : LCG) : Nat → List (Option Nat)
  | 0 => []
  | n + 1 => lcg.next.1 :: lcg.next.2.take n

inductive Addr where
  | v4 (value : Nat)
  | v6 (value : Nat)
  deriving DecidableEq, Repr

def Addr.is4 : Addr → Bool
  | .v4 _ => true
  | .v6 _ => false

/-- `As16`: IPv4 addresses as `::ffff:a.b.c.d`. -/
def Addr.as16 : Addr → Nat
  | .v4 value => 0xffff * 2 ^ 32 + value
  | .v6 value => value

/-- `Unmap`: an IPv4-mapped IPv6 address becomes IPv4. -/
def Addr.unmap : Addr → Addr
  | .v6 value => if value / 2 ^ 32 = 0xffff then .v4 (value % 2 ^ 32) else .v6 value
  | address => address

structure Prefix where
  addr : Addr
  bits : Nat
  deriving DecidableEq, Repr

/-- `addIP`: add `num` to the 16-byte form and unmap; `none` where `FillBytes`
panics because the sum does not fit in 16 bytes. -/
def addIP (ip : Addr) (num : Nat) : Option Addr :=
  let sum := ip.as16 + num
  if sum < 2 ^ 128 then some (Addr.v6 sum).unmap else none

def ipRangeSize (cidr : Prefix) : Nat :=
  2 ^ ((if cidr.addr.is4 then 32 else 128) - cidr.bits)

structure IpRange where
  lcg : LCG
  start : Addr
  size : Nat
  index : Nat
  deriving DecidableEq, Repr

/-- `newIPRange`: the start is `cidr.Addr()`, as given, not masked. -/
def newIPRange (cidr : Prefix) (multiplier increment : Nat) : IpRange :=
  ⟨newLCG (ipRangeSize cidr) multiplier increment, cidr.addr, ipRangeSize cidr, 0⟩

/-- One pass of the loop of `NextBatch`: every range not yet exhausted draws its
next index and contributes one address. `none` is a panic of `addIP`. -/
def nextPass : List IpRange → Option (List Addr × List IpRange)
  | [] => some ([], [])
  | range :: rest =>
    if range.size ≤ range.index then
      (nextPass rest).map fun tail => (tail.1, range :: tail.2)
    else
      match range.lcg.next with
      | (none, lcg) => (nextPass rest).map fun tail => (tail.1, { range with lcg } :: tail.2)
      | (some shuffleIndex, lcg) =>
        match addIP range.start shuffleIndex with
        | none => none
        | some address =>
          (nextPass rest).map fun tail =>
            (address :: tail.1, { range with lcg, index := range.index + 1 } :: tail.2)

/-- Start a new round: range `i` gets a fresh generator from the accepted draw
`draws i`, and its index goes back to zero. -/
def reshuffle (ranges : List IpRange) (draws : Nat → Nat × Nat) : List IpRange :=
  ranges.mapIdx fun i range =>
    { range with lcg := newLCG range.size (draws i).1 (draws i).2, index := 0 }

/-- `NextBatch`, with the draws a reshuffle would make. When a pass yields nothing
and some range had advanced, it resets the indices, reshuffles, and runs once
more; that second call finds every index at zero, so it cannot reshuffle again. -/
def nextBatch (ranges : List IpRange) (draws : Nat → Nat × Nat) :
    Option (Except String (List Addr) × List IpRange) :=
  match nextPass ranges with
  | none => none
  | some (results, advanced) =>
    if results = [] then
      let okFlag := advanced.any fun range => 0 < range.index
      let reset := advanced.map fun range => { range with index := 0 }
      if okFlag then
        match nextPass (reshuffle reset draws) with
        | none => none
        | some (results, again) =>
          if results = [] then
            some (.error "no more IP addresses", again.map fun range => { range with index := 0 })
          else some (.ok results, again)
      else some (.error "no more IP addresses", reset)
    else some (.ok results, advanced)

/-- The prefix `10.0.0.0/31`. -/
def tenSlash31 : Prefix := ⟨.v4 0x0a000000, 31⟩

/-- Two failures of one round. For `10.0.0.0/31` the draw `a = 0, c = 1` passes
`checkHullDobell` (4 does not divide 2, and the prime-factor condition its comment
states is never checked), and the round yields `10.0.0.1` twice and never
`10.0.0.0`. For the unmasked `10.0.0.3/31` a full-period draw still yields
`10.0.0.4`, outside the prefix. -/
theorem nextBatch_round_misses_prefix (draws : Nat → Nat × Nat) :
    checkHullDobell 2 0 1 = true ∧ (newLCG 2 0 1).take 2 = [some 1, some 1] ∧
      (nextBatch [newIPRange tenSlash31 0 1] draws).map (·.1) = some (.ok [.v4 0x0a000001]) ∧
      ((nextBatch [newIPRange tenSlash31 0 1] draws).bind
          fun batch => nextBatch batch.2 draws).map (·.1) = some (.ok [.v4 0x0a000001]) ∧
      (nextBatch [newIPRange ⟨.v4 0x0a000003, 31⟩ 1 1] draws).map (·.1) =
        some (.ok [.v4 0x0a000004]) := by
  refine ⟨by decide, by decide, ?_, ?_, ?_⟩ <;>
    simp [nextBatch, nextPass, newIPRange, tenSlash31, ipRangeSize, Addr.is4, LCG.next, newLCG,
      addIP, Addr.as16, Addr.unmap]

end WarpPlus.Scanner
