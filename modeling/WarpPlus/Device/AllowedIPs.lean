import Mathlib
import WarpPlus.Semantics.Bits

/-! The allowed-IPs table of `device/allowedips.go`.

Each address family has a binary trie. A node holds masked address bits, a prefix length
`cidr` and possibly a peer; its two children hold the longer prefixes that continue its bits
with a zero and with a one at bit `cidr`. The code rewires parent indirections in place; the
model rebuilds the path it walks. `insert` returns a `Placement`: the subtree for the slot it
came from, the bits the parent picks the slot by (Go's `parent.choose(...)`), and the node that
took the peer with that node's previous peer, which `Insert` needs for the per-peer lists.

`RemoveByPeer` reaches each node of the peer's list by pointer and finds its parent by
pointer arithmetic; the model finds the node by descending along its own bits, which is where
the invariant of `AllowedIPsTrie` puts it.
-/

set_option autoImplicit false

namespace WarpPlus.Device
open Bits

/-- `commonBits`: how many leading bits two addresses of one family share, from the leading
zeros of the exclusive or of their big-endian words. Other sizes panic in the code. -/
def commonBits (ip1 ip2 : List UInt8) : Nat :=
  if ip1.length = 4 then
    leadingZeros 32 (bigEndian (ip1.take 4) ^^^ bigEndian (ip2.take 4))
  else if ip1.length = 16 then
    let x := bigEndian (ip1.take 8) ^^^ bigEndian (ip2.take 8)
    if x ≠ 0 then leadingZeros 64 x
    else 64 + leadingZeros 64 (bigEndian ((ip1.drop 8).take 8) ^^^ bigEndian ((ip2.drop 8).take 8))
  else 0

/-- `choose`: bit `cidr` of `ip`, as `(ip[bitAtByte] >> bitAtShift) & 1` with the node's
`bitAtByte = cidr / 8` and `bitAtShift = 7 - cidr % 8`. -/
def choose (cidr : Nat) (ip : List UInt8) : UInt8 :=
  ((ip.getD (cidr / 8) 0) >>> (7 - cidr % 8).toUInt8) &&& 1

/-- The loop of `net.CIDRMask` over the remaining bytes, with `n` ones still to place. -/
def cidrMaskBytes : Nat → Nat → List UInt8
  | 0, _ => []
  | l + 1, n =>
    if 8 ≤ n then 0xff :: cidrMaskBytes l (n - 8)
    else ~~~((0xff : UInt8) >>> n.toUInt8) :: cidrMaskBytes l 0

/-- `net.CIDRMask(ones, bits)`: nil unless `bits` is an IPv4 or IPv6 width and `ones` fits. -/
def cidrMask (ones bits : Nat) : List UInt8 :=
  if bits ≠ 32 ∧ bits ≠ 128 then []
  else if bits < ones then []
  else cidrMaskBytes (bits / 8) ones

/-- `maskSelf`: the node's bits with everything from bit `cidr` on cleared. -/
def maskSelf (bits : List UInt8) (cidr : Nat) : List UInt8 :=
  let mask := cidrMask cidr (bits.length * 8)
  List.zipWith (· &&& ·) bits mask ++ bits.drop mask.length

/-! ### What the bit helpers compute

On addresses of one family, `commonBits` is the length of the common prefix, `choose` reads
one bit, and `maskSelf` clears the bits from `cidr` on. -/

private theorem shiftRight_and_one (x : UInt8) {s : Nat} (small : s < 8) :
    (x >>> s.toUInt8) &&& 1 = if x.toNat.testBit s then 1 else 0 := by
  apply UInt8.toNat_inj.mp
  have shift : (s.toUInt8).toNat % 8 = s := by
    have byte : (s.toUInt8).toNat = s % 256 := by simp
    omega
  rw [UInt8.toNat_and, UInt8.toNat_shiftRight, shift, Nat.testBit, Nat.one_and_eq_mod_two]
  split <;> simp_all [Nat.shiftRight_eq_div_pow]

theorem choose_eq (cidr : Nat) (ip : List UInt8) :
    choose cidr ip = if bitAt ip cidr then 1 else 0 :=
  shiftRight_and_one _ (by omega)

@[simp]
theorem choose_eq_one_iff {cidr : Nat} {ip : List UInt8} : choose cidr ip = 1 ↔ bitAt ip cidr = true := by
  rw [choose_eq]
  split <;> simp_all

section common

variable {a b : List UInt8} (length : a.length = b.length)
include length

/-! The three ways `commonBits` computes, by the words it compares. -/

private theorem commonBits_of_four (four : a.length = 4) :
    commonBits a b = leadingZeros (8 * a.length) (bigEndian a ^^^ bigEndian b) := by
  have wholeA : a.take 4 = a := List.take_of_length_le (by omega)
  have wholeB : b.take 4 = b := List.take_of_length_le (by omega)
  rw [commonBits, if_pos four, wholeA, wholeB, four]

private theorem commonBits_of_front (sixteen : a.length = 16)
    (different : bigEndian (a.take 8) ^^^ bigEndian (b.take 8) ≠ 0) :
    commonBits a b = leadingZeros (8 * (a.take 8).length)
      (bigEndian (a.take 8) ^^^ bigEndian (b.take 8)) := by
  have front : (a.take 8).length = 8 := List.length_take_of_le (by omega)
  rw [commonBits, if_neg (by omega), if_pos sixteen, front]
  dsimp only
  rw [if_pos different]

private theorem commonBits_of_back (sixteen : a.length = 16)
    (same : bigEndian (a.take 8) ^^^ bigEndian (b.take 8) = 0) :
    commonBits a b = 8 * 8 + leadingZeros (8 * (a.drop 8).length)
      (bigEndian (a.drop 8) ^^^ bigEndian (b.drop 8)) := by
  have back : (a.drop 8).length = 8 := by simp [sixteen]
  have restA : (a.drop 8).take 8 = a.drop 8 := List.take_of_length_le (by omega)
  have restB : (b.drop 8).take 8 = b.drop 8 := List.take_of_length_le (by simp; omega)
  rw [commonBits, if_neg (by omega), if_pos sixteen, back]
  dsimp only
  rw [if_neg (by simpa using same), restA, restB]

variable (family : a.length = 4 ∨ a.length = 16)
include family

theorem agree_commonBits : Agree a b (commonBits a b) := by
  have lengthTake : (a.take 8).length = (b.take 8).length := by simp [length]
  rcases family with four | sixteen
  · rw [commonBits_of_four length four]
    exact agree_leadingZeros length
  · by_cases same : bigEndian (a.take 8) ^^^ bigEndian (b.take 8) = 0
    · rw [commonBits_of_back length sixteen same]
      have front := agree_of_xor_eq_zero lengthTake same
      rw [List.length_take_of_le (by omega)] at front
      exact Agree.of_take_drop front (agree_leadingZeros (by simp [length]))
    · rw [commonBits_of_front length sixteen same]
      have front := agree_leadingZeros lengthTake
      rw [List.length_take_of_le (by omega)] at front ⊢
      exact Agree.of_take (leadingZeros_le _ _) front

theorem bitAt_ne_commonBits (short : commonBits a b < 8 * a.length) :
    bitAt a (commonBits a b) ≠ bitAt b (commonBits a b) := by
  have lengthTake : (a.take 8).length = (b.take 8).length := by simp [length]
  rcases family with four | sixteen
  · rw [commonBits_of_four length four] at short ⊢
    apply bitAt_ne_leadingZeros length
    intro same
    rw [same, leadingZeros_eq_self] at short
    exact Nat.lt_irrefl _ short
  · by_cases same : bigEndian (a.take 8) ^^^ bigEndian (b.take 8) = 0
    · have lengthDrop : (a.drop 8).length = (b.drop 8).length := by simp [length]
      rw [commonBits_of_back length sixteen same] at short ⊢
      have different : bigEndian (a.drop 8) ^^^ bigEndian (b.drop 8) ≠ 0 := by
        intro zero
        rw [zero, leadingZeros_eq_self] at short
        simp [sixteen] at short
      have split := bitAt_ne_leadingZeros lengthDrop different
      rwa [bitAt_drop, bitAt_drop, Nat.add_comm] at split
    · rw [commonBits_of_front length sixteen same]
      have split := bitAt_ne_leadingZeros lengthTake same
      have inside := leadingZeros_lt (Nat.xor_lt_two_pow (bigEndian_lt (a.take 8))
        (lengthTake ▸ bigEndian_lt (b.take 8))) same
      rw [List.length_take_of_le (by omega)] at split inside ⊢
      rwa [bitAt_take a inside, bitAt_take b inside] at split

theorem le_commonBits_iff {k : Nat} (le : k ≤ 8 * a.length) :
    k ≤ commonBits a b ↔ Agree a b k := by
  constructor
  · intro below
    exact (agree_commonBits length family).mono below
  · intro agree
    by_contra short
    exact bitAt_ne_commonBits length family (by omega) (agree _ (by omega))

end common

theorem length_cidrMaskBytes (l n : Nat) : (cidrMaskBytes l n).length = l := by
  induction l generalizing n with
  | zero => rfl
  | succ l ih =>
    rw [cidrMaskBytes]
    split <;> simp [ih]

private theorem mask_byte_bits : ∀ n r : Fin 8,
    (~~~((0xff : UInt8) >>> n.val.toUInt8)).toNat.testBit (7 - r.val) = decide (r.val < n.val) := by
  decide

private theorem full_byte_bits : ∀ r : Fin 8, (0xff : UInt8).toNat.testBit (7 - r.val) = true := by
  decide

theorem bitAt_cidrMaskBytes (l n : Nat) {i : Nat} (inside : i < 8 * l) :
    bitAt (cidrMaskBytes l n) i = decide (i < n) := by
  induction l generalizing n i with
  | zero => omega
  | succ l ih =>
    rw [cidrMaskBytes]
    split
    · next many =>
      rw [bitAt_cons]
      split
      · next first =>
        rw [full_byte_bits ⟨i, first⟩]
        exact (decide_eq_true (by omega)).symm
      · rw [ih (n - 8) (by omega)]
        simp only [decide_eq_decide]
        omega
    · next few =>
      rw [bitAt_cons]
      split
      · next first => exact mask_byte_bits ⟨n, by omega⟩ ⟨i, first⟩
      · rw [ih 0 (by omega)]
        simp only [decide_eq_decide]
        omega

theorem length_cidrMask_le (ones len : Nat) : (cidrMask ones (len * 8)).length ≤ len := by
  unfold cidrMask
  split
  · exact Nat.zero_le _
  · split
    · exact Nat.zero_le _
    · rw [length_cidrMaskBytes]
      omega

theorem length_maskSelf (bits : List UInt8) (cidr : Nat) : (maskSelf bits cidr).length = bits.length := by
  have short := length_cidrMask_le cidr bits.length
  simp only [maskSelf, List.length_append, List.length_zipWith, List.length_drop]
  omega

section mask

variable {bits : List UInt8} {cidr : Nat}

theorem bitAt_maskSelf (family : bits.length = 4 ∨ bits.length = 16) (le : cidr ≤ 8 * bits.length)
    (i : Nat) : bitAt (maskSelf bits cidr) i = (bitAt bits i && decide (i < cidr)) := by
  have mask : cidrMask cidr (bits.length * 8) = cidrMaskBytes bits.length cidr := by
    rw [cidrMask, if_neg (by omega), if_neg (by omega), Nat.mul_div_cancel _ (by decide)]
  have maskLength := length_cidrMaskBytes bits.length cidr
  rw [maskSelf, mask, maskLength, List.drop_length, List.append_nil,
    bitAt_zipWith_and maskLength.symm]
  by_cases inside : i < 8 * bits.length
  · rw [bitAt_cidrMaskBytes _ _ inside]
  · rw [bitAt_of_le bits (by omega)]
    simp only [Bool.false_and]

theorem masked_maskSelf (family : bits.length = 4 ∨ bits.length = 16) (le : cidr ≤ 8 * bits.length) :
    Masked (maskSelf bits cidr) cidr := fun i above => by
  rw [bitAt_maskSelf family le]
  simp
  omega

theorem maskSelf_of_lt (long : 8 * bits.length < cidr) : maskSelf bits cidr = bits := by
  have mask : cidrMask cidr (bits.length * 8) = [] := by
    rw [cidrMask]
    split
    · rfl
    · rw [if_pos (by omega)]
  rw [maskSelf, mask, List.length_nil, List.drop_zero]
  simp

theorem agree_maskSelf (family : bits.length = 4 ∨ bits.length = 16) :
    Agree (maskSelf bits cidr) bits cidr := fun i below => by
  by_cases le : cidr ≤ 8 * bits.length
  · rw [bitAt_maskSelf family le]
    simp [below]
  · rw [maskSelf_of_lt (by omega)]

theorem eq_maskSelf (family : bits.length = 4 ∨ bits.length = 16) (le : cidr ≤ 8 * bits.length)
    {b : List UInt8} (length : b.length = bits.length) (masked : Masked b cidr) (agree : Agree b bits cidr) :
    b = maskSelf bits cidr :=
  eq_of_agree_of_masked (length.trans (length_maskSelf bits cidr).symm)
    (agree.trans (agree_maskSelf family).symm) masked (masked_maskSelf family le)

end mask

inductive Trie (P : Type) where
  | nil
  | node (peer : Option P) (bits : List UInt8) (cidr : Nat) (zero one : Trie P)
  deriving DecidableEq

namespace Trie

variable {P : Type}

def isNil : Trie P → Bool
  | nil => true
  | node .. => false

/-- `node.child[bit] = child`. -/
def setChild (parent : Trie P) (bit : UInt8) (child : Trie P) : Trie P :=
  match parent with
  | nil => nil
  | node peer bits cidr zero one =>
    if bit = 1 then node peer bits cidr zero child else node peer bits cidr child one

end Trie

/-- What `insert` leaves at the slot it was called on. -/
structure Placement (P : Type) where
  trie : Trie P
  /-- The bits the parent chooses the slot by. -/
  key : List UInt8
  /-- The bits of the node that now holds the peer. -/
  node : List UInt8
  /-- That node's peer before. -/
  old : Option P

/-- The parent of a placement, which `nodePlacement` walked through along `ip`: it stays where
it is, with the placed subtree in the slot its bits choose. -/
def Placement.under {P : Type} (below : Placement P) (parent : Trie P) (cidr : Nat)
    (ip : List UInt8) : Placement P :=
  { below with trie := parent.setChild (choose cidr below.key) below.trie, key := ip }

namespace Trie

variable {P : Type}

/-- `insert` after `nodePlacement` stopped above `down`: the new node goes into `down`'s slot,
above `down` when it is a prefix of it, and otherwise beside it under a new peerless node at
their common prefix. -/
def insertAt (down : Trie P) (ip : List UInt8) (cidr : Nat) (peer : P) : Placement P :=
  let newBits := maskSelf ip cidr
  let newNode : Trie P := node (some peer) newBits cidr nil nil
  match down with
  | nil => ⟨newNode, newBits, newBits, none⟩
  | node _ bits _ _ _ =>
    let common := commonBits bits newBits
    let split := if common < cidr then common else cidr
    if cidr = split then
      ⟨newNode.setChild (choose cidr bits) down, newBits, newBits, none⟩
    else
      let mid := maskSelf newBits split
      let parent : Trie P := (node none mid split nil nil).setChild (choose split bits) down
      ⟨parent.setChild (choose split newBits) newNode, mid, newBits, none⟩

/-- `parentIndirection.insert`: the loop of `nodePlacement` descends while the node's prefix
is a prefix of the new one; an exact match takes the peer in place. -/
def insert (ip : List UInt8) (cidr : Nat) (peer : P) : Trie P → Placement P
  | nil => insertAt nil ip cidr peer
  | node p bits c zero one =>
    if c ≤ cidr ∧ c ≤ commonBits bits ip then
      if c = cidr then ⟨node (some peer) bits c zero one, ip, bits, p⟩
      else if choose c ip = 1 then (insert ip cidr peer one).under (node p bits c zero one) c ip
      else (insert ip cidr peer zero).under (node p bits c zero one) c ip
    else insertAt (node p bits c zero one) ip cidr peer

/-- `trieEntry.lookup`: the last peer met on the way down along `ip`. -/
def lookupFrom (ip : List UInt8) (found : Option P) : Trie P → Option P
  | nil => found
  | node peer bits cidr zero one =>
    if cidr ≤ commonBits bits ip then
      let found := if peer.isSome then peer else found
      if cidr / 8 = ip.length then found
      else if choose cidr ip = 1 then lookupFrom ip found one
      else lookupFrom ip found zero
    else found

def lookup (t : Trie P) (ip : List UInt8) : Option P :=
  t.lookupFrom ip none

/-- One node of `RemoveByPeer` losing its peer: with two children it stays; otherwise its
only child, or nothing, takes its place. The flag says a leaf went. -/
def unlink (bits : List UInt8) (cidr : Nat) (zero one : Trie P) : Trie P × Bool :=
  if !zero.isNil && !one.isNil then (node none bits cidr zero one, false)
  else (if zero.isNil then one else zero, zero.isNil && one.isNil)

/-- `RemoveByPeer` on the node with these bits and prefix length. When a leaf went from below
a node without a peer, that node is replaced by its other child; at the root the flag is
dropped, as `parentBitType > 1` does. -/
def remove (bits : List UInt8) (cidr : Nat) : Trie P → Trie P × Bool
  | nil => (nil, false)
  | node p b c zero one =>
    if b = bits ∧ c = cidr then unlink b c zero one
    else if c < cidr then
      if choose c bits = 1 then
        let removed := remove bits cidr one
        if removed.2 ∧ p.isNone then (zero, false) else (node p b c zero removed.1, false)
      else
        let removed := remove bits cidr zero
        if removed.2 ∧ p.isNone then (one, false) else (node p b c removed.1 one, false)
    else (node p b c zero one, false)

end Trie

/-- A `netip.Prefix` by its address bytes (4 or 16) and its length. -/
structure AllowedIP where
  addr : List UInt8
  bits : Nat
  deriving DecidableEq

/-- The table, with the per-peer lists of `peer.trieEntries` as a function of the peer. -/
structure AllowedIPs (P : Type) where
  ipv4 : Trie P
  ipv6 : Trie P
  trieEntries : P → List AllowedIP

namespace AllowedIPs

variable {P : Type}

def empty : AllowedIPs P := ⟨.nil, .nil, fun _ => []⟩

/-- The trie of an address's family. -/
def trie (table : AllowedIPs P) (ip : List UInt8) : Trie P :=
  if ip.length = 16 then table.ipv6 else table.ipv4

def setTrie (table : AllowedIPs P) (ip : List UInt8) (t : Trie P) : AllowedIPs P :=
  if ip.length = 16 then { table with ipv6 := t } else { table with ipv4 := t }

/-- `Lookup`; other sizes panic in the code. -/
def lookup (table : AllowedIPs P) (ip : List UInt8) : Option P :=
  if ip.length = 16 ∨ ip.length = 4 then (table.trie ip).lookup ip else none

def entriesForPeer (table : AllowedIPs P) (peer : P) : List AllowedIP :=
  table.trieEntries peer

variable [DecidableEq P]

/-- The per-peer lists after a node took `peer`: `removeFromPeerEntries` takes it out of its
previous peer's list and `addToPeerEntries` appends it to the new peer's. -/
def moveEntry (entries : P → List AllowedIP) (entry : AllowedIP) (old : Option P) (peer : P) :
    P → List AllowedIP :=
  let entries := match old with
    | none => entries
    | some previous => Function.update entries previous ((entries previous).erase entry)
  Function.update entries peer (entries peer ++ [entry])

/-- `Insert`; an address of another size panics in the code. -/
def insert (table : AllowedIPs P) (pfx : AllowedIP) (peer : P) : AllowedIPs P :=
  if pfx.addr.length = 16 ∨ pfx.addr.length = 4 then
    let placed := (table.trie pfx.addr).insert pfx.addr pfx.bits peer
    { table.setTrie pfx.addr placed.trie with
      trieEntries := moveEntry table.trieEntries ⟨placed.node, pfx.bits⟩ placed.old peer }
  else table

/-- One round of the loop of `RemoveByPeer`. -/
def removeEntry (table : AllowedIPs P) (entry : AllowedIP) : AllowedIPs P :=
  table.setTrie entry.addr ((table.trie entry.addr).remove entry.addr entry.bits).1

def removeByPeer (table : AllowedIPs P) (peer : P) : AllowedIPs P :=
  { (table.trieEntries peer).foldl removeEntry table with
    trieEntries := Function.update table.trieEntries peer [] }

inductive Op (P : Type) where
  | insert (pfx : AllowedIP) (peer : P)
  | removeByPeer (peer : P)

def apply (table : AllowedIPs P) : Op P → AllowedIPs P
  | .insert pfx peer => table.insert pfx peer
  | .removeByPeer peer => table.removeByPeer peer

def run (table : AllowedIPs P) (ops : List (Op P)) : AllowedIPs P :=
  ops.foldl apply table

end AllowedIPs

end WarpPlus.Device
