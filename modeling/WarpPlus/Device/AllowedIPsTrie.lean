import WarpPlus.Device.AllowedIPs

/-! The invariant of the allowed-IPs trie, and what `lookupFrom`, `insert` and `remove` do to
the table it stands for.

`Trie.get` reads the peer held for one prefix by descending along the prefix's bits. The
invariant `Trie.Valid` is what the code keeps: node bits are masked addresses of the family,
each child holds only prefixes that continue its parent's bits with the child's own bit, and
a node without a peer has both children. Under it

* `lookupFrom` returns the peer of the longest prefix of the address the table holds
  (`lookupFrom_eq`);
* `insert` sets the peer of one masked prefix and reports the node that took it and that
  node's previous peer (`insert_inserted`);
* `remove` clears one prefix (`remove_removed`).
-/

set_option autoImplicit false

namespace WarpPlus.Device
open Bits

/-- The prefix `(bits, cidr)` continues the first `d` bits of `r`. -/
def InRegion (r : List UInt8) (d : Nat) (bits : List UInt8) (cidr : Nat) : Prop :=
  d ≤ cidr ∧ Agree bits r d

/-- The prefixes the child on side `x` of the node `(b, c)` may hold. -/
def Below (b : List UInt8) (c : Nat) (x : Bool) (bits : List UInt8) (cidr : Nat) : Prop :=
  c < cidr ∧ Agree bits b c ∧ bitAt bits c = x

section regions

variable {r b bits : List UInt8} {c d cidr : Nat} {x : Bool}

theorem InRegion.mono {d' : Nat} (inside : InRegion r d' bits cidr) (le : d ≤ d') :
    InRegion r d bits cidr :=
  ⟨Nat.le_trans le inside.1, inside.2.mono le⟩

theorem Below.inRegion (below : Below b c x bits cidr) : InRegion b c bits cidr :=
  ⟨Nat.le_of_lt below.1, below.2.1⟩

theorem below_iff_inRegion (agree : Agree r b c) (bit : bitAt r c = x) :
    Below b c x bits cidr ↔ InRegion r (c + 1) bits cidr := by
  constructor
  · rintro ⟨longer, prefixAgree, side⟩
    exact ⟨longer, Agree.succ (prefixAgree.trans agree.symm) (side.trans bit.symm)⟩
  · rintro ⟨longer, prefixAgree⟩
    exact ⟨longer, (prefixAgree.mono (Nat.le_succ c)).trans agree,
      (prefixAgree c (Nat.lt_succ_self c)).trans bit⟩

end regions

namespace Trie

variable {P : Type}

/-- The child on side `x`. -/
def side (x : Bool) (zero one : Trie P) : Trie P :=
  if x then one else zero

/-- A node by what hangs on each side. -/
def ofSides (peer : Option P) (bits : List UInt8) (cidr : Nat) (child : Bool → Trie P) : Trie P :=
  node peer bits cidr (child false) (child true)

/-- `setChild` with the bit as a `Bool`. -/
def setSide (parent : Trie P) (x : Bool) (child : Trie P) : Trie P :=
  parent.setChild (if x then 1 else 0) child

section shape

variable (p : Option P) (b : List UInt8) (c : Nat)

theorem node_eq_ofSides (zero one : Trie P) :
    node p b c zero one = ofSides p b c (fun x => side x zero one) := rfl

@[simp]
theorem side_ofSides (child : Bool → Trie P) (x : Bool) :
    side x (child false) (child true) = child x := by
  cases x <;> rfl

theorem setChild_choose (parent : Trie P) (key : List UInt8) (child : Trie P) :
    parent.setChild (choose c key) child = parent.setSide (bitAt key c) child := by
  rw [setSide, choose_eq]

theorem setSide_ofSides (child : Bool → Trie P) (x : Bool) (t : Trie P) :
    (ofSides p b c child).setSide x t = ofSides p b c (Function.update child x t) := by
  cases x <;> rfl

end shape

/-- Every node satisfies `q`. -/
def All (q : List UInt8 → Nat → Prop) : Trie P → Prop
  | nil => True
  | node _ bits cidr zero one => q bits cidr ∧ zero.All q ∧ one.All q

theorem All.imp {q q' : List UInt8 → Nat → Prop} (imp : ∀ bits cidr, q bits cidr → q' bits cidr) :
    ∀ {t : Trie P}, t.All q → t.All q'
  | nil, _ => trivial
  | node _ _ _ _ _, ⟨root, zero, one⟩ => ⟨imp _ _ root, All.imp imp zero, All.imp imp one⟩

theorem All.of_forall {q : List UInt8 → Nat → Prop} (holds : ∀ bits cidr, q bits cidr) :
    ∀ {t : Trie P}, t.All q
  | nil => trivial
  | node _ _ _ _ _ => ⟨holds _ _, All.of_forall holds, All.of_forall holds⟩

theorem All.side {q : List UInt8 → Nat → Prop} {p : Option P} {b : List UInt8} {c : Nat}
    {zero one : Trie P} (all : (node p b c zero one).All q) (x : Bool) : (side x zero one).All q := by
  cases x
  · exact all.2.1
  · exact all.2.2

theorem all_ofSides {q : List UInt8 → Nat → Prop} {p : Option P} {b : List UInt8} {c : Nat}
    {child : Bool → Trie P} (root : q b c) (sides : ∀ x, (child x).All q) :
    (ofSides p b c child).All q :=
  ⟨root, sides false, sides true⟩

/-- The peer held for the prefix `(bits, cidr)`, found by descending along `bits`. -/
def get (bits : List UInt8) (cidr : Nat) : Trie P → Option P
  | nil => none
  | node p b c zero one =>
    if b = bits ∧ c = cidr then p
    else if c < cidr then (if bitAt bits c then one.get bits cidr else zero.get bits cidr)
    else none

section get

variable {p : Option P} {b bits : List UInt8} {c cidr : Nat}

theorem get_ofSides_of_lt {child : Bool → Trie P} (root : ¬(b = bits ∧ c = cidr)) (lt : c < cidr) :
    (ofSides p b c child).get bits cidr = (child (bitAt bits c)).get bits cidr := by
  rw [ofSides, get, if_neg root, if_pos lt]
  cases bitAt bits c <;> rfl

theorem get_node_of_lt {zero one : Trie P} (root : ¬(b = bits ∧ c = cidr)) (lt : c < cidr) :
    (node p b c zero one).get bits cidr = (side (bitAt bits c) zero one).get bits cidr := by
  rw [get, if_neg root, if_pos lt]
  cases bitAt bits c <;> rfl

theorem get_eq_none_of_all {q : List UInt8 → Nat → Prop} {t : Trie P} (all : t.All q)
    (outside : ¬q bits cidr) : t.get bits cidr = none := by
  induction t with
  | nil => rfl
  | node p b c zero one ihZero ihOne =>
    have root : ¬(b = bits ∧ c = cidr) := by
      rintro ⟨rfl, rfl⟩
      exact outside all.1
    by_cases lt : c < cidr
    · rw [get_node_of_lt root lt]
      cases bitAt bits c
      · exact ihZero all.2.1
      · exact ihOne all.2.2
    · rw [get, if_neg root, if_neg lt]

theorem get_ofSides_update (child : Bool → Trie P) (x : Bool) (t : Trie P) :
    (ofSides p b c (Function.update child x t)).get bits cidr =
      if ¬(b = bits ∧ c = cidr) ∧ c < cidr ∧ bitAt bits c = x then t.get bits cidr
      else (ofSides p b c child).get bits cidr := by
  by_cases root : b = bits ∧ c = cidr
  · rw [if_neg (fun descend => descend.1 root), ofSides, ofSides, get, get, if_pos root, if_pos root]
  · by_cases lt : c < cidr
    · rw [get_ofSides_of_lt root lt, get_ofSides_of_lt root lt, Function.update_apply]
      by_cases bit : bitAt bits c = x
      · rw [if_pos bit, if_pos ⟨root, lt, bit⟩]
      · rw [if_neg bit, if_neg (fun descend => bit descend.2.2)]
    · rw [if_neg (fun descend => lt descend.2.1), ofSides, ofSides, get, get, if_neg root, if_neg lt,
        if_neg root, if_neg lt]

theorem get_leaf (q : Option P) :
    (node q b c nil nil).get bits cidr = if b = bits ∧ c = cidr then q else none := by
  simp only [get, ite_self]

theorem get_ofSides {child : Bool → Trie P} (below : ∀ x, (child x).All (Below b c x)) :
    (ofSides p b c child).get bits cidr =
      if b = bits ∧ c = cidr then p else (child (bitAt bits c)).get bits cidr := by
  by_cases root : b = bits ∧ c = cidr
  · rw [ofSides, get, if_pos root, if_pos root]
  · rw [if_neg root]
    by_cases lt : c < cidr
    · exact get_ofSides_of_lt root lt
    · rw [ofSides, get, if_neg root, if_neg lt,
        get_eq_none_of_all (below _) fun below => lt below.1]

theorem get_node_update {zero one : Trie P} (x : Bool) (t : Trie P) :
    (ofSides p b c (Function.update (fun x => side x zero one) x t)).get bits cidr =
      if ¬(b = bits ∧ c = cidr) ∧ c < cidr ∧ bitAt bits c = x then t.get bits cidr
      else (node p b c zero one).get bits cidr :=
  get_ofSides_update _ x t

end get

/-- The conditions on one node: its bits are a masked address of the family, a node without
a peer branches both ways, and each child holds only prefixes that continue the node's bits
with the child's own bit. -/
structure NodeOk (len : Nat) (peer : Option P) (bits : List UInt8) (cidr : Nat)
    (zero one : Trie P) : Prop where
  length : bits.length = len
  cidr_le : cidr ≤ 8 * len
  masked : Masked bits cidr
  branches : peer = none → ∀ x, side x zero one ≠ nil
  below : ∀ x, (side x zero one).All (Below bits cidr x)

def Valid (len : Nat) : Trie P → Prop
  | nil => True
  | node p bits cidr zero one => NodeOk len p bits cidr zero one ∧ zero.Valid len ∧ one.Valid len

section valid

variable {len : Nat} {p : Option P} {b : List UInt8} {c : Nat}

theorem Valid.side {zero one : Trie P} (valid : (node p b c zero one).Valid len) (x : Bool) :
    (side x zero one).Valid len := by
  cases x
  · exact valid.2.1
  · exact valid.2.2

theorem valid_ofSides {child : Bool → Trie P} (length : b.length = len) (le : c ≤ 8 * len)
    (masked : Masked b c) (branches : p = none → ∀ x, child x ≠ nil)
    (sides : ∀ x, (child x).All (Below b c x) ∧ (child x).Valid len) :
    (ofSides p b c child).Valid len :=
  ⟨⟨length, le, masked, fun none x => by simpa using branches none x,
    fun x => by simpa using (sides x).1⟩, (sides false).2, (sides true).2⟩

theorem Valid.inRegion {zero one : Trie P} (valid : (node p b c zero one).Valid len) :
    (node p b c zero one).All (InRegion b c) :=
  ⟨⟨Nat.le_refl c, Agree.refl b c⟩, (valid.1.below false).imp fun _ _ below => below.inRegion,
    (valid.1.below true).imp fun _ _ below => below.inRegion⟩

theorem NodeOk.get_side_of_le {zero one : Trie P} (ok : NodeOk len p b c zero one) (x : Bool)
    {bits : List UInt8} {k : Nat} (le : k ≤ c) : (side x zero one).get bits k = none :=
  get_eq_none_of_all (ok.below x) fun below => absurd below.1 (by omega)

theorem Valid.all_below {zero one : Trie P} (valid : (node p b c zero one).Valid len)
    {other : List UInt8} {s : Nat} (lt : s < c) (agree : Agree b other s) :
    (node p b c zero one).All (Below other s (bitAt b s)) :=
  valid.inRegion.imp fun _ _ ⟨longer, prefixAgree⟩ =>
    ⟨Nat.lt_of_lt_of_le lt longer, (prefixAgree.mono (Nat.le_of_lt lt)).trans agree,
      prefixAgree s lt⟩

theorem Valid.key_of_get {t : Trie P} (valid : t.Valid len) {bits : List UInt8} {cidr : Nat}
    (found : t.get bits cidr ≠ none) : bits.length = len ∧ cidr ≤ 8 * len ∧ Masked bits cidr := by
  induction t with
  | nil => exact absurd rfl found
  | node p b c zero one ihZero ihOne =>
    by_cases root : b = bits ∧ c = cidr
    · obtain ⟨rfl, rfl⟩ := root
      exact ⟨valid.1.length, valid.1.cidr_le, valid.1.masked⟩
    · by_cases lt : c < cidr
      · rw [get_node_of_lt root lt] at found
        cases bit : bitAt bits c
        · rw [bit] at found
          exact ihZero valid.2.1 found
        · rw [bit] at found
          exact ihOne valid.2.2 found
      · rw [get, if_neg root, if_neg lt] at found
        exact absurd rfl found

theorem Valid.exists_get {t : Trie P} (valid : t.Valid len) (nonempty : t ≠ nil) :
    ∃ bits cidr q, t.get bits cidr = some q := by
  induction t with
  | nil => exact absurd rfl nonempty
  | node p b c zero one ihZero ihOne =>
    cases p with
    | some q => exact ⟨b, c, q, by rw [get, if_pos ⟨rfl, rfl⟩]⟩
    | none =>
      -- a node without a peer has a child, and what the child holds the node holds
      obtain ⟨bits, cidr, q, found⟩ := ihZero valid.2.1 (valid.1.branches rfl false)
      have below : Below b c false bits cidr := by
        by_contra outside
        have none : zero.get bits cidr = none := get_eq_none_of_all (valid.1.below false) outside
        rw [none] at found
        cases found
      have root : ¬(b = bits ∧ c = cidr) := fun same => by
        have := below.1
        omega
      refine ⟨bits, cidr, q, ?_⟩
      rw [get_node_of_lt root below.1, below.2.2]
      exact found

end valid

/-! ### Lookup -/

section lookup

variable {len : Nat} (family : len = 4 ∨ len = 16) {ip : List UInt8} (length : ip.length = len)
include family length

theorem get_maskSelf_node {p : Option P} {b : List UInt8} {c : Nat} {zero one : Trie P}
    (valid : (node p b c zero one).Valid len) (contains : Agree b ip c) :
    (fun k => (node p b c zero one).get (maskSelf ip k) k) =
      Function.update (fun k => (side (bitAt ip c) zero one).get (maskSelf ip k) k) c p := by
  have ipFamily : ip.length = 4 ∨ ip.length = 16 := length ▸ family
  funext k
  by_cases at_node : k = c
  · subst k
    have same : b = maskSelf ip c := eq_maskSelf ipFamily (length ▸ valid.1.cidr_le)
      (valid.1.length.trans length.symm) valid.1.masked contains
    rw [Function.update_self, get, if_pos ⟨same, rfl⟩]
  · rw [Function.update_of_ne at_node]
    have root : ¬(b = maskSelf ip k ∧ c = k) := fun same => at_node same.2.symm
    by_cases longer : c < k
    · have bit : bitAt (maskSelf ip k) c = bitAt ip c := agree_maskSelf ipFamily c longer
      rw [get_node_of_lt root longer, bit]
    · rw [get, if_neg root, if_neg longer, valid.1.get_side_of_le _ (by omega)]

/-- `lookupFrom` is the longest match: the peer of the longest prefix of `ip` the trie holds,
or what was found above. -/
theorem lookupFrom_eq (found : Option P) {t : Trie P} (valid : t.Valid len) :
    t.lookupFrom ip found = (longest (fun k => t.get (maskSelf ip k) k) (8 * len)).or found := by
  induction t generalizing found with
  | nil =>
    have none : longest (fun k => (nil : Trie P).get (maskSelf ip k) k) (8 * len) = none :=
      longest_eq_none fun _ _ => rfl
    rw [lookupFrom, none, Option.none_or]
  | node p b c zero one ihZero ihOne =>
    have ok := valid.1
    have bFamily : b.length = 4 ∨ b.length = 16 := ok.length ▸ family
    have agreeIff := le_commonBits_iff (ok.length.trans length.symm) bFamily
      (ok.length ▸ ok.cidr_le)
    by_cases contains : Agree b ip c
    · have peerFirst : (if p.isSome then p else found) = p.or found := by cases p <;> rfl
      rw [lookupFrom, if_pos (agreeIff.mpr contains), get_maskSelf_node family length valid contains,
        longest_update_of_none p ok.cidr_le fun k le => ok.get_side_of_le _ le]
      dsimp only
      rw [peerFirst]
      split
      · -- a node of the full length: nothing longer hangs below it
        next full =>
        rw [longest_eq_none fun k le => ok.get_side_of_le _ (by omega), Option.none_or]
      · cases bit : bitAt ip c
        · rw [if_neg (by simpa using bit), ihZero _ valid.2.1, Option.or_assoc]
          rfl
        · rw [if_pos (by simpa using bit), ihOne _ valid.2.2, Option.or_assoc]
          rfl
    · -- nothing below a node the address leaves
      have outside : ∀ k, ¬InRegion b c (maskSelf ip k) k := fun k ⟨le, agree⟩ =>
        contains ((agree.symm.trans ((agree_maskSelf (length ▸ family)).mono le)))
      rw [lookupFrom, if_neg (fun common => contains (agreeIff.mp common)),
        longest_eq_none fun k _ => get_eq_none_of_all valid.inRegion (outside k), Option.none_or]

end lookup

/-! ### Insertion -/

/-- What inserting `peer` for `(ip, cidr)` into a subtree that lies in the region of the first
`d` bits of `ip` leaves at the subtree's slot: a valid subtree in the same region, placed by
bits that agree with `ip` there, holding `peer` for the masked prefix and nothing else new. -/
structure Inserted (len : Nat) (ip : List UInt8) (cidr : Nat) (peer : P) (d : Nat) (t : Trie P)
    (placed : Placement P) : Prop where
  valid : placed.trie.Valid len
  region : placed.trie.All (InRegion ip d)
  key : Agree placed.key ip d
  taken : placed.node = maskSelf ip cidr
  old : placed.old = t.get (maskSelf ip cidr) cidr
  get : ∀ bits k, placed.trie.get bits k =
    if maskSelf ip cidr = bits ∧ cidr = k then some peer else t.get bits k

theorem Inserted.ne_nil {len d cidr : Nat} {ip : List UInt8} {peer : P} {t : Trie P}
    {placed : Placement P} (inserted : Inserted len ip cidr peer d t placed) : placed.trie ≠ nil := by
  intro empty
  have held := inserted.get (maskSelf ip cidr) cidr
  rw [if_pos ⟨rfl, rfl⟩, empty] at held
  cases held

section insert

variable {len : Nat} (family : len = 4 ∨ len = 16) {ip : List UInt8} (length : ip.length = len)
  {cidr : Nat} (le : cidr ≤ 8 * len) (peer : P)
include family length le

theorem valid_leaf : (node (some peer) (maskSelf ip cidr) cidr nil nil).Valid len :=
  ⟨⟨(length_maskSelf ip cidr).trans length, le, masked_maskSelf (length ▸ family) (length ▸ le),
    (fun peerless => by cases peerless), fun x => by cases x <;> trivial⟩, trivial, trivial⟩

theorem inserted_leaf {d : Nat} (reach : d ≤ cidr) :
    Inserted len ip cidr peer d nil (insertAt nil ip cidr peer) := by
  have agree : Agree (maskSelf ip cidr) ip cidr := agree_maskSelf (length ▸ family)
  refine ⟨valid_leaf family length le peer, ⟨⟨reach, agree.mono reach⟩, trivial, trivial⟩,
    agree.mono reach, rfl, rfl, fun bits k => ?_⟩
  exact get_leaf (some peer)

theorem inserted_exact {d : Nat} {p : Option P} {b : List UInt8} {zero one : Trie P}
    (valid : (node p b cidr zero one).Valid len) (region : (node p b cidr zero one).All (InRegion ip d))
    (contains : Agree b ip cidr) :
    Inserted len ip cidr peer d (node p b cidr zero one) ⟨node (some peer) b cidr zero one, ip, b, p⟩ := by
  have same : b = maskSelf ip cidr := eq_maskSelf (length ▸ family) (length ▸ le)
    (valid.1.length.trans length.symm) valid.1.masked contains
  refine ⟨⟨{ valid.1 with branches := fun peerless => by cases peerless }, valid.2⟩, region, Agree.refl ip d,
    same, ?_, fun bits k => ?_⟩
  · show p = (node p b cidr zero one).get (maskSelf ip cidr) cidr
    rw [get, if_pos ⟨same, rfl⟩]
  · show (node (some peer) b cidr zero one).get bits k = _
    rw [get, get, ← same]
    by_cases root : b = bits ∧ cidr = k
    · rw [if_pos root, if_pos root]
    · rw [if_neg root, if_neg root, if_neg root]

theorem inserted_above {d : Nat} {q : Option P} {bits : List UInt8} {c : Nat} {zero one : Trie P}
    (valid : (node q bits c zero one).Valid len) (region : (node q bits c zero one).All (InRegion ip d))
    (reach : d ≤ cidr) (stops : ¬(c ≤ cidr ∧ Agree bits ip c))
    (cover : cidr ≤ commonBits bits (maskSelf ip cidr)) :
    Inserted len ip cidr peer d (node q bits c zero one)
      ⟨(node (some peer) (maskSelf ip cidr) cidr nil nil).setChild (choose cidr bits)
        (node q bits c zero one), maskSelf ip cidr, maskSelf ip cidr, none⟩ := by
  have newAgree : Agree (maskSelf ip cidr) ip cidr := agree_maskSelf (length ▸ family)
  have newLength : (maskSelf ip cidr).length = len := (length_maskSelf ip cidr).trans length
  have agree : Agree bits (maskSelf ip cidr) cidr :=
    (le_commonBits_iff (valid.1.length.trans newLength.symm) (valid.1.length ▸ family)
      (valid.1.length ▸ le)).mp cover
  have longer : cidr < c := by
    by_contra short
    exact stops ⟨by omega, (agree.trans newAgree).mono (by omega)⟩
  have down := valid.all_below longer agree
  -- the side of the new node where the old subtree goes, and what hangs on each side
  have sides : ∀ x, (Function.update (fun _ => nil) (bitAt bits cidr) (node q bits c zero one) x).All
      (Below (maskSelf ip cidr) cidr x) ∧
      (Function.update (fun _ => nil) (bitAt bits cidr) (node q bits c zero one) x).Valid len ∧
      (Function.update (fun _ => nil) (bitAt bits cidr) (node q bits c zero one) x).All
        (InRegion ip d) := by
    intro x
    by_cases side : x = bitAt bits cidr
    · subst side
      rw [Function.update_self]
      exact ⟨down, valid, region⟩
    · rw [Function.update_of_ne side]
      exact ⟨trivial, trivial, trivial⟩
  have leaf : (node (some peer) (maskSelf ip cidr) cidr nil nil : Trie P) =
    ofSides (some peer) (maskSelf ip cidr) cidr (fun _ => nil) := rfl
  simp only [leaf, setChild_choose, setSide_ofSides]
  refine ⟨valid_ofSides newLength le (masked_maskSelf (length ▸ family) (length ▸ le))
      (fun peerless => by cases peerless) fun x => ⟨(sides x).1, (sides x).2.1⟩,
    all_ofSides ⟨reach, newAgree.mono reach⟩ fun x => (sides x).2.2, newAgree.mono reach, rfl, ?_,
    fun b k => ?_⟩
  · -- the new prefix is shorter than everything in the old subtree
    exact (get_eq_none_of_all down fun below => Nat.lt_irrefl _ below.1).symm
  · rw [get_ofSides fun x => (sides x).1]
    by_cases root : maskSelf ip cidr = b ∧ cidr = k
    · rw [if_pos root, if_pos root]
    · rw [if_neg root, if_neg root, Function.update_apply]
      by_cases side : bitAt b cidr = bitAt bits cidr
      · rw [if_pos side]
      · rw [if_neg side, get_eq_none_of_all down fun below => side below.2.2]
        rfl

theorem inserted_beside {d : Nat} {q : Option P} {bits : List UInt8} {c : Nat} {zero one : Trie P}
    (valid : (node q bits c zero one).Valid len) (region : (node q bits c zero one).All (InRegion ip d))
    (reach : d ≤ cidr) (stops : ¬(c ≤ cidr ∧ Agree bits ip c))
    (parts : commonBits bits (maskSelf ip cidr) < cidr) :
    Inserted len ip cidr peer d (node q bits c zero one)
      ⟨((node none (maskSelf (maskSelf ip cidr) (commonBits bits (maskSelf ip cidr)))
          (commonBits bits (maskSelf ip cidr)) nil nil).setChild
            (choose (commonBits bits (maskSelf ip cidr)) bits) (node q bits c zero one)).setChild
          (choose (commonBits bits (maskSelf ip cidr)) (maskSelf ip cidr))
          (node (some peer) (maskSelf ip cidr) cidr nil nil),
        maskSelf (maskSelf ip cidr) (commonBits bits (maskSelf ip cidr)), maskSelf ip cidr, none⟩ := by
  have newAgree : Agree (maskSelf ip cidr) ip cidr := agree_maskSelf (length ▸ family)
  have newLength : (maskSelf ip cidr).length = len := (length_maskSelf ip cidr).trans length
  have newFamily : (maskSelf ip cidr).length = 4 ∨ (maskSelf ip cidr).length = 16 :=
    newLength ▸ family
  have sameLength : bits.length = (maskSelf ip cidr).length := valid.1.length.trans newLength.symm
  have bitsFamily : bits.length = 4 ∨ bits.length = 16 := valid.1.length ▸ family
  generalize split_def : commonBits bits (maskSelf ip cidr) = split at parts ⊢
  have splitLe : split ≤ 8 * len := by omega
  have agree : Agree bits (maskSelf ip cidr) split :=
    split_def ▸ agree_commonBits sameLength bitsFamily
  have differ : bitAt bits split ≠ bitAt (maskSelf ip cidr) split :=
    split_def ▸ bitAt_ne_commonBits sameLength bitsFamily (by omega)
  have reachSplit : d ≤ split := split_def ▸ (le_commonBits_iff sameLength bitsFamily
    (valid.1.length ▸ Nat.le_trans reach le)).mpr (region.1.2.trans (newAgree.mono reach).symm)
  have longer : split < c := by
    by_contra short
    exact stops ⟨by omega, (agree.mono (by omega)).trans (newAgree.mono (by omega))⟩
  have midAgree : Agree (maskSelf (maskSelf ip cidr) split) (maskSelf ip cidr) split :=
    agree_maskSelf newFamily
  have down := valid.all_below longer (agree.trans midAgree.symm)
  -- the old subtree goes on its side of bit `split`, the new node on the other
  set children := Function.update (Function.update (fun _ => nil) (bitAt bits split)
    (node q bits c zero one)) (bitAt (maskSelf ip cidr) split) (node (some peer) (maskSelf ip cidr) cidr nil nil)
    with children_def
  have sides : ∀ x, (children x).All (Below (maskSelf (maskSelf ip cidr) split) split x) ∧
      (children x).Valid len ∧ children x ≠ nil ∧ (children x).All (InRegion ip d) := by
    intro x
    rw [children_def]
    by_cases newSide : x = bitAt (maskSelf ip cidr) split
    · subst newSide
      rw [Function.update_self]
      exact ⟨⟨⟨parts, midAgree.symm, rfl⟩, trivial, trivial⟩, valid_leaf family length le peer,
        (fun empty => by cases empty), ⟨⟨reach, newAgree.mono reach⟩, trivial, trivial⟩⟩
    · have oldSide : x = bitAt bits split :=
        (Bool.eq_not_of_ne newSide).trans (Bool.eq_not_of_ne differ).symm
      rw [Function.update_of_ne newSide, oldSide, Function.update_self]
      exact ⟨down, valid, (fun empty => by cases empty), region⟩
  have mid : (node none (maskSelf (maskSelf ip cidr) split) split nil nil : Trie P) =
    ofSides none (maskSelf (maskSelf ip cidr) split) split (fun _ => nil) := rfl
  have midRegion : Agree (maskSelf (maskSelf ip cidr) split) ip d :=
    (midAgree.mono reachSplit).trans (newAgree.mono reach)
  simp only [mid, setChild_choose, setSide_ofSides]
  refine ⟨valid_ofSides ((length_maskSelf _ split).trans newLength) splitLe
      (masked_maskSelf newFamily (newLength ▸ splitLe)) (fun _ x => (sides x).2.2.1)
      fun x => ⟨(sides x).1, (sides x).2.1⟩,
    all_ofSides ⟨reachSplit, midRegion⟩ fun x => (sides x).2.2.2, midRegion, rfl, ?_, fun b k => ?_⟩
  · -- the new prefix is not inside the old subtree, which the new prefix does not contain
    refine (get_eq_none_of_all valid.inRegion fun ⟨shorter, inside⟩ => ?_).symm
    exact stops ⟨shorter, inside.symm.trans (newAgree.mono shorter)⟩
  · rw [get_ofSides fun x => (sides x).1]
    by_cases root : maskSelf (maskSelf ip cidr) split = b ∧ split = k
    · -- the new node without a peer holds nothing, and neither does the old subtree here
      have at_split := root.2
      rw [if_pos root, if_neg (fun same => by have := same.2; omega),
        get_eq_none_of_all valid.inRegion fun inside => by have := inside.1; omega]
    · rw [if_neg root]
      by_cases newSide : bitAt b split = bitAt (maskSelf ip cidr) split
      · rw [children_def, newSide, Function.update_self, get_leaf]
        by_cases new : maskSelf ip cidr = b ∧ cidr = k
        · rw [if_pos new, if_pos new]
        · rw [if_neg new, if_neg new,
            get_eq_none_of_all down fun below => differ (below.2.2.symm.trans newSide)]
      · have oldSide : bitAt b split = bitAt bits split :=
          (Bool.eq_not_of_ne newSide).trans (Bool.eq_not_of_ne differ).symm
        have notNew : ¬(maskSelf ip cidr = b ∧ cidr = k) := fun ⟨same, _⟩ => newSide (same ▸ rfl)
        rw [children_def, Function.update_of_ne newSide, oldSide, Function.update_self, if_neg notNew]

theorem inserted_insertAt {d : Nat} {q : Option P} {bits : List UInt8} {c : Nat} {zero one : Trie P}
    (valid : (node q bits c zero one).Valid len) (region : (node q bits c zero one).All (InRegion ip d))
    (reach : d ≤ cidr) (stops : ¬(c ≤ cidr ∧ Agree bits ip c)) :
    Inserted len ip cidr peer d (node q bits c zero one)
      ((node q bits c zero one).insertAt ip cidr peer) := by
  rw [insertAt]
  dsimp only
  by_cases parts : commonBits bits (maskSelf ip cidr) < cidr
  · rw [if_pos parts, if_neg (by omega)]
    exact inserted_beside family length le peer valid region reach stops parts
  · rw [if_neg parts, if_pos rfl]
    exact inserted_above family length le peer valid region reach stops (by omega)

omit le in
theorem Inserted.under {d : Nat} {p : Option P} {b : List UInt8} {c : Nat} {zero one : Trie P}
    (valid : (node p b c zero one).Valid len) (region : (node p b c zero one).All (InRegion ip d))
    (contains : Agree b ip c) (shorter : c < cidr) {placed : Placement P}
    (below : Inserted len ip cidr peer (c + 1) (side (bitAt ip c) zero one) placed) :
    Inserted len ip cidr peer d (node p b c zero one) (placed.under (node p b c zero one) c ip) := by
  have slot : bitAt placed.key c = bitAt ip c := below.key c (Nat.lt_succ_self c)
  have newBit : bitAt (maskSelf ip cidr) c = bitAt ip c :=
    agree_maskSelf (length ▸ family) c shorter
  have notRoot : ¬(b = maskSelf ip cidr ∧ c = cidr) := fun same => by omega
  have placedBelow : placed.trie.All (Below b c (bitAt ip c)) :=
    below.region.imp fun _ _ inside => (below_iff_inRegion contains.symm rfl).mpr inside
  have sides : ∀ x, (Function.update (fun x => side x zero one) (bitAt ip c) placed.trie x).All
      (Below b c x) ∧ (Function.update (fun x => side x zero one) (bitAt ip c) placed.trie x).Valid len ∧
      (Function.update (fun x => side x zero one) (bitAt ip c) placed.trie x).All (InRegion ip d) := by
    intro x
    by_cases chosen : x = bitAt ip c
    · subst chosen
      rw [Function.update_self]
      exact ⟨placedBelow, below.valid, below.region.imp fun _ _ inside => inside.mono (by
        have := region.1.1
        omega)⟩
    · rw [Function.update_of_ne chosen]
      exact ⟨valid.1.below x, valid.side x, region.side x⟩
  have tree : (node p b c zero one).setChild (choose c placed.key) placed.trie =
      ofSides p b c (Function.update (fun x => side x zero one) (bitAt ip c) placed.trie) := by
    rw [node_eq_ofSides, setChild_choose, slot, setSide_ofSides]
  refine ⟨?_, ?_, Agree.refl ip d, below.taken, ?_, fun bits k => ?_⟩
  · show ((node p b c zero one).setChild (choose c placed.key) placed.trie).Valid len
    rw [tree]
    refine valid_ofSides valid.1.length valid.1.cidr_le valid.1.masked (fun peerless x => ?_)
      fun x => ⟨(sides x).1, (sides x).2.1⟩
    by_cases chosen : x = bitAt ip c
    · subst chosen
      rw [Function.update_self]
      exact below.ne_nil
    · rw [Function.update_of_ne chosen]
      exact valid.1.branches peerless x
  · show ((node p b c zero one).setChild (choose c placed.key) placed.trie).All (InRegion ip d)
    rw [tree]
    exact all_ofSides region.1 fun x => (sides x).2.2
  · -- the previous peer is the one the chosen child held
    show placed.old = _
    rw [below.old, get_node_of_lt notRoot shorter, newBit]
  · show ((node p b c zero one).setChild (choose c placed.key) placed.trie).get bits k = _
    rw [tree, get_node_update]
    by_cases descend : ¬(b = bits ∧ c = k) ∧ c < k ∧ bitAt bits c = bitAt ip c
    · rw [if_pos descend, below.get, get_node_of_lt descend.1 descend.2.1, descend.2.2]
    · have notNew : ¬(maskSelf ip cidr = bits ∧ cidr = k) := fun ⟨same, at_k⟩ =>
        descend ⟨same ▸ at_k ▸ notRoot, at_k ▸ shorter, same ▸ newBit⟩
      rw [if_neg descend, if_neg notNew]

/-- `insert` into a valid subtree in the region of the first `d` bits of `ip`. -/
theorem insert_inserted {d : Nat} {t : Trie P} (valid : t.Valid len) (region : t.All (InRegion ip d))
    (reach : d ≤ cidr) : Inserted len ip cidr peer d t (t.insert ip cidr peer) := by
  induction t generalizing d with
  | nil => exact inserted_leaf family length le peer reach
  | node p b c zero one ihZero ihOne =>
    have agreeIff : c ≤ commonBits b ip ↔ Agree b ip c :=
      le_commonBits_iff (valid.1.length.trans length.symm) (valid.1.length ▸ family)
        (valid.1.length ▸ valid.1.cidr_le)
    by_cases takes : c ≤ cidr ∧ Agree b ip c
    · rw [insert, if_pos ⟨takes.1, agreeIff.mpr takes.2⟩]
      by_cases exact : c = cidr
      · subst exact
        rw [if_pos rfl]
        exact inserted_exact family length le peer valid region takes.2
      · -- `nodePlacement` goes on along the bit of `ip` at the node's length
        rw [if_neg exact]
        have shorter : c < cidr := by omega
        have childRegion : ∀ x, bitAt ip c = x → (side x zero one).All (InRegion ip (c + 1)) :=
          fun x bit => (valid.1.below x).imp fun _ _ below =>
            (below_iff_inRegion takes.2.symm bit).mp below
        cases bit : bitAt ip c
        · rw [if_neg (show ¬choose c ip = 1 by simpa using bit)]
          refine Inserted.under family length peer valid region takes.2 shorter ?_
          rw [bit]
          exact ihZero valid.2.1 (childRegion false bit) shorter
        · rw [if_pos (show choose c ip = 1 by simpa using bit)]
          refine Inserted.under family length peer valid region takes.2 shorter ?_
          rw [bit]
          exact ihOne valid.2.2 (childRegion true bit) shorter
    · rw [insert, if_neg (fun common => takes ⟨common.1, agreeIff.mp common.2⟩)]
      exact inserted_insertAt family length le peer valid region reach takes

end insert

/-! ### Removal -/

/-- What `remove` of the prefix `(bits, cidr)` leaves of a valid subtree: a valid subtree of
some of its nodes, holding nothing for that prefix and the rest as before. The flag is set
only when nothing is left, and a subtree that was not empty and does not set it leaves
something. -/
structure Removed (len : Nat) (bits : List UInt8) (cidr : Nat) (t : Trie P)
    (result : Trie P × Bool) : Prop where
  valid : result.1.Valid len
  nodes : ∀ q : List UInt8 → Nat → Prop, t.All q → result.1.All q
  get : ∀ kb k, result.1.get kb k = if bits = kb ∧ cidr = k then none else t.get kb k
  leaf : result.2 = true → result.1 = nil
  kept : t ≠ nil → result.2 = false → result.1 ≠ nil

section remove

variable {len : Nat} {bits : List UInt8} {cidr : Nat}

theorem remove_descend {p : Option P} {b : List UInt8} {c : Nat} {zero one : Trie P}
    (root : ¬(b = bits ∧ c = cidr)) (lt : c < cidr) :
    (node p b c zero one).remove bits cidr =
      if ((side (bitAt bits c) zero one).remove bits cidr).2 ∧ p.isNone then
        (side (!bitAt bits c) zero one, false)
      else (ofSides p b c (Function.update (fun x => side x zero one) (bitAt bits c)
        ((side (bitAt bits c) zero one).remove bits cidr).1), false) := by
  rw [remove, if_neg root, if_pos lt]
  cases bit : bitAt bits c
  · rw [if_neg (show ¬choose c bits = 1 by simpa using bit)]
    rfl
  · rw [if_pos (show choose c bits = 1 by simpa using bit)]
    rfl

theorem NodeOk.get_only_child {p : Option P} {zero one : Trie P}
    (ok : NodeOk len p bits cidr zero one) (x : Bool) (other : side (!x) zero one = nil)
    {kb : List UInt8} {k : Nat} (notRoot : ¬(bits = kb ∧ cidr = k)) :
    (node p bits cidr zero one).get kb k = (side x zero one).get kb k := by
  rw [node_eq_ofSides, get_ofSides ok.below, if_neg notRoot]
  by_cases bit : bitAt kb cidr = x
  · rw [bit]
  · have flipped : bitAt kb cidr = !x := Bool.eq_not_of_ne bit
    rw [flipped, other, get_eq_none_of_all (ok.below x) fun below => bit below.2.2]
    rfl

theorem removed_onlyChild {p : Option P} {zero one : Trie P}
    (valid : (node p bits cidr zero one).Valid len) (x : Bool) (other : side (!x) zero one = nil) :
    Removed len bits cidr (node p bits cidr zero one) (side x zero one, zero.isNil && one.isNil) := by
  refine ⟨valid.side x, fun _ all => all.side x, fun kb k => ?_, fun flag => ?_, fun _ flag => ?_⟩
  · by_cases target : bits = kb ∧ cidr = k
    · obtain ⟨rfl, rfl⟩ := target
      rw [if_pos ⟨rfl, rfl⟩, valid.1.get_side_of_le x (Nat.le_refl cidr)]
    · rw [if_neg target, valid.1.get_only_child x other target]
  · cases x <;> cases zero <;> cases one <;> simp_all [side, isNil]
  · cases x <;> cases zero <;> cases one <;> simp_all [side, isNil]

theorem removed_both {p : Option P} {zero one : Trie P}
    (valid : (node p bits cidr zero one).Valid len) (both : ∀ x, side x zero one ≠ nil) :
    Removed len bits cidr (node p bits cidr zero one) (node none bits cidr zero one, false) := by
  refine ⟨⟨{ valid.1 with branches := fun _ => both }, valid.2⟩, fun _ all => all, fun kb k => ?_,
    (fun flag => by cases flag), fun _ _ empty => by cases empty⟩
  show (node none bits cidr zero one).get kb k = _
  rw [get, get]
  by_cases target : bits = kb ∧ cidr = k
  · rw [if_pos target, if_pos target]
  · rw [if_neg target, if_neg target, if_neg target]

theorem removed_unlink {p : Option P} {zero one : Trie P}
    (valid : (node p bits cidr zero one).Valid len) :
    Removed len bits cidr (node p bits cidr zero one) (unlink bits cidr zero one) := by
  cases zero with
  | nil => exact removed_onlyChild valid true rfl
  | node pz bz cz zz oz =>
    cases one with
    | nil => exact removed_onlyChild valid false rfl
    | node po bo co zo oo => exact removed_both valid fun x => by cases x <;> exact fun empty => by cases empty

theorem Removed.under {p : Option P} {b : List UInt8} {c : Nat} {zero one : Trie P}
    (valid : (node p b c zero one).Valid len) (root : ¬(b = bits ∧ c = cidr)) (lt : c < cidr)
    {removed : Trie P × Bool} (below : Removed len bits cidr (side (bitAt bits c) zero one) removed) :
    Removed len bits cidr (node p b c zero one)
      (if removed.2 ∧ p.isNone then (side (!bitAt bits c) zero one, false)
        else (ofSides p b c (Function.update (fun x => side x zero one) (bitAt bits c) removed.1),
          false)) := by
  have ok := valid.1
  split
  · next splice =>
    have gone : removed.1 = nil := below.leaf splice.1
    have peerless : p = none := Option.isNone_iff_eq_none.mp splice.2
    refine ⟨valid.side _, fun _ all => all.side _, fun kb k => ?_, (fun flag => by cases flag),
      fun _ _ => ok.branches peerless _⟩
    -- the other side holds nothing that continues `bits`, nor anything the gone side held
    have otherSide : ∀ {kb : List UInt8} {k : Nat}, bitAt kb c = bitAt bits c →
        (side (!bitAt bits c) zero one).get kb k = none := fun bit =>
      get_eq_none_of_all (ok.below _) fun inside => by
        have flipped := inside.2.2
        rw [bit] at flipped
        simp at flipped
    by_cases target : bits = kb ∧ cidr = k
    · obtain ⟨rfl, rfl⟩ := target
      rw [if_pos ⟨rfl, rfl⟩, otherSide rfl]
    · rw [if_neg target, node_eq_ofSides, get_ofSides ok.below]
      by_cases atRoot : b = kb ∧ c = k
      · rw [if_pos atRoot, peerless, ok.get_side_of_le _ (Nat.le_of_eq atRoot.2.symm)]
      · rw [if_neg atRoot]
        by_cases bit : bitAt kb c = bitAt bits c
        · have held := below.get kb k
          rw [gone, if_neg target] at held
          rw [otherSide bit, bit, ← held]
          rfl
        · rw [Bool.eq_not_of_ne bit]
  · next keep =>
    have sides : ∀ x, (Function.update (fun x => side x zero one) (bitAt bits c) removed.1 x).All
        (Below b c x) ∧
        (Function.update (fun x => side x zero one) (bitAt bits c) removed.1 x).Valid len := by
      intro x
      by_cases chosen : x = bitAt bits c
      · subst chosen
        rw [Function.update_self]
        exact ⟨below.nodes _ (ok.below _), below.valid⟩
      · rw [Function.update_of_ne chosen]
        exact ⟨ok.below x, valid.side x⟩
    refine ⟨valid_ofSides ok.length ok.cidr_le ok.masked (fun peerless x => ?_) sides,
      fun q all => all_ofSides all.1 fun x => ?_, fun kb k => ?_, (fun flag => by cases flag),
      fun _ _ empty => by cases empty⟩
    · by_cases chosen : x = bitAt bits c
      · subst chosen
        rw [Function.update_self]
        exact below.kept (ok.branches peerless _) (by simpa [peerless] using keep)
      · rw [Function.update_of_ne chosen]
        exact ok.branches peerless x
    · by_cases chosen : x = bitAt bits c
      · subst chosen
        rw [Function.update_self]
        exact below.nodes q (all.side _)
      · rw [Function.update_of_ne chosen]
        exact all.side x
    · rw [get_node_update]
      by_cases descend : ¬(b = kb ∧ c = k) ∧ c < k ∧ bitAt kb c = bitAt bits c
      · rw [if_pos descend, below.get, get_node_of_lt descend.1 descend.2.1, descend.2.2]
      · have notTarget : ¬(bits = kb ∧ cidr = k) := fun ⟨same, at_k⟩ =>
          descend ⟨same ▸ at_k ▸ root, at_k ▸ lt, same ▸ rfl⟩
        rw [if_neg descend, if_neg notTarget]

/-- `remove` of any prefix from a valid trie. -/
theorem remove_removed {t : Trie P} (valid : t.Valid len) :
    Removed len bits cidr t (t.remove bits cidr) := by
  induction t with
  | nil =>
    exact ⟨trivial, fun _ _ => trivial, (fun kb k => by split <;> rfl), (fun flag => by cases flag),
      fun nonempty => absurd rfl nonempty⟩
  | node p b c zero one ihZero ihOne =>
    by_cases root : b = bits ∧ c = cidr
    · obtain ⟨rfl, rfl⟩ := root
      rw [remove, if_pos ⟨rfl, rfl⟩]
      exact removed_unlink valid
    · by_cases lt : c < cidr
      · rw [remove_descend root lt]
        apply Removed.under valid root lt
        cases bitAt bits c
        · exact ihZero valid.2.1
        · exact ihOne valid.2.2
      · -- the prefix is not in this subtree: nothing changes
        rw [remove, if_neg root, if_neg lt]
        refine ⟨valid, fun _ all => all, fun kb k => ?_, (fun flag => by cases flag),
          fun _ _ empty => by cases empty⟩
        by_cases target : bits = kb ∧ cidr = k
        · obtain ⟨rfl, rfl⟩ := target
          rw [if_pos ⟨rfl, rfl⟩, get, if_neg root, if_neg lt]
        · rw [if_neg target]

end remove

end Trie

end WarpPlus.Device
