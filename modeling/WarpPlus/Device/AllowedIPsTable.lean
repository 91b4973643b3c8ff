import Mathlib
import WarpPlus.Device.AllowedIPsTrie

/-! The allowed-IPs table against the routing table it stands for.

`PrefixMap` is the abstract table: a partial map from masked prefixes to peers. Inserting a
prefix maps its masked form to the peer, so of equal masked prefixes the latest insertion
wins; removing a peer drops all its prefixes; lookup is longest-prefix match. `Refines` ties
the two tries and the per-peer lists of `AllowedIPs` to such a map, and every operation on a
valid prefix keeps it (`Refines.insert`, `Refines.removeByPeer`, `Refines.run`).
-/

set_option autoImplicit false

namespace WarpPlus.Device
open Bits

/-- A prefix a `netip.Prefix` can hold: four or sixteen address bytes and at most as many
bits. -/
def AllowedIP.Valid (pfx : AllowedIP) : Prop :=
  (pfx.addr.length = 4 ∨ pfx.addr.length = 16) ∧ pfx.bits ≤ 8 * pfx.addr.length

instance (pfx : AllowedIP) : Decidable pfx.Valid :=
  inferInstanceAs (Decidable (_ ∧ _))

/-- The prefix as a node stores it, its bits masked by `maskSelf`. -/
def AllowedIP.masked (pfx : AllowedIP) : AllowedIP :=
  ⟨maskSelf pfx.addr pfx.bits, pfx.bits⟩

theorem AllowedIP.eq_iff {a b : AllowedIP} : a = b ↔ a.addr = b.addr ∧ a.bits = b.bits := by
  cases a
  cases b
  simp

/-! ### The abstract table -/

namespace PrefixMap

variable {P : Type}

def empty : AllowedIP → Option P := fun _ => none

def insert (m : AllowedIP → Option P) (pfx : AllowedIP) (peer : P) : AllowedIP → Option P :=
  Function.update m pfx.masked (some peer)

/-- Longest-prefix match: the peer of the longest prefix of `ip` the table holds. -/
def lookup (m : AllowedIP → Option P) (ip : List UInt8) : Option P :=
  longest (fun c => m (AllowedIP.masked ⟨ip, c⟩)) (8 * ip.length)

theorem lookup_eq_some_iff {m : AllowedIP → Option P} {ip : List UInt8} {peer : P} :
    lookup m ip = some peer ↔ ∃ c ≤ 8 * ip.length, m (AllowedIP.masked ⟨ip, c⟩) = some peer ∧
      ∀ c', c < c' → c' ≤ 8 * ip.length → m (AllowedIP.masked ⟨ip, c'⟩) = none :=
  longest_eq_some_iff

variable [DecidableEq P]

def removeByPeer (m : AllowedIP → Option P) (peer : P) : AllowedIP → Option P :=
  fun k => if m k = some peer then none else m k

def apply (m : AllowedIP → Option P) : AllowedIPs.Op P → AllowedIP → Option P
  | .insert pfx peer => insert m pfx peer
  | .removeByPeer peer => removeByPeer m peer

def run (m : AllowedIP → Option P) (ops : List (AllowedIPs.Op P)) : AllowedIP → Option P :=
  ops.foldl apply m

end PrefixMap

namespace AllowedIPs

variable {P : Type}

def Op.Valid : Op P → Prop
  | .insert pfx _ => pfx.Valid
  | .removeByPeer _ => True

instance : (op : Op P) → Decidable op.Valid
  | .insert pfx _ => inferInstanceAs (Decidable pfx.Valid)
  | .removeByPeer _ => inferInstanceAs (Decidable True)

/-- What the table holds for a prefix: the entry of its family's trie. -/
def get (table : AllowedIPs P) (k : AllowedIP) : Option P :=
  if k.addr.length = 16 ∨ k.addr.length = 4 then (table.trie k.addr).get k.addr k.bits else none

/-- Both tries keep the trie invariant. -/
def Tries (table : AllowedIPs P) : Prop :=
  table.ipv4.Valid 4 ∧ table.ipv6.Valid 16

section tries

variable {table : AllowedIPs P}

theorem trie_congr {a b : List UInt8} (same : a.length = b.length) : table.trie a = table.trie b := by
  simp only [trie, same]

theorem Tries.trie (tries : table.Tries) {ip : List UInt8} (family : ip.length = 4 ∨ ip.length = 16) :
    (table.trie ip).Valid ip.length := by
  unfold AllowedIPs.trie
  split
  · next six => rw [six]; exact tries.2
  · next four => rw [family.resolve_right four]; exact tries.1

@[simp]
theorem setTrie_trieEntries (ip : List UInt8) (t : Trie P) :
    (table.setTrie ip t).trieEntries = table.trieEntries := by
  unfold setTrie
  split <;> rfl

theorem Tries.setTrie (tries : table.Tries) {ip : List UInt8} (family : ip.length = 4 ∨ ip.length = 16)
    {t : Trie P} (valid : t.Valid ip.length) : (table.setTrie ip t).Tries := by
  unfold AllowedIPs.setTrie
  split
  · next six => exact ⟨tries.1, six ▸ valid⟩
  · next four => exact ⟨family.resolve_right four ▸ valid, tries.2⟩

theorem get_setTrie {ip : List UInt8} (family : ip.length = 4 ∨ ip.length = 16) {t : Trie P}
    {key : AllowedIP} (sameLength : key.addr.length = ip.length) {v : Option P}
    (changed : ∀ bits c, t.get bits c =
      if key.addr = bits ∧ key.bits = c then v else (table.trie ip).get bits c)
    (k : AllowedIP) : (table.setTrie ip t).get k = if key = k then v else table.get k := by
  unfold AllowedIPs.get
  by_cases kFamily : k.addr.length = 16 ∨ k.addr.length = 4
  · rw [if_pos kFamily, if_pos kFamily]
    by_cases sameFamily : k.addr.length = ip.length
    · have chosen : (table.setTrie ip t).trie k.addr = t := by
        unfold AllowedIPs.setTrie AllowedIPs.trie
        by_cases six : ip.length = 16 <;> simp [six, sameFamily]
      rw [chosen, changed, trie_congr sameFamily.symm]
      by_cases same : key = k
      · rw [if_pos (AllowedIP.eq_iff.mp same), if_pos same]
      · rw [if_neg (fun parts => same (AllowedIP.eq_iff.mpr parts)), if_neg same]
    · have kept : (table.setTrie ip t).trie k.addr = table.trie k.addr := by
        unfold AllowedIPs.setTrie AllowedIPs.trie
        by_cases six : ip.length = 16 <;> by_cases kSix : k.addr.length = 16 <;> simp [six, kSix] <;> omega
      rw [kept, if_neg (show ¬key = k from fun same => sameFamily (same ▸ sameLength))]
  · rw [if_neg kFamily, if_neg kFamily,
      if_neg (show ¬key = k from fun same => kFamily (by rw [← same, sameLength]; omega))]

end tries

/-! ### The per-peer lists -/

section entries

variable [DecidableEq P]

theorem moveEntry_spec {entries : P → List AllowedIP} {m : AllowedIP → Option P}
    (mem : ∀ peer k, k ∈ entries peer ↔ m k = some peer) (nodup : ∀ peer, (entries peer).Nodup)
    (e : AllowedIP) (peer : P) :
    (∀ q k, k ∈ moveEntry entries e (m e) peer q ↔ Function.update m e (some peer) k = some q) ∧
      ∀ q, (moveEntry entries e (m e) peer q).Nodup := by
  -- first `e` leaves the list it was in
  obtain ⟨erased, unfold, erasedMem, erasedNodup⟩ : ∃ erased : P → List AllowedIP,
      moveEntry entries e (m e) peer = Function.update erased peer (erased peer ++ [e]) ∧
      (∀ q k, k ∈ erased q ↔ m k = some q ∧ k ≠ e) ∧ ∀ q, (erased q).Nodup := by
    cases held : m e with
    | none =>
      refine ⟨entries, rfl, fun q k => ?_, nodup⟩
      rw [mem]
      exact ⟨fun found => ⟨found, fun same => by rw [same, held] at found; cases found⟩, And.left⟩
    | some previous =>
      refine ⟨Function.update entries previous ((entries previous).erase e), rfl, fun q k => ?_,
        fun q => ?_⟩
      · rw [Function.update_apply]
        split
        · next was =>
          subst was
          rw [(nodup q).mem_erase_iff, mem, and_comm]
        · next other =>
          rw [mem]
          exact ⟨fun found => ⟨found, fun same => other (by rw [same, held] at found; cases found; rfl)⟩,
            And.left⟩
      · rw [Function.update_apply]
        split
        · exact (nodup previous).erase e
        · exact nodup q
  have absent : e ∉ erased peer := fun inside => ((erasedMem peer e).mp inside).2 rfl
  rw [unfold]
  refine ⟨fun q k => ?_, fun q => ?_⟩
  · rw [Function.update_apply, Function.update_apply]
    by_cases moved : k = e
    · subst moved
      by_cases toPeer : q = peer
      · simp [toPeer]
      · simp [toPeer, erasedMem, Ne.symm toPeer]
    · by_cases toPeer : q = peer
      · subst toPeer
        simp [moved, erasedMem]
      · simp [toPeer, moved, erasedMem]
  · rw [Function.update_apply]
    split
    · next toPeer =>
      subst toPeer
      exact (erasedNodup q).append (List.nodup_singleton e)
        (fun k inside single => absent (by rw [List.mem_singleton] at single; exact single ▸ inside))
    · exact erasedNodup q

end entries

/-! ### Refinement -/

/-- The table stands for `m`: both tries keep their invariant, the table holds what `m`
maps, and each peer's list holds its prefixes once each. -/
structure Refines (table : AllowedIPs P) (m : AllowedIP → Option P) : Prop where
  tries : table.Tries
  get : ∀ k, table.get k = m k
  entries : ∀ peer k, k ∈ table.trieEntries peer ↔ m k = some peer
  nodup : ∀ peer, (table.trieEntries peer).Nodup

theorem empty_trie (ip : List UInt8) : (empty : AllowedIPs P).trie ip = .nil := by
  unfold trie
  split <;> rfl

theorem refines_empty : Refines (empty : AllowedIPs P) PrefixMap.empty :=
  ⟨⟨trivial, trivial⟩, fun k => by rw [AllowedIPs.get, empty_trie]; split <;> rfl,
    fun _ k => ⟨(fun inside => by cases inside), (fun found => by cases found)⟩,
    fun _ => List.nodup_nil⟩

section refines

variable {table : AllowedIPs P} {m : AllowedIP → Option P}

theorem Refines.family (refines : Refines table m) {k : AllowedIP} (found : m k ≠ none) :
    k.addr.length = 4 ∨ k.addr.length = 16 := by
  rw [← refines.get] at found
  unfold AllowedIPs.get at found
  split at found
  · next family => exact family.symm
  · exact absurd rfl found

theorem Refines.lookup (refines : Refines table m) {ip : List UInt8}
    (family : ip.length = 4 ∨ ip.length = 16) : table.lookup ip = PrefixMap.lookup m ip := by
  rw [AllowedIPs.lookup, if_pos family.symm, Trie.lookup,
    Trie.lookupFrom_eq family rfl none (refines.tries.trie family), Option.or_none, PrefixMap.lookup]
  refine longest_congr fun c _ => ?_
  have sameLength : (maskSelf ip c).length = ip.length := length_maskSelf ip c
  rw [← refines.get, AllowedIPs.get]
  show _ = if (maskSelf ip c).length = 16 ∨ (maskSelf ip c).length = 4 then
    (table.trie (maskSelf ip c)).get (maskSelf ip c) c else none
  rw [if_pos (sameLength ▸ family.symm), trie_congr sameLength]

theorem Refines.roots_eq_nil (refines : Refines table m)
    (noEntries : ∀ peer, table.trieEntries peer = []) : table.ipv4 = .nil ∧ table.ipv6 = .nil := by
  have nothing : ∀ k, table.get k = none := fun k => by
    rw [refines.get]
    cases found : m k with
    | none => rfl
    | some peer =>
      have listed := (refines.entries peer k).mpr found
      rw [noEntries] at listed
      cases listed
  have emptyTrie : ∀ {len : Nat} {t : Trie P}, t.Valid len → (len = 4 ∨ len = 16) →
      (∀ bits cidr, bits.length = len → t.get bits cidr = none) → t = .nil := by
    intro len t valid family held
    by_contra nonempty
    obtain ⟨bits, cidr, q, found⟩ := valid.exists_get nonempty
    have key := valid.key_of_get (by rw [found]; exact Option.some_ne_none q)
    rw [held bits cidr key.1] at found
    cases found
  refine ⟨emptyTrie refines.tries.1 (Or.inl rfl) fun bits cidr four => ?_,
    emptyTrie refines.tries.2 (Or.inr rfl) fun bits cidr six => ?_⟩
  · have table4 := nothing ⟨bits, cidr⟩
    rw [AllowedIPs.get, if_pos (Or.inr four), AllowedIPs.trie, if_neg (by simp [four])] at table4
    exact table4
  · have table6 := nothing ⟨bits, cidr⟩
    rw [AllowedIPs.get, if_pos (Or.inl six), AllowedIPs.trie, if_pos six] at table6
    exact table6

theorem Tries.removeEntry_spec {table : AllowedIPs P} (tries : table.Tries) {e : AllowedIP}
    (family : e.addr.length = 4 ∨ e.addr.length = 16) :
    (table.removeEntry e).Tries ∧ ∀ k, (table.removeEntry e).get k = if e = k then none else table.get k :=
  have removed : Trie.Removed e.addr.length e.addr e.bits (table.trie e.addr)
      ((table.trie e.addr).remove e.addr e.bits) := Trie.remove_removed (tries.trie family)
  ⟨tries.setTrie family removed.valid, get_setTrie family rfl removed.get⟩

theorem Tries.foldl_removeEntry {table : AllowedIPs P} (tries : table.Tries) (entries : List AllowedIP)
    (family : ∀ e ∈ entries, e.addr.length = 4 ∨ e.addr.length = 16) :
    (entries.foldl AllowedIPs.removeEntry table).Tries ∧
      (entries.foldl AllowedIPs.removeEntry table).trieEntries = table.trieEntries ∧
      ∀ k, (entries.foldl AllowedIPs.removeEntry table).get k = if k ∈ entries then none else table.get k := by
  induction entries generalizing table with
  | nil => exact ⟨tries, rfl, fun k => by rw [if_neg List.not_mem_nil]; rfl⟩
  | cons e rest ih =>
    have step := tries.removeEntry_spec (family e List.mem_cons_self)
    obtain ⟨restTries, restEntries, restGet⟩ :=
      ih step.1 fun e' inside => family e' (List.mem_cons_of_mem e inside)
    refine ⟨restTries, restEntries.trans (setTrie_trieEntries _ _), fun k => ?_⟩
    rw [List.foldl_cons, restGet, step.2]
    by_cases first : k = e
    · rw [if_pos (List.mem_cons.mpr (Or.inl first)), if_pos first.symm]
      split <;> rfl
    · rw [if_neg (Ne.symm first)]
      by_cases later : k ∈ rest
      · rw [if_pos later, if_pos (List.mem_cons_of_mem e later)]
      · rw [if_neg later, if_neg (fun either => (List.mem_cons.mp either).elim first later)]

variable [DecidableEq P]

theorem Refines.insert (refines : Refines table m) {pfx : AllowedIP} (valid : pfx.Valid) (peer : P) :
    Refines (table.insert pfx peer) (PrefixMap.insert m pfx peer) := by
  obtain ⟨family, le⟩ := valid
  have inserted := Trie.insert_inserted family rfl le peer (refines.tries.trie family)
    (Trie.All.of_forall fun _ _ => ⟨Nat.zero_le _, fun _ below => absurd below (Nat.not_lt_zero _)⟩)
    (Nat.zero_le pfx.bits)
  have old : ((table.trie pfx.addr).insert pfx.addr pfx.bits peer).old = m pfx.masked := by
    rw [inserted.old, ← refines.get, AllowedIPs.get]
    show _ = if (maskSelf pfx.addr pfx.bits).length = 16 ∨ (maskSelf pfx.addr pfx.bits).length = 4 then
      (table.trie (maskSelf pfx.addr pfx.bits)).get (maskSelf pfx.addr pfx.bits) pfx.bits else none
    rw [if_pos ((length_maskSelf pfx.addr pfx.bits).symm ▸ family.symm),
      trie_congr (length_maskSelf pfx.addr pfx.bits)]
  have moved := moveEntry_spec refines.entries refines.nodup pfx.masked peer
  rw [AllowedIPs.insert, if_pos family.symm]
  dsimp only
  rw [inserted.taken, old]
  refine ⟨refines.tries.setTrie family inserted.valid, fun k => ?_, moved.1, moved.2⟩
  show (table.setTrie pfx.addr ((table.trie pfx.addr).insert pfx.addr pfx.bits peer).trie).get k = _
  have changed : ∀ bits c, ((table.trie pfx.addr).insert pfx.addr pfx.bits peer).trie.get bits c =
      if pfx.masked.addr = bits ∧ pfx.masked.bits = c then some peer
      else (table.trie pfx.addr).get bits c := inserted.get
  rw [get_setTrie family (length_maskSelf pfx.addr pfx.bits) changed, PrefixMap.insert,
    Function.update_apply, refines.get]
  by_cases same : pfx.masked = k
  · rw [if_pos same, if_pos same.symm]
  · rw [if_neg same, if_neg (Ne.symm same)]

theorem Refines.removeByPeer (refines : Refines table m) (peer : P) :
    Refines (table.removeByPeer peer) (PrefixMap.removeByPeer m peer) := by
  have family : ∀ e ∈ table.trieEntries peer, e.addr.length = 4 ∨ e.addr.length = 16 :=
    fun e inside => refines.family (by rw [(refines.entries peer e).mp inside]; exact Option.some_ne_none peer)
  obtain ⟨tries, _, removedGet⟩ := refines.tries.foldl_removeEntry (table.trieEntries peer) family
  refine ⟨tries, fun k => ?_, fun q k => ?_, fun q => ?_⟩
  · show ((table.trieEntries peer).foldl removeEntry table).get k =
      if m k = some peer then none else m k
    rw [removedGet]
    by_cases listed : k ∈ table.trieEntries peer
    · rw [if_pos listed, if_pos ((refines.entries peer k).mp listed)]
    · rw [if_neg listed, if_neg (fun held => listed ((refines.entries peer k).mpr held)), refines.get]
  · show k ∈ Function.update table.trieEntries peer [] q ↔ _
    rw [Function.update_apply, PrefixMap.removeByPeer]
    by_cases removed : q = peer
    · subst removed
      simp only [if_true, List.not_mem_nil, false_iff]
      split <;> simp_all
    · rw [if_neg removed, refines.entries]
      split
      · next wasPeer => simp [wasPeer, Ne.symm removed]
      · exact Iff.rfl
  · show (Function.update table.trieEntries peer [] q).Nodup
    rw [Function.update_apply]
    split
    · exact List.nodup_nil
    · exact refines.nodup q

theorem Refines.apply (refines : Refines table m) {op : Op P} (valid : op.Valid) :
    Refines (table.apply op) (PrefixMap.apply m op) := by
  cases op with
  | insert pfx peer => exact refines.insert valid peer
  | removeByPeer peer => exact refines.removeByPeer peer

/-- Every run of operations on valid prefixes keeps the refinement. -/
theorem Refines.run (refines : Refines table m) {ops : List (Op P)} (valid : ∀ op ∈ ops, op.Valid) :
    Refines (table.run ops) (PrefixMap.run m ops) := by
  induction ops generalizing table m with
  | nil => exact refines
  | cons op rest ih =>
    exact ih (refines.apply (valid op List.mem_cons_self))
      fun op' inside => valid op' (List.mem_cons_of_mem op inside)

end refines

example : (empty.run [.insert ⟨[10, 0, 0, 0], 8⟩ 1, .insert ⟨[10, 1, 0, 0], 16⟩ 2]).lookup
    [10, 1, 2, 3] = some 2 := by
  decide

/-- From the empty table, through any run of `Insert` and `RemoveByPeer` on valid prefixes:
`Lookup` of an address of either family is longest-prefix match on the prefixes inserted and
not removed since, the latest insertion of a masked prefix winning; `EntriesForPeer` lists
each peer's masked prefixes, each once; and with every list empty both tries are empty. -/
theorem allowedIPs_run_refines_prefixMap {P : Type} [DecidableEq P] (ops : List (Op P))
    (valid : ∀ op ∈ ops, op.Valid) :
    (∀ ip : List UInt8, (ip.length = 4 ∨ ip.length = 16) →
      (empty.run ops).lookup ip = PrefixMap.lookup (PrefixMap.run PrefixMap.empty ops) ip) ∧
    (∀ peer k, k ∈ (empty.run ops).entriesForPeer peer ↔
      PrefixMap.run PrefixMap.empty ops k = some peer) ∧
    (∀ peer, ((empty.run ops).entriesForPeer peer).Nodup) ∧
    ((∀ peer, (empty.run ops).entriesForPeer peer = []) →
      (empty.run ops).ipv4 = .nil ∧ (empty.run ops).ipv6 = .nil) := by
  have refines := refines_empty.run valid
  exact ⟨fun ip family => refines.lookup family, refines.entries, refines.nodup,
    refines.roots_eq_nil⟩

/-- Two nested IPv4 prefixes and an IPv6 one, then the first peer removed. -/
def nestedRoutes : List (Op Nat) :=
  [.insert ⟨[10, 0, 0, 0], 8⟩ 1, .insert ⟨[10, 1, 0, 0], 16⟩ 2,
    .insert ⟨[32, 1, 13, 184, 0, 0, 0, 0, 0, 0, 0, 0, 0, 0, 0, 0], 32⟩ 1, .removeByPeer 1]

theorem allowedIPs_run_refines_prefixMap_nested :
    (∀ op ∈ nestedRoutes, op.Valid) ∧
    ((∀ ip : List UInt8, (ip.length = 4 ∨ ip.length = 16) →
      (empty.run nestedRoutes).lookup ip =
        PrefixMap.lookup (PrefixMap.run PrefixMap.empty nestedRoutes) ip) ∧
    (∀ peer k, k ∈ (empty.run nestedRoutes).entriesForPeer peer ↔
      PrefixMap.run PrefixMap.empty nestedRoutes k = some peer) ∧
    (∀ peer, ((empty.run nestedRoutes).entriesForPeer peer).Nodup) ∧
    ((∀ peer, (empty.run nestedRoutes).entriesForPeer peer = []) →
      (empty.run nestedRoutes).ipv4 = .nil ∧ (empty.run nestedRoutes).ipv6 = .nil)) :=
  ⟨by decide, allowedIPs_run_refines_prefixMap nestedRoutes (by decide)⟩

end AllowedIPs

end WarpPlus.Device
