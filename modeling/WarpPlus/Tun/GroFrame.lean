import WarpPlus.Tun.Gro

/-! Which buffers `handleGRO` writes.

Every write of the loop lands in the buffer of the packet at hand or in the
buffer of an item of a flow table, and every write of the accountings in the
buffer of an item. So a buffer that no item names, and whose round is over,
is never written again (`groLoop_keeps`, `applyAccounting_keeps`). An item
leaves its table when `tcpGRO` finds its checksum invalid; the index of its
packet was listed when the item went in, and stays listed.
-/

set_option autoImplicit false

namespace WarpPlus.Tun

open GoSlice GoMap

/-- Some item of the table names the buffer at `j`. -/
def Names {κ ι : Type} (index : ι → UInt16) (t : SliceMap κ ι) (j : Nat) : Prop :=
  ∃ x ∈ t.items, (index x).toNat = j

instance {κ ι : Type} (index : ι → UInt16) (t : SliceMap κ ι) (j : Nat) : Decidable (Names index t j) :=
  inferInstanceAs (Decidable (∃ x ∈ t.items, (index x).toNat = j))

section Names
variable {κ ι : Type} {index : ι → UInt16} {t t' : SliceMap κ ι} {j : Nat}

variable [DecidableEq κ]

theorem not_names_push {key : κ} {x : ι} (notT : ¬ Names index t j) (notX : (index x).toNat ≠ j) :
    ¬ Names index (t.push key x) j := by
  rintro ⟨y, member, named⟩
  rcases SliceMap.mem_items_push member with old | rfl
  · exact notT ⟨y, old, named⟩
  · exact notX named

theorem not_names_updateAt {key : κ} {i : Nat} {x : ι} (updated : t.updateAt key i x = some t')
    (notT : ¬ Names index t j) (notX : (index x).toNat ≠ j) : ¬ Names index t' j := by
  rintro ⟨y, member, named⟩
  rcases SliceMap.mem_items_updateAt updated member with old | rfl
  · exact notT ⟨y, old, named⟩
  · exact notX named

theorem not_names_deleteAt {key : κ} {i : Nat} (deleted : t.deleteAt key i = some t')
    (notT : ¬ Names index t j) : ¬ Names index t' j :=
  fun ⟨y, member, named⟩ => notT ⟨y, SliceMap.mem_items_deleteAt deleted member, named⟩

theorem index_ne_of_find? {key : κ} {items : List ι} {x : ι} (notT : ¬ Names index t j)
    (found : t.find? key = some items) (member : x ∈ items) : (index x).toNat ≠ j :=
  fun named => notT ⟨x, SliceMap.mem_items_of_find? found member, named⟩

end Names

section Keeps
variable {j : Nat}

theorem writeHeader_keeps {hdr : VirtioNetHdr} {bufs bufs' : List Buf} {i offset : Nat}
    (written : writeHeader hdr bufs i offset = some (.ok bufs')) (other : i ≠ j) : bufs'[j]? = bufs[j]? := by
  unfold writeHeader at written
  simp only [Option.bind_eq_bind, Option.bind_eq_some_iff] at written
  obtain ⟨b, -, written⟩ := written
  split_ifs at written
  · -- too short: `io.ErrShortBuffer`, nothing written
    simp [pure] at written
  · obtain ⟨b', -, written⟩ := Option.bind_eq_some_iff.mp written
    simp only [pure, Option.some.injEq, Except.ok.injEq] at written
    rw [← written]
    exact List.getElem?_set_ne other

theorem coalesceTCPPackets_keeps {mode : CanCoalesce} {pkt : List UInt8} {pktI : Nat} {gsoSize : UInt16}
    {seq : UInt32} {pshSet : Bool} {item item' : TcpGROItem} {bufs bufs' : List Buf} {offset : Nat} {isV6 : Bool}
    {r : CoalesceResult}
    (merged : coalesceTCPPackets mode pkt pktI gsoSize seq pshSet item bufs offset isV6 = some (r, item', bufs'))
    (notItem : item.bufsIndex.toNat ≠ j) (notPkt : pktI ≠ j) :
    bufs'[j]? = bufs[j]? ∧ item'.bufsIndex = item.bufsIndex := by
  unfold coalesceTCPPackets at merged
  obtain ⟨target, -, merged⟩ := Option.bind_eq_some_iff.mp merged
  obtain ⟨targetView, -, merged⟩ := Option.bind_eq_some_iff.mp merged
  -- every return before the last of each branch hands the buffers back as they were
  by_cases prepend : mode = .prepend
  · -- prepend: the packet's buffer is grown and the two buffers change places
    rw [if_pos prepend] at merged
    obtain ⟨own, -, merged⟩ := Option.bind_eq_some_iff.mp merged
    split at merged
    · cases merged; exact ⟨rfl, rfl⟩
    split at merged
    · cases merged; exact ⟨rfl, rfl⟩
    obtain ⟨itemValid, -, merged⟩ := Option.bind_eq_some_iff.mp merged
    split at merged
    · cases merged; exact ⟨rfl, rfl⟩
    obtain ⟨pktValid, -, merged⟩ := Option.bind_eq_some_iff.mp merged
    split at merged
    · cases merged; exact ⟨rfl, rfl⟩
    dsimp only at merged
    split at merged
    · cases merged
    obtain ⟨data, -, merged⟩ := Option.bind_eq_some_iff.mp merged
    obtain ⟨own, -, merged⟩ := Option.bind_eq_some_iff.mp merged
    cases merged
    exact ⟨by rw [List.getElem?_set_ne notItem, List.getElem?_set_ne notPkt], rfl⟩
  · -- append: only the item's buffer is written
    rw [if_neg prepend] at merged
    split at merged
    · cases merged; exact ⟨rfl, rfl⟩
    obtain ⟨itemValid, -, merged⟩ := Option.bind_eq_some_iff.mp merged
    split at merged
    · cases merged; exact ⟨rfl, rfl⟩
    obtain ⟨pktValid, -, merged⟩ := Option.bind_eq_some_iff.mp merged
    split at merged
    · cases merged; exact ⟨rfl, rfl⟩
    obtain ⟨target, -, merged⟩ := Option.bind_eq_some_iff.mp merged
    dsimp only at merged
    split at merged
    · cases merged
    obtain ⟨data, -, merged⟩ := Option.bind_eq_some_iff.mp merged
    obtain ⟨target, -, merged⟩ := Option.bind_eq_some_iff.mp merged
    cases merged
    exact ⟨List.getElem?_set_ne notItem, by split <;> rfl⟩

theorem coalesceUDPPackets_keeps {pkt : List UInt8} {item item' : UdpGROItem} {bufs bufs' : List Buf}
    {offset : Nat} {isV6 : Bool} {r : CoalesceResult}
    (merged : coalesceUDPPackets pkt item bufs offset isV6 = some (r, item', bufs'))
    (notItem : item.bufsIndex.toNat ≠ j) : bufs'[j]? = bufs[j]? ∧ item'.bufsIndex = item.bufsIndex := by
  unfold coalesceUDPPackets at merged
  obtain ⟨target, -, merged⟩ := Option.bind_eq_some_iff.mp merged
  obtain ⟨pktHead, -, merged⟩ := Option.bind_eq_some_iff.mp merged
  dsimp only at merged
  split at merged
  · cases merged; exact ⟨rfl, rfl⟩
  obtain ⟨itemValid, -, merged⟩ := Option.bind_eq_some_iff.mp merged
  split at merged
  · cases merged; exact ⟨rfl, rfl⟩
  obtain ⟨pktValid, -, merged⟩ := Option.bind_eq_some_iff.mp merged
  split at merged
  · cases merged; exact ⟨rfl, rfl⟩
  split at merged
  · cases merged
  obtain ⟨data, -, merged⟩ := Option.bind_eq_some_iff.mp merged
  obtain ⟨target, -, merged⟩ := Option.bind_eq_some_iff.mp merged
  cases merged
  exact ⟨List.getElem?_set_ne notItem, rfl⟩

theorem tcpInsert_not_names {t t' : TcpGROTable} {pkt : List UInt8} {srcAddrOffset dstAddrOffset tcphOffset tcphLen pktI : Nat}
    (inserted : tcpInsert t pkt srcAddrOffset dstAddrOffset tcphOffset tcphLen pktI = some t')
    (notT : ¬ Names TcpGROItem.bufsIndex t j) (notNew : pktI.toUInt16.toNat ≠ j) :
    ¬ Names TcpGROItem.bufsIndex t' j := by
  unfold tcpInsert at inserted
  simp only [Option.bind_eq_bind, Option.bind_eq_some_iff, Option.pure_def, Option.some.injEq] at inserted
  obtain ⟨key, -, payload, -, sentSeq, -, flags, -, rfl⟩ := inserted
  exact not_names_push notT notNew

theorem udpInsert_not_names {u u' : UdpGROTable} {pkt : List UInt8} {srcAddrOffset dstAddrOffset udphOffset pktI : Nat}
    {cSumKnownInvalid : Bool}
    (inserted : udpInsert u pkt srcAddrOffset dstAddrOffset udphOffset pktI cSumKnownInvalid = some u')
    (notU : ¬ Names UdpGROItem.bufsIndex u j) (notNew : pktI.toUInt16.toNat ≠ j) :
    ¬ Names UdpGROItem.bufsIndex u' j := by
  unfold udpInsert at inserted
  simp only [Option.bind_eq_bind, Option.bind_eq_some_iff, Option.pure_def, Option.some.injEq] at inserted
  obtain ⟨key, -, payload, -, rfl⟩ := inserted
  exact not_names_push notU notNew

theorem tcpLookupOrInsert_not_names {t t' : TcpGROTable} {pkt : List UInt8}
    {srcAddrOffset dstAddrOffset tcphOffset tcphLen pktI : Nat} {found : Option (List TcpGROItem)}
    (looked : tcpLookupOrInsert t pkt srcAddrOffset dstAddrOffset tcphOffset tcphLen pktI = some (found, t'))
    (notT : ¬ Names TcpGROItem.bufsIndex t j) (notNew : pktI.toUInt16.toNat ≠ j) :
    ¬ Names TcpGROItem.bufsIndex t' j ∧ ∀ items ∈ found, ∀ x ∈ items, x.bufsIndex.toNat ≠ j := by
  unfold tcpLookupOrInsert at looked
  obtain ⟨key, -, looked⟩ := Option.bind_eq_some_iff.mp looked
  split at looked
  · next items present =>
    cases looked
    exact ⟨notT, fun items' same _ member => index_ne_of_find? notT present (Option.mem_some_iff.mp same ▸ member)⟩
  · obtain ⟨t'', inserted, looked⟩ := Option.bind_eq_some_iff.mp looked
    cases looked
    exact ⟨tcpInsert_not_names inserted notT notNew, by simp⟩

theorem udpLookupOrInsert_not_names {u u' : UdpGROTable} {pkt : List UInt8}
    {srcAddrOffset dstAddrOffset udphOffset pktI : Nat} {found : Option (List UdpGROItem)}
    (looked : udpLookupOrInsert u pkt srcAddrOffset dstAddrOffset udphOffset pktI = some (found, u'))
    (notU : ¬ Names UdpGROItem.bufsIndex u j) (notNew : pktI.toUInt16.toNat ≠ j) :
    ¬ Names UdpGROItem.bufsIndex u' j ∧ ∀ items ∈ found, ∀ x ∈ items, x.bufsIndex.toNat ≠ j := by
  unfold udpLookupOrInsert at looked
  obtain ⟨key, -, looked⟩ := Option.bind_eq_some_iff.mp looked
  split at looked
  · next items present =>
    cases looked
    exact ⟨notU, fun items' same _ member => index_ne_of_find? notU present (Option.mem_some_iff.mp same ▸ member)⟩
  · obtain ⟨u'', inserted, looked⟩ := Option.bind_eq_some_iff.mp looked
    cases looked
    exact ⟨udpInsert_not_names inserted notU notNew, by simp⟩

theorem tcpCoalesceLoop_keeps {seg : TcpSegment} {pktI offset : Nat} {isV6 : Bool} {items : List TcpGROItem}
    (notPkt : pktI ≠ j) (notItems : ∀ x ∈ items, x.bufsIndex.toNat ≠ j) {i : Nat} {bufs bufs' : List Buf}
    {table table' : TcpGROTable} {returned : Option GroResult}
    (looped : tcpCoalesceLoop seg pktI offset isV6 items i bufs table = some (returned, bufs', table'))
    (notT : ¬ Names TcpGROItem.bufsIndex table j) :
    bufs'[j]? = bufs[j]? ∧ ¬ Names TcpGROItem.bufsIndex table' j := by
  -- on the rounds left, for every buffers and table the round starts with
  induction i generalizing bufs table with
  | zero =>
    cases looped
    exact ⟨rfl, notT⟩
  | succ i ih =>
    unfold tcpCoalesceLoop at looped
    obtain ⟨item, picked, looped⟩ := Option.bind_eq_some_iff.mp looped
    have notItem := notItems item (List.mem_of_getElem? picked)
    obtain ⟨can, -, looped⟩ := Option.bind_eq_some_iff.mp looped
    split at looped
    · exact ih looped notT
    obtain ⟨⟨result, item', bufs₁⟩, merged, looped⟩ := Option.bind_eq_some_iff.mp looped
    obtain ⟨kept, sameIndex⟩ := coalesceTCPPackets_keeps merged notItem notPkt
    have notItem' : item'.bufsIndex.toNat ≠ j := sameIndex ▸ notItem
    cases result with
    | success =>
      obtain ⟨table₁, updated, looped⟩ := Option.bind_eq_some_iff.mp looped
      cases looped
      exact ⟨kept, not_names_updateAt updated notT notItem'⟩
    | itemInvalidCSum =>
      obtain ⟨table₁, deleted, looped⟩ := Option.bind_eq_some_iff.mp looped
      obtain ⟨rest, notT₁⟩ := ih looped (not_names_deleteAt deleted notT)
      exact ⟨rest.trans kept, notT₁⟩
    | pktInvalidCSum =>
      cases looped
      exact ⟨kept, notT⟩
    | insufficientCap =>
      obtain ⟨rest, notT₁⟩ := ih looped notT
      exact ⟨rest.trans kept, notT₁⟩
    | pshEnding =>
      obtain ⟨rest, notT₁⟩ := ih looped notT
      exact ⟨rest.trans kept, notT₁⟩

theorem tcpGRO_keeps {bufs bufs' : List Buf} {offset pktI : Nat} {table table' : TcpGROTable} {isV6 : Bool}
    {result : GroResult} (done : tcpGRO bufs offset pktI table isV6 = some (result, bufs', table'))
    (notPkt : pktI ≠ j) (notNew : pktI.toUInt16.toNat ≠ j) (notT : ¬ Names TcpGROItem.bufsIndex table j) :
    bufs'[j]? = bufs[j]? ∧ ¬ Names TcpGROItem.bufsIndex table' j := by
  unfold tcpGRO at done
  obtain ⟨segment, -, done⟩ := Option.bind_eq_some_iff.mp done
  rcases segment with _ | seg
  · -- not a segment to merge: `groResultNoop`
    cases done
    exact ⟨rfl, notT⟩
  dsimp only at done
  obtain ⟨⟨found, table₁⟩, looked, done⟩ := Option.bind_eq_some_iff.mp done
  obtain ⟨notT₁, notFound⟩ := tcpLookupOrInsert_not_names looked notT notNew
  rcases found with _ | items
  · -- a new flow
    cases done
    exact ⟨rfl, notT₁⟩
  obtain ⟨⟨returned, bufs₁, table₂⟩, looped, done⟩ := Option.bind_eq_some_iff.mp done
  obtain ⟨kept, notT₂⟩ := tcpCoalesceLoop_keeps notPkt (notFound items rfl) looped notT₁
  rcases returned with _ | result
  · -- no item took the packet
    obtain ⟨table₃, inserted, done⟩ := Option.bind_eq_some_iff.mp done
    cases done
    exact ⟨kept, tcpInsert_not_names inserted notT₂ notNew⟩
  · cases done
    exact ⟨kept, notT₂⟩

theorem udpGRO_keeps {bufs bufs' : List Buf} {offset pktI : Nat} {table table' : UdpGROTable} {isV6 : Bool}
    {result : GroResult} (done : udpGRO bufs offset pktI table isV6 = some (result, bufs', table'))
    (notNew : pktI.toUInt16.toNat ≠ j) (notU : ¬ Names UdpGROItem.bufsIndex table j) :
    bufs'[j]? = bufs[j]? ∧ ¬ Names UdpGROItem.bufsIndex table' j := by
  unfold udpGRO at done
  obtain ⟨datagram, -, done⟩ := Option.bind_eq_some_iff.mp done
  rcases datagram with _ | dgram
  · cases done
    exact ⟨rfl, notU⟩
  dsimp only at done
  obtain ⟨⟨found, table₁⟩, looked, done⟩ := Option.bind_eq_some_iff.mp done
  obtain ⟨notU₁, notFound⟩ := udpLookupOrInsert_not_names looked notU notNew
  rcases found with _ | items
  · cases done
    exact ⟨rfl, notU₁⟩
  obtain ⟨item, last, done⟩ := Option.bind_eq_some_iff.mp done
  have notItem := notFound items rfl item (List.mem_of_getLast? last)
  obtain ⟨can, -, done⟩ := Option.bind_eq_some_iff.mp done
  split at done
  · obtain ⟨⟨result, item', bufs₁⟩, merged, done⟩ := Option.bind_eq_some_iff.mp done
    obtain ⟨kept, sameIndex⟩ := coalesceUDPPackets_keeps merged notItem
    cases result
    case success =>
      obtain ⟨table₂, updated, done⟩ := Option.bind_eq_some_iff.mp done
      cases done
      exact ⟨kept, not_names_updateAt updated notU₁ (sameIndex ▸ notItem)⟩
    -- every other result inserts the packet as a new item
    all_goals
      obtain ⟨table₂, inserted, done⟩ := Option.bind_eq_some_iff.mp done
      cases done
      exact ⟨kept, udpInsert_not_names inserted notU₁ notNew⟩
  · obtain ⟨table₂, inserted, done⟩ := Option.bind_eq_some_iff.mp done
    cases done
    exact ⟨rfl, udpInsert_not_names inserted notU₁ notNew⟩

theorem set_writeHeader_set_keeps {hdr : VirtioNetHdr} {bufs bufs₁ : List Buf} {index offset : Nat} {b₁ b₂ : Buf}
    (header : writeHeader hdr (bufs.set index b₁) index offset = some (.ok bufs₁)) (other : index ≠ j) :
    (bufs₁.set index b₂)[j]? = bufs[j]? :=
  calc (bufs₁.set index b₂)[j]?
      = bufs₁[j]? := List.getElem?_set_ne other
    _ = (bufs.set index b₁)[j]? := writeHeader_keeps header other
    _ = bufs[j]? := List.getElem?_set_ne other

theorem tcpAccount_keeps {offset : Nat} {bufs bufs' : List Buf} {item : TcpGROItem}
    (accounted : tcpAccount offset bufs item = some (.ok bufs')) (notItem : item.bufsIndex.toNat ≠ j) :
    bufs'[j]? = bufs[j]? := by
  unfold tcpAccount at accounted
  dsimp only at accounted
  split at accounted
  · exact writeHeader_keeps accounted notItem
  obtain ⟨b, -, accounted⟩ := Option.bind_eq_some_iff.mp accounted
  obtain ⟨pkt, -, accounted⟩ := Option.bind_eq_some_iff.mp accounted
  obtain ⟨b₁, -, accounted⟩ := Option.bind_eq_some_iff.mp accounted
  obtain ⟨written, header, accounted⟩ := Option.bind_eq_some_iff.mp accounted
  rcases written with e | bufs₁
  · cases accounted
  obtain ⟨b₂, -, accounted⟩ := Option.bind_eq_some_iff.mp accounted
  obtain ⟨srcAddr, -, accounted⟩ := Option.bind_eq_some_iff.mp accounted
  obtain ⟨dstAddr, -, accounted⟩ := Option.bind_eq_some_iff.mp accounted
  obtain ⟨b₃, -, accounted⟩ := Option.bind_eq_some_iff.mp accounted
  cases accounted
  exact set_writeHeader_set_keeps header notItem

theorem udpAccount_keeps {offset : Nat} {bufs bufs' : List Buf} {item : UdpGROItem}
    (accounted : udpAccount offset bufs item = some (.ok bufs')) (notItem : item.bufsIndex.toNat ≠ j) :
    bufs'[j]? = bufs[j]? := by
  unfold udpAccount at accounted
  dsimp only at accounted
  split at accounted
  · exact writeHeader_keeps accounted notItem
  obtain ⟨b, -, accounted⟩ := Option.bind_eq_some_iff.mp accounted
  obtain ⟨pkt, -, accounted⟩ := Option.bind_eq_some_iff.mp accounted
  obtain ⟨b₁, -, accounted⟩ := Option.bind_eq_some_iff.mp accounted
  obtain ⟨written, header, accounted⟩ := Option.bind_eq_some_iff.mp accounted
  rcases written with e | bufs₁
  · cases accounted
  obtain ⟨b₂, -, accounted⟩ := Option.bind_eq_some_iff.mp accounted
  obtain ⟨b₃, -, accounted⟩ := Option.bind_eq_some_iff.mp accounted
  obtain ⟨srcAddr, -, accounted⟩ := Option.bind_eq_some_iff.mp accounted
  obtain ⟨dstAddr, -, accounted⟩ := Option.bind_eq_some_iff.mp accounted
  obtain ⟨b₄, -, accounted⟩ := Option.bind_eq_some_iff.mp accounted
  cases accounted
  exact set_writeHeader_set_keeps header notItem

/-- An accounting whose body keeps the buffer at `j` for every item keeps it
for the whole table, also when it stops at an error. -/
theorem applyAccounting_keeps {ι : Type} {account : List Buf → ι → Option (Except GroError (List Buf))}
    {items : List ι} (keeps : ∀ {bufs bufs' : List Buf}, ∀ x ∈ items, account bufs x = some (.ok bufs') →
      bufs'[j]? = bufs[j]?) {bufs bufs' : List Buf} {err : Option GroError}
    (accounted : applyAccounting account items bufs = some (bufs', err)) : bufs'[j]? = bufs[j]? := by
  induction items generalizing bufs with
  | nil =>
    cases accounted
    rfl
  | cons x items ih =>
    unfold applyAccounting at accounted
    obtain ⟨result, body, accounted⟩ := Option.bind_eq_some_iff.mp accounted
    rcases result with e | bufs₁
    · cases accounted
      rfl
    · have rest := ih (fun y member => keeps y (List.mem_cons_of_mem x member)) accounted
      exact rest.trans (keeps x List.mem_cons_self body)

end Keeps

/-! ### Listed packets that no item names -/

/-- The packet at `j` is listed, and no item of either table names its buffer:
neither accounting will write in front of it. -/
def Orphaned (j : Nat) (s : GroState) : Prop :=
  j ∈ s.toWrite ∧ ¬ Names TcpGROItem.bufsIndex s.tcpTable j ∧ ¬ Names UdpGROItem.bufsIndex s.udpTable j

instance (j : Nat) (s : GroState) : Decidable (Orphaned j s) :=
  inferInstanceAs (Decidable (j ∈ s.toWrite ∧ _ ∧ _))

section Orphaned
variable {j : Nat} {offset : Int} {canUDPGRO : Bool}

theorem toUInt16_toNat_ne {i : Nat} (small : i < 2 ^ 16) (other : i ≠ j) : i.toUInt16.toNat ≠ j := by
  rwa [UInt16.toNat_ofNat', Nat.mod_eq_of_lt small]

theorem groResult_keeps {s s' : GroState} {pos i : Nat} {cand : GroCandidate} {result : GroResult}
    (grouped : groResult s pos i cand = some (result, s')) (orphan : Orphaned j s) (later : i ≠ j)
    (small : i < 2 ^ 16) : Orphaned j s' ∧ s'.bufs[j]? = s.bufs[j]? := by
  obtain ⟨listed, notT, notU⟩ := orphan
  have notNew := toUInt16_toNat_ne small later
  cases cand with
  | notGRO =>
    cases grouped
    exact ⟨⟨listed, notT, notU⟩, rfl⟩
  | tcp4 | tcp6 =>
    obtain ⟨⟨r, bufs, t⟩, done, same⟩ := Option.map_eq_some_iff.mp grouped
    cases same
    obtain ⟨kept, notT'⟩ := tcpGRO_keeps done later notNew notT
    exact ⟨⟨listed, notT', notU⟩, kept⟩
  | udp4 | udp6 =>
    obtain ⟨⟨r, bufs, u⟩, done, same⟩ := Option.map_eq_some_iff.mp grouped
    cases same
    obtain ⟨kept, notU'⟩ := udpGRO_keeps done notNew notU
    exact ⟨⟨listed, notT, notU'⟩, kept⟩

theorem groStep_keeps {s s' : GroState} {i : Nat} (step : groStep offset canUDPGRO s i = some (.ok s'))
    (orphan : Orphaned j s) (later : i ≠ j) (small : i < 2 ^ 16) : Orphaned j s' ∧ s'.bufs[j]? = s.bufs[j]? := by
  unfold groStep at step
  obtain ⟨b, -, step⟩ := Option.bind_eq_some_iff.mp step
  split at step
  · cases step
  obtain ⟨view, -, step⟩ := Option.bind_eq_some_iff.mp step
  obtain ⟨⟨result, s₁⟩, grouped, step⟩ := Option.bind_eq_some_iff.mp step
  obtain ⟨⟨listed, notNames⟩, kept⟩ := groResult_keeps grouped orphan later small
  cases result with
  | noop =>
    obtain ⟨written, header, step⟩ := Option.bind_eq_some_iff.mp step
    rcases written with e | bufs
    · cases step
    · cases step
      exact ⟨⟨List.mem_append_left _ listed, notNames⟩, (writeHeader_keeps header later).trans kept⟩
  | tableInsert =>
    cases step
    exact ⟨⟨List.mem_append_left _ listed, notNames⟩, kept⟩
  | coalesced =>
    cases step
    exact ⟨⟨listed, notNames⟩, kept⟩

/-- The run lemma: rounds for packets other than `j` keep it orphaned and its
buffer as it was. -/
theorem groLoop_keeps {indices : List Nat} {s s' : GroState}
    (looped : groLoop offset canUDPGRO indices s = some (.ok s')) (orphan : Orphaned j s)
    (others : ∀ i ∈ indices, i ≠ j ∧ i < 2 ^ 16) : Orphaned j s' ∧ s'.bufs[j]? = s.bufs[j]? := by
  induction indices generalizing s with
  | nil =>
    cases looped
    exact ⟨orphan, rfl⟩
  | cons i rest ih =>
    unfold groLoop at looped
    obtain ⟨stepped, step, looped⟩ := Option.bind_eq_some_iff.mp looped
    rcases stepped with e | s₁
    · cases looped
    obtain ⟨orphan₁, kept₁⟩ := groStep_keeps step orphan (others i List.mem_cons_self).1
      (others i List.mem_cons_self).2
    obtain ⟨orphan₂, kept₂⟩ := ih looped orphan₁ fun k member => others k (List.mem_cons_of_mem i member)
    exact ⟨orphan₂, kept₂.trans kept₁⟩

theorem groLoop_append {first : List Nat} (rest : List Nat) {s s₁ : GroState}
    (looped : groLoop offset canUDPGRO first s = some (.ok s₁)) :
    groLoop offset canUDPGRO (first ++ rest) s = groLoop offset canUDPGRO rest s₁ := by
  induction first generalizing s with
  | nil =>
    cases looped
    rfl
  | cons i first ih =>
    unfold groLoop at looped
    obtain ⟨stepped, step, looped⟩ := Option.bind_eq_some_iff.mp looped
    rcases stepped with e | s'
    · cases looped
    rw [List.cons_append, groLoop, step]
    exact ih looped

end Orphaned

/-- Once the loop has left a listed packet that no item names, which is what
deleting an item with an invalid checksum from the TCP table does, the rest of
the call writes nothing in its buffer: the packet goes out listed, with the
bytes in front of it as they were then, though no header was ever written
there. -/
theorem handleGRO_orphaned_unwritten {bufs bufs' : List Buf} {offset : Int} {canUDPGRO : Bool} {n j : Nat}
    {s : GroState} {toWrite : List Nat} (fits : bufs.length ≤ 2 ^ 16) (within : n ≤ bufs.length)
    (earlier : j < n) (upTo : groLoop offset canUDPGRO (List.range n) (GroState.init bufs) = some (.ok s))
    (orphan : Orphaned j s) (done : handleGRO bufs offset canUDPGRO = some (.ok (bufs', toWrite))) :
    j ∈ toWrite ∧ bufs'[j]? = s.bufs[j]? := by
  have split : List.range bufs.length = List.range n ++ (List.range (bufs.length - n)).map (n + ·) := by
    rw [← List.range_add, Nat.add_sub_cancel' within]
  -- the later rounds are for packets past `j`
  have later : ∀ i ∈ (List.range (bufs.length - n)).map (n + ·), i ≠ j ∧ i < 2 ^ 16 := by
    intro i member
    obtain ⟨k, below, rfl⟩ := List.mem_map.mp member
    have := List.mem_range.mp below
    omega
  unfold handleGRO at done
  rw [split, groLoop_append _ upTo] at done
  obtain ⟨looped, rest, done⟩ := Option.bind_eq_some_iff.mp done
  rcases looped with e | s'
  · cases done
  obtain ⟨⟨listed, notT, notU⟩, kept⟩ := groLoop_keeps rest orphan later
  obtain ⟨⟨bufs₁, errTCP⟩, tcpAccounted, done⟩ := Option.bind_eq_some_iff.mp done
  obtain ⟨⟨bufs₂, errUDP⟩, udpAccounted, done⟩ := Option.bind_eq_some_iff.mp done
  have keptTCP := applyAccounting_keeps
    (fun x member accounted => tcpAccount_keeps accounted fun named => notT ⟨x, member, named⟩) tcpAccounted
  have keptUDP := applyAccounting_keeps
    (fun x member accounted => udpAccount_keeps accounted fun named => notU ⟨x, member, named⟩) udpAccounted
  dsimp only at done
  split at done
  · cases done
    exact ⟨listed, keptUDP.trans (keptTCP.trans kept)⟩
  · cases done

/-- Two segments of one flow: the first has a wrong checksum, and the second
would be appended to it. The item of the first is deleted and the second starts
a new one, so both are listed; only the second gets a header, and the first
goes out with the sixteen bytes of 0xff in front of it still there. -/
theorem handleGRO_orphaned_unwritten_invalid_csum :
    let b0 : Buf := ⟨List.replicate 16 0xff ++ [0x45, 0, 0, 41, 0, 0, 0, 0, 64, 6, 0, 0, 10, 0, 0, 1, 10, 0, 0, 2,
      0x30, 0x39, 0, 0x50, 0, 0, 0, 1, 0, 0, 0, 1, 0x50, 0x10, 0x0b, 0xb8, 0, 0, 0, 0, 0x61], 65535, by decide⟩
    let b1 : Buf := ⟨List.replicate 16 0xff ++ [0x45, 0, 0, 41, 0, 0, 0, 0, 64, 6, 0, 0, 10, 0, 0, 1, 10, 0, 0, 2,
      0x30, 0x39, 0, 0x50, 0, 0, 0, 2, 0, 0, 0, 1, 0x50, 0x10, 0x0b, 0xb8, 0, 0, 0, 0, 0x62], 65535, by decide⟩
    let b1' : Buf := ⟨List.replicate 6 0xff ++ List.replicate 10 0 ++ b1.bytes.drop 16, 65535, by decide⟩
    let key : TcpFlowKey := ⟨addr16 [10, 0, 0, 1], addr16 [10, 0, 0, 2], 12345, 80, 1, false⟩
    let s : GroState := ⟨[b0, b1], ⟨[(key, [⟨key, 2, 1, 0, 1, 20, 20, false⟩])]⟩, SliceMap.empty, [0, 1]⟩
    handleGRO [b0, b1] 16 false = some (.ok ([b0, b1'], [0, 1])) ∧
      (0 ∈ [0, 1] ∧ [b0, b1'][0]? = s.bufs[0]?) ∧ (b0.bytes.drop 6).take 10 = List.replicate 10 0xff := by
  intro b0 b1 b1' key s
  have done : handleGRO [b0, b1] 16 false = some (.ok ([b0, b1'], [0, 1])) := by decide
  have upTo : groLoop 16 false (List.range 2) (GroState.init [b0, b1]) = some (.ok s) := by decide
  exact ⟨done, handleGRO_orphaned_unwritten (by decide) (by decide : 2 ≤ [b0, b1].length) (by decide) upTo
    (by decide) done, rfl⟩

end WarpPlus.Tun
