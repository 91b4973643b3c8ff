import WarpPlus.Tun.Virtio
import WarpPlus.Semantics.SliceMap

/-! Receive offload for writes to the TUN device: `handleGRO` of
`tun/offload_linux.go`, with `tcpGRO`, `udpGRO`, the coalescing helpers and
the two accountings.

`handleGRO` goes through the batch once, from the packet at `offset` in each
buffer. A packet that is no candidate, or that `tcpGRO` or `udpGRO` turn down
(`noop`), gets a zero virtio header in the ten bytes before the offset and is
listed in `toWrite`. One that starts an item in a flow table (`tableInsert`) is
listed as it is. One whose data is appended to an item's packet, or put in
front of it, is not listed (`coalesced`). After the loop each accounting writes
a header in front of every item still in its table: a zero one, or for a
packet grown by merging, a GSO header with the lengths and checksums redone.

A `Buf` is a `[]byte`: its bytes and the capacity of the array behind them,
since coalescing grows a packet in place only while the capacity allows. A
flow table is a `GoMap.SliceMap`. An index or a slice outside a buffer is Go's
panic, `none` here.
-/

set_option autoImplicit false

namespace WarpPlus.Tun

open Bits GoSlice GoMap

/-! ### Slices with a capacity -/

/-- A `[]byte`: its elements, and the capacity of the array behind them. -/
structure Buf where
  bytes : List UInt8
  cap : Nat
  fits : bytes.length ≤ cap
  deriving DecidableEq

/-- The slice after a write that keeps its length. -/
def Buf.withBytes (b : Buf) (bytes : List UInt8) (same : bytes.length = b.bytes.length) : Buf :=
  ⟨bytes, b.cap, same ▸ b.fits⟩

/-- `b[offset:]`. -/
def Buf.suffix (b : Buf) (offset : Nat) : Option (List UInt8) := slice b.bytes offset b.bytes.length

/-- `copy(b[pos:], src)`. -/
def Buf.write (b : Buf) (pos : Nat) (src : List UInt8) : Option Buf :=
  (copy b.bytes pos b.bytes.length src).pbind fun bytes copied => some (b.withBytes bytes (length_of_copy copied))

/-- `binary.BigEndian.PutUint16(b[pos:], v)`. -/
def Buf.putUint16 (b : Buf) (pos : Nat) (v : UInt16) : Option Buf :=
  (putUint16At b.bytes pos v).pbind fun bytes put => some (b.withBytes bytes (length_of_copy put))

/-- `b[pos] = v`. -/
def Buf.store (b : Buf) (pos : Nat) (v : UInt8) : Option Buf :=
  (GoSlice.store b.bytes pos v).pbind fun bytes stored => some (b.withBytes bytes (length_of_store stored))

/-- `append(b, make([]byte, n)...)`: in place while the capacity allows, which
every call here checks first; past it, a new array just large enough. -/
def Buf.grow (b : Buf) (n : Nat) : Buf :=
  ⟨b.bytes ++ List.replicate n 0, max b.cap (b.bytes.length + n), by
    simp only [List.length_append, List.length_replicate]
    omega⟩

/-! ### Constants, results and the header written in front -/

def tcpFlagACK : UInt8 := 0x10
def ipv4FlagMoreFragments : UInt8 := 0x20
def maxUint16 : Nat := 65535
def udphLen : UInt8 := 8

inductive CanCoalesce where
  | prepend
  | unavailable
  | append
  deriving DecidableEq, Repr

inductive CoalesceResult where
  | insufficientCap
  | pshEnding
  | itemInvalidCSum
  | pktInvalidCSum
  | success
  deriving DecidableEq, Repr

inductive GroResult where
  | noop
  | tableInsert
  | coalesced
  deriving DecidableEq, Repr

inductive GroCandidate where
  | notGRO
  | tcp4
  | tcp6
  | udp4
  | udp6
  deriving DecidableEq, Repr

/-- The errors `handleGRO` returns. -/
inductive GroError where
  /-- "invalid offset" -/
  | invalidOffset
  /-- `io.ErrShortBuffer` from `encode` -/
  | shortBuffer
  deriving DecidableEq, Repr

/-- `encode`: the struct's ten bytes, each `uint16` low byte first. -/
def VirtioNetHdr.encode (h : VirtioNetHdr) : List UInt8 :=
  [h.flags, h.gsoType, h.hdrLen.toUInt8, (h.hdrLen >>> 8).toUInt8, h.gsoSize.toUInt8, (h.gsoSize >>> 8).toUInt8,
    h.csumStart.toUInt8, (h.csumStart >>> 8).toUInt8, h.csumOffset.toUInt8, (h.csumOffset >>> 8).toUInt8]

/-- `virtioNetHdr{}`. -/
def VirtioNetHdr.zero : VirtioNetHdr := ⟨0, 0, 0, 0, 0, 0⟩

/-- `hdr.encode(bufs[i][offset-virtioNetHdrLen:])`: the header in the ten
bytes before the packet, or `io.ErrShortBuffer`. -/
def writeHeader (hdr : VirtioNetHdr) (bufs : List Buf) (i offset : Nat) : Option (Except GroError (List Buf)) := do
  let b ← bufs[i]?
  if offset < virtioNetHdrLen ∨ b.bytes.length < offset - virtioNetHdrLen then none
  else if b.bytes.length - (offset - virtioNetHdrLen) < virtioNetHdrLen then pure (.error .shortBuffer)
  else do
    let b ← b.write (offset - virtioNetHdrLen) hdr.encode
    pure (.ok (bufs.set i b))

/-! ### Flow keys and items -/

/-- A `[16]byte` filled from the front by `copy`. -/
def addr16 (s : List UInt8) : List UInt8 := s.take 16 ++ List.replicate (16 - s.length) 0

structure TcpFlowKey where
  srcAddr : List UInt8
  dstAddr : List UInt8
  srcPort : UInt16
  dstPort : UInt16
  rxAck : UInt32
  isV6 : Bool
  deriving DecidableEq, Repr

structure TcpGROItem where
  key : TcpFlowKey
  sentSeq : UInt32
  bufsIndex : UInt16
  numMerged : UInt16
  gsoSize : UInt16
  iphLen : UInt8
  tcphLen : UInt8
  pshSet : Bool
  deriving DecidableEq, Repr

structure UdpFlowKey where
  srcAddr : List UInt8
  dstAddr : List UInt8
  srcPort : UInt16
  dstPort : UInt16
  isV6 : Bool
  deriving DecidableEq, Repr

structure UdpGROItem where
  key : UdpFlowKey
  bufsIndex : UInt16
  numMerged : UInt16
  gsoSize : UInt16
  iphLen : UInt8
  cSumKnownInvalid : Bool
  deriving DecidableEq, Repr

abbrev TcpGROTable := SliceMap TcpFlowKey TcpGROItem
abbrev UdpGROTable := SliceMap UdpFlowKey UdpGROItem

def newTCPFlowKey (pkt : List UInt8) (srcAddrOffset dstAddrOffset tcphOffset : Nat) : Option TcpFlowKey := do
  let addrSize := dstAddrOffset - srcAddrOffset
  let src ← slice pkt srcAddrOffset dstAddrOffset
  let dst ← slice pkt dstAddrOffset (dstAddrOffset + addrSize)
  let srcPort ← uint16At pkt tcphOffset
  let dstPort ← uint16At pkt (tcphOffset + 2)
  let rxAck ← uint32At pkt (tcphOffset + 8)
  pure ⟨addr16 src, addr16 dst, srcPort, dstPort, rxAck, addrSize = 16⟩

def newUDPFlowKey (pkt : List UInt8) (srcAddrOffset dstAddrOffset udphOffset : Nat) : Option UdpFlowKey := do
  let addrSize := dstAddrOffset - srcAddrOffset
  let src ← slice pkt srcAddrOffset dstAddrOffset
  let dst ← slice pkt dstAddrOffset (dstAddrOffset + addrSize)
  let srcPort ← uint16At pkt udphOffset
  let dstPort ← uint16At pkt (udphOffset + 2)
  pure ⟨addr16 src, addr16 dst, srcPort, dstPort, addrSize = 16⟩

/-- `tcpGROTable.insert`: a new item for the packet at `bufsIndex`. -/
def tcpInsert (t : TcpGROTable) (pkt : List UInt8) (srcAddrOffset dstAddrOffset tcphOffset tcphLen bufsIndex : Nat) :
    Option TcpGROTable := do
  let key ← newTCPFlowKey pkt srcAddrOffset dstAddrOffset tcphOffset
  let payload ← slice pkt (tcphOffset + tcphLen) pkt.length
  let sentSeq ← uint32At pkt (tcphOffset + 4)
  let flags ← pkt[tcphOffset + tcpFlagsOffset.toNat]?
  pure (t.push key ⟨key, sentSeq, bufsIndex.toUInt16, 0, payload.length.toUInt16, tcphOffset.toUInt8,
    tcphLen.toUInt8, flags &&& tcpFlagPSH ≠ 0⟩)

/-- `udpGROTable.insert`. -/
def udpInsert (u : UdpGROTable) (pkt : List UInt8) (srcAddrOffset dstAddrOffset udphOffset bufsIndex : Nat)
    (cSumKnownInvalid : Bool) : Option UdpGROTable := do
  let key ← newUDPFlowKey pkt srcAddrOffset dstAddrOffset udphOffset
  let payload ← slice pkt (udphOffset + udphLen.toNat) pkt.length
  pure (u.push key ⟨key, bufsIndex.toUInt16, 0, payload.length.toUInt16, udphOffset.toUInt8, cSumKnownInvalid⟩)

/-- `tcpGROTable.lookupOrInsert`: the flow's items, or the table with a new
item when the flow is new. -/
def tcpLookupOrInsert (t : TcpGROTable) (pkt : List UInt8) (srcAddrOffset dstAddrOffset tcphOffset tcphLen bufsIndex : Nat) :
    Option (Option (List TcpGROItem) × TcpGROTable) := do
  let key ← newTCPFlowKey pkt srcAddrOffset dstAddrOffset tcphOffset
  match t.find? key with
  | some items => pure (some items, t)
  | none => do
    let t ← tcpInsert t pkt srcAddrOffset dstAddrOffset tcphOffset tcphLen bufsIndex
    pure (none, t)

def udpLookupOrInsert (u : UdpGROTable) (pkt : List UInt8) (srcAddrOffset dstAddrOffset udphOffset bufsIndex : Nat) :
    Option (Option (List UdpGROItem) × UdpGROTable) := do
  let key ← newUDPFlowKey pkt srcAddrOffset dstAddrOffset udphOffset
  match u.find? key with
  | some items => pure (some items, u)
  | none => do
    let u ← udpInsert u pkt srcAddrOffset dstAddrOffset udphOffset bufsIndex false
    pure (none, u)

/-! ### Whether two packets can be merged -/

def ipHeadersCanCoalesce (pktA pktB : List UInt8) : Bool :=
  if pktA.length < 9 ∨ pktB.length < 9 then false
  else
    let a := fun k => pktA.getD k 0
    let b := fun k => pktB.getD k 0
    if a 0 >>> 4 = 6 then
      -- traffic class and hop limit
      if a 0 ≠ b 0 ∨ a 1 >>> 4 ≠ b 1 >>> 4 then false
      else a 7 = b 7
    else
      -- ToS, the DF and reserved bits, and TTL
      if a 1 ≠ b 1 then false
      else if a 6 >>> 5 ≠ b 6 >>> 5 then false
      else a 8 = b 8

def udpPacketsCanCoalesce (pkt : List UInt8) (iphLen : UInt8) (gsoSize : UInt16) (item : UdpGROItem)
    (bufs : List Buf) (bufsOffset : Nat) : Option CanCoalesce := do
  let target ← bufs[item.bufsIndex.toNat]?
  let pktTarget ← target.suffix bufsOffset
  if !ipHeadersCanCoalesce pkt pktTarget then pure .unavailable
  else do
    let data ← slice pktTarget (iphLen + udphLen).toNat pktTarget.length
    -- `%` by a zero `gsoSize` panics
    if item.gsoSize = 0 then none
    else if data.length % item.gsoSize.toNat ≠ 0 then pure .unavailable
    else if gsoSize > item.gsoSize then pure .unavailable
    else pure .append

def tcpPacketsCanCoalesce (pkt : List UInt8) (iphLen tcphLen : UInt8) (seq : UInt32) (pshSet : Bool)
    (gsoSize : UInt16) (item : TcpGROItem) (bufs : List Buf) (bufsOffset : Nat) : Option CanCoalesce := do
  let target ← bufs[item.bufsIndex.toNat]?
  let pktTarget ← target.suffix bufsOffset
  if tcphLen ≠ item.tcphLen then pure .unavailable
  else do
    -- the options of both, up to the packet's own header length
    let optionsDiffer ← (if 20 < tcphLen then do
        let a ← slice pkt (iphLen + 20).toNat (iphLen + tcphLen).toNat
        let b ← slice pktTarget (item.iphLen + 20).toNat (iphLen + tcphLen).toNat
        pure (decide (a ≠ b))
      else pure false)
    if optionsDiffer then pure .unavailable
    else if !ipHeadersCanCoalesce pkt pktTarget then pure .unavailable
    else
      let lhsLen := item.gsoSize + item.numMerged * item.gsoSize
      if seq = item.sentSeq + lhsLen.toUInt32 then
        if item.pshSet then pure .unavailable
        else do
          let data ← slice pktTarget (iphLen + tcphLen).toNat pktTarget.length
          if item.gsoSize = 0 then none
          else if data.length % item.gsoSize.toNat ≠ 0 then pure .unavailable
          else if gsoSize > item.gsoSize then pure .unavailable
          else pure .append
      else if seq + gsoSize.toUInt32 = item.sentSeq then
        if pshSet then pure .unavailable
        else if gsoSize < item.gsoSize then pure .unavailable
        else if gsoSize > item.gsoSize ∧ 0 < item.numMerged then pure .unavailable
        else pure .prepend
      else pure .unavailable

/-- `checksumValid`: the transport checksum over the pseudo header and
everything after the IP header folds to zero. -/
def checksumValid (pkt : List UInt8) (iphLen proto : UInt8) (isV6 : Bool) : Option Bool := do
  let srcAddrAt := if isV6 then ipv6SrcAddrOffset else ipv4SrcAddrOffset
  let addrSize := if isV6 then 16 else 4
  let lenForPseudo := pkt.length.toUInt16 - iphLen.toUInt16
  let srcAddr ← slice pkt srcAddrAt (srcAddrAt + addrSize)
  let dstAddr ← slice pkt (srcAddrAt + addrSize) (srcAddrAt + addrSize * 2)
  let transport ← slice pkt iphLen.toNat pkt.length
  pure (~~~checksum transport (pseudoHeaderChecksumNoFold proto srcAddr dstAddr lenForPseudo) = 0)

/-! ### Merging two packets -/

/-- `coalesceUDPPackets`: `pkt`'s data appended to the item's packet. -/
def coalesceUDPPackets (pkt : List UInt8) (item : UdpGROItem) (bufs : List Buf) (bufsOffset : Nat) (isV6 : Bool) :
    Option (CoalesceResult × UdpGROItem × List Buf) := do
  let index := item.bufsIndex.toNat
  let target ← bufs[index]?
  let pktHead ← target.suffix bufsOffset
  let headersLen := item.iphLen + udphLen
  let coalescedLen : Int := pktHead.length + pkt.length - headersLen.toNat
  -- `cap(pktHead)-bufsOffset`: the offset is taken off twice
  if ((target.cap - bufsOffset : Nat) : Int) - bufsOffset < coalescedLen then
    pure (.insufficientCap, item, bufs)
  else do
    let itemValid ← (if item.numMerged = 0 then
        if item.cSumKnownInvalid then pure false else checksumValid pktHead item.iphLen ipprotoUDP isV6
      else pure true)
    if !itemValid then pure (.itemInvalidCSum, item, bufs)
    else do
      let pktValid ← checksumValid pkt item.iphLen ipprotoUDP isV6
      if !pktValid then pure (.pktInvalidCSum, item, bufs)
      else do
        let extendBy : Int := pkt.length - headersLen.toNat
        -- `make` with a negative length panics
        if extendBy < 0 then none
        else do
          let data ← slice pkt headersLen.toNat pkt.length
          let target ← (target.grow extendBy.toNat).write (bufsOffset + pktHead.length) data
          pure (.success, { item with numMerged := item.numMerged + 1 }, bufs.set index target)

/-- `coalesceTCPPackets`: `pkt` merged with the item's packet, after it or in
front of it. A packet put in front is grown in its own buffer, which then
changes places with the item's, so that the item's index stays listed. -/
def coalesceTCPPackets (mode : CanCoalesce) (pkt : List UInt8) (pktBuffsIndex : Nat) (gsoSize : UInt16)
    (seq : UInt32) (pshSet : Bool) (item : TcpGROItem) (bufs : List Buf) (bufsOffset : Nat) (isV6 : Bool) :
    Option (CoalesceResult × TcpGROItem × List Buf) := do
  let index := item.bufsIndex.toNat
  let target ← bufs[index]?
  let targetView ← target.suffix bufsOffset
  let headersLen := item.iphLen + item.tcphLen
  let coalescedLen : Int := targetView.length + pkt.length - headersLen.toNat
  -- both branches end the same way: the larger `gsoSize`, one more merge
  let merged (item : TcpGROItem) : TcpGROItem :=
    { item with gsoSize := if gsoSize > item.gsoSize then gsoSize else item.gsoSize,
                numMerged := item.numMerged + 1 }
  let itemValid : Option Bool :=
    if item.numMerged = 0 then checksumValid targetView item.iphLen ipprotoTCP isV6 else pure true
  if mode = .prepend then do
    let own ← bufs[pktBuffsIndex]?
    if ((own.cap - bufsOffset : Nat) : Int) - bufsOffset < coalescedLen then pure (.insufficientCap, item, bufs)
    else if pshSet then pure (.pshEnding, item, bufs)
    else do
      let itemValid ← itemValid
      if !itemValid then pure (.itemInvalidCSum, item, bufs)
      else do
        let pktValid ← checksumValid pkt item.iphLen ipprotoTCP isV6
        if !pktValid then pure (.pktInvalidCSum, item, bufs)
        else do
          let extendBy : Int := coalescedLen - pkt.length
          if extendBy < 0 then none
          else do
            let data ← slice target.bytes (bufsOffset + headersLen.toNat) target.bytes.length
            let own ← (own.grow extendBy.toNat).write (bufsOffset + pkt.length) data
            -- `bufs[item.bufsIndex], bufs[pktBuffsIndex] = bufs[pktBuffsIndex], bufs[item.bufsIndex]`
            let bufs := (bufs.set pktBuffsIndex target).set index own
            pure (.success, merged { item with sentSeq := seq }, bufs)
  else do
    if ((target.cap - bufsOffset : Nat) : Int) - bufsOffset < coalescedLen then pure (.insufficientCap, item, bufs)
    else do
      let itemValid ← itemValid
      if !itemValid then pure (.itemInvalidCSum, item, bufs)
      else do
        let pktValid ← checksumValid pkt item.iphLen ipprotoTCP isV6
        if !pktValid then pure (.pktInvalidCSum, item, bufs)
        else do
          -- a PSH on the appended segment moves to the merged packet
          let target ← (if pshSet then do
              let flagsAt := bufsOffset + (item.iphLen + tcpFlagsOffset.toUInt8).toNat
              let flags ← target.bytes[flagsAt]?
              target.store flagsAt (flags ||| tcpFlagPSH)
            else pure target)
          let item := if pshSet then { item with pshSet := true } else item
          let extendBy : Int := pkt.length - headersLen.toNat
          if extendBy < 0 then none
          else do
            let data ← slice pkt headersLen.toNat pkt.length
            let target ← (target.grow extendBy.toNat).write (bufsOffset + targetView.length) data
            pure (.success, merged item, bufs.set index target)

/-! ### One packet -/

/-- What `tcpGRO` reads from a packet before it looks at the table. -/
structure TcpSegment where
  pkt : List UInt8
  iphLen : Nat
  tcphLen : Nat
  pshSet : Bool
  gsoSize : UInt16
  seq : UInt32

/-- The checks of `tcpGRO` before the table: `none` inside for `groResultNoop`. -/
def tcpSegment (bufs : List Buf) (offset pktI : Nat) (isV6 : Bool) : Option (Option TcpSegment) := do
  let b ← bufs[pktI]?
  let pkt ← b.suffix offset
  if maxUint16 < pkt.length then pure none else do
  let first ← pkt[0]?
  let iphLen := if isV6 then 40 else ((first &&& 0x0F) * 4).toNat
  -- the payload length (IPv6) or the total length (IPv4) must be the packet's
  let lenField ← uint16At pkt (if isV6 then 4 else 2)
  if (lenField.toNat : Int) ≠ (if isV6 then (pkt.length : Int) - 40 else pkt.length) then pure none else do
  if pkt.length < iphLen then pure none else do
  let dataOffset ← pkt[iphLen + 12]?
  let tcphLen := ((dataOffset >>> 4) * 4).toNat
  if tcphLen < 20 ∨ 60 < tcphLen then pure none else do
  if pkt.length < iphLen + tcphLen then pure none else do
  -- no GRO for fragments
  let fragmented ← (if isV6 then pure false else do
      let b6 ← pkt[6]?
      let b7 ← pkt[7]?
      pure (decide (b6 &&& ipv4FlagMoreFragments ≠ 0 ∨ b6 <<< 3 ≠ 0 ∨ b7 ≠ 0)))
  if fragmented then pure none else do
  -- only ACK, or PSH with ACK
  let tcpFlags ← pkt[iphLen + tcpFlagsOffset.toNat]?
  if tcpFlags ≠ tcpFlagACK ∧ tcpFlags ≠ tcpFlagACK ||| tcpFlagPSH then pure none else do
  let gsoSize := (pkt.length - tcphLen - iphLen).toUInt16
  if gsoSize < 1 then pure none else do
  let seq ← uint32At pkt (iphLen + 4)
  pure (some ⟨pkt, iphLen, tcphLen, tcpFlags ≠ tcpFlagACK, gsoSize, seq⟩)

/-- The `for i := len(items) - 1; i >= 0; i--` loop of `tcpGRO`, with `i`
rounds left: the result it returns, or `none` when it runs out. -/
def tcpCoalesceLoop (seg : TcpSegment) (pktI offset : Nat) (isV6 : Bool) (items : List TcpGROItem) :
    Nat → List Buf → TcpGROTable → Option (Option GroResult × List Buf × TcpGROTable)
  | 0, bufs, table => pure (none, bufs, table)
  | i + 1, bufs, table => do
    let item ← items[i]?
    let can ← tcpPacketsCanCoalesce seg.pkt seg.iphLen.toUInt8 seg.tcphLen.toUInt8 seg.seq seg.pshSet seg.gsoSize
      item bufs offset
    if can = .unavailable then tcpCoalesceLoop seg pktI offset isV6 items i bufs table
    else do
      let (result, item, bufs) ←
        coalesceTCPPackets can seg.pkt pktI seg.gsoSize seg.seq seg.pshSet item bufs offset isV6
      match result with
      | .success => do
        let table ← table.updateAt item.key i item
        pure (some .coalesced, bufs, table)
      | .itemInvalidCSum => do
        -- the item with an invalid checksum leaves the table
        let table ← table.deleteAt item.key i
        tcpCoalesceLoop seg pktI offset isV6 items i bufs table
      | .pktInvalidCSum => pure (some .noop, bufs, table)
      | _ => tcpCoalesceLoop seg pktI offset isV6 items i bufs table

def tcpGRO (bufs : List Buf) (offset pktI : Nat) (table : TcpGROTable) (isV6 : Bool) :
    Option (GroResult × List Buf × TcpGROTable) := do
  match ← tcpSegment bufs offset pktI isV6 with
  | none => pure (.noop, bufs, table)
  | some seg =>
    let srcAddrOffset := if isV6 then ipv6SrcAddrOffset else ipv4SrcAddrOffset
    let addrLen := if isV6 then 16 else 4
    let (found, table) ←
      tcpLookupOrInsert table seg.pkt srcAddrOffset (srcAddrOffset + addrLen) seg.iphLen seg.tcphLen pktI
    match found with
    | none => pure (.tableInsert, bufs, table)
    | some items => do
      let (returned, bufs, table) ← tcpCoalesceLoop seg pktI offset isV6 items items.length bufs table
      match returned with
      | some result => pure (result, bufs, table)
      | none => do
        -- no item took the packet: it starts one
        let table ← tcpInsert table seg.pkt srcAddrOffset (srcAddrOffset + addrLen) seg.iphLen seg.tcphLen pktI
        pure (.tableInsert, bufs, table)

/-- What `udpGRO` reads from a packet before it looks at the table. -/
structure UdpDatagram where
  pkt : List UInt8
  iphLen : Nat
  gsoSize : UInt16

def udpDatagram (bufs : List Buf) (offset pktI : Nat) (isV6 : Bool) : Option (Option UdpDatagram) := do
  let b ← bufs[pktI]?
  let pkt ← b.suffix offset
  if maxUint16 < pkt.length then pure none else do
  let first ← pkt[0]?
  let iphLen := if isV6 then 40 else ((first &&& 0x0F) * 4).toNat
  let lenField ← uint16At pkt (if isV6 then 4 else 2)
  if (lenField.toNat : Int) ≠ (if isV6 then (pkt.length : Int) - 40 else pkt.length) then pure none else do
  if pkt.length < iphLen then pure none else do
  if pkt.length < iphLen + udphLen.toNat then pure none else do
  let fragmented ← (if isV6 then pure false else do
      let b6 ← pkt[6]?
      let b7 ← pkt[7]?
      pure (decide (b6 &&& ipv4FlagMoreFragments ≠ 0 ∨ b6 <<< 3 ≠ 0 ∨ b7 ≠ 0)))
  if fragmented then pure none else do
  let gsoSize := (pkt.length - udphLen.toNat - iphLen).toUInt16
  if gsoSize < 1 then pure none else pure (some ⟨pkt, iphLen, gsoSize⟩)

/-- `udpGRO`: only the flow's last item is tried, and a packet it does not take
always starts an item, so that a flow keeps its order. -/
def udpGRO (bufs : List Buf) (offset pktI : Nat) (table : UdpGROTable) (isV6 : Bool) :
    Option (GroResult × List Buf × UdpGROTable) := do
  match ← udpDatagram bufs offset pktI isV6 with
  | none => pure (.noop, bufs, table)
  | some dgram =>
    let srcAddrOffset := if isV6 then ipv6SrcAddrOffset else ipv4SrcAddrOffset
    let addrLen := if isV6 then 16 else 4
    let insert (bufs : List Buf) (table : UdpGROTable) (cSumKnownInvalid : Bool) := do
      let table ← udpInsert table dgram.pkt srcAddrOffset (srcAddrOffset + addrLen) dgram.iphLen pktI cSumKnownInvalid
      pure (GroResult.tableInsert, bufs, table)
    let (found, table) ← udpLookupOrInsert table dgram.pkt srcAddrOffset (srcAddrOffset + addrLen) dgram.iphLen pktI
    match found with
    | none => pure (.tableInsert, bufs, table)
    | some items => do
      let item ← items.getLast?
      let can ← udpPacketsCanCoalesce dgram.pkt dgram.iphLen.toUInt8 dgram.gsoSize item bufs offset
      if can = .append then do
        let (result, item, bufs) ← coalesceUDPPackets dgram.pkt item bufs offset isV6
        match result with
        | .success => do
          let table ← table.updateAt item.key (items.length - 1) item
          pure (.coalesced, bufs, table)
        | .pktInvalidCSum => insert bufs table true
        | _ => insert bufs table false
      else insert bufs table false

/-! ### The batch -/

def packetIsGROCandidate (b : List UInt8) (canUDPGRO : Bool) : GroCandidate :=
  if b.length < 28 then .notGRO
  else
    let version := b.getD 0 0 >>> 4
    if version = 4 then
      -- IPv4 packets with options do not coalesce
      if b.getD 0 0 &&& 0x0F ≠ 5 then .notGRO
      else if b.getD 9 0 = ipprotoTCP ∧ 40 ≤ b.length then .tcp4
      else if b.getD 9 0 = ipprotoUDP ∧ canUDPGRO then .udp4
      else .notGRO
    else if version = 6 then
      if b.getD 6 0 = ipprotoTCP ∧ 60 ≤ b.length then .tcp6
      else if b.getD 6 0 = ipprotoUDP ∧ 48 ≤ b.length ∧ canUDPGRO then .udp6
      else .notGRO
    else .notGRO

/-- What `handleGRO`'s loop carries from one packet to the next. -/
structure GroState where
  bufs : List Buf
  tcpTable : TcpGROTable
  udpTable : UdpGROTable
  toWrite : List Nat
  deriving DecidableEq

def GroState.init (bufs : List Buf) : GroState := ⟨bufs, .empty, .empty, []⟩

/-- The packet's result, with the buffers and tables it leaves. -/
def groResult (s : GroState) (offset i : Nat) : GroCandidate → Option (GroResult × GroState)
  | .tcp4 => (tcpGRO s.bufs offset i s.tcpTable false).map fun (r, bufs, t) => (r, { s with bufs, tcpTable := t })
  | .tcp6 => (tcpGRO s.bufs offset i s.tcpTable true).map fun (r, bufs, t) => (r, { s with bufs, tcpTable := t })
  | .udp4 => (udpGRO s.bufs offset i s.udpTable false).map fun (r, bufs, u) => (r, { s with bufs, udpTable := u })
  | .udp6 => (udpGRO s.bufs offset i s.udpTable true).map fun (r, bufs, u) => (r, { s with bufs, udpTable := u })
  | .notGRO => some (.noop, s)

/-- One round of `handleGRO`'s loop, for the packet at `i`. -/
def groStep (offset : Int) (canUDPGRO : Bool) (s : GroState) (i : Nat) : Option (Except GroError GroState) := do
  let b ← s.bufs[i]?
  if offset < virtioNetHdrLen ∨ (b.bytes.length : Int) - 1 < offset then pure (.error .invalidOffset)
  else do
    let view ← b.suffix offset.toNat
    let (result, s) ← groResult s offset.toNat i (packetIsGROCandidate view canUDPGRO)
    match result with
    | .noop => do
      match ← writeHeader .zero s.bufs i offset.toNat with
      | .error e => pure (.error e)
      | .ok bufs => pure (.ok { s with bufs, toWrite := s.toWrite ++ [i] })
    | .tableInsert => pure (.ok { s with toWrite := s.toWrite ++ [i] })
    | .coalesced => pure (.ok s)

/-- The loop over the given indices; it stops at the first error. -/
def groLoop (offset : Int) (canUDPGRO : Bool) : List Nat → GroState → Option (Except GroError GroState)
  | [], s => pure (.ok s)
  | i :: rest, s => do
    match ← groStep offset canUDPGRO s i with
    | .error e => pure (.error e)
    | .ok s => groLoop offset canUDPGRO rest s

/-- `applyTCPCoalesceAccounting`'s body for one item. -/
def tcpAccount (offset : Nat) (bufs : List Buf) (item : TcpGROItem) : Option (Except GroError (List Buf)) := do
  let index := item.bufsIndex.toNat
  if item.numMerged = 0 then writeHeader .zero bufs index offset
  else do
    let b ← bufs[index]?
    let pkt ← b.suffix offset
    -- the total length and header checksum (IPv4), or the payload length (IPv6)
    let b ← (if item.key.isV6 then b.putUint16 (offset + 4) (pkt.length.toUInt16 - item.iphLen.toUInt16)
      else do
        let b ← b.store (offset + 10) 0
        let b ← b.store (offset + 11) 0
        let b ← b.putUint16 (offset + 2) pkt.length.toUInt16
        let ipHeader ← slice b.bytes offset (offset + item.iphLen.toNat)
        b.putUint16 (offset + 10) (~~~checksum ipHeader 0))
    let hdr : VirtioNetHdr := ⟨virtioNetHdrFNeedsCsum,
      if item.key.isV6 then virtioNetHdrGsoTcpv6 else virtioNetHdrGsoTcpv4,
      (item.iphLen + item.tcphLen).toUInt16, item.gsoSize, item.iphLen.toUInt16, 16⟩
    match ← writeHeader hdr (bufs.set index b) index offset with
    | .error e => pure (.error e)
    | .ok bufs => do
      -- the pseudo header checksum where the TCP checksum goes
      let b ← bufs[index]?
      let addrLen := if item.key.isV6 then 16 else 4
      let srcAddrAt := offset + (if item.key.isV6 then ipv6SrcAddrOffset else ipv4SrcAddrOffset)
      let srcAddr ← slice b.bytes srcAddrAt (srcAddrAt + addrLen)
      let dstAddr ← slice b.bytes (srcAddrAt + addrLen) (srcAddrAt + addrLen * 2)
      let psum := pseudoHeaderChecksumNoFold ipprotoTCP srcAddr dstAddr (pkt.length - item.iphLen.toNat).toUInt16
      let b ← b.putUint16 (offset + (hdr.csumStart + hdr.csumOffset).toNat) (checksum [] psum)
      pure (.ok (bufs.set index b))

/-- `applyUDPCoalesceAccounting`'s body for one item. -/
def udpAccount (offset : Nat) (bufs : List Buf) (item : UdpGROItem) : Option (Except GroError (List Buf)) := do
  let index := item.bufsIndex.toNat
  if item.numMerged = 0 then writeHeader .zero bufs index offset
  else do
    let b ← bufs[index]?
    let pkt ← b.suffix offset
    let b ← (if item.key.isV6 then b.putUint16 (offset + 4) (pkt.length.toUInt16 - item.iphLen.toUInt16)
      else do
        let b ← b.store (offset + 10) 0
        let b ← b.store (offset + 11) 0
        let b ← b.putUint16 (offset + 2) pkt.length.toUInt16
        let ipHeader ← slice b.bytes offset (offset + item.iphLen.toNat)
        b.putUint16 (offset + 10) (~~~checksum ipHeader 0))
    let hdr : VirtioNetHdr := ⟨virtioNetHdrFNeedsCsum, virtioNetHdrGsoUdpL4,
      (item.iphLen + udphLen).toUInt16, item.gsoSize, item.iphLen.toUInt16, 6⟩
    match ← writeHeader hdr (bufs.set index b) index offset with
    | .error e => pure (.error e)
    | .ok bufs => do
      let b ← bufs[index]?
      -- the UDP length, then the pseudo header checksum where the UDP checksum goes
      let b ← b.putUint16 (offset + item.iphLen.toNat + 4) (pkt.length - item.iphLen.toNat).toUInt16
      let addrLen := if item.key.isV6 then 16 else 4
      let srcAddrAt := offset + (if item.key.isV6 then ipv6SrcAddrOffset else ipv4SrcAddrOffset)
      let srcAddr ← slice b.bytes srcAddrAt (srcAddrAt + addrLen)
      let dstAddr ← slice b.bytes (srcAddrAt + addrLen) (srcAddrAt + addrLen * 2)
      let psum := pseudoHeaderChecksumNoFold ipprotoUDP srcAddr dstAddr (pkt.length - item.iphLen.toNat).toUInt16
      let b ← b.putUint16 (offset + (hdr.csumStart + hdr.csumOffset).toNat) (checksum [] psum)
      pure (.ok (bufs.set index b))

/-- An accounting: its body for every item in turn; the first error ends it,
with the buffers as far as it got. -/
def applyAccounting {ι : Type} (account : List Buf → ι → Option (Except GroError (List Buf))) :
    List ι → List Buf → Option (List Buf × Option GroError)
  | [], bufs => pure (bufs, none)
  | item :: items, bufs => do
    match ← account bufs item with
    | .error e => pure (bufs, some e)
    | .ok bufs => applyAccounting account items bufs

/-- `handleGRO`: the buffers it leaves and `toWrite`, or the errors it returns.
Both accountings run, and `errors.Join` keeps the errors of both. -/
def handleGRO (bufs : List Buf) (offset : Int) (canUDPGRO : Bool) :
    Option (Except (List GroError) (List Buf × List Nat)) := do
  match ← groLoop offset canUDPGRO (List.range bufs.length) (GroState.init bufs) with
  | .error e => pure (.error [e])
  | .ok s => do
    let (bufs, errTCP) ← applyAccounting (tcpAccount offset.toNat) s.tcpTable.items s.bufs
    let (bufs, errUDP) ← applyAccounting (udpAccount offset.toNat) s.udpTable.items bufs
    match errTCP.toList ++ errUDP.toList with
    | [] => pure (.ok (bufs, s.toWrite))
    | errs => pure (.error errs)

end WarpPlus.Tun
