import WarpPlus.Tun.Checksum
import WarpPlus.Semantics.Slice

/-! Reading from a TUN device that prefixes every packet with a virtio header:
`handleVirtioRead` of `tun/tun_linux.go`, and `gsoSplit` and `gsoNoneChecksum`
of `tun/offload_linux.go`.

A packet without segmentation (`GSO_NONE`) is copied to the first buffer, its
checksum completed first when the kernel asks for it. A segmented one is cut by
`gsoSplit` into segments of `gsoSize` bytes of data, each behind a copy of the
IP and transport headers with their lengths, sequence number and checksums
redone. `sizes[i]` receives the length of segment `i`, and the read returns how
many buffers it filled.

Buffers are lists whose length is their capacity; an index or a slice outside
one is Go's panic, `none` here (`GoSlice`). The header is the kernel's
`virtio_net_hdr` in the host's byte order, little-endian on the hosts the
module is built for.
-/

set_option autoImplicit false

namespace WarpPlus.Tun

open Bits GoSlice

def virtioNetHdrLen : Nat := 10

def virtioNetHdrGsoNone : UInt8 := 0
def virtioNetHdrGsoTcpv4 : UInt8 := 1
def virtioNetHdrGsoTcpv6 : UInt8 := 4
def virtioNetHdrGsoUdpL4 : UInt8 := 5
def virtioNetHdrFNeedsCsum : UInt8 := 1

def ipprotoTCP : UInt8 := 6
def ipprotoUDP : UInt8 := 17

def ipv4SrcAddrOffset : Nat := 12
def ipv6SrcAddrOffset : Nat := 8
/-- An untyped constant in the source, added to a `uint16` there. -/
def tcpFlagsOffset : UInt16 := 13
def tcpFlagFIN : UInt8 := 0x01
def tcpFlagPSH : UInt8 := 0x08

/-! ### Big-endian fields of a buffer -/

/-- `binary.BigEndian.Uint16(b[pos:])`. -/
def uint16At (b : List UInt8) (pos : Nat) : Option UInt16 :=
  if pos + 2 ≤ b.length then some (bigEndian ((b.drop pos).take 2)).toUInt16 else none

/-- `binary.BigEndian.Uint32(b[pos:])`. -/
def uint32At (b : List UInt8) (pos : Nat) : Option UInt32 :=
  if pos + 4 ≤ b.length then some (bigEndian ((b.drop pos).take 4)).toUInt32 else none

/-- `binary.BigEndian.PutUint16(b[pos:], v)`. -/
def putUint16At (b : List UInt8) (pos : Nat) (v : UInt16) : Option (List UInt8) :=
  copy b pos (pos + 2) (putUint16 v.toNat)

/-- `binary.BigEndian.PutUint32(b[pos:], v)`. -/
def putUint32At (b : List UInt8) (pos : Nat) (v : UInt32) : Option (List UInt8) :=
  copy b pos (pos + 4) (putUint 4 v.toNat)

/-! ### The header and the read's errors -/

structure VirtioNetHdr where
  flags : UInt8
  gsoType : UInt8
  hdrLen : UInt16
  gsoSize : UInt16
  csumStart : UInt16
  csumOffset : UInt16
  deriving DecidableEq, Repr

/-- A `uint16` field of the header, low byte first. -/
def littleEndian16 (lo hi : UInt8) : UInt16 := lo.toUInt16 ||| hi.toUInt16 <<< 8

/-- What `handleVirtioRead` returns as its error. -/
inductive ReadError where
  /-- `io.ErrShortBuffer`: "short buffer" -/
  | shortBuffer
  /-- "read len %d overflows bufs element len %d" -/
  | overflows (readLen bufLen : Nat)
  /-- "unsupported virtio GSO type: %d" -/
  | unsupportedGSOType (gsoType : UInt8)
  /-- "ip header version: %d, GSO type: %d" -/
  | versionMismatch (ipVersion gsoType : UInt8)
  /-- "invalid ip header version: %d" -/
  | invalidVersion (ipVersion : UInt8)
  /-- "packet is too short" -/
  | packetTooShort
  /-- "tcp header len is invalid: %d" -/
  | invalidTCPHeaderLen (tcpHLen : UInt16)
  /-- "length of packet (%d) < virtioNetHdr.hdrLen (%d)" -/
  | shorterThanHeaders (readLen : Nat) (hdrLen : UInt16)
  /-- "virtioNetHdr.hdrLen (%d) < virtioNetHdr.csumStart (%d)" -/
  | headersBeforeCsumStart (hdrLen csumStart : UInt16)
  /-- "end of checksum offset (%d) exceeds packet length (%d)" -/
  | csumOutside (csumEnd readLen : Nat)
  /-- The sentinel `ErrTooManySegments`: "too many segments" -/
  | tooManySegments
  deriving DecidableEq, Repr

/-- `decode`: the struct's ten bytes copied from the front of the buffer. -/
def VirtioNetHdr.decode : List UInt8 → Except ReadError VirtioNetHdr
  | flags :: gsoType :: h0 :: h1 :: s0 :: s1 :: c0 :: c1 :: o0 :: o1 :: _ =>
    .ok ⟨flags, gsoType, littleEndian16 h0 h1, littleEndian16 s0 s1, littleEndian16 c0 c1,
      littleEndian16 o0 o1⟩
  | _ => .error .shortBuffer

/-- What a read leaves behind: the count and error it returns, and the `sizes`
and `bufs` it wrote into. -/
structure ReadResult where
  count : Int
  err : Option ReadError
  sizes : List Nat
  bufs : List (List UInt8)
  deriving DecidableEq, Repr

/-! ### `GSO_NONE` -/

/-- `gsoNoneChecksum`: the checksum from `cSumStart` to the end, seeded with the
value at `cSumStart + cSumOffset`, written there. The error it returns is always
`nil`. -/
def gsoNoneChecksum (input : List UInt8) (cSumStart cSumOffset : UInt16) : Option (List UInt8) := do
  let cSumAt := cSumStart + cSumOffset
  let initial ← uint16At input cSumAt.toNat
  let input ← store input cSumAt.toNat 0
  let input ← store input (cSumAt + 1).toNat 0
  let rest ← slice input cSumStart.toNat input.length
  putUint16At input cSumAt.toNat (~~~checksum rest initial.toUInt64)

/-! ### `gsoSplit` -/

/-- What `gsoSplit` fixes before its loop. -/
structure Split where
  /-- `in`, with the checksums it clears. -/
  input : List UInt8
  hdr : VirtioNetHdr
  isV6 : Bool
  protocol : UInt8
  firstTCPSeqNum : UInt32
  outOffset : Nat
  /-- `in`'s backing array past its length: the read buffer's bytes after the
  packet, which a slice expression of `in` reaches up to its capacity. -/
  spare : List UInt8

/-- `in` up to its capacity, where the slice expressions `in[a:b]` read. -/
def Split.backing (sp : Split) : List UInt8 := sp.input ++ sp.spare

def Split.srcAddrOffset (sp : Split) : Nat := if sp.isV6 then ipv6SrcAddrOffset else ipv4SrcAddrOffset

def Split.addrLen (sp : Split) : Nat := if sp.isV6 then 16 else 4

/-- `nextSegmentEnd` for the segment whose data starts at `dataAt`. -/
def Split.segmentEnd (sp : Split) (dataAt : Nat) : Nat := min (dataAt + sp.hdr.gsoSize.toNat) sp.input.length

/-- `totalLen`: the segment's headers and data. -/
def Split.totalLen (sp : Split) (dataAt : Nat) : Nat := sp.hdr.hdrLen.toNat + (sp.segmentEnd dataAt - dataAt)

/-- The loop's body after `sizes[i] = totalLen`: `outBuffs[i]` as segment `i`,
with data from `dataAt`, leaves it. `out` is the buffer from `outOffset` on, so an
index `k` of `out` is `outOffset + k` here. -/
def writeSegment (sp : Split) (i dataAt : Nat) (buf : List UInt8) : Option (List UInt8) := do
  let hdr := sp.hdr
  let base := sp.outOffset
  let iphLen := hdr.csumStart.toNat
  let stop := sp.segmentEnd dataAt
  let segmentDataLen := stop - dataAt
  let totalLen := sp.totalLen dataAt
  let header ← slice sp.backing 0 iphLen
  let buf ← copy buf base buf.length header
  let buf ← if !sp.isV6 then do
      -- IPv4: the ID goes up by the segment's index, then length and header checksum
      let buf ← if 0 < i then do
          let id ← uint16At buf (base + 4)
          putUint16At buf (base + 4) (id + i.toUInt16)
        else pure buf
      let buf ← putUint16At buf (base + 2) totalLen.toUInt16
      let ipHeader ← slice buf base (base + iphLen)
      putUint16At buf (base + 10) (~~~checksum ipHeader 0)
    else putUint16At buf (base + 4) (totalLen.toUInt16 - iphLen.toUInt16)
  let transport ← slice sp.backing iphLen hdr.hdrLen.toNat
  let buf ← copy buf (base + iphLen) (base + hdr.hdrLen.toNat) transport
  let buf ← if sp.protocol = ipprotoTCP then do
      -- the sequence number advances by a `uint16` product
      let tcpSeq := sp.firstTCPSeqNum + (hdr.gsoSize * i.toUInt16).toUInt32
      let buf ← putUint32At buf (base + (hdr.csumStart + 4).toNat) tcpSeq
      if stop ≠ sp.input.length then do
        let flagsAt := base + (hdr.csumStart + tcpFlagsOffset).toNat
        let flags ← buf[flagsAt]?
        store buf flagsAt (flags &&& ~~~(tcpFlagFIN ||| tcpFlagPSH))
      else pure buf
    else putUint16At buf (base + (hdr.csumStart + 4).toNat) (segmentDataLen.toUInt16 + (hdr.hdrLen - hdr.csumStart))
  let payload ← slice sp.backing dataAt stop
  let buf ← copy buf (base + hdr.hdrLen.toNat) buf.length payload
  let transportHeaderLen := (hdr.hdrLen - hdr.csumStart).toNat
  let lenForPseudo := (transportHeaderLen + segmentDataLen).toUInt16
  -- the addresses may lie past a short packet's end, within the read buffer
  let srcAddr ← slice sp.backing sp.srcAddrOffset (sp.srcAddrOffset + sp.addrLen)
  let dstAddr ← slice sp.backing (sp.srcAddrOffset + sp.addrLen) (sp.srcAddrOffset + sp.addrLen * 2)
  let transportCSumNoFold := pseudoHeaderChecksumNoFold sp.protocol srcAddr dstAddr lenForPseudo
  let segment ← slice buf (base + iphLen) (base + totalLen)
  putUint16At buf (base + (hdr.csumStart + hdr.csumOffset).toNat) (~~~checksum segment transportCSumNoFold)

/-- The loop from segment `i` on, whose data starts at `dataAt`, with `outBuffs[i:]`
still to fill: the count returned, `sizes`, the buffers from `i` on, and the
error. -/
def splitLoop (sp : Split) (i dataAt : Nat) (sizes : List Nat) :
    List (List UInt8) → Option (Int × List Nat × List (List UInt8) × Option ReadError)
  | [] =>
    -- `i == len(outBuffs)` with data left
    if dataAt < sp.input.length then some ((i : Int) - 1, sizes, [], some .tooManySegments)
    else some (i, sizes, [], none)
  | buf :: rest =>
    if dataAt < sp.input.length then do
      let sizes ← store sizes i (sp.totalLen dataAt)
      let buf ← writeSegment sp i dataAt buf
      let (n, sizes, rest, err) ← splitLoop sp (i + 1) (dataAt + sp.hdr.gsoSize.toNat) sizes rest
      pure (n, sizes, buf :: rest, err)
    else some (i, sizes, buf :: rest, none)

/-- `gsoSplit` up to its loop: the checksums cleared in `in`, and the protocol
and the first sequence number. `spare` is `in`'s backing array past its length. -/
def Split.make (input spare : List UInt8) (hdr : VirtioNetHdr) (outOffset : Nat) (isV6 : Bool) : Option Split := do
  -- `in[10], in[11] = 0, 0`: the IPv4 header checksum
  let input ← (if isV6 then pure input else copy input 10 12 [0, 0])
  let transportCsumAt := (hdr.csumStart + hdr.csumOffset).toNat
  let input ← copy input transportCsumAt (transportCsumAt + 2) [0, 0]
  let isTCP := hdr.gsoType = virtioNetHdrGsoTcpv4 ∨ hdr.gsoType = virtioNetHdrGsoTcpv6
  let protocol := if isTCP then ipprotoTCP else ipprotoUDP
  let firstTCPSeqNum ← (if isTCP then uint32At input (hdr.csumStart + 4).toNat else pure 0)
  pure ⟨input, hdr, isV6, protocol, firstTCPSeqNum, outOffset, spare⟩

def gsoSplit (input spare : List UInt8) (hdr : VirtioNetHdr) (outBuffs : List (List UInt8)) (sizes : List Nat)
    (outOffset : Nat) (isV6 : Bool) : Option ReadResult := do
  let sp ← Split.make input spare hdr outOffset isV6
  let (count, sizes, outBuffs, err) ← splitLoop sp 0 hdr.hdrLen.toNat sizes outBuffs
  pure ⟨count, err, sizes, outBuffs⟩

/-! ### What the loop writes -/

section Loop
variable (sp : Split)

/-- Segment `i + k` went out in full: its data starts inside the input, at
`dataAt + k * gsoSize`, `sizes` holds its length, and its buffer is what
`writeSegment` makes of `outBuffs[k]`. -/
def Split.Wrote (i dataAt : Nat) (outBuffs : List (List UInt8)) (sizes : List Nat) (bufs : List (List UInt8))
    (k : Nat) : Prop :=
  dataAt + k * sp.hdr.gsoSize.toNat < sp.input.length ∧
    sizes[i + k]? = some (sp.totalLen (dataAt + k * sp.hdr.gsoSize.toNat)) ∧
    ∃ buf out, outBuffs[k]? = some buf ∧ writeSegment sp (i + k) (dataAt + k * sp.hdr.gsoSize.toNat) buf = some out ∧
      bufs[k]? = some out

/-- How the loop from segment `i` ends after writing `m` segments: out of data,
returning `i + m`, or out of buffers with data left, returning one less. -/
def Split.Ends (i dataAt m buffers : Nat) (n : Int) (err : Option ReadError) : Prop :=
  (err = none ∧ n = i + m ∧ sp.input.length ≤ dataAt + m * sp.hdr.gsoSize.toNat) ∨
    (err = some .tooManySegments ∧ m = buffers ∧ n = i + m - 1 ∧
      dataAt + m * sp.hdr.gsoSize.toNat < sp.input.length)

variable {sp} {i dataAt : Nat} {sizes sizes' : List Nat} {outBuffs bufs' : List (List UInt8)} {n : Int}
  {err : Option ReadError}

theorem splitLoop_cons {buf : List UInt8} {rest : List (List UInt8)} (inside : dataAt < sp.input.length)
    (run : splitLoop sp i dataAt sizes (buf :: rest) = some (n, sizes', bufs', err)) :
    ∃ stored out rest', store sizes i (sp.totalLen dataAt) = some stored ∧
      writeSegment sp i dataAt buf = some out ∧
      splitLoop sp (i + 1) (dataAt + sp.hdr.gsoSize.toNat) stored rest = some (n, sizes', rest', err) ∧
      bufs' = out :: rest' := by
  simp only [splitLoop, if_pos inside] at run
  obtain ⟨stored, storedEq, run⟩ := Option.bind_eq_some_iff.mp run
  obtain ⟨out, wrote, run⟩ := Option.bind_eq_some_iff.mp run
  obtain ⟨⟨n', sizes'', rest', err'⟩, loop, run⟩ := Option.bind_eq_some_iff.mp run
  simp only [pure, Option.some.injEq, Prod.mk.injEq] at run
  obtain ⟨rfl, rfl, rfl, rfl⟩ := run
  exact ⟨stored, out, rest', storedEq, wrote, loop, rfl⟩

theorem splitLoop_sizes_below (run : splitLoop sp i dataAt sizes outBuffs = some (n, sizes', bufs', err))
    {j : Nat} (below : j < i) : sizes'[j]? = sizes[j]? := by
  induction outBuffs generalizing i dataAt sizes bufs' with
  | nil =>
    simp only [splitLoop] at run
    split_ifs at run <;> cases run <;> rfl
  | cons buf rest ih =>
    by_cases inside : dataAt < sp.input.length
    · obtain ⟨stored, out, rest', storedEq, -, loop, -⟩ := splitLoop_cons inside run
      rw [ih loop (by omega), getElem?_of_store storedEq, if_neg (by omega)]
    · simp only [splitLoop, if_neg inside, Option.some.injEq, Prod.mk.injEq] at run
      rw [run.2.1]

theorem Split.wrote_zero {buf out : List UInt8} {rest rest' : List (List UInt8)} {stored : List Nat}
    (inside : dataAt < sp.input.length) (storedEq : store sizes i (sp.totalLen dataAt) = some stored)
    (wrote : writeSegment sp i dataAt buf = some out)
    (loop : splitLoop sp (i + 1) (dataAt + sp.hdr.gsoSize.toNat) stored rest = some (n, sizes', rest', err)) :
    sp.Wrote i dataAt (buf :: rest) sizes' (out :: rest') 0 := by
  have kept := splitLoop_sizes_below loop (Nat.lt_succ_self i)
  rw [getElem?_of_store storedEq, if_pos rfl] at kept
  simp only [Split.Wrote, Nat.zero_mul, Nat.add_zero]
  exact ⟨inside, kept, buf, out, rfl, wrote, rfl⟩

theorem Split.wrote_succ {buf out : List UInt8} {rest rest' : List (List UInt8)} {k : Nat}
    (later : sp.Wrote (i + 1) (dataAt + sp.hdr.gsoSize.toNat) rest sizes' rest' k) :
    sp.Wrote i dataAt (buf :: rest) sizes' (out :: rest') (k + 1) := by
  have shift : dataAt + sp.hdr.gsoSize.toNat + k * sp.hdr.gsoSize.toNat =
      dataAt + (k + 1) * sp.hdr.gsoSize.toNat := by
    rw [Nat.succ_mul]
    omega
  obtain ⟨inside, sized, buf', out', at_k, wrote, at_k'⟩ := later
  rw [shift, show i + 1 + k = i + (k + 1) by omega] at sized wrote
  rw [shift] at inside
  exact ⟨inside, sized, buf', out', at_k, wrote, at_k'⟩

theorem splitLoop_run (run : splitLoop sp i dataAt sizes outBuffs = some (n, sizes', bufs', err)) :
    ∃ m ≤ outBuffs.length, sp.Ends i dataAt m outBuffs.length n err ∧
      ∀ k < m, sp.Wrote i dataAt outBuffs sizes' bufs' k := by
  induction outBuffs generalizing i dataAt sizes n bufs' with
  | nil =>
    refine ⟨0, le_refl 0, ?_, fun k none => absurd none (Nat.not_lt_zero k)⟩
    simp only [splitLoop] at run
    split_ifs at run with inside
    · -- data left and no buffer: `ErrTooManySegments`
      simp only [Option.some.injEq, Prod.mk.injEq] at run
      obtain ⟨rfl, -, -, rfl⟩ := run
      refine .inr ⟨rfl, rfl, by simp, by simpa using inside⟩
    · simp only [Option.some.injEq, Prod.mk.injEq] at run
      obtain ⟨rfl, -, -, rfl⟩ := run
      exact .inl ⟨rfl, by simp, by simpa using inside⟩
  | cons buf rest ih =>
    by_cases inside : dataAt < sp.input.length
    · obtain ⟨stored, out, rest', storedEq, wrote, loop, rfl⟩ := splitLoop_cons inside run
      obtain ⟨m, fits, ends, later⟩ := ih loop
      refine ⟨m + 1, by simpa using fits, ?_, ?_⟩
      · -- the later rounds' ending, with one more segment before them
        have shift : dataAt + sp.hdr.gsoSize.toNat + m * sp.hdr.gsoSize.toNat =
            dataAt + (m + 1) * sp.hdr.gsoSize.toNat := by
          rw [Nat.succ_mul]
          omega
        rcases ends with ⟨done, count, consumed⟩ | ⟨tooMany, full, count, left⟩
        · refine .inl ⟨done, by omega, by rwa [← shift]⟩
        · refine .inr ⟨tooMany, by simp [full], by omega, by rwa [← shift]⟩
      · intro k below
        cases k with
        | zero => exact Split.wrote_zero inside storedEq wrote loop
        | succ k => exact Split.wrote_succ (later k (by omega))
    · simp only [splitLoop, if_neg inside, Option.some.injEq, Prod.mk.injEq] at run
      obtain ⟨rfl, -, -, rfl⟩ := run
      refine ⟨0, Nat.zero_le _, .inl ⟨rfl, by simp, by simpa using inside⟩, fun k none => absurd none (Nat.not_lt_zero k)⟩

end Loop

section Split
variable {input spare : List UInt8} {hdr : VirtioNetHdr} {outOffset : Nat} {isV6 : Bool} {sp : Split}

theorem gsoSplit_run {outBuffs : List (List UInt8)} {sizes : List Nat} {r : ReadResult}
    (split : gsoSplit input spare hdr outBuffs sizes outOffset isV6 = some r) :
    ∃ sp, Split.make input spare hdr outOffset isV6 = some sp ∧ ∃ m ≤ outBuffs.length,
      sp.Ends 0 hdr.hdrLen.toNat m outBuffs.length r.count r.err ∧
      ∀ k < m, sp.Wrote 0 hdr.hdrLen.toNat outBuffs r.sizes r.bufs k := by
  simp only [gsoSplit] at split
  obtain ⟨sp, made, split⟩ := Option.bind_eq_some_iff.mp split
  obtain ⟨⟨n, sizes', bufs', err⟩, loop, split⟩ := Option.bind_eq_some_iff.mp split
  cases split
  exact ⟨sp, made, splitLoop_run loop⟩

end Split

/-! ### `handleVirtioRead` -/

/-- The `switch ipVersion`: the GSO types each IP version may carry. -/
def checkVersion (gsoType ipVersion : UInt8) : Except ReadError Unit :=
  match ipVersion with
  | 4 =>
    if gsoType ≠ virtioNetHdrGsoTcpv4 ∧ gsoType ≠ virtioNetHdrGsoUdpL4 then .error (.versionMismatch 4 gsoType)
    else .ok ()
  | 6 =>
    if gsoType ≠ virtioNetHdrGsoTcpv6 ∧ gsoType ≠ virtioNetHdrGsoUdpL4 then .error (.versionMismatch 6 gsoType)
    else .ok ()
  | _ => .error (.invalidVersion ipVersion)

/-- `hdr.hdrLen` as the read derives it again: the IP header up to `csumStart`
and the transport header after it. -/
def headerLength (hdr : VirtioNetHdr) (input : List UInt8) : Except ReadError UInt16 :=
  if hdr.gsoType = virtioNetHdrGsoUdpL4 then .ok (hdr.csumStart + 8)
  else if input.length ≤ (hdr.csumStart + 12).toNat then .error .packetTooShort
  else
    -- the data offset: the high nibble of byte 12, in words
    let tcpHLen := ((input.getD (hdr.csumStart + 12).toNat 0 >>> 4) * 4).toUInt16
    if tcpHLen < 20 ∨ tcpHLen > 60 then .error (.invalidTCPHeaderLen tcpHLen)
    else .ok (hdr.csumStart + tcpHLen)

/-- `handleVirtioRead(in, bufs, sizes, offset)`; `spare` is the read buffer past
the bytes read, which `in` keeps as capacity. -/
def handleVirtioRead (input spare : List UInt8) (bufs : List (List UInt8)) (sizes : List Nat) (offset : Nat) :
    Option ReadResult :=
  let fail (e : ReadError) : Option ReadResult := some ⟨0, some e, sizes, bufs⟩
  match VirtioNetHdr.decode input with
  | .error e => fail e
  | .ok hdr =>
    let input := input.drop virtioNetHdrLen
    if hdr.gsoType = virtioNetHdrGsoNone then do
      let input ← (if hdr.flags &&& virtioNetHdrFNeedsCsum ≠ 0 then
        gsoNoneChecksum input hdr.csumStart hdr.csumOffset else pure input)
      let buf ← bufs[0]?
      -- `bufs[0][offset:]`
      if buf.length < offset then none
      else
        let room := buf.length - offset
        if input.length > room then fail (.overflows input.length room)
        else do
          let buf ← copy buf offset buf.length input
          let n := min room input.length
          let sizes ← store sizes 0 n
          pure ⟨1, none, sizes, bufs.set 0 buf⟩
    else if hdr.gsoType ≠ virtioNetHdrGsoTcpv4 ∧ hdr.gsoType ≠ virtioNetHdrGsoTcpv6 ∧
        hdr.gsoType ≠ virtioNetHdrGsoUdpL4 then fail (.unsupportedGSOType hdr.gsoType)
    else do
      let first ← input[0]?
      let ipVersion := first >>> 4
      match checkVersion hdr.gsoType ipVersion, headerLength hdr input with
      | .error e, _ => fail e
      | .ok (), .error e => fail e
      | .ok (), .ok hdrLen =>
        if input.length < hdrLen.toNat then fail (.shorterThanHeaders input.length hdrLen)
        else if hdrLen < hdr.csumStart then fail (.headersBeforeCsumStart hdrLen hdr.csumStart)
        else
          let cSumAt := (hdr.csumStart + hdr.csumOffset).toNat
          if cSumAt + 1 ≥ input.length then fail (.csumOutside (cSumAt + 1) input.length)
          else gsoSplit input spare { hdr with hdrLen } bufs sizes offset (ipVersion == 6)

section Read
variable {input spare : List UInt8} {bufs : List (List UInt8)} {sizes : List Nat} {offset : Nat} {r : ReadResult}

theorem decode_error {e : ReadError} (decoded : VirtioNetHdr.decode input = .error e) : e = .shortBuffer := by
  unfold VirtioNetHdr.decode at decoded
  split at decoded <;> cases decoded
  rfl

theorem checkVersion_error {gsoType ipVersion : UInt8} {e : ReadError}
    (checked : checkVersion gsoType ipVersion = .error e) : e ≠ .tooManySegments := by
  unfold checkVersion at checked
  split at checked
  · split_ifs at checked
    cases checked
    simp
  · split_ifs at checked
    cases checked
    simp
  · cases checked
    simp

theorem headerLength_error {hdr : VirtioNetHdr} {e : ReadError} (derived : headerLength hdr input = .error e) :
    e ≠ .tooManySegments := by
  unfold headerLength at derived
  dsimp only at derived
  split_ifs at derived <;> cases derived <;> simp

theorem handleVirtioRead_gsoNone_err {hdr : VirtioNetHdr} (decoded : VirtioNetHdr.decode input = .ok hdr)
    (none : hdr.gsoType = virtioNetHdrGsoNone) (read : handleVirtioRead input spare bufs sizes offset = some r) :
    r.err ≠ some .tooManySegments := by
  simp only [handleVirtioRead, decoded, if_pos none] at read
  obtain ⟨payload, -, read⟩ := Option.bind_eq_some_iff.mp read
  obtain ⟨buf, -, read⟩ := Option.bind_eq_some_iff.mp read
  split_ifs at read with short overflow
  · cases read
    simp
  · simp only [Option.bind_eq_bind, Option.bind_eq_some_iff, Option.pure_def, Option.some.injEq] at read
    obtain ⟨-, -, -, -, rfl⟩ := read
    simp

theorem handleVirtioRead_tooMany (read : handleVirtioRead input spare bufs sizes offset = some r)
    (tooMany : r.err = some .tooManySegments) :
    ∃ decoded hdrLen isV6, VirtioNetHdr.decode input = .ok decoded ∧
      gsoSplit (input.drop virtioNetHdrLen) spare { decoded with hdrLen } bufs sizes offset isV6 = some r := by
  cases decoded : VirtioNetHdr.decode input with
  | error e =>
    simp only [handleVirtioRead, decoded, Option.some.injEq] at read
    subst read
    simp [decode_error decoded] at tooMany
  | ok hdr =>
    by_cases none : hdr.gsoType = virtioNetHdrGsoNone
    · exact absurd tooMany (handleVirtioRead_gsoNone_err decoded none read)
    by_cases unsupported : hdr.gsoType ≠ virtioNetHdrGsoTcpv4 ∧ hdr.gsoType ≠ virtioNetHdrGsoTcpv6 ∧
        hdr.gsoType ≠ virtioNetHdrGsoUdpL4
    · simp only [handleVirtioRead, decoded, if_neg none, if_pos unsupported, Option.some.injEq] at read
      subst read
      simp at tooMany
    simp only [handleVirtioRead, decoded, if_neg none, if_neg unsupported] at read
    obtain ⟨first, -, read⟩ := Option.bind_eq_some_iff.mp read
    split at read
    · -- the IP version does not go with the GSO type
      rename_i e checked
      cases read
      exact absurd (Option.some.inj tooMany) (checkVersion_error checked)
    · rename_i e _ derived
      cases read
      exact absurd (Option.some.inj tooMany) (headerLength_error derived)
    · -- the three length checks fail with errors of their own
      rename_i hdrLen _ _
      split at read
      · cases read
        simp at tooMany
      split at read
      · cases read
        simp at tooMany
      split at read
      · cases read
        simp at tooMany
      exact ⟨hdr, hdrLen, _, rfl, read⟩

/-- A read that reports too many segments returns one less than the number of
buffers, though every buffer holds a segment written in full: the device hands
on only the first `count` of them. -/
theorem handleVirtioRead_undercounts_segments (read : handleVirtioRead input spare bufs sizes offset = some r)
    (tooMany : r.err = some .tooManySegments) :
    r.count = bufs.length - 1 ∧ ∃ decoded hdrLen isV6 sp, VirtioNetHdr.decode input = .ok decoded ∧
      Split.make (input.drop virtioNetHdrLen) spare { decoded with hdrLen } offset isV6 = some sp ∧
      ∀ k < bufs.length, sp.Wrote 0 hdrLen.toNat bufs r.sizes r.bufs k := by
  obtain ⟨decoded, hdrLen, isV6, decodedEq, split⟩ := handleVirtioRead_tooMany read tooMany
  obtain ⟨sp, made, m, -, ends, wrote⟩ := gsoSplit_run split
  rcases ends with ⟨done, -, -⟩ | ⟨-, full, count, -⟩
  · rw [tooMany] at done
    cases done
  · subst full
    exact ⟨by omega, decoded, hdrLen, isV6, sp, decodedEq, made, wrote⟩

end Read

/-- A UDP datagram over IPv4 with two bytes of data, cut into segments of one
byte, and room for one: the first segment fills the buffer, and the read returns
0 with `ErrTooManySegments`. -/
theorem handleVirtioRead_undercounts_segments_udp :
    let input : List UInt8 := [0, 5, 28, 0, 1, 0, 20, 0, 6, 0] ++
      [0x45, 0, 0, 30, 0, 0, 0, 0, 64, 17, 0, 0, 10, 0, 0, 1, 10, 0, 0, 2] ++
      [0x30, 0x39, 0, 0x35, 0, 10, 0, 0] ++ [0x61, 0x62]
    let bufs : List (List UInt8) := [List.replicate 48 0]
    let r : ReadResult := ⟨0, some .tooManySegments, [29],
      [List.replicate 16 0 ++ [69, 0, 0, 29, 0, 0, 0, 0, 64, 17, 102, 206, 10, 0, 0, 1, 10, 0, 0, 2] ++
        [48, 57, 0, 53, 0, 9, 90, 107] ++ [97, 0, 0, 0]]⟩
    handleVirtioRead input [] bufs [0] 16 = some r ∧ r.err = some .tooManySegments ∧
      (r.count = bufs.length - 1 ∧ ∃ decoded hdrLen isV6 sp, VirtioNetHdr.decode input = .ok decoded ∧
        Split.make (input.drop virtioNetHdrLen) [] { decoded with hdrLen } 16 isV6 = some sp ∧
        ∀ k < bufs.length, sp.Wrote 0 hdrLen.toNat bufs r.sizes r.bufs k) := by
  intro input bufs r
  have read : handleVirtioRead input [] bufs [0] 16 = some r := by decide
  exact ⟨read, rfl, handleVirtioRead_undercounts_segments read rfl⟩

end WarpPlus.Tun
