import WarpPlus.Conn.Coalesce
import WarpPlus.Semantics.Bits

/-! The control data of `conn/gso_linux.go` and `conn/sticky_linux.go` on 64-bit Linux.

Control data is a sequence of messages, each a header (`Len` in 8 bytes, `Level` and
`Type` in 4, little-endian) and its data, padded to a multiple of 8 bytes.
`setGSOSize` appends a `UDP_SEGMENT` message when the capacity has room for one, and
leaves the control data as it is otherwise. `scanControl` is the loop of `getGSOSize`
over `unix.ParseOneSocketControlMessage`; `segmentSize` reads a `UDP_SEGMENT` message the
same way, for what the kernel takes from a message sent.

The pool gives every message `stickyControlSize + gsoControlSize` bytes of control
capacity, and the sticky source of an endpoint is empty or one `IP_PKTINFO` or
`IPV6_PKTINFO` message, so after `setSrcControl` the message is `Ready`: no segment size
yet, and room for the one `setGSOSize` writes (`ready_setSrcControl`).
-/

set_option autoImplicit false

namespace WarpPlus.Conn

open Bits

def sizeofCmsghdr : Nat := 16

/-- `unix.CmsgLen` and `unix.CmsgSpace` align to 8 bytes. -/
def cmsgAlign (n : Nat) : Nat := (n + 7) / 8 * 8

def cmsgLen (dataLen : Nat) : Nat := cmsgAlign sizeofCmsghdr + dataLen

def cmsgSpace (dataLen : Nat) : Nat := cmsgAlign sizeofCmsghdr + cmsgAlign dataLen

def solUDP : Nat := 17

def udpSegment : Nat := 103

def udpGRO : Nat := 104

def ipprotoIP : Nat := 0

def ipPktinfo : Nat := 8

def ipprotoIPv6 : Nat := 41

def ipv6Pktinfo : Nat := 50

def sizeofInet4Pktinfo : Nat := 12

def sizeofInet6Pktinfo : Nat := 20

def sizeOfGSOData : Nat := 2

def gsoControlSize : Nat := cmsgSpace sizeOfGSOData

def stickyControlSize : Nat := cmsgSpace sizeofInet6Pktinfo

/-- One control message: its header, its data, and padding up to `CmsgSpace`. -/
def controlMessage (level type : Nat) (data : List UInt8) : List UInt8 :=
  putUintLE 8 (cmsgLen data.length) ++ putUintLE 4 level ++ putUintLE 4 type ++ data ++
    List.replicate (cmsgSpace data.length - cmsgLen data.length) 0

/-- `setGSOSize`: a `UDP_SEGMENT` message after the control data, when the capacity has
room for one. The padding bytes, which the slice exposes as the array held them, are
zero here. -/
def setGSOSize (control : Buffer) (gsoSize : UInt16) : Buffer :=
  let existingLen := control.bytes.length
  let avail := control.capacity - existingLen
  let space := cmsgSpace sizeOfGSOData
  if avail < space then control
  else { control with
    bytes := control.bytes ++ controlMessage solUDP udpSegment (putUintLE sizeOfGSOData gsoSize.toNat) }

/-- `unix.ParseOneSocketControlMessage`: the level and type of the first message, its data
and the bytes after it, or `none` for `EINVAL`, a length shorter than a header or longer
than the bytes. -/
def parseOneSocketControlMessage (b : List UInt8) : Option ((Nat × Nat) × List UInt8 × List UInt8) :=
  let len := littleEndian (b.take 8)
  if len < sizeofCmsghdr ∨ b.length < len then none
  else some ((littleEndian ((b.drop 8).take 4), littleEndian ((b.drop 12).take 4)),
    (b.take len).drop (cmsgAlign sizeofCmsghdr), b.drop (cmsgAlign len))

/-- The loop of `getGSOSize` for a message of `level` and `type`: the first two bytes of
its data, `none` when there is no such message, or the parse error. Each round takes a
header's bytes at least, so the length is fuel enough. -/
def scanControl (level type : Nat) : Nat → List UInt8 → Except String (Option Nat)
  | 0, _ => .ok none
  | fuel + 1, rem =>
    if sizeofCmsghdr < rem.length then
      match parseOneSocketControlMessage rem with
      | none => .error "error parsing socket control message: invalid argument"
      | some ((lvl, ty), data, rest) =>
        if lvl = level ∧ ty = type ∧ sizeOfGSOData ≤ data.length then
          .ok (some (littleEndian (data.take sizeOfGSOData)))
        else scanControl level type fuel rest
    else .ok none

/-- `getGSOSize`: the segment size of the `UDP_GRO` message, or 0 without one. -/
def getGSOSize (control : List UInt8) : Except String Nat :=
  Except.map (fun size => size.getD 0) (scanControl solUDP udpGRO control.length control)

/-- The segment size the kernel takes from the control data of a message sent: that of its
`UDP_SEGMENT` message, read as `getGSOSize` reads `UDP_GRO`. -/
def segmentSize (control : List UInt8) : Option Nat :=
  match scanControl solUDP udpSegment control.length control with
  | .ok size => size
  | .error _ => none

/-- `ep.src` as `getSrcFromControl` leaves it: empty, or one `IP_PKTINFO` or
`IPV6_PKTINFO` message. -/
def StdNetEndpoint.Sticky (ep : StdNetEndpoint) : Prop :=
  ep.src = [] ∨
    (∃ info, info.length = sizeofInet4Pktinfo ∧ ep.src = controlMessage ipprotoIP ipPktinfo info) ∨
    (∃ info, info.length = sizeofInet6Pktinfo ∧ ep.src = controlMessage ipprotoIPv6 ipv6Pktinfo info)

/-! ### Reading control messages -/

@[simp] theorem length_controlMessage (level type : Nat) (data : List UInt8) :
    (controlMessage level type data).length = cmsgSpace data.length := by
  simp only [controlMessage, List.length_append, length_putUintLE, List.length_replicate, cmsgSpace, cmsgLen,
    cmsgAlign, sizeofCmsghdr]
  omega

theorem parse_controlMessage {level type : Nat} (levelFits : level < 2 ^ 32) (typeFits : type < 2 ^ 32)
    {data : List UInt8} (short : data.length < 2 ^ 32) (rest : List UInt8) :
    parseOneSocketControlMessage (controlMessage level type data ++ rest) = some ((level, type), data, rest) := by
  -- the three header words, the data, and the bytes after the message, each where the parse reads it
  have lenField : (controlMessage level type data ++ rest).take 8 = putUintLE 8 (cmsgLen data.length) := by
    simp only [controlMessage, List.append_assoc]
    exact List.take_left' (length_putUintLE 8 _)
  have levelField : ((controlMessage level type data ++ rest).drop 8).take 4 = putUintLE 4 level := by
    simp only [controlMessage, List.append_assoc]
    rw [List.drop_left' (length_putUintLE 8 _)]
    exact List.take_left' (length_putUintLE 4 _)
  have typeField : ((controlMessage level type data ++ rest).drop 12).take 4 = putUintLE 4 type := by
    simp only [controlMessage, List.append_assoc]
    rw [show 12 = 8 + 4 from rfl, ← List.drop_drop, List.drop_left' (length_putUintLE 8 _),
      List.drop_left' (length_putUintLE 4 _)]
    exact List.take_left' (length_putUintLE 4 _)
  have dataField : ((controlMessage level type data ++ rest).take (sizeofCmsghdr + data.length)).drop
      (cmsgAlign sizeofCmsghdr) = data := by
    have layout : controlMessage level type data ++ rest =
        (putUintLE 8 (cmsgLen data.length) ++ putUintLE 4 level ++ putUintLE 4 type) ++
          (data ++ (List.replicate (cmsgSpace data.length - cmsgLen data.length) 0 ++ rest)) := by
      simp only [controlMessage, List.append_assoc]
    have header : (putUintLE 8 (cmsgLen data.length) ++ putUintLE 4 level ++ putUintLE 4 type).length =
        sizeofCmsghdr := by
      simp [sizeofCmsghdr]
    rw [show cmsgAlign sizeofCmsghdr = sizeofCmsghdr from rfl, layout, ← header, List.take_length_add_append,
      List.drop_left' rfl, List.take_left' rfl]
  have restField : (controlMessage level type data ++ rest).drop (cmsgAlign (sizeofCmsghdr + data.length)) =
      rest := by
    have whole : cmsgAlign (sizeofCmsghdr + data.length) = (controlMessage level type data).length := by
      rw [length_controlMessage]
      simp only [cmsgAlign, cmsgSpace, sizeofCmsghdr]
      omega
    rw [whole, List.drop_left' rfl]
  have len : littleEndian (putUintLE 8 (cmsgLen data.length)) = sizeofCmsghdr + data.length := by
    rw [littleEndian_putUintLE, Nat.mod_eq_of_lt (by simp only [cmsgLen, cmsgAlign, sizeofCmsghdr]; omega)]
    rfl
  have fits : ¬ (sizeofCmsghdr + data.length < sizeofCmsghdr ∨
      (controlMessage level type data ++ rest).length < sizeofCmsghdr + data.length) := by
    simp only [List.length_append, length_controlMessage, cmsgSpace, cmsgAlign, sizeofCmsghdr]
    omega
  unfold parseOneSocketControlMessage
  dsimp only
  rw [lenField, len, if_neg fits, levelField, typeField, dataField, restField, littleEndian_putUintLE,
    littleEndian_putUintLE, Nat.mod_eq_of_lt (show level < 2 ^ (8 * 4) from levelFits),
    Nat.mod_eq_of_lt (show type < 2 ^ (8 * 4) from typeFits)]

theorem header_lt_length {level type : Nat} {data : List UInt8} (nonempty : 0 < data.length)
    (rest : List UInt8) : sizeofCmsghdr < (controlMessage level type data ++ rest).length := by
  simp only [List.length_append, length_controlMessage, cmsgSpace, cmsgAlign, sizeofCmsghdr]
  omega

theorem scanControl_nil (level type fuel : Nat) : scanControl level type fuel [] = .ok none := by
  cases fuel <;> simp [scanControl, sizeofCmsghdr]

theorem scanControl_other {level type lvl ty : Nat} (lvlFits : lvl < 2 ^ 32) (tyFits : ty < 2 ^ 32)
    {data : List UInt8} (nonempty : 0 < data.length) (short : data.length < 2 ^ 32)
    (other : ¬ (lvl = level ∧ ty = type ∧ sizeOfGSOData ≤ data.length)) (fuel : Nat) (rest : List UInt8) :
    scanControl level type (fuel + 1) (controlMessage lvl ty data ++ rest) = scanControl level type fuel rest := by
  rw [scanControl, if_pos (header_lt_length nonempty rest), parse_controlMessage lvlFits tyFits short rest]
  exact if_neg other

theorem scanControl_found {level type : Nat} (levelFits : level < 2 ^ 32) (typeFits : type < 2 ^ 32)
    {data : List UInt8} (found : sizeOfGSOData ≤ data.length) (short : data.length < 2 ^ 32) (fuel : Nat)
    (rest : List UInt8) :
    scanControl level type (fuel + 1) (controlMessage level type data ++ rest) =
      .ok (some (littleEndian (data.take sizeOfGSOData))) := by
  have nonempty : 0 < data.length := lt_of_lt_of_le (by decide) found
  rw [scanControl, if_pos (header_lt_length nonempty rest), parse_controlMessage levelFits typeFits short rest]
  exact if_pos ⟨rfl, rfl, found⟩

/-! ### The sticky source and the segment size -/

/-- The scan for the segment size passes over a message of another level in one round. -/
theorem scanControl_skip {lvl ty : Nat} (lvlFits : lvl < 2 ^ 32) (tyFits : ty < 2 ^ 32) (notUDP : lvl ≠ solUDP)
    {info : List UInt8} (nonempty : 0 < info.length) (short : info.length < 2 ^ 32) :
    ∃ k ≤ (controlMessage lvl ty info).length, ∀ fuel rest,
      scanControl solUDP udpSegment (fuel + k) (controlMessage lvl ty info ++ rest) =
        scanControl solUDP udpSegment fuel rest :=
  ⟨1, by simp only [length_controlMessage, cmsgSpace, cmsgAlign, sizeofCmsghdr]; omega,
    fun fuel rest => scanControl_other lvlFits tyFits nonempty short (fun same => notUDP same.1) fuel rest⟩

theorem StdNetEndpoint.Sticky.length_le {ep : StdNetEndpoint} (sticky : ep.Sticky) :
    ep.src.length ≤ stickyControlSize := by
  rcases sticky with empty | ⟨info, sized, written⟩ | ⟨info, sized, written⟩
  · simp [empty]
  · simp [written, sized, stickyControlSize, cmsgSpace, cmsgAlign, sizeofInet4Pktinfo, sizeofInet6Pktinfo]
  · simp [written, sized, stickyControlSize]

theorem StdNetEndpoint.Sticky.skip {ep : StdNetEndpoint} (sticky : ep.Sticky) :
    ∃ k ≤ ep.src.length, ∀ fuel rest,
      scanControl solUDP udpSegment (fuel + k) (ep.src ++ rest) = scanControl solUDP udpSegment fuel rest := by
  rcases sticky with empty | ⟨info, sized, written⟩ | ⟨info, sized, written⟩
  · exact ⟨0, Nat.zero_le _, fun fuel rest => by rw [empty, List.nil_append, Nat.add_zero]⟩
  · rw [written]
    exact scanControl_skip (by decide) (by decide) (by decide) (by simp [sized, sizeofInet4Pktinfo])
      (by simp [sized, sizeofInet4Pktinfo])
  · rw [written]
    exact scanControl_skip (by decide) (by decide) (by decide) (by simp [sized, sizeofInet6Pktinfo])
      (by simp [sized, sizeofInet6Pktinfo])

theorem littleEndian_gsoSize (size : UInt16) :
    littleEndian ((putUintLE sizeOfGSOData size.toNat).take sizeOfGSOData) = size.toNat := by
  rw [List.take_of_length_le (by simp), littleEndian_putUintLE, show 8 * sizeOfGSOData = 16 from rfl,
    Nat.mod_eq_of_lt size.toNat_lt]

/-- On a pooled control buffer `setSrcControl` writes the sticky source, which records no
segment size, and leaves room for the message `setGSOSize` then appends. -/
theorem ready_setSrcControl {ep : StdNetEndpoint} (sticky : ep.Sticky) {control : Buffer}
    (pooled : control.capacity = stickyControlSize + gsoControlSize) :
    Ready setGSOSize segmentSize (setSrcControl control ep) := by
  have fits := sticky.length_le
  have sizes : stickyControlSize = 40 ∧ gsoControlSize = 24 := ⟨rfl, rfl⟩
  have written : setSrcControl control ep = { control with bytes := ep.src } := by
    rw [setSrcControl, if_neg (by omega)]
  obtain ⟨k, within, skip⟩ := sticky.skip
  refine ⟨?_, fun size => ?_⟩
  · -- the source alone: the scan passes over it and finds nothing
    rw [written, segmentSize]
    obtain ⟨fuel, enough⟩ : ∃ fuel, ep.src.length = fuel + k := ⟨ep.src.length - k, by omega⟩
    have scanned := skip fuel []
    rw [List.append_nil, scanControl_nil] at scanned
    dsimp only
    rw [enough, scanned]
  · have room : ¬ (control.capacity - ep.src.length < cmsgSpace sizeOfGSOData) := by
      change ¬ (_ < gsoControlSize)
      omega
    rw [written, setGSOSize]
    dsimp only
    rw [if_neg room, segmentSize]
    dsimp only
    obtain ⟨fuel, enough⟩ : ∃ fuel,
        (ep.src ++ controlMessage solUDP udpSegment (putUintLE sizeOfGSOData size.toNat)).length = fuel + 1 + k :=
      ⟨ep.src.length - k + 23, by simp [cmsgSpace, cmsgAlign, sizeofCmsghdr, sizeOfGSOData]; omega⟩
    have found : scanControl solUDP udpSegment (fuel + 1)
        (controlMessage solUDP udpSegment (putUintLE sizeOfGSOData size.toNat) ++ []) =
          .ok (some (littleEndian ((putUintLE sizeOfGSOData size.toNat).take sizeOfGSOData))) :=
      scanControl_found (by decide) (by decide) (by simp [sizeOfGSOData]) (by simp [sizeOfGSOData]) fuel []
    rw [List.append_nil] at found
    rw [enough, skip, found, littleEndian_gsoSize]

end WarpPlus.Conn
