import WarpPlus.Device.AllowedIPs
import WarpPlus.Replay.Filter

/-! What `Peer.RoutineSequentialReceiver` of `device/receive.go` writes to the TUN
device: the payloads of a container that decrypted, pass their keypair's replay
filter, are not keepalives, and pass the IP checks of `admitPacket`.

Timers, endpoint updates, the byte counters and the keypair rotation the loop
triggers do not change what is written and are left out. Each keypair's replay
filter is the model of `replay/replay.go`.
-/

set_option autoImplicit false

namespace WarpPlus.Device

def ipv4HeaderLen : Nat := 20

def ipv6HeaderLen : Nat := 40

def ipv4OffsetTotalLength : Nat := 2

def ipv4OffsetSrc : Nat := 12

def ipv6OffsetPayloadLength : Nat := 4

def ipv6OffsetSrc : Nat := 8

/-- `(1 << 64) - (1 << 13) - 1`. -/
def rejectAfterMessages : UInt64 := 18446744073709543423

/-- `binary.BigEndian.Uint16(packet[offset : offset+2])`. -/
def readUint16 (packet : List UInt8) (offset : Nat) : UInt16 :=
  ((packet.getD offset 0).toUInt16 <<< 8) ||| (packet.getD (offset + 1) 0).toUInt16

variable {P K : Type} [DecidableEq P]

/-- The checks on one decrypted, non-empty payload: the packet written to the TUN
device, or `none` when it is dropped. The IPv6 length is computed in `uint16`.
Cutting `elem.packet` to `length` leaves the bytes behind it in the buffer, so the
source address is read from the payload even where it lies past the new length. -/
def admitPacket (allowedips : AllowedIPs P) (peer : P) (packet : List UInt8) : Option (List UInt8) :=
  let version := packet.headD 0 >>> 4
  if version = 4 then
    if packet.length < ipv4HeaderLen then none
    else
      let length := readUint16 packet ipv4OffsetTotalLength
      if length.toNat > packet.length ∨ length.toNat < ipv4HeaderLen then none
      else if allowedips.lookup ((packet.drop ipv4OffsetSrc).take 4) ≠ some peer then none
      else some (packet.take length.toNat)
  else if version = 6 then
    if packet.length < ipv6HeaderLen then none
    else
      let length := readUint16 packet ipv6OffsetPayloadLength + 40
      if length.toNat > packet.length then none
      else if allowedips.lookup ((packet.drop ipv6OffsetSrc).take 16) ≠ some peer then none
      else some (packet.take length.toNat)
  else none

/-- An element of the inbound queue: the decrypted payload (`nil` when decryption
failed), the keypair it came under and its counter. -/
structure InboundElement (K : Type) where
  packet : Option (List UInt8)
  keypair : K
  counter : UInt64

variable [DecidableEq K]

/-- One pass of the loop over a container: the packets written, in order, and the
keypairs' replay filters after it. -/
def sequentialReceive (allowedips : AllowedIPs P) (peer : P) :
    (K → Replay.Filter) → List (InboundElement K) → List (List UInt8) × (K → Replay.Filter)
  | filters, [] => ([], filters)
  | filters, elem :: rest =>
    match elem.packet with
    | none => sequentialReceive allowedips peer filters rest
    | some packet =>
      let checked := (filters elem.keypair).validateCounter elem.counter rejectAfterMessages
      let filters := Function.update filters elem.keypair checked.2
      if !checked.1 ∨ packet = [] then sequentialReceive allowedips peer filters rest
      else
        let written := sequentialReceive allowedips peer filters rest
        ((admitPacket allowedips peer packet).toList ++ written.1, written.2)

theorem add_headerLen_toNat (length : UInt16) :
    (length + 40).toNat = (length.toNat + 40) % 65536 := by
  simp [UInt16.toNat_add]

variable {allowedips : AllowedIPs P} {peer : P}

theorem admitPacket_truncates_ipv6 {packet : List UInt8} (six : packet.headD 0 >>> 4 = 6)
    (header : ipv6HeaderLen ≤ packet.length)
    (wraps : 65496 ≤ (readUint16 packet ipv6OffsetPayloadLength).toNat)
    (routed : allowedips.lookup ((packet.drop ipv6OffsetSrc).take 16) = some peer) :
    admitPacket allowedips peer packet =
      some (packet.take ((readUint16 packet ipv6OffsetPayloadLength).toNat + 40 - 65536)) := by
  have bound := (readUint16 packet ipv6OffsetPayloadLength).toNat_lt
  have wrapped : (readUint16 packet ipv6OffsetPayloadLength + 40).toNat =
      (readUint16 packet ipv6OffsetPayloadLength).toNat + 40 - 65536 := by
    rw [add_headerLen_toNat]
    omega
  have long : ¬ packet.length < ipv6HeaderLen := Nat.not_lt.mpr header
  have within : ¬ (readUint16 packet ipv6OffsetPayloadLength).toNat + 40 - 65536 > packet.length := by
    unfold ipv6HeaderLen at header
    omega
  have sixNotFour : (6 : UInt8) ≠ 4 := by decide
  unfold admitPacket
  simp only [six, sixNotFour, long, wrapped, within, routed, ne_eq, not_true_eq_false, if_false,
    if_true]

/-- A fresh IPv6 payload declaring a payload length of `65496` or more, from an
address routed to the peer, is written to the TUN device shorter than an IPv6 header. -/
theorem sequentialReceive_writes_short_ipv6 (filters : K → Replay.Filter) (keypair : K)
    (counter : UInt64) (packet : List UInt8)
    (fresh : ((filters keypair).validateCounter counter rejectAfterMessages).1 = true)
    (six : packet.headD 0 >>> 4 = 6) (header : ipv6HeaderLen ≤ packet.length)
    (wraps : 65496 ≤ (readUint16 packet ipv6OffsetPayloadLength).toNat)
    (routed : allowedips.lookup ((packet.drop ipv6OffsetSrc).take 16) = some peer) :
    (sequentialReceive allowedips peer filters [⟨some packet, keypair, counter⟩]).1 =
        [packet.take ((readUint16 packet ipv6OffsetPayloadLength).toNat + 40 - 65536)] ∧
      (readUint16 packet ipv6OffsetPayloadLength).toNat + 40 - 65536 < ipv6HeaderLen := by
  have bound := (readUint16 packet ipv6OffsetPayloadLength).toNat_lt
  have nonempty : packet ≠ [] := by
    rintro rfl
    simp [ipv6HeaderLen] at header
  refine ⟨?_, by unfold ipv6HeaderLen; omega⟩
  simp only [sequentialReceive, fresh, Bool.not_true, Bool.false_eq_true, nonempty, or_self,
    if_false, admitPacket_truncates_ipv6 six header wraps routed, Option.toList_some,
    List.singleton_append]

/-- A bare IPv6 header from `2001:db8::1` declaring the payload length 65535, the
first payload of a fresh keypair, is written 39 bytes long. -/
theorem sequentialReceive_writes_short_ipv6_max :
    let src : List UInt8 := [32, 1, 13, 184, 0, 0, 0, 0, 0, 0, 0, 0, 0, 0, 0, 1]
    let packet : List UInt8 := [0x60, 0, 0, 0, 0xff, 0xff, 17, 64] ++ src ++ src
    let allowedips := AllowedIPs.empty.insert ⟨src, 128⟩ (1 : Nat)
    (Replay.Filter.zero.validateCounter 0 rejectAfterMessages).1 = true ∧
      packet.headD 0 >>> 4 = 6 ∧ ipv6HeaderLen ≤ packet.length ∧
      65496 ≤ (readUint16 packet ipv6OffsetPayloadLength).toNat ∧
      allowedips.lookup ((packet.drop ipv6OffsetSrc).take 16) = some 1 ∧
      (sequentialReceive allowedips 1 (fun _ : Unit => Replay.Filter.zero) [⟨some packet, (), 0⟩]).1 =
          [packet.take ((readUint16 packet ipv6OffsetPayloadLength).toNat + 40 - 65536)] ∧
        (readUint16 packet ipv6OffsetPayloadLength).toNat + 40 - 65536 < ipv6HeaderLen := by
  intro src packet allowedips
  have fresh : (Replay.Filter.zero.validateCounter 0 rejectAfterMessages).1 = true := by decide
  have six : packet.headD 0 >>> 4 = 6 := by decide
  have header : ipv6HeaderLen ≤ packet.length := by decide
  have wraps : 65496 ≤ (readUint16 packet ipv6OffsetPayloadLength).toNat := by decide
  have routed : allowedips.lookup ((packet.drop ipv6OffsetSrc).take 16) = some 1 := by decide
  exact ⟨fresh, six, header, wraps, routed,
    sequentialReceive_writes_short_ipv6 (fun _ : Unit => Replay.Filter.zero) () 0 packet fresh six
      header wraps routed⟩

end WarpPlus.Device
