import WarpPlus.Semantics.Stream
import WarpPlus.Semantics.Bits
import WarpPlus.Semantics.HostPort
import WarpPlus.Semantics.IPText

/-! SOCKS5 addresses in `proxy/pkg/socks5`: the `address` type, `readAddr` and
`writeAddr` of the wire form, `writeAddrWithStr` of a `host:port` string, and the
string forms `address.Address` and `net.UDPAddr.String` that the UDP relay compares.

On the wire an address is a type byte, then four IPv4 bytes, sixteen IPv6 bytes, or
a length byte and a name, then the port in big-endian order. `writeAddr` writes an
IPv4-mapped IPv6 address as IPv4 and writes `0.0.0.0` for an address without IP or
name; reading back therefore gives an `Equal` IP rather than the same bytes, and the
placeholder rather than an empty host.
-/

set_option autoImplicit false

namespace WarpPlus.Proxy.Socks5

open Stream GoText

def maxUdpPacket : Nat := 2048

def ipv4Address : UInt8 := 0x01

def fqdnAddress : UInt8 := 0x03

def ipv6Address : UInt8 := 0x04

/-- `address`: either `Name` or `IP` is used. A nil `IP` is the empty list; a
non-nil empty one is never built. `Port` is an `int` that every path builds in
0..65535. -/
structure Address where
  name : List UInt8
  ip : List UInt8
  port : Nat
  deriving DecidableEq, Repr

/-- `address.Address`, which is also `String` of a non-nil address: the IP when
there is one, else the name. -/
def Address.address (a : Address) : List UInt8 :=
  let port := itoa a.port
  if a.ip.length ≠ 0 then joinHostPort (NetIP.ipString a.ip) port
  else joinHostPort a.name port

/-- `net.UDPAddr.String` without a zone: an empty IP prints as the empty host. -/
def udpAddrString (ip : List UInt8) (port : Nat) : List UInt8 :=
  joinHostPort (if ip.length = 0 then [] else NetIP.ipString ip) (itoa port)

inductive AddrError where
  /-- The reader ended before the address did. -/
  | read
  /-- "unrecognized address type" -/
  | unrecognizedAddrType
  deriving DecidableEq, Repr

/-- What `readAddr` reads after the type byte and before the port: the name and
the IP, for the three known types. -/
def readHost (addrType : UInt8) : Option (Reader (List UInt8 × List UInt8)) :=
  if addrType = ipv4Address then some do
    let addr ← readFull 4
    pure ([], addr)
  else if addrType = ipv6Address then some do
    let addr ← readFull 16
    pure ([], addr)
  else if addrType = fqdnAddress then some do
    let addrLen ← readByte
    let fqdn ← readFull addrLen.toNat
    pure (fqdn, [])
  else none

/-- `readAddr`, with the bytes it leaves unread. -/
def readAddr (input : List UInt8) : Except AddrError (Address × List UInt8) :=
  match readByte.run input with
  | none => .error .read
  | some (addrType, rest) =>
    match readHost addrType with
    | none => .error .unrecognizedAddrType
    | some host =>
      let body : Reader Address := do
        let (name, ip) ← host
        let port ← readFull 2
        pure ⟨name, ip, Bits.bigEndian port⟩
      match body.run rest with
      | none => .error .read
      | some read => .ok read

/-- `writeAddr`: what it writes, or `none` for `errStringTooLong`. -/
def writeAddr : Option Address → Option (List UInt8)
  | none => some [ipv4Address, 0, 0, 0, 0, 0, 0]
  | some addr =>
    let host : Option (List UInt8) :=
      if addr.ip ≠ [] then
        match NetIP.to4 addr.ip with
        | some ip4 => some (ipv4Address :: ip4)
        | none =>
          match NetIP.to16 addr.ip with
          | some ip6 => some (ipv6Address :: ip6)
          | none => some [ipv4Address, 0, 0, 0, 0]
      else if addr.name ≠ [] then
        if 255 < addr.name.length then none
        else some (fqdnAddress :: addr.name.length.toUInt8 :: addr.name)
      else some [ipv4Address, 0, 0, 0, 0]
    host.map (· ++ Bits.putUint16 addr.port)

/-- `splitHostPort`: `net.SplitHostPort` with the port read by `strconv.Atoi` and
kept within 0..65535. -/
def splitHostPort (address : List UInt8) : Option (List UInt8 × Nat) :=
  match GoText.splitHostPort address with
  | none => none
  | some (host, port) =>
    match atoi port with
    | none => none
    | some portnum => if 0 > portnum ∨ portnum > 0xffff then none else some (host, portnum.toNat)

/-- `writeAddrWithStr`: an IP literal is written as an IP, any other host as a name. -/
def writeAddrWithStr (addr : List UInt8) : Option (List UInt8) :=
  match splitHostPort addr with
  | none => none
  | some (host, port) =>
    match NetIP.parseIP host with
    | some ip => writeAddr (some ⟨[], ip, port⟩)
    | none => writeAddr (some ⟨host, [], port⟩)

/-- The addresses a SOCKS5 request carries: a 4- or 16-byte IP without a name, or a
name of 1 to 255 bytes without an IP, and a 16-bit port. -/
def Address.Valid (a : Address) : Prop :=
  (((a.ip.length = 4 ∨ a.ip.length = 16) ∧ a.name = []) ∨
    (a.ip = [] ∧ a.name ≠ [] ∧ a.name.length ≤ 255)) ∧ a.port < 65536

instance (a : Address) : Decidable a.Valid := inferInstanceAs (Decidable (_ ∧ _))

/-! ### Reading -/

theorem readAddr_of_readHost {addrType : UInt8} {host : Reader (List UInt8 × List UInt8)}
    (known : readHost addrType = some host) {input name ip portBytes rest : List UInt8}
    (read : host.run input = some ((name, ip), portBytes ++ rest)) (twoBytes : portBytes.length = 2) :
    readAddr (addrType :: input) = .ok (⟨name, ip, Bits.bigEndian portBytes⟩, rest) := by
  simp only [readAddr, readByte_cons, known]
  rw [run_bind_some read]
  dsimp only
  rw [run_bind_some (readFull_append portBytes rest twoBytes)]
  rfl

theorem readAddr_fixed {addrType : UInt8} {width : Nat}
    (known : readHost addrType = some (readFull width >>= fun addr => pure ([], addr)))
    {addr : List UInt8} (length : addr.length = width) (port : Nat) (rest : List UInt8) :
    readAddr (addrType :: (addr ++ Bits.putUint16 port ++ rest)) = .ok (⟨[], addr, port % 65536⟩, rest) := by
  have read : (readFull width >>= fun addr => pure (([] : List UInt8), addr)).run
      (addr ++ (Bits.putUint16 port ++ rest)) = some (([], addr), Bits.putUint16 port ++ rest) := by
    rw [run_bind_some (readFull_append addr _ length)]
    rfl
  rw [List.append_assoc, readAddr_of_readHost known read (Bits.length_putUint16 port),
    Bits.bigEndian_putUint16]

theorem readAddr_fqdn {name : List UInt8} (short : name.length ≤ 255) (port : Nat) (rest : List UInt8) :
    readAddr (fqdnAddress :: name.length.toUInt8 :: (name ++ Bits.putUint16 port ++ rest)) =
      .ok (⟨name, [], port % 65536⟩, rest) := by
  have lengthByte : name.length.toUInt8.toNat = name.length := by
    simp only [Nat.toUInt8_eq, UInt8.toNat_ofNat', Nat.reducePow]
    omega
  have read : (readByte >>= fun addrLen => readFull addrLen.toNat >>= fun fqdn =>
      pure (fqdn, ([] : List UInt8))).run (name.length.toUInt8 :: (name ++ (Bits.putUint16 port ++ rest))) =
      some ((name, []), Bits.putUint16 port ++ rest) := by
    rw [run_bind_some (readByte_cons _ _), lengthByte, run_bind_some (readFull_append name _ rfl)]
    rfl
  rw [List.append_assoc, readAddr_of_readHost rfl read (Bits.length_putUint16 port), Bits.bigEndian_putUint16]

/-! ### Writing -/

section Write

variable {a : Address}

theorem writeAddr_to4 (hasIP : a.ip ≠ []) {four : List UInt8} (converted : NetIP.to4 a.ip = some four) :
    writeAddr (some a) = some (ipv4Address :: (four ++ Bits.putUint16 a.port)) := by
  simp [writeAddr, hasIP, converted]

theorem writeAddr_to16 (hasIP : a.ip ≠ []) (notV4 : NetIP.to4 a.ip = none) {ip6 : List UInt8}
    (converted : NetIP.to16 a.ip = some ip6) :
    writeAddr (some a) = some (ipv6Address :: (ip6 ++ Bits.putUint16 a.port)) := by
  simp [writeAddr, hasIP, notV4, converted]

theorem writeAddr_name (noIP : a.ip = []) (named : a.name ≠ []) (short : a.name.length ≤ 255) :
    writeAddr (some a) = some (fqdnAddress :: a.name.length.toUInt8 :: (a.name ++ Bits.putUint16 a.port)) := by
  have fits : ¬ 255 < a.name.length := by omega
  simp [writeAddr, noIP, named, fits]

theorem writeAddr_placeholder (noIP : a.ip = []) (unnamed : a.name = []) :
    writeAddr (some a) = some (ipv4Address :: ([0, 0, 0, 0] ++ Bits.putUint16 a.port)) := by
  simp [writeAddr, noIP, unnamed]

end Write

/-! ### Round trips -/

theorem readAddr_writeAddr_ip {a : Address} (sized : a.ip.length = 4 ∨ a.ip.length = 16)
    (rest : List UInt8) :
    ∃ bytes read, writeAddr (some a) = some bytes ∧ readAddr (bytes ++ rest) = .ok (read, rest) ∧
      read.name = [] ∧ NetIP.equal read.ip a.ip = true ∧ read.port = a.port % 65536 := by
  have hasIP : a.ip ≠ [] := fun empty => by simp [empty] at sized
  cases converted : NetIP.to4 a.ip with
  | some four =>
    refine ⟨_, ⟨[], four, a.port % 65536⟩, writeAddr_to4 hasIP converted, ?_, rfl,
      NetIP.equal_of_to4 converted, rfl⟩
    rw [List.cons_append]
    exact readAddr_fixed rfl (NetIP.length_of_to4 converted) a.port rest
  | none =>
    -- a 4-byte IP would have a 4-byte form, so this one has sixteen bytes
    have long : a.ip.length = 16 := by
      rcases sized with short | long
      · simp [NetIP.to4, short] at converted
      · exact long
    refine ⟨_, ⟨[], a.ip, a.port % 65536⟩, writeAddr_to16 hasIP converted (NetIP.to16_of_length long),
      ?_, rfl, NetIP.equal_self a.ip, rfl⟩
    rw [List.cons_append]
    exact readAddr_fixed rfl long a.port rest

theorem readAddr_writeAddr_name {a : Address} (noIP : a.ip = []) (named : a.name ≠ [])
    (short : a.name.length ≤ 255) (rest : List UInt8) :
    ∃ bytes, writeAddr (some a) = some bytes ∧
      readAddr (bytes ++ rest) = .ok (⟨a.name, [], a.port % 65536⟩, rest) := by
  refine ⟨_, writeAddr_name noIP named short, ?_⟩
  rw [List.cons_append, List.cons_append]
  exact readAddr_fqdn short a.port rest

theorem readAddr_writeAddr {a : Address} (valid : a.Valid) (rest : List UInt8) :
    ∃ bytes read, writeAddr (some a) = some bytes ∧ readAddr (bytes ++ rest) = .ok (read, rest) ∧
      NetIP.equal read.ip a.ip = true ∧ read.name = a.name ∧ read.port = a.port := by
  obtain ⟨kind, portFits⟩ := valid
  rcases kind with ⟨sized, unnamed⟩ | ⟨noIP, named, short⟩
  · obtain ⟨bytes, read, written, readBack, noName, equal, port⟩ := readAddr_writeAddr_ip sized rest
    exact ⟨bytes, read, written, readBack, equal, noName.trans unnamed.symm,
      port.trans (Nat.mod_eq_of_lt portFits)⟩
  · obtain ⟨bytes, written, readBack⟩ := readAddr_writeAddr_name noIP named short rest
    refine ⟨bytes, _, written, readBack, ?_, rfl, Nat.mod_eq_of_lt portFits⟩
    rw [noIP]
    exact NetIP.equal_self []

theorem port_lt_of_splitHostPort {address host : List UInt8} {port : Nat}
    (accepted : splitHostPort address = some (host, port)) : port < 65536 := by
  unfold splitHostPort at accepted
  split at accepted
  · cases accepted
  · split at accepted
    · cases accepted
    · split_ifs at accepted with outside
      cases accepted
      omega

theorem readAddr_writeAddrWithStr {s host : List UInt8} {port : Nat}
    (accepted : splitHostPort s = some (host, port)) (named : host ≠ []) (short : host.length ≤ 255)
    (rest : List UInt8) :
    ∃ bytes read, writeAddrWithStr s = some bytes ∧ readAddr (bytes ++ rest) = .ok (read, rest) ∧
      read.port = port ∧
      (∀ ip, NetIP.parseIP host = some ip → read.name = [] ∧ NetIP.equal read.ip ip = true) ∧
      (NetIP.parseIP host = none → read.name = host ∧ read.ip = []) := by
  have portFits := port_lt_of_splitHostPort accepted
  cases parsed : NetIP.parseIP host with
  | some ip =>
    -- an IP literal is written as an IP of sixteen bytes
    obtain ⟨bytes, read, written, readBack, noName, equal, samePort⟩ :=
      readAddr_writeAddr_ip (a := ⟨[], ip, port⟩) (Or.inr (NetIP.length_parseIP parsed)) rest
    refine ⟨bytes, read, ?_, readBack, samePort.trans (Nat.mod_eq_of_lt portFits), ?_, nofun⟩
    · simp only [writeAddrWithStr, accepted, parsed]
      exact written
    · rintro other ⟨⟩
      exact ⟨noName, equal⟩
  | none =>
    obtain ⟨bytes, written, readBack⟩ :=
      readAddr_writeAddr_name (a := ⟨host, [], port⟩) rfl named short rest
    refine ⟨bytes, _, ?_, readBack, Nat.mod_eq_of_lt portFits, nofun, fun _ => ⟨rfl, rfl⟩⟩
    simp only [writeAddrWithStr, accepted, parsed]
    exact written

theorem readAddr_writeAddrWithStr_empty {s : List UInt8} {port : Nat}
    (accepted : splitHostPort s = some ([], port)) (rest : List UInt8) :
    writeAddrWithStr s = some (ipv4Address :: ([0, 0, 0, 0] ++ Bits.putUint16 port)) ∧
      readAddr (ipv4Address :: ([0, 0, 0, 0] ++ Bits.putUint16 port) ++ rest) =
        .ok (⟨[], [0, 0, 0, 0], port⟩, rest) := by
  have portFits := port_lt_of_splitHostPort accepted
  -- the empty host is no IP literal, and no name either
  have unparsed : NetIP.parseIP [] = none := rfl
  refine ⟨?_, ?_⟩
  · simp only [writeAddrWithStr, accepted, unparsed]
    exact writeAddr_placeholder rfl rfl
  · rw [List.cons_append, readAddr_fixed rfl rfl port rest, Nat.mod_eq_of_lt portFits]

theorem writeAddrWithStr_udpAddrString {ip : List UInt8} (four : ip.length = 4) {port : Nat}
    (portFits : port < 65536) :
    writeAddrWithStr (udpAddrString ip port) = some (ipv4Address :: (ip ++ Bits.putUint16 port)) := by
  have printed : udpAddrString ip port = joinHostPort (NetIP.ipv4String ip) (itoa port) := by
    simp [udpAddrString, four, NetIP.ipString_of_length_four four]
  have plain : Plain (NetIP.ipv4String ip) (itoa port) :=
    ⟨NetIP.not_mem_ipv4String (by decide) (by decide) four,
      NetIP.not_mem_ipv4String (by decide) (by decide) four,
      not_mem_itoa (by decide) port, not_mem_itoa (by decide) port, not_mem_itoa (by decide) port⟩
  have split : splitHostPort (udpAddrString ip port) = some (NetIP.ipv4String ip, port) := by
    rw [splitHostPort, printed, splitHostPort_joinHostPort plain]
    dsimp only
    rw [atoi_itoa (by omega)]
    dsimp only
    have inRange : ¬ (0 > (port : Int) ∨ (port : Int) > 0xffff) := by omega
    rw [if_neg inRange]
    rfl
  rw [writeAddrWithStr, split]
  dsimp only
  rw [NetIP.parseIP_ipv4String four]
  dsimp only
  exact writeAddr_to4 (by simp [NetIP.v4InV6Prefix]) (NetIP.to4_mapped four)

/-- `:80` is accepted with the empty host, which is written as the placeholder
`0.0.0.0` and read back as that IP rather than as the empty host. -/
theorem writeAddrWithStr_empty_host :
    splitHostPort (ascii ":80") = some ([], 80) ∧
      writeAddrWithStr (ascii ":80") = some [ipv4Address, 0, 0, 0, 0, 0, 80] ∧
      readAddr [ipv4Address, 0, 0, 0, 0, 0, 80] = .ok (⟨[], [0, 0, 0, 0], 80⟩, []) :=
  ⟨by decide, by decide, by decide⟩

/-- Both directions of the codec: a valid address through `writeAddr`, and a
`host:port` string with a host of at most 255 bytes through `writeAddrWithStr`, each
read back by `readAddr` with the bytes after it unread. A non-empty host comes back as
its IP or as its name; an empty one as the placeholder `0.0.0.0`. -/
theorem writeAddr_readAddr_roundTrip (a : Address) (valid : a.Valid) (s host : List UInt8) (port : Nat)
    (accepted : splitHostPort s = some (host, port)) (short : host.length ≤ 255) (rest : List UInt8) :
    (∃ bytes read, writeAddr (some a) = some bytes ∧ readAddr (bytes ++ rest) = .ok (read, rest) ∧
      NetIP.equal read.ip a.ip = true ∧ read.name = a.name ∧ read.port = a.port) ∧
    (host ≠ [] → ∃ bytes read, writeAddrWithStr s = some bytes ∧ readAddr (bytes ++ rest) = .ok (read, rest) ∧
      read.port = port ∧
      (∀ ip, NetIP.parseIP host = some ip → read.name = [] ∧ NetIP.equal read.ip ip = true) ∧
      (NetIP.parseIP host = none → read.name = host ∧ read.ip = [])) ∧
    (host = [] → writeAddrWithStr s = some (ipv4Address :: ([0, 0, 0, 0] ++ Bits.putUint16 port)) ∧
      readAddr (ipv4Address :: ([0, 0, 0, 0] ++ Bits.putUint16 port) ++ rest) =
        .ok (⟨[], [0, 0, 0, 0], port⟩, rest)) := by
  refine ⟨readAddr_writeAddr valid rest, fun named => readAddr_writeAddrWithStr accepted named short rest, ?_⟩
  rintro rfl
  exact readAddr_writeAddrWithStr_empty accepted rest

theorem writeAddr_readAddr_roundTrip_sample :
    (⟨[], [1, 2, 3, 4], 53⟩ : Address).Valid ∧ splitHostPort (ascii "a.b:53") = some (ascii "a.b", 53) ∧
      (ascii "a.b").length ≤ 255 ∧
      ((∃ bytes read, writeAddr (some ⟨[], [1, 2, 3, 4], 53⟩) = some bytes ∧
        readAddr (bytes ++ []) = .ok (read, []) ∧ NetIP.equal read.ip [1, 2, 3, 4] = true ∧
        read.name = [] ∧ read.port = 53) ∧
      (ascii "a.b" ≠ [] → ∃ bytes read, writeAddrWithStr (ascii "a.b:53") = some bytes ∧
        readAddr (bytes ++ []) = .ok (read, []) ∧ read.port = 53 ∧
        (∀ ip, NetIP.parseIP (ascii "a.b") = some ip → read.name = [] ∧ NetIP.equal read.ip ip = true) ∧
        (NetIP.parseIP (ascii "a.b") = none → read.name = ascii "a.b" ∧ read.ip = [])) ∧
      (ascii "a.b" = [] → writeAddrWithStr (ascii "a.b:53") =
          some (ipv4Address :: ([0, 0, 0, 0] ++ Bits.putUint16 53)) ∧
        readAddr (ipv4Address :: ([0, 0, 0, 0] ++ Bits.putUint16 53) ++ []) =
          .ok (⟨[], [0, 0, 0, 0], 53⟩, []))) :=
  ⟨by decide, by decide, by decide,
    writeAddr_readAddr_roundTrip ⟨[], [1, 2, 3, 4], 53⟩ (by decide) (ascii "a.b:53") (ascii "a.b") 53
      (by decide) (by decide) []⟩

end WarpPlus.Proxy.Socks5
