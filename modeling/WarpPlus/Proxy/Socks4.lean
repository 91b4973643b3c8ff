import WarpPlus.Semantics.Stream
import WarpPlus.Semantics.NetIP
import WarpPlus.Semantics.Bits

/-! The SOCKS4 request reader of `proxy/pkg/socks4`: `readAddrAndUser` and the
part of `Server.ServeConn` that reads a request off the connection, with the
rejection it writes back when the address cannot be read.

The connection is the byte stream the client sent, and a Go string is its bytes.
What `handle` then does with the request (dialing and tunnelling) is left out.
-/

set_option autoImplicit false

namespace WarpPlus.Proxy.Socks4

open Stream

def socks4Version : UInt8 := 0x04

def connectCommand : UInt8 := 0x01

def grantedReply : UInt8 := 0x5a

def rejectedReply : UInt8 := 0x5b

def isSocks4a : List UInt8 := [0, 0, 0, 1]

def isNone : List UInt8 := [0, 0, 0, 0]

/-- `address`: either `name` or `ip` is used; an empty `ip` is nil. -/
structure Address where
  name : List UInt8
  ip : List UInt8
  port : Nat
  deriving DecidableEq, Repr

structure AddrAnfUser where
  address : Address
  username : List UInt8
  deriving DecidableEq, Repr

/-- `readBytes`: the bytes before a NUL, read one at a time. -/
def readBytes : Reader (List UInt8) := readUntil 0

def readAddrAndUser : Reader AddrAnfUser := do
  let port ← readFull 2
  let ip ← readFull 4
  let socks4a := ip == isSocks4a
  let username ← readBytes
  if socks4a then
    let hostname ← readBytes
    pure ⟨⟨hostname, [], Bits.bigEndian port⟩, username⟩
  else pure ⟨⟨[], ip, Bits.bigEndian port⟩, username⟩

/-- `writeAddr`: the port, then the IPv4 address, or `0.0.0.0` when there is none. -/
def writeAddr (addr : Option Address) : List UInt8 :=
  let ip := addr.bind fun addr => NetIP.to4 addr.ip
  let port := match addr with
    | some addr => addr.port % 65536
    | none => 0
  [(port / 256).toUInt8, (port % 256).toUInt8] ++ ip.getD isNone

def sendReply (resp : UInt8) (addr : Option Address) : List UInt8 :=
  [0, resp] ++ writeAddr addr

structure Request where
  version : UInt8
  command : UInt8
  destinationAddr : Address
  username : List UInt8
  deriving DecidableEq, Repr

inductive ServeError where
  /-- The connection ended before the request did. -/
  | read
  /-- "unsupported SOCKS version: %d" -/
  | unsupportedVersion (version : UInt8)
  deriving DecidableEq, Repr

/-- `ServeConn` up to `handle`: the request it hands on with the bytes left on the
connection, or the error it returns with the bytes it wrote back first. -/
def serveConn (input : List UInt8) : Except (ServeError × List UInt8) (Request × List UInt8) :=
  match readByte.run input with
  | none => .error (.read, [])
  | some (version, afterVersion) =>
    if version ≠ socks4Version then .error (.unsupportedVersion version, [])
    else match readByte.run afterVersion with
      | none => .error (.read, [])
      | some (cmd, afterCommand) =>
        match readAddrAndUser.run afterCommand with
        | none => .error (.read, sendReply rejectedReply none)
        | some (addr, rest) => .ok (⟨socks4Version, cmd, addr.address, addr.username⟩, rest)

/-- A request as a SOCKS4 client sends it: version, command, port, address, the
NUL-terminated user id and, for SOCKS4a, the NUL-terminated host name. -/
def clientRequest (command : UInt8) (port : UInt16) (dstIP userid : List UInt8)
    (hostname : Option (List UInt8)) : List UInt8 :=
  [socks4Version, command, (port.toNat / 256).toUInt8, (port.toNat % 256).toUInt8] ++ dstIP ++
    userid ++ [0] ++ (hostname.map (· ++ [0])).getD []

theorem bigEndian_port (port : UInt16) :
    Bits.bigEndian [(port.toNat / 256).toUInt8, (port.toNat % 256).toUInt8] = port.toNat := by
  have bound := port.toNat_lt
  simp [Bits.bigEndian]
  omega

theorem readAddrAndUser_run (portBytes ip userid rest : List UInt8) (twoBytes : portBytes.length = 2)
    (fourBytes : ip.length = 4) (clean : 0 ∉ userid) :
    readAddrAndUser.run (portBytes ++ ip ++ userid ++ 0 :: rest) =
      if ip = isSocks4a then
        (readBytes.run rest).map fun (hostname, after) =>
          (⟨⟨hostname, [], Bits.bigEndian portBytes⟩, userid⟩, after)
      else some (⟨⟨[], ip, Bits.bigEndian portBytes⟩, userid⟩, rest) := by
  simp only [readAddrAndUser, readBytes]
  rw [List.append_assoc, List.append_assoc, run_bind_some (readFull_append _ _ twoBytes),
    run_bind_some (readFull_append _ _ fourBytes)]
  rw [run_bind_some (readUntil_append clean rest)]
  by_cases marker : ip = isSocks4a
  · -- SOCKS4a: the host name is read next
    simp only [marker, beq_self_eq_true, if_true]
    cases hostname : (readUntil 0).run rest with
    | none => exact run_bind_none hostname
    | some read => exact (run_bind_some hostname).trans rfl
  · have differs : (ip == isSocks4a) = false := beq_false_of_ne marker
    simp only [differs, marker, if_false]
    rfl

theorem serveConn_ip (command : UInt8) (port : UInt16) (dstIP userid rest : List UInt8)
    (fourBytes : dstIP.length = 4) (unmarked : dstIP ≠ isSocks4a) (cleanUser : 0 ∉ userid) :
    serveConn (clientRequest command port dstIP userid none ++ rest) =
      .ok (⟨socks4Version, command, ⟨[], dstIP, port.toNat⟩, userid⟩, rest) := by
  have read := readAddrAndUser_run [(port.toNat / 256).toUInt8, (port.toNat % 256).toUInt8]
    dstIP userid rest rfl fourBytes cleanUser
  rw [if_neg unmarked, bigEndian_port] at read
  have split : clientRequest command port dstIP userid none ++ rest =
      socks4Version :: command :: ([(port.toNat / 256).toUInt8, (port.toNat % 256).toUInt8] ++
        dstIP ++ userid ++ 0 :: rest) := by
    simp [clientRequest]
  rw [split]
  simp only [serveConn, readByte_cons, ne_eq, not_true_eq_false, if_false, read]

/-- A SOCKS4a request for `0.0.0.x` with `x ≥ 2` is taken for a plain SOCKS4 one:
the destination is the address `0.0.0.x` and the host name stays on the connection. -/
theorem serveConn_skips_socks4a_hostname (command : UInt8) (port : UInt16) (x : UInt8)
    (userid hostname rest : List UInt8) (beyondOne : 2 ≤ x) (cleanUser : 0 ∉ userid) :
    serveConn (clientRequest command port [0, 0, 0, x] userid (some hostname) ++ rest) =
      .ok (⟨socks4Version, command, ⟨[], [0, 0, 0, x], port.toNat⟩, userid⟩, hostname ++ 0 :: rest) := by
  have unmarked : [0, 0, 0, x] ≠ isSocks4a := by
    intro same
    have : x = 1 := by simpa [isSocks4a] using same
    subst this
    exact absurd beyondOne (by decide)
  have request : clientRequest command port [0, 0, 0, x] userid (some hostname) ++ rest =
      clientRequest command port [0, 0, 0, x] userid none ++ (hostname ++ 0 :: rest) := by
    simp [clientRequest]
  rw [request]
  exact serveConn_ip command port [0, 0, 0, x] userid _ rfl unmarked cleanUser

theorem serveConn_skips_socks4a_hostname_two :
    (2 : UInt8) ≤ 2 ∧ (0 : UInt8) ∉ [117] ∧
      serveConn (clientRequest connectCommand 80 [0, 0, 0, 2] [117] (some [104]) ++ []) =
        .ok (⟨socks4Version, connectCommand, ⟨[], [0, 0, 0, 2], 80⟩, [117]⟩, [104, 0]) :=
  ⟨by decide, by decide,
    serveConn_skips_socks4a_hostname connectCommand 80 2 [117] [104] [] (by decide) (by decide)⟩

end WarpPlus.Proxy.Socks4
