import WarpPlus.Proxy.Socks5.Address
import WarpPlus.Semantics.Slice
import WarpPlus.Semantics.Machine

/-! The UDP side of SOCKS5 UDP ASSOCIATE in `proxy/pkg/socks5`.

Without a user handler, `embedHandleAssociate` relays in one loop. The sender of
the first datagram is the client. A client datagram carries a UDP request header,
three reserved bytes and an address, and its payload goes to the target that the
first such header fixed. A datagram from the target goes back to the client behind
a reply prefix, built in place in the `maxUdpPacket`-byte receive buffer. `Relay`
holds the loop's variables and `Relay.receive` is one round of the loop.

With a user handler, `asyncReadPackets` reads in a goroutine and talks to
`handleAssociate` over two unbuffered channels: `frc` once, when the first
datagram's target is known, and `packetQueue` for each datagram or error, which
only the handler's `Read` receives. `PacketReader.sends` lists the goroutine's
sends in order, and `Associate.Step` is the meeting of a send with its receiver.
-/

set_option autoImplicit false

namespace WarpPlus.Proxy.Socks5

open GoText Stream

/-- A datagram `ReadFrom(buf[:])` returned: its sender as `addr.String()`, and the
`n` bytes it put in the buffer. -/
structure Datagram where
  sender : List UInt8
  data : List UInt8
  fits : data.length ≤ maxUdpPacket

/-- The reply built in place in the buffer holding the datagram's `n` bytes:
`copy(buf[p:p+n], buf[:n])`, `copy(buf[:p], replyPrefix)`, then `buf[:p+n]`.
The buffer it leaves and the reply, or `none` when a slice expression panics. -/
def buildReply (buf : List UInt8) (n : Nat) (replyPrefix : List UInt8) :
    Option (List UInt8 × List UInt8) := do
  let p := replyPrefix.length
  let payload ← GoSlice.slice buf 0 n
  let shifted ← GoSlice.copy buf p (p + n) payload
  let stamped ← GoSlice.copy shifted 0 p replyPrefix
  let reply ← GoSlice.slice stamped 0 (p + n)
  pure (stamped, reply)

/-- The reply prefix for the target's string `wantTarget`: three reserved bytes,
then `writeAddrWithStr` of the string. -/
def replyPrefixOf (wantTarget : List UInt8) : Option (List UInt8) :=
  (writeAddrWithStr wantTarget).map ([0, 0, 0] ++ ·)

/-- The loop variables of `embedHandleAssociate`. -/
structure Relay where
  /-- `sourceAddr`, as its string `wantSource`. -/
  source : Option (List UInt8)
  /-- `targetAddr`, a `net.UDPAddr`: its IP and port. -/
  target : Option (List UInt8 × Nat)
  replyPrefix : Option (List UInt8)
  /-- `buf [maxUdpPacket]byte`. -/
  buf : List UInt8

def Relay.init : Relay := ⟨none, none, none, List.replicate maxUdpPacket 0⟩

/-- What one round of the loop does with a datagram. -/
inductive Outcome where
  /-- `udpConn.WriteTo(payload, targetAddr)`. -/
  | toTarget (ip : List UInt8) (port : Nat) (payload : List UInt8)
  /-- `udpConn.WriteTo(reply, sourceAddr)`. -/
  | toSource (source : List UInt8) (reply : List UInt8)
  /-- `continue`: the datagram is dropped. -/
  | ignored
  /-- `return err`: the reply prefix could not be written. -/
  | failed
  /-- A slice expression out of range. -/
  | panicked
  deriving DecidableEq, Repr

/-- The outcomes after which the loop runs no more. -/
def Outcome.ends : Outcome → Bool
  | .failed | .panicked => true
  | _ => false

/-- One round of the loop of `embedHandleAssociate`. -/
def Relay.receive (r : Relay) (d : Datagram) : Outcome × Relay :=
  let n := d.data.length
  -- `ReadFrom(buf[:])` overwrites the first `n` bytes
  let buf := d.data ++ r.buf.drop n
  let wantSource := r.source.getD d.sender
  let r := { r with source := some wantSource, buf := buf }
  if wantSource = d.sender then
    if n < 3 then (.ignored, r)
    else
      match readAddr (d.data.drop 3) with
      | .error _ => (.ignored, r)
      | .ok (addr, payload) =>
        let target := r.target.getD (addr.ip, addr.port)
        let r := { r with target := some target }
        if addr.address ≠ udpAddrString target.1 target.2 then (.ignored, r)
        else (.toTarget target.1 target.2 payload, r)
  else
    match r.target with
    | none => (.ignored, r)
    | some (ip, port) =>
      if udpAddrString ip port ≠ d.sender then (.ignored, r)
      else
        let replyPrefix := match r.replyPrefix with
          | some replyPrefix => some replyPrefix
          | none => replyPrefixOf (udpAddrString ip port)
        match replyPrefix with
        | none => (.failed, r)
        | some replyPrefix =>
          let r := { r with replyPrefix := some replyPrefix }
          match buildReply buf n replyPrefix with
          | none => (.panicked, r)
          | some (stamped, reply) => (.toSource wantSource reply, { r with buf := stamped })

/-- The loop over the datagrams it reads, up to the round that returns or panics. -/
def Relay.run : Relay → List Datagram → List Outcome
  | _, [] => []
  | r, d :: ds =>
    let (outcome, next) := r.receive d
    if outcome.ends then [outcome] else outcome :: next.run ds

/-- The relays the loop reaches from its start. -/
def Relay.Reachable : Relay → Prop :=
  Transition.Reachable (· = Relay.init) fun r next =>
    ∃ d, (r.receive d).1.ends = false ∧ (r.receive d).2 = next

/-- What `asyncReadPackets` reports instead of a payload. -/
inductive ReadError where
  /-- The error `readAddr` returned. -/
  | addr (error : AddrError)
  /-- "ignore non-target addresses %s" -/
  | nonTarget (address : List UInt8)
  deriving DecidableEq, Repr

/-- A send of the `asyncReadPackets` goroutine on one of its unbuffered channels. -/
inductive Send where
  /-- `cc.frc <- true`, in `cc.firstRead.Do`. -/
  | firstRead
  /-- `cc.packetQueue <- &readStruct{...}`: a payload, or an error. -/
  | packet (read : Except ReadError (List UInt8))
  deriving DecidableEq, Repr

/-- The variables of the `asyncReadPackets` goroutine that its sends depend on. -/
structure PacketReader where
  /-- `cc.targetAddr`: its IP and port. -/
  target : Option (List UInt8 × Nat)
  /-- Whether `cc.firstRead` has run. -/
  signalled : Bool

def PacketReader.init : PacketReader := ⟨none, false⟩

/-- The sends of the goroutine for the datagrams it reads, in order. It stops
after the first datagram it does not pass on. -/
def PacketReader.sends : PacketReader → List Datagram → List Send
  | _, [] => []
  | r, d :: ds =>
    -- a datagram too short for a header is passed on as an empty read
    if d.data.length < 3 then [.packet (.ok [])]
    else
      match readAddr (d.data.drop 3) with
      | .error e => [.packet (.error (.addr e))]
      | .ok (addr, payload) =>
        let target := r.target.getD (addr.ip, addr.port)
        if addr.address ≠ udpAddrString target.1 target.2 then [.packet (.error (.nonTarget addr.address))]
        else
          (if r.signalled then [] else [.firstRead]) ++
            .packet (.ok payload) :: PacketReader.sends ⟨some target, true⟩ ds

/-- `handleAssociate` with a user handler, and the goroutine's sends it has not
yet received. -/
structure Associate where
  pending : List Send
  /-- `<-cConn.frc` has returned and `UserAssociateHandle` runs. -/
  handed : Bool

/-- A send meets its receiver: `frc` is received by `handleAssociate` before it
hands the connection on, and `packetQueue` only by the handler's `Read`. -/
inductive Associate.Step : Associate → Associate → Prop where
  | firstRead {rest : List Send} : Associate.Step ⟨.firstRead :: rest, false⟩ ⟨rest, true⟩
  | packet {read : Except ReadError (List UInt8)} {rest : List Send} :
      Associate.Step ⟨.packet read :: rest, true⟩ ⟨rest, true⟩

/-- The states of the two parties from the goroutine's sends. -/
def Associate.Reachable (sends : List Send) : Associate → Prop :=
  Transition.Reachable (· = ⟨sends, false⟩) Associate.Step

theorem buildReply_eq {data stale replyPrefix : List UInt8} (sized : (data ++ stale).length = maxUdpPacket) :
    buildReply (data ++ stale) data.length replyPrefix =
      if replyPrefix.length + data.length ≤ maxUdpPacket then
        some (replyPrefix ++ data ++ (data ++ stale).drop (replyPrefix.length + data.length),
          replyPrefix ++ data)
      else none := by
  have payload := GoSlice.slice_append_front data stale
  split_ifs with fits
  · -- `copy` moves the datagram up by the prefix, then writes the prefix below it
    have shifted : GoSlice.copy (data ++ stale) replyPrefix.length (replyPrefix.length + data.length) data =
        some ((data ++ stale).take replyPrefix.length ++ data ++
          (data ++ stale).drop (replyPrefix.length + data.length)) :=
      GoSlice.copy_of_length rfl (by omega)
    have below : ((data ++ stale).take replyPrefix.length).length = replyPrefix.length := by
      simp only [List.length_take]
      omega
    have stamped : GoSlice.copy ((data ++ stale).take replyPrefix.length ++ data ++
          (data ++ stale).drop (replyPrefix.length + data.length)) 0 replyPrefix.length replyPrefix =
        some (replyPrefix ++ data ++ (data ++ stale).drop (replyPrefix.length + data.length)) := by
      rw [GoSlice.copy_of_length (by simp) (by simp only [List.length_append, List.length_drop]; omega)]
      simp [List.append_assoc, List.drop_left' below]
    have reply := GoSlice.slice_append_front (replyPrefix ++ data)
      ((data ++ stale).drop (replyPrefix.length + data.length))
    rw [List.length_append] at reply
    simp only [buildReply, payload, shifted, stamped, reply, Option.bind_eq_bind, Option.bind_some]
    rfl
  · have outside : (data ++ stale).length < replyPrefix.length + data.length := by omega
    simp only [buildReply, payload, GoSlice.copy_of_lt outside, Option.bind_eq_bind, Option.bind_some,
      Option.bind_none]

theorem length_of_buildReply {data stale replyPrefix stamped reply : List UInt8}
    (sized : (data ++ stale).length = maxUdpPacket)
    (built : buildReply (data ++ stale) data.length replyPrefix = some (stamped, reply)) :
    stamped.length = maxUdpPacket := by
  rw [buildReply_eq sized] at built
  split_ifs at built with fits
  cases built
  simp only [List.length_append, List.length_drop] at sized ⊢
  omega

/-! ### What a round keeps -/

theorem length_read_into {buf : List UInt8} (sized : buf.length = maxUdpPacket) (d : Datagram) :
    (d.data ++ buf.drop d.data.length).length = maxUdpPacket := by
  have := d.fits
  simp only [List.length_append, List.length_drop, sized]
  omega

theorem receive_fields (r : Relay) (d : Datagram) :
    (r.receive d).2.source = some (r.source.getD d.sender) ∧
    ((r.receive d).2.buf = d.data ++ r.buf.drop d.data.length ∨
      ∃ replyPrefix reply, buildReply (d.data ++ r.buf.drop d.data.length) d.data.length replyPrefix =
        some ((r.receive d).2.buf, reply)) ∧
    (∀ t, r.target = some t → (r.receive d).2.target = some t) ∧
    ((r.receive d).2.replyPrefix = r.replyPrefix ∨
      ∃ ip port, r.target = some (ip, port) ∧ replyPrefixOf (udpAddrString ip port) = (r.receive d).2.replyPrefix) := by
  unfold Relay.receive
  dsimp only
  split_ifs with client short
  · exact ⟨rfl, Or.inl rfl, fun t fixed => fixed, Or.inl rfl⟩
  · split
    · exact ⟨rfl, Or.inl rfl, fun t fixed => fixed, Or.inl rfl⟩
    · split_ifs
      · exact ⟨rfl, Or.inl rfl, fun t fixed => by simp [fixed], Or.inl rfl⟩
      · exact ⟨rfl, Or.inl rfl, fun t fixed => by simp [fixed], Or.inl rfl⟩
  · split
    · exact ⟨rfl, Or.inl rfl, fun t fixed => fixed, Or.inl rfl⟩
    · next ip port fixed =>
      -- the prefix the round records is the stored one or the one written for the target
      have recorded : ∀ replyPrefix, (match r.replyPrefix with
          | some replyPrefix => some replyPrefix
          | none => replyPrefixOf (udpAddrString ip port)) = some replyPrefix →
          some replyPrefix = r.replyPrefix ∨ ∃ ip port, r.target = some (ip, port) ∧
            replyPrefixOf (udpAddrString ip port) = some replyPrefix := by
        intro replyPrefix computed
        cases stored : r.replyPrefix with
        | some kept =>
          simp only [stored, Option.some.injEq] at computed
          exact Or.inl (computed ▸ rfl)
        | none =>
          simp only [stored] at computed
          exact Or.inr ⟨ip, port, fixed, computed⟩
      split_ifs with stranger
      · exact ⟨rfl, Or.inl rfl, fun t same => same, Or.inl rfl⟩
      · split
        · exact ⟨rfl, Or.inl rfl, fun t same => same, Or.inl rfl⟩
        · next replyPrefix computed =>
          split
          · exact ⟨rfl, Or.inl rfl, fun t same => same, recorded replyPrefix computed⟩
          · next stamped reply built =>
            exact ⟨rfl, Or.inr ⟨replyPrefix, reply, built⟩, fun t same => same, recorded replyPrefix computed⟩

/-- The invariant of the loop: the buffer keeps its size, and a recorded reply
prefix is the one written for the fixed target. -/
structure Relay.Sound (r : Relay) : Prop where
  sized : r.buf.length = maxUdpPacket
  prefixed : ∀ replyPrefix, r.replyPrefix = some replyPrefix →
    ∃ ip port, r.target = some (ip, port) ∧ replyPrefixOf (udpAddrString ip port) = some replyPrefix

theorem Relay.sound_init : Relay.init.Sound :=
  ⟨List.length_replicate .., fun _ none => nomatch none⟩

theorem Relay.Sound.receive {r : Relay} (sound : r.Sound) (d : Datagram) : (r.receive d).2.Sound := by
  obtain ⟨-, buffer, kept, recorded⟩ := receive_fields r d
  have overwritten := length_read_into sound.sized d
  constructor
  · rcases buffer with same | ⟨replyPrefix, reply, built⟩
    · rw [same, overwritten]
    · exact length_of_buildReply overwritten built
  · intro replyPrefix stored
    rcases recorded with same | ⟨ip, port, fixed, computed⟩
    · obtain ⟨ip, port, fixed, computed⟩ := sound.prefixed replyPrefix (same ▸ stored)
      exact ⟨ip, port, kept _ fixed, computed⟩
    · exact ⟨ip, port, kept _ fixed, computed.trans stored⟩

theorem Relay.Reachable.sound {r : Relay} (reachable : r.Reachable) : r.Sound :=
  Transition.Reachable.invariant Relay.Sound (fun r (start : r = Relay.init) => start ▸ Relay.sound_init)
    (fun _ _ sound ⟨d, _, moved⟩ => moved ▸ sound.receive d) reachable

/-! ### Replies from the target -/

theorem receive_from_target {r : Relay} (sound : r.Sound) {client ip : List UInt8} {port : Nat}
    {replyPrefix : List UInt8} (known : r.source = some client) (fixed : r.target = some (ip, port))
    (written : replyPrefixOf (udpAddrString ip port) = some replyPrefix)
    {d : Datagram} (fromTarget : udpAddrString ip port = d.sender) (other : client ≠ d.sender) :
    (r.receive d).1 = if replyPrefix.length + d.data.length ≤ maxUdpPacket then
      .toSource client (replyPrefix ++ d.data) else .panicked := by
  -- the prefix in use is the one written for the target, stored or not
  have current : (match r.replyPrefix with
      | some replyPrefix => some replyPrefix
      | none => replyPrefixOf (udpAddrString ip port)) = some replyPrefix := by
    cases stored : r.replyPrefix with
    | some kept =>
      obtain ⟨ip', port', fixed', computed⟩ := sound.prefixed kept stored
      rw [fixed] at fixed'
      cases fixed'
      rw [← computed, written]
    | none => exact written
  have sized := length_read_into sound.sized d
  rw [fromTarget] at current
  simp only [Relay.receive, known, Option.getD_some, other, if_false, fixed, fromTarget, ne_eq,
    not_true_eq_false, current, buildReply_eq sized]
  split_ifs <;> rfl

/-- A reply from an IPv4 target reaches the client behind its ten-byte prefix only
when it has at most `maxUdpPacket - 10` bytes; a longer one, which `ReadFrom` can
return, makes the slice expression panic. -/
theorem receive_ipv4_target_reply {r : Relay} (reachable : r.Reachable) {client ip : List UInt8}
    {port : Nat} (known : r.source = some client) (fixed : r.target = some (ip, port))
    (four : ip.length = 4) (portFits : port < 65536) (d : Datagram)
    (fromTarget : udpAddrString ip port = d.sender) (other : client ≠ d.sender) :
    (r.receive d).1 = if 10 + d.data.length ≤ maxUdpPacket then
      .toSource client ([0, 0, 0, ipv4Address] ++ ip ++ Bits.putUint16 port ++ d.data) else .panicked := by
  have written : replyPrefixOf (udpAddrString ip port) =
      some ([0, 0, 0, ipv4Address] ++ ip ++ Bits.putUint16 port) := by
    simp [replyPrefixOf, writeAddrWithStr_udpAddrString four portFits]
  have tenBytes : ([0, 0, 0, ipv4Address] ++ ip ++ Bits.putUint16 port).length = 10 := by
    simp [four]
  rw [receive_from_target reachable.sound known fixed written fromTarget other, tenBytes]

/-- The client `9.9.9.9:5` asks for `1.2.3.4:53`; the target then answers with a
datagram that fills the receive buffer. -/
theorem receive_ipv4_target_reply_full :
    let request : Datagram := ⟨ascii "9.9.9.9:5", [0, 0, 0, ipv4Address, 1, 2, 3, 4, 0, 53, 7], by decide⟩
    let reply : Datagram := ⟨ascii "1.2.3.4:53", List.replicate maxUdpPacket 0, by simp⟩
    (Relay.init.receive request).2.Reachable ∧ (Relay.init.receive request).2.source = some (ascii "9.9.9.9:5") ∧
      (Relay.init.receive request).2.target = some ([1, 2, 3, 4], 53) ∧ [(1 : UInt8), 2, 3, 4].length = 4 ∧
      53 < 65536 ∧ udpAddrString [1, 2, 3, 4] 53 = reply.sender ∧ ascii "9.9.9.9:5" ≠ reply.sender ∧
      ((Relay.init.receive request).2.receive reply).1 = if 10 + reply.data.length ≤ maxUdpPacket then
        .toSource (ascii "9.9.9.9:5") ([0, 0, 0, ipv4Address] ++ [1, 2, 3, 4] ++ Bits.putUint16 53 ++ reply.data)
      else .panicked := by
  intro request reply
  have reachable : (Relay.init.receive request).2.Reachable :=
    .step (.init rfl) ⟨request, by decide, rfl⟩
  have known : (Relay.init.receive request).2.source = some (ascii "9.9.9.9:5") := by decide
  have fixed : (Relay.init.receive request).2.target = some ([1, 2, 3, 4], 53) := by decide
  have fromTarget : udpAddrString [1, 2, 3, 4] 53 = reply.sender := by decide
  have other : ascii "9.9.9.9:5" ≠ reply.sender := by decide
  exact ⟨reachable, known, fixed, rfl, by decide, fromTarget, other,
    receive_ipv4_target_reply reachable known fixed rfl (by decide) reply fromTarget other⟩

/-! ### Destinations named by a domain -/

theorem header_fits (addrType : UInt8) (rest : List UInt8) : ¬ ([0, 0, 0] ++ addrType :: rest).length < 3 := by
  simp

theorem address_ne_udpAddrString {name : List UInt8} (named : name ≠ []) (port : Nat) :
    (⟨name, [], port⟩ : Address).address ≠ udpAddrString [] port := by
  simp only [Address.address, udpAddrString, List.length_nil, ne_eq, not_true_eq_false, if_false,
    if_true]
  exact joinHostPort_ne_nil named _

theorem readAddr_named_request {name payload : List UInt8} (short : name.length ≤ 255) (port : Nat) :
    readAddr (([0, 0, 0] ++ fqdnAddress :: name.length.toUInt8 :: (name ++ Bits.putUint16 port ++ payload)).drop 3) =
      .ok (⟨name, [], port % 65536⟩, payload) :=
  readAddr_fqdn short port payload

theorem Associate.never_handed {read : Except ReadError (List UInt8)} {rest : List Send}
    {s : Associate} (reachable : Associate.Reachable (.packet read :: rest) s) : s.handed = false := by
  -- no step leaves the first state
  have stuck : s = ⟨.packet read :: rest, false⟩ :=
    Transition.Reachable.invariant (fun s : Associate => s = ⟨.packet read :: rest, false⟩)
      (fun _ start => start) (fun _ _ same step => by subst same; cases step) reachable
  rw [stuck]

/-- The first client datagram of a session, when its header names a domain, is
dropped by the relay, and with a user handler it leaves `handleAssociate` waiting
for ever: the goroutine's first send is the non-target error, which nobody receives. -/
theorem associate_drops_named_destination (client name payload : List UInt8) (port : Nat)
    (named : name ≠ []) (short : name.length ≤ 255)
    (fits : ([0, 0, 0] ++ fqdnAddress :: name.length.toUInt8 :: (name ++ Bits.putUint16 port ++ payload)).length ≤
      maxUdpPacket)
    (later : List Datagram) :
    (Relay.init.receive ⟨client, _, fits⟩).1 = .ignored ∧
      ∀ s, Associate.Reachable (PacketReader.init.sends (⟨client, _, fits⟩ :: later)) s → s.handed = false := by
  have header := header_fits fqdnAddress (name.length.toUInt8 :: (name ++ Bits.putUint16 port ++ payload))
  have differs := address_ne_udpAddrString named (port % 65536)
  constructor
  · simp only [Relay.receive, Relay.init, Option.getD_none, if_true, header, if_false,
      readAddr_named_request short port]
    simp [differs]
  · intro s reachable
    simp only [PacketReader.sends, PacketReader.init, header, if_false, readAddr_named_request short port,
      Option.getD_none, ne_eq, differs, not_false_eq_true, if_true] at reachable
    exact Associate.never_handed reachable

theorem associate_drops_named_destination_short :
    [(104 : UInt8)] ≠ [] ∧ [(104 : UInt8)].length ≤ 255 ∧
      ((Relay.init.receive ⟨ascii "c", [0, 0, 0] ++ fqdnAddress :: [(104 : UInt8)].length.toUInt8 ::
          ([104] ++ Bits.putUint16 53 ++ [7]), by decide⟩).1 = .ignored ∧
        ∀ s, Associate.Reachable (PacketReader.init.sends [⟨ascii "c", [0, 0, 0] ++ fqdnAddress ::
          [(104 : UInt8)].length.toUInt8 :: ([104] ++ Bits.putUint16 53 ++ [7]), by decide⟩]) s →
          s.handed = false) :=
  ⟨by decide, by decide, associate_drops_named_destination (ascii "c") [104] [7] 53 (by decide) (by decide)
    (by decide) []⟩

end WarpPlus.Proxy.Socks5
