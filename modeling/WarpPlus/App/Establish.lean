import WarpPlus.Warp.Identity
import WarpPlus.Device.UapiInvariant
import WarpPlus.Semantics.IPRoundTrip

/-! The request `establishWireguard` in `app/wg.go` writes to configure a new device,
and what `IpcSet` makes of it.

The request is the configuration as text: one `key=value` line per setting, the
device's private key first, then for each peer its public key, keepalive, preshared
key, endpoint, trick, reserved bytes and allowed prefixes. The set operation reads it
back. When every key is 32 bytes of hex, the endpoints and prefixes parse, the peers'
keys are distinct and none is the device's own, the request configures exactly the
configuration (`establishWireguard_configures`): the peers in their order, each with its
settings, and the table with every prefix inserted for its peer, with no error.

The lines of one peer are read by `ipcSetLoop_peerLines`, with the new peer at the end of
the map (`staged`) while its settings are written; the lines of all peers follow by
induction over the peers, since the first line of each ends the one before.
-/

set_option autoImplicit false

namespace WarpPlus.App

open Crypto GoText NetIP
open WarpPlus.Warp (PeerConfig)
open WarpPlus.Uapi
open WarpPlus.Device (AllowedIP AllowedIPs)

/-- `wiresocks.PeerConfig` with its `KeepAlive`, which `generateWireguardConfig` leaves
at zero and the callers of `establishWireguard` set. -/
structure TunnelPeer extends PeerConfig where
  keepAlive : Int
  deriving DecidableEq, Repr

/-- A line of the request, `fmt.Sprintf("<key>=%s\n", value)` without its newline. -/
def setting (key : String) (value : List UInt8) : List UInt8 := ascii key ++ 61 :: value

/-- The lines `establishWireguard` writes for one peer, with the trick it was given. -/
def peerLines (t : List UInt8) (peer : TunnelPeer) : List (List UInt8) :=
  [setting "public_key" peer.publicKey,
    setting "persistent_keepalive_interval" (formatInt peer.keepAlive),
    setting "preshared_key" peer.preSharedKey,
    setting "endpoint" peer.endpoint,
    setting "trick" t,
    setting "reserved"
      (itoa peer.reserved.1.toNat ++ 44 :: (itoa peer.reserved.2.1.toNat ++ 44 :: itoa peer.reserved.2.2.toNat))] ++
  peer.allowedIPs.map fun cidr => setting "allowed_ip" (prefixString cidr.addr cidr.bits)

/-- The request of `establishWireguard`, line by line: the interface's private key, the
mark when the tunnel is bound to an interface, and the peers. -/
def requestLines (privateKey : List UInt8) (peers : List TunnelPeer) (bind : Bool) (fwmark : UInt32)
    (t : List UInt8) : List (List UInt8) :=
  setting "private_key" privateKey ::
    ((if bind && fwmark != 0 then [setting "fwmark" (itoa fwmark.toNat)] else []) ++ peers.flatMap (peerLines t))

/-- `establishWireguard` up to its `IpcSet`: the new device the request configures, and
the error of `IpcSet`. `Up`, the bind to the interface and the wait for a handshake come
after it and are outside this model. -/
def establishWireguard (env : Env) (suite : Suite) (brokenRoaming : Bool) (privateKey : List UInt8)
    (peers : List TunnelPeer) (bind : Bool) (fwmark : UInt32) (t : List UInt8) : Device AddrPort × Option Failure :=
  ipcSetOperation env suite (newDevice brokenRoaming) (unlines (requestLines privateKey peers bind fwmark t))

/-! ### The configuration a request stands for -/

/-- A peer as the device should hold it: its keys as bytes, its endpoint and prefixes as
`ParseAddrPort` and `ParsePrefix` read them. -/
structure PeerSpec where
  publicKey : List UInt8
  presharedKey : List UInt8
  endpoint : AddrPort
  keepAlive : Nat
  reserved : UInt8 × UInt8 × UInt8
  allowedIPs : List AllowedIP

/-- The text of a peer reads as its spec: both keys are hex of 32 bytes, the endpoint
parses and fits in a line, the keepalive fits `ParseUint`'s 16 bits, and the prefixes are
the peer's, each valid (`Prefix.IsValid`: four or sixteen bytes and a length within them). -/
structure Reads (peer : TunnelPeer) (spec : PeerSpec) : Prop where
  publicKey : loadExactHex peer.publicKey = .ok spec.publicKey
  presharedKey : loadExactHex peer.preSharedKey = .ok spec.presharedKey
  endpoint : parseAddrPort peer.endpoint = some spec.endpoint
  endpointField : GoText.Field peer.endpoint
  keepAlive : peer.keepAlive = spec.keepAlive
  keepAliveFits : spec.keepAlive < 2 ^ 16
  reserved : peer.reserved = spec.reserved
  allowedIPs : spec.allowedIPs = peer.allowedIPs.map fun cidr => ⟨cidr.addr, cidr.bits⟩
  prefixesValid : ∀ cidr ∈ peer.allowedIPs,
    (cidr.addr.length = 4 ∨ cidr.addr.length = 16) ∧ cidr.bits ≤ 8 * cidr.addr.length

/-- The peer a spec configures on a device that is down: not running, and roaming as
the device's platform allows. -/
def PeerSpec.peer (device : Device AddrPort) (suite : Suite) (t : List UInt8) (spec : PeerSpec) : Peer AddrPort where
  remoteStatic := spec.publicKey
  presharedKey := spec.presharedKey
  precomputedStaticStatic := suite.scalarMult device.privateKey spec.publicKey
  endpoint := some spec.endpoint
  disableRoaming := device.brokenRoaming
  persistentKeepaliveInterval := spec.keepAlive.toUInt32
  trick := t
  reserved := spec.reserved
  isRunning := false

/-- The device with one more peer, at the end of the map, and its prefixes inserted in the
table in order. -/
def withPeer (suite : Suite) (t : List UInt8) (device : Device AddrPort) (spec : PeerSpec) : Device AddrPort :=
  { device with
    peers := device.peers ++ [(spec.publicKey, spec.peer device suite t)]
    allowedips := spec.allowedIPs.foldl (fun table pfx => table.insert pfx spec.publicKey) device.allowedips }

/-- The public key of a device keyed with `sk`: a zero key leaves the new device's zero key. -/
def keyedPublicKey (suite : Suite) (sk : List UInt8) : List UInt8 :=
  if sk = zeroKey then zeroKey else suite.scalarBaseMult sk

/-- The device a configuration should leave: a new device with the private key and the
mark, and the peers of the specs in order. -/
def configured (suite : Suite) (brokenRoaming : Bool) (sk : List UInt8) (fwmark : UInt32) (t : List UInt8)
    (specs : List (PeerSpec)) : Device AddrPort :=
  specs.foldl (withPeer suite t)
    { newDevice brokenRoaming with privateKey := sk, publicKey := keyedPublicKey suite sk, fwmark }

/-! ### Each line fits in the scanner -/

/-- The keys of the request's lines. -/
def requestKeys : List String :=
  ["private_key", "fwmark", "public_key", "persistent_keepalive_interval", "preshared_key", "endpoint", "trick",
    "reserved", "allowed_ip"]

/-- A key of the protocol: printable, short, and without the `=` that ends it. -/
structure Key (key : String) : Prop where
  printable : ∀ b ∈ ascii key, 32 ≤ b
  short : (ascii key).length < 64
  noEquals : 61 ∉ ascii key

theorem key_of_mem_requestKeys : ∀ key ∈ requestKeys, Key key := by
  intro key member
  simp only [requestKeys, List.mem_cons, List.not_mem_nil, or_false] at member
  rcases member with rfl | rfl | rfl | rfl | rfl | rfl | rfl | rfl | rfl <;>
    exact ⟨by simp [ascii, byteOf], by simp [ascii], by simp [ascii, byteOf]⟩

theorem line_setting {key : String} {value : List UInt8} (keyed : Key key) (valueField : GoText.Field value) :
    Line (setting key value) := by
  have keyField : GoText.Field (ascii key ++ [61]) := by
    refine Field.of_printable ?_ ?_
    · intro b member
      rcases List.mem_append.mp member with member | member
      · exact keyed.printable b member
      · rw [List.mem_singleton.mp member]
        decide
    · have := keyed.short
      simp only [List.length_append, List.length_singleton, maxScanTokenSize]
      omega
  simpa [setting] using Field.line keyField valueField

theorem le_of_fromHexChar {c : UInt8} (digit : (Hex.fromHexChar c).isSome) : 48 ≤ c := by
  unfold Hex.fromHexChar at digit
  split at digit
  · next range => exact range.1
  split at digit
  · next range => exact UInt8.le_trans (by decide) range.1
  split at digit
  · next range => exact UInt8.le_trans (by decide) range.1
  · cases digit

theorem field_of_loadExactHex {src key : List UInt8} (loaded : loadExactHex src = .ok key) : GoText.Field src := by
  have size := WarpPlus.Uapi.length_of_loadExactHex loaded
  unfold loadExactHex at loaded
  split at loaded
  · cases loaded
  · next bytes decoded =>
    have length := Hex.length_of_decodeString decoded
    split at loaded
    · cases loaded
      refine Field.of_printable ?_ ?_
      · intro c member
        exact UInt8.le_trans (by decide) (le_of_fromHexChar (Hex.isSome_fromHexChar_of_decodeString decoded c member))
      · rw [length, size]
        decide
    · cases loaded

theorem field_of_fromMaybeZeroHex {src sk : List UInt8} (loaded : fromMaybeZeroHex src = .ok sk) : GoText.Field src := by
  unfold fromMaybeZeroHex at loaded
  cases exact : loadExactHex src with
  | error err => rw [exact] at loaded; cases loaded
  | ok key => exact field_of_loadExactHex exact

theorem field_itoa {n : Nat} (small : n < 2 ^ 64) : GoText.Field (itoa n) := by
  have short : (itoa n).length ≤ 20 := (length_itoa_le_iff (by decide)).mpr (by omega)
  exact Field.of_printable (printable_itoa n) (by simp only [maxScanTokenSize]; omega)

theorem field_reserved (a b c : UInt8) :
    GoText.Field (itoa a.toNat ++ 44 :: (itoa b.toNat ++ 44 :: itoa c.toNat)) := by
  have byte := fun x : UInt8 => field_itoa (by have := x.toNat_lt; omega : x.toNat < 2 ^ 64)
  have comma : GoText.Field [44] := Field.of_printable (by simp) (by simp [maxScanTokenSize])
  have short := fun x : UInt8 =>
    (length_itoa_le_iff (n := x.toNat) (by decide : 0 < 3)).mpr (by have := x.toNat_lt; omega)
  have := short a
  have := short b
  have := short c
  have joined := ((byte a).append comma ?_).append (((byte b).append comma ?_).append (byte c) ?_) ?_
  · simpa using joined
  all_goals simp only [List.length_append, List.length_cons, List.length_nil, maxScanTokenSize]; omega

section Requests

variable {env : Env} {peer : TunnelPeer} {spec : PeerSpec} {t : List UInt8}

theorem lines_peerLines (reads : Reads peer spec) (trick : GoText.Field t) : ∀ line ∈ peerLines t peer, Line line := by
  have keepAlive : formatInt peer.keepAlive = itoa spec.keepAlive := by
    rw [reads.keepAlive, formatInt, if_neg (by omega)]
    rfl
  intro line member
  simp only [peerLines, List.cons_append, List.mem_cons, List.mem_map, List.nil_append] at member
  rcases member with rfl | rfl | rfl | rfl | rfl | rfl | ⟨cidr, -, rfl⟩
  -- each line is a key of the request and a value that fits on a line
  all_goals refine line_setting (key_of_mem_requestKeys _ (by simp [requestKeys])) ?_
  · exact field_of_loadExactHex reads.publicKey
  · rw [keepAlive]
    exact field_itoa (by have := reads.keepAliveFits; omega)
  · exact field_of_loadExactHex reads.presharedKey
  · exact reads.endpointField
  · exact trick
  · exact field_reserved _ _ _
  · exact field_prefixString cidr.addr cidr.bits

theorem lines_flatMap_peerLines {peers : List TunnelPeer} {specs : List (PeerSpec)}
    (reads : List.Forall₂ Reads peers specs) (trick : GoText.Field t) :
    ∀ line ∈ peers.flatMap (peerLines t), Line line := by
  induction reads with
  | nil => simp
  | cons first _ ih =>
    intro line member
    rw [List.flatMap_cons, List.mem_append] at member
    exact member.elim (lines_peerLines first trick line) (ih line)

end Requests

/-! ### The handlers at the lines of the request -/

theorem parseReservedByte_itoa (b : UInt8) : parseReservedByte (itoa b.toNat) = some b := by
  have small := b.toNat_lt
  simp only [parseReservedByte, atoi_itoa (show b.toNat < 2 ^ 63 by omega)]
  rw [if_neg (by omega)]
  simp

theorem parseReserved_itoa (a b c : UInt8) :
    parseReserved (itoa a.toNat ++ 44 :: (itoa b.toNat ++ 44 :: itoa c.toNat)) = some (a, b, c) := by
  have noComma := fun x : UInt8 => not_mem_itoa (b := 44) (by decide) x.toNat
  rw [parseReserved, List.splitOn_append_cons_self_of_not_mem (noComma a),
    List.splitOn_append_cons_self_of_not_mem (noComma b), List.splitOn_eq_singleton (noComma c)]
  simp [parseReservedByte_itoa]

section Handlers

variable {env : Env} {suite : Suite} {device : Device AddrPort} {sel : Selected}

theorem handleDeviceLine_privateKey {value sk : List UInt8} (loaded : fromMaybeZeroHex value = .ok sk) :
    handleDeviceLine env suite device (ascii "private_key") value = (device.setPrivateKey suite sk, none) := by
  simp [handleDeviceLine, loaded]

theorem handleDeviceLine_fwmark {mark : UInt32} (unmarked : device.fwmark = 0) (marked : mark ≠ 0)
    (down : device.state = .down) :
    handleDeviceLine env suite device (ascii "fwmark") (itoa mark.toNat) = ({ device with fwmark := mark }, none) := by
  have changed : device.fwmark ≠ mark := unmarked ▸ Ne.symm marked
  simp +decide [handleDeviceLine, parseUint_itoa mark.toNat_lt, Device.bindSetMark, changed, down]

theorem handlePeerLine_keepalive {n : Nat} (small : n < 2 ^ 16) :
    handlePeerLine device sel (ascii "persistent_keepalive_interval") (itoa n) =
      .ok (writePeer device sel fun p => { p with persistentKeepaliveInterval := n.toUInt32 }, sel) := by
  simp +decide [handlePeerLine, parseUint_itoa small]

theorem handlePeerLine_presharedKey {value psk : List UInt8} (loaded : loadExactHex value = .ok psk) :
    handlePeerLine device sel (ascii "preshared_key") value =
      .ok (writePeer device sel fun p => { p with presharedKey := psk }, sel) := by
  simp +decide [handlePeerLine, loaded]

theorem handlePeerLine_endpoint {value : List UInt8} {endpoint : AddrPort} (parsed : parseAddrPort value = some endpoint) :
    handlePeerLine device sel (ascii "endpoint") value =
      .ok (writePeer device sel fun p => { p with endpoint := some endpoint }, sel) := by
  simp +decide [handlePeerLine, parsed]

theorem handlePeerLine_trick (value : List UInt8) :
    handlePeerLine device sel (ascii "trick") value = .ok (writePeer device sel fun p => { p with trick := value }, sel) := by
  simp +decide [handlePeerLine]

theorem handlePeerLine_reserved (a b c : UInt8) :
    handlePeerLine device sel (ascii "reserved") (itoa a.toNat ++ 44 :: (itoa b.toNat ++ 44 :: itoa c.toNat)) =
      .ok (writePeer device sel fun p => { p with reserved := (a, b, c) }, sel) := by
  simp +decide [handlePeerLine, parseReserved_itoa]

theorem handlePeerLine_allowedIp {value : List UInt8} {pfx : AllowedIP} (parsed : parsePrefix value = some (pfx.addr, pfx.bits))
    (pk : List UInt8) (created : Bool) :
    handlePeerLine device (.peer pk created) (ascii "allowed_ip") value =
      .ok ({ device with allowedips := device.allowedips.insert pfx pk }, .peer pk created) := by
  simp +decide [handlePeerLine, parsed]

end Handlers

theorem setPrivateKey_newDevice (suite : Suite) (brokenRoaming : Bool) (sk : List UInt8) :
    (newDevice brokenRoaming : Device AddrPort).setPrivateKey suite sk =
      { newDevice brokenRoaming with privateKey := sk, publicKey := keyedPublicKey suite sk } := by
  unfold Device.setPrivateKey keyedPublicKey
  by_cases zero : sk = zeroKey
  · subst zero
    rfl
  · rw [if_neg (show sk ≠ (newDevice brokenRoaming : Device AddrPort).privateKey from zero), if_neg zero]
    rfl

/-! ### The device while a new peer's lines are read -/

/-- The device while a new peer's lines are read: the peer at the end of the map, and the
table as the lines so far left it. -/
def staged (device : Device AddrPort) (pk : List UInt8) (peer : Peer AddrPort) (table : AllowedIPs (List UInt8)) : Device AddrPort :=
  { device with peers := device.peers ++ [(pk, peer)], allowedips := table }

section Staged

variable {device : Device AddrPort} {pk : List UInt8} {peer : Peer AddrPort} {table : AllowedIPs (List UInt8)}

theorem modifyPeer_staged (fresh : pk ∉ device.keys) (f : Peer AddrPort → Peer AddrPort) :
    (staged device pk peer table).modifyPeer pk f = staged device pk (f peer) table := by
  have others : ∀ entry ∈ device.peers, (if entry.1 = pk then (entry.1, f entry.2) else entry) = entry :=
    fun entry member => if_neg fun (same : entry.1 = pk) => fresh ((Device.mem_keys device).mpr ⟨entry.2, same ▸ member⟩)
  unfold Device.modifyPeer staged
  rw [List.map_append, List.map_congr_left others, List.map_id']
  simp

theorem writePeer_staged (fresh : pk ∉ device.keys) (created : Bool) (f : Peer AddrPort → Peer AddrPort) :
    writePeer (staged device pk peer table) (.peer pk created) f = staged device pk (f peer) table :=
  modifyPeer_staged fresh f

theorem handlePostConfig_staged (fresh : pk ∉ device.keys) (down : device.state = .down) :
    handlePostConfig (staged device pk peer table) (.peer pk true) =
      staged device pk { peer with disableRoaming := device.brokenRoaming && peer.endpoint.isSome } table := by
  simp only [handlePostConfig, if_true, modifyPeer_staged fresh]
  simp [staged, down]

variable {suite : Suite}

theorem handlePublicKeyLine_new {value : List UInt8} (loaded : loadExactHex value = .ok pk)
    (notSelf : device.publicKey ≠ pk) (fresh : pk ∉ device.keys) (running : device.state ≠ .closed)
    (room : device.peers.length < maxPeers) :
    handlePublicKeyLine suite device value =
      .ok (staged device pk (Device.freshPeer suite device pk) device.allowedips, .peer pk true) := by
  have unknown : device.lookupPeer pk = none :=
    Option.not_isSome_iff_eq_none.mp fun known => fresh ((Device.lookupPeer_isSome_iff device pk).mp known)
  simp only [handlePublicKeyLine, loaded, if_neg notSelf, unknown, Device.newPeer, if_neg running,
    if_neg (Nat.not_le.mpr room), Option.isSome_none, Bool.false_eq_true, if_false]
  rfl

end Staged

section withPeer

variable {suite : Suite} {t : List UInt8} {device : Device AddrPort} {spec : PeerSpec}

@[simp] theorem keys_withPeer : (withPeer suite t device spec).keys = device.keys ++ [spec.publicKey] := by
  simp [withPeer, Device.keys]

@[simp] theorem length_withPeer : (withPeer suite t device spec).peers.length = device.peers.length + 1 := by
  simp [withPeer]

@[simp] theorem publicKey_withPeer : (withPeer suite t device spec).publicKey = device.publicKey := rfl

@[simp] theorem state_withPeer : (withPeer suite t device spec).state = device.state := rfl

end withPeer

/-! ### The request, line by line -/

section Run

variable {env : Env} (suite : Suite) (t : List UInt8)

theorem ipcSetLoop_setting_device {key : String} (known : key ∈ requestKeys) (notPublic : ascii key ≠ ascii "public_key")
    {device device' : Device AddrPort} {value : List UInt8} {lines : List (List UInt8)}
    (handled : handleDeviceLine env suite device (ascii key) value = (device', none)) :
    ipcSetLoop env suite device .device (setting key value :: lines) = ipcSetLoop env suite device' .device lines :=
  ipcSetLoop_cons_of_more (ipcSetLine_device (key_of_mem_requestKeys key known).noEquals notPublic handled) lines

theorem ipcSetLoop_setting_peer {key : String} (known : key ∈ requestKeys) (notPublic : ascii key ≠ ascii "public_key")
    {device device' : Device AddrPort} {pk : List UInt8} {created : Bool} {sel' : Selected} {value : List UInt8}
    {lines : List (List UInt8)} (handled : handlePeerLine device (.peer pk created) (ascii key) value = .ok (device', sel')) :
    ipcSetLoop env suite device (.peer pk created) (setting key value :: lines) = ipcSetLoop env suite device' sel' lines :=
  ipcSetLoop_cons_of_more (ipcSetLine_peer (key_of_mem_requestKeys key known).noEquals notPublic (by simp) handled) lines

theorem ipcSetLoop_allowedIPs {device : Device AddrPort} {pk : List UInt8} {peer : Peer AddrPort} {cidrs : List Warp.Prefix}
    {pfxs : List AllowedIP}
    (parsed : List.Forall₂ (fun cidr pfx => parsePrefix (prefixString cidr.addr cidr.bits) = some (pfx.addr, pfx.bits)) cidrs pfxs)
    (table : AllowedIPs (List UInt8)) :
    ipcSetLoop env suite (staged device pk peer table) (.peer pk true)
        (cidrs.map fun cidr => setting "allowed_ip" (prefixString cidr.addr cidr.bits)) =
      .more (staged device pk peer (pfxs.foldl (fun table pfx => table.insert pfx pk) table)) (.peer pk true) := by
  induction parsed generalizing table with
  | nil => rfl
  | cons first _ ih =>
    rw [List.map_cons, List.foldl_cons]
    refine (ipcSetLoop_setting_peer suite (by simp [requestKeys]) (by simp [ascii, byteOf])
      (handlePeerLine_allowedIp first pk true)).trans ?_
    exact ih _

/-- Each printed prefix of a peer parses back as the spec's. -/
theorem Reads.parsePrefixes {peer : TunnelPeer} {spec : PeerSpec} (reads : Reads peer spec) :
    List.Forall₂ (fun cidr pfx => parsePrefix (prefixString cidr.addr cidr.bits) = some (pfx.addr, pfx.bits))
      peer.allowedIPs spec.allowedIPs := by
  rw [reads.allowedIPs, List.forall₂_map_right_iff, List.forall₂_same]
  exact fun cidr member => parsePrefix_prefixString (reads.prefixesValid cidr member)

/-- The lines of a new peer add it with its settings and prefixes: once its lines are
over, the device is the one before them with the peer added. -/
theorem ipcSetLoop_peerLines {device : Device AddrPort} {sel : Selected} {peer : TunnelPeer} {spec : PeerSpec}
    (reads : Reads peer spec)
    (fresh : spec.publicKey ∉ (handlePostConfig device sel).keys)
    (notSelf : (handlePostConfig device sel).publicKey ≠ spec.publicKey)
    (room : (handlePostConfig device sel).peers.length < maxPeers)
    (down : (handlePostConfig device sel).state = .down) :
    ∃ device', ipcSetLoop env suite device sel (peerLines t peer) = .more device' (.peer spec.publicKey true) ∧
      handlePostConfig device' (.peer spec.publicKey true) = withPeer suite t (handlePostConfig device sel) spec := by
  set before := handlePostConfig device sel with posted
  have keepAlive : formatInt peer.keepAlive = itoa spec.keepAlive := by
    rw [reads.keepAlive, formatInt, if_neg (by omega)]
    rfl
  have reserved : peer.reserved = (spec.reserved.1, spec.reserved.2.1, spec.reserved.2.2) := reads.reserved
  -- the new peer, with each setting written in the order of the lines
  let written : Peer AddrPort := { Device.freshPeer suite before spec.publicKey with
    persistentKeepaliveInterval := spec.keepAlive.toUInt32, presharedKey := spec.presharedKey,
    endpoint := some spec.endpoint, trick := t, reserved := spec.reserved }
  refine ⟨staged before spec.publicKey written
    (spec.allowedIPs.foldl (fun table pfx => table.insert pfx spec.publicKey) before.allowedips), ?_, ?_⟩
  · rw [peerLines, keepAlive, reserved, List.cons_append]
    have running : before.state ≠ .closed := by
      rw [down]
      decide
    refine (ipcSetLoop_cons_of_more (ipcSetLine_publicKey (handlePublicKeyLine_new reads.publicKey
      notSelf fresh running room)) _).trans ?_
    refine (ipcSetLoop_setting_peer suite (by simp [requestKeys]) (by simp [ascii, byteOf])
      (handlePeerLine_keepalive reads.keepAliveFits)).trans ?_
    rw [writePeer_staged fresh]
    refine (ipcSetLoop_setting_peer suite (by simp [requestKeys]) (by simp [ascii, byteOf])
      (handlePeerLine_presharedKey reads.presharedKey)).trans ?_
    rw [writePeer_staged fresh]
    refine (ipcSetLoop_setting_peer suite (by simp [requestKeys]) (by simp [ascii, byteOf])
      (handlePeerLine_endpoint reads.endpoint)).trans ?_
    rw [writePeer_staged fresh]
    refine (ipcSetLoop_setting_peer suite (by simp [requestKeys]) (by simp [ascii, byteOf])
      (handlePeerLine_trick t)).trans ?_
    rw [writePeer_staged fresh]
    refine (ipcSetLoop_setting_peer suite (by simp [requestKeys]) (by simp [ascii, byteOf])
      (handlePeerLine_reserved _ _ _)).trans ?_
    rw [writePeer_staged fresh]
    exact ipcSetLoop_allowedIPs suite reads.parsePrefixes before.allowedips
  · rw [handlePostConfig_staged fresh down]
    simp [withPeer, staged, written, PeerSpec.peer, Device.freshPeer]

theorem ipcSetLoop_peers {peers : List TunnelPeer} {specs : List (PeerSpec)}
    (reads : List.Forall₂ Reads peers specs) :
    ∀ (device : Device AddrPort) (sel : Selected),
      ((handlePostConfig device sel).keys ++ specs.map PeerSpec.publicKey).Nodup →
      (∀ spec ∈ specs, (handlePostConfig device sel).publicKey ≠ spec.publicKey) →
      (handlePostConfig device sel).peers.length + specs.length ≤ maxPeers →
      (handlePostConfig device sel).state = .down →
      ∃ device' sel', ipcSetLoop env suite device sel (peers.flatMap (peerLines t)) = .more device' sel' ∧
        handlePostConfig device' sel' = specs.foldl (withPeer suite t) (handlePostConfig device sel) := by
  induction reads with
  | nil => exact fun _ _ _ _ _ _ => ⟨_, _, rfl, rfl⟩
  | @cons peer spec peers specs first _ ih =>
    intro device sel distinct notSelf room down
    have fresh : spec.publicKey ∉ (handlePostConfig device sel).keys := by
      rw [List.map_cons] at distinct
      exact fun member => (List.nodup_append.mp distinct).2.2 _ member _ List.mem_cons_self rfl
    obtain ⟨device₁, ran, posted⟩ := ipcSetLoop_peerLines suite t first fresh
      (notSelf spec (by simp)) (by simp at room; omega) down
    obtain ⟨device', sel', rest, done⟩ := ih device₁ (.peer spec.publicKey true)
      (by rw [posted, keys_withPeer, List.append_assoc]; simpa using distinct)
      (fun other member => by rw [posted, publicKey_withPeer]; exact notSelf other (by simp [member]))
      (by rw [posted, length_withPeer]; simp at room; omega)
      (by rw [posted, state_withPeer]; exact down)
    refine ⟨device', sel', ?_, ?_⟩
    · rw [List.flatMap_cons, ipcSetLoop_append_of_more ran, rest]
    · rw [done, posted, List.foldl_cons]

theorem ipcSetLoop_deviceLines (brokenRoaming : Bool) {privateKey sk : List UInt8}
    (keyed : fromMaybeZeroHex privateKey = .ok sk) (bind : Bool) (fwmark : UInt32) :
    ipcSetLoop env suite (newDevice brokenRoaming) .device
        (setting "private_key" privateKey ::
          if bind && fwmark != 0 then [setting "fwmark" (itoa fwmark.toNat)] else []) =
      .more { newDevice brokenRoaming with
        privateKey := sk, publicKey := keyedPublicKey suite sk, fwmark := if bind && fwmark != 0 then fwmark else 0 }
        .device := by
  refine (ipcSetLoop_setting_device suite (by simp [requestKeys]) (by simp [ascii, byteOf])
    (handleDeviceLine_privateKey keyed)).trans ?_
  rw [setPrivateKey_newDevice]
  split
  · next marked =>
    have nonzero : fwmark ≠ 0 := by simpa using (Bool.and_eq_true_iff.mp marked).2
    exact (ipcSetLoop_setting_device suite (by simp [requestKeys]) (by simp [ascii, byteOf])
      (handleDeviceLine_fwmark rfl nonzero rfl)).trans rfl
  · rfl

theorem ipcSetOperation_unlines {device device' : Device AddrPort} {sel' : Selected} {lines : List (List UInt8)}
    (valid : ∀ line ∈ lines, Line line) (ran : ipcSetLoop env suite device .device lines = .more device' sel') :
    ipcSetOperation env suite device (unlines lines) = (handlePostConfig device' sel', none) := by
  rw [ipcSetOperation, scanLines_unlines valid]
  dsimp only
  rw [ran]
  rfl

end Run

section Request

variable {env : Env} {privateKey sk : List UInt8} {peers : List TunnelPeer} {specs : List (PeerSpec)}
  {t : List UInt8}

theorem lines_requestLines (keyed : fromMaybeZeroHex privateKey = .ok sk)
    (reads : List.Forall₂ Reads peers specs) (bind : Bool) (fwmark : UInt32) (trick : GoText.Field t) :
    ∀ line ∈ requestLines privateKey peers bind fwmark t, Line line := by
  intro line member
  simp only [requestLines, List.mem_cons, List.mem_append] at member
  rcases member with rfl | member | member
  · exact line_setting (key_of_mem_requestKeys _ (by simp [requestKeys])) (field_of_fromMaybeZeroHex keyed)
  · split at member
    · rw [List.mem_singleton] at member
      subst member
      exact line_setting (key_of_mem_requestKeys _ (by simp [requestKeys])) (field_itoa (by have := fwmark.toNat_lt; omega))
    · cases member
  · exact lines_flatMap_peerLines reads trick line member

theorem ipcSetLoop_requestLines (suite : Suite) (brokenRoaming : Bool) (t : List UInt8)
    (keyed : fromMaybeZeroHex privateKey = .ok sk)
    (reads : List.Forall₂ Reads peers specs) (distinct : (specs.map PeerSpec.publicKey).Nodup)
    (notSelf : ∀ spec ∈ specs, spec.publicKey ≠ keyedPublicKey suite sk) (few : specs.length ≤ maxPeers)
    (bind : Bool) (fwmark : UInt32) :
    ∃ device' sel', ipcSetLoop env suite (newDevice brokenRoaming) .device
        (requestLines privateKey peers bind fwmark t) = .more device' sel' ∧
      handlePostConfig device' sel' = configured suite brokenRoaming sk (if bind && fwmark != 0 then fwmark else 0) t specs := by
  -- the keyed device, with no peer yet, before the peers' lines
  obtain ⟨device', sel', ran, posted⟩ := ipcSetLoop_peers suite t reads
    { newDevice brokenRoaming with
      privateKey := sk, publicKey := keyedPublicKey suite sk, fwmark := if bind && fwmark != 0 then fwmark else 0 }
    .device (by simpa [handlePostConfig, Device.keys, newDevice] using distinct)
    (fun spec member => (notSelf spec member).symm) (by simpa [handlePostConfig, newDevice] using few) rfl
  refine ⟨device', sel', ?_, posted⟩
  rw [requestLines, ← List.cons_append,
    ipcSetLoop_append_of_more (ipcSetLoop_deviceLines suite brokenRoaming keyed bind fwmark), ran]

end Request

/-- `IpcSet` of the request `establishWireguard` writes configures exactly the
configuration the request was written from, and returns no error: the private key, the
mark when the tunnel is bound to an interface, and each peer in order with its settings
and its prefixes in the table. -/
theorem establishWireguard_configures (env : Env) (suite : Suite) (brokenRoaming : Bool)
    {privateKey sk : List UInt8} (keyed : fromMaybeZeroHex privateKey = .ok sk)
    {peers : List TunnelPeer} {specs : List (PeerSpec)} (reads : List.Forall₂ Reads peers specs)
    (distinct : (specs.map PeerSpec.publicKey).Nodup)
    (notSelf : ∀ spec ∈ specs, spec.publicKey ≠ keyedPublicKey suite sk)
    (few : specs.length ≤ maxPeers) (bind : Bool) (fwmark : UInt32) {t : List UInt8} (trick : GoText.Field t) :
    establishWireguard env suite brokenRoaming privateKey peers bind fwmark t =
      (configured suite brokenRoaming sk (if bind && fwmark != 0 then fwmark else 0) t specs, none) := by
  obtain ⟨device', sel', ran, posted⟩ :=
    ipcSetLoop_requestLines suite brokenRoaming t keyed reads distinct notSelf few bind fwmark
  rw [establishWireguard, ipcSetOperation_unlines suite (lines_requestLines keyed reads bind fwmark trick) ran, posted]

/-- A peer as `runWarp` writes it: one prefix, a keepalive of five seconds, and reserved bytes. -/
def samplePeer : TunnelPeer where
  publicKey := Hex.encodeToString (List.replicate 32 9)
  preSharedKey := Hex.encodeToString zeroKey
  allowedIPs := [⟨[10, 0, 0, 0], 8⟩]
  endpoint := ascii "162.159.192.1:2408"
  reserved := (1, 2, 3)
  keepAlive := 5

def sampleSpec : PeerSpec := ⟨List.replicate 32 9, zeroKey, ⟨[162, 159, 192, 1], 2408⟩, 5, (1, 2, 3), [⟨[10, 0, 0, 0], 8⟩]⟩

theorem loadExactHex_encodeToString {key : List UInt8} (size : key.length = keySize) :
    loadExactHex (Hex.encodeToString key) = .ok key := by
  simp [loadExactHex, Hex.decodeString_encodeToString, size]

theorem establishWireguard_configures_sample :
    establishWireguard sampleEnv Noise.sumSuite false (Hex.encodeToString (List.replicate 32 7)) [samplePeer] true 1
        (ascii "t1") =
      (configured Noise.sumSuite false (Noise.clamp (List.replicate 32 7)) 1 (ascii "t1") [sampleSpec], none) :=
  establishWireguard_configures sampleEnv Noise.sumSuite false
    (by rw [fromMaybeZeroHex, loadExactHex_encodeToString rfl]; rfl)
    (.cons (show Reads samplePeer sampleSpec from
      { publicKey := loadExactHex_encodeToString rfl
        presharedKey := loadExactHex_encodeToString rfl
        endpoint := by decide
        endpointField := Field.of_printable (by simp [samplePeer, ascii, byteOf])
          (by simp [samplePeer, ascii, maxScanTokenSize])
        keepAlive := rfl
        keepAliveFits := by decide
        reserved := rfl
        allowedIPs := rfl
        prefixesValid := by simp [samplePeer] })
      .nil)
    (by decide) (by decide) (by decide) true 1 (Field.of_printable (by simp [ascii, byteOf]) (by simp [ascii, maxScanTokenSize]))

end WarpPlus.App
