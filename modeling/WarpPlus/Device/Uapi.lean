import WarpPlus.Semantics.Crypto
import WarpPlus.Semantics.Decimal
import WarpPlus.Semantics.Hex
import WarpPlus.Semantics.Lines
import WarpPlus.Semantics.IPText
import WarpPlus.Device.AllowedIPsTable
import WarpPlus.Device.NoiseProtocol

/-! The set operation of the configuration protocol, `IpcSetOperation` in
`device/uapi.go`, with the calls it makes on the device: `SetPrivateKey`,
`NewPeer`, `RemovePeer`, `RemoveAllPeers`, `BindUpdate`, `BindSetMark` and the
allowed-IPs table.

The input is scanned into lines; each is a `key=value` pair. Lines before the
first `public_key` configure the device, and the lines after one configure that
peer, or a placeholder (`dummy`) whose writes are dropped: the device's own public
key, a peer removed by `remove` or `update_only`. A blank line ends the operation.
An error ends it too, and keeps what the lines before it did; only the peer of a
finished operation gets `handlePostConfig`.

The peer map is a list of the keys and peers in the order `NewPeer` added them,
which is also the order the model ranges over it. A peer is known by its public
key, also in the allowed-IPs table, where the code keeps a pointer: a removed
peer's entries leave the table with it, so no two peers of one key meet there.
The bind is `StdNetBind`, whose `ParseEndpoint` is `netip.ParseAddrPort`; the
bind's system calls are the environment's (`Env`), and X25519 is the suite's.
-/

set_option autoImplicit false

namespace WarpPlus.Uapi

open Crypto GoText
open WarpPlus.Device (AllowedIP AllowedIPs)
open WarpPlus.Noise (clamp isZero)
open NetIP (AddrPort parseAddrPort parsePrefix)

/-- `NoisePublicKeySize`, which is also the size of a private and a preshared key. -/
def keySize : Nat := 32

/-- The zero key a new device and a new peer start with. -/
def zeroKey : List UInt8 := List.replicate keySize 0

/-- `MaxPeers`. -/
def maxPeers : Nat := 2 ^ 16

/-- The status codes of `ipc/uapi_unix.go`, with Linux's values of the errnos. -/
def ipcErrorIO : Int := -5

def ipcErrorProtocol : Int := -71

def ipcErrorInvalid : Int := -22

def ipcErrorPortInUse : Int := -98

/-- The errors of `loadExactHex`. -/
inductive KeyError where
  | hex (err : Hex.Error)
  /-- "hex string does not fit the slice" -/
  | size
  deriving DecidableEq, Repr

/-- The errors of `NewPeer`. -/
inductive NewPeerError where
  /-- "device closed" -/
  | deviceClosed
  /-- "too many peers" -/
  | tooManyPeers
  /-- "adding existing peer" -/
  | addingExistingPeer
  deriving DecidableEq, Repr

/-- The errors of the set operation: one for each `ipcErrorf` of
`IpcSetOperation` and its handlers, with the values its message prints. -/
inductive Failure where
  /-- "failed to parse line %q" -/
  | parseLine (line : List UInt8)
  /-- "failed to set private_key: %w" -/
  | privateKey (err : KeyError)
  /-- "failed to parse listen_port: %w" -/
  | listenPort (value : List UInt8)
  /-- "failed to set listen_port: %w" -/
  | bindUpdate
  /-- "invalid fwmark: %w" -/
  | fwmark (value : List UInt8)
  /-- "failed to update fwmark: %w" -/
  | bindSetMark
  /-- "failed to set replace_peers, invalid value: %v" -/
  | replacePeers (value : List UInt8)
  /-- "invalid UAPI device key: %v" -/
  | deviceKey (key : List UInt8)
  /-- "failed to get peer by public key: %w" -/
  | publicKey (err : KeyError)
  /-- "failed to create new peer: %w" -/
  | newPeer (err : NewPeerError)
  /-- "failed to set update only, invalid value: %v" -/
  | updateOnly (value : List UInt8)
  /-- "failed to set remove, invalid value: %v" -/
  | remove (value : List UInt8)
  /-- "failed to set preshared key: %w" -/
  | presharedKey (err : KeyError)
  /-- "failed to set endpoint %v: %w" -/
  | endpoint (value : List UInt8)
  /-- "failed to set persistent keepalive interval: %w" -/
  | persistentKeepaliveInterval (value : List UInt8)
  /-- "failed to replace allowedips, invalid value: %v" -/
  | replaceAllowedIps (value : List UInt8)
  /-- "failed to set allowed ip: %w" -/
  | allowedIp (value : List UInt8)
  /-- "invalid protocol version: %v" -/
  | protocolVersion (value : List UInt8)
  /-- "invalid reserved value: %v" -/
  | reserved (value : List UInt8)
  /-- "invalid UAPI peer key: %v" -/
  | peerKey (key : List UInt8)
  /-- "failed to read input: %w" -/
  | readInput
  deriving DecidableEq, Repr

/-- The code `IpcHandle` writes back as `errno`. -/
def Failure.code : Failure → Int
  | .parseLine _ => ipcErrorProtocol
  | .bindUpdate | .bindSetMark => ipcErrorPortInUse
  | .readInput => ipcErrorIO
  | _ => ipcErrorInvalid

/-- `loadExactHex` into a key. -/
def loadExactHex (src : List UInt8) : Except KeyError (List UInt8) :=
  match Hex.decodeString src with
  | .error err => .error (.hex err)
  | .ok bytes => if bytes.length = keySize then .ok bytes else .error .size

/-- `NoisePrivateKey.FromMaybeZeroHex`: the zero key stays zero, any other is clamped. -/
def fromMaybeZeroHex (src : List UInt8) : Except KeyError (List UInt8) :=
  (loadExactHex src).map fun key => if isZero key then key else clamp key

/-- One value of `reserved`: `strconv.Atoi`, and the range of a byte. -/
def parseReservedByte (val : List UInt8) : Option UInt8 :=
  match atoi val with
  | some n => if n < 0 ∨ 255 < n then none else some n.toNat.toUInt8
  | none => none

/-- The `reserved` case of `handlePeerLine`: three bytes between commas. -/
def parseReserved (value : List UInt8) : Option (UInt8 × UInt8 × UInt8) :=
  match value.splitOn 44 with
  | [a, b, c] => do
    let a ← parseReservedByte a
    let b ← parseReservedByte b
    let c ← parseReservedByte c
    pure (a, b, c)
  | _ => none

/-- What the set operation takes from outside this model: the outcomes of the
bind's system calls. -/
structure Env where
  /-- `bind.Close` succeeds. -/
  close : Bool
  /-- The port `bind.Open` binds when asked for one, if it does. -/
  openAt : UInt16 → Option UInt16
  /-- `startRouteListener` succeeds. -/
  routeListener : Bool
  /-- `bind.SetMark` succeeds. -/
  setMark : UInt32 → Bool

/-- `deviceState`. -/
inductive DeviceState where
  | down
  | up
  | closed
  deriving DecidableEq, Repr

/-- The fields of a `Peer` the set operation reads and writes. -/
structure Peer (E : Type) where
  remoteStatic : List UInt8
  presharedKey : List UInt8
  precomputedStaticStatic : List UInt8
  endpoint : Option E
  disableRoaming : Bool
  persistentKeepaliveInterval : UInt32
  trick : List UInt8
  reserved : UInt8 × UInt8 × UInt8
  isRunning : Bool

/-- The fields of a `Device` the set operation reads and writes. -/
structure Device (E : Type) where
  state : DeviceState
  /-- `net.brokenRoaming`, set on the mobile platforms. -/
  brokenRoaming : Bool
  privateKey : List UInt8
  publicKey : List UInt8
  port : UInt16
  fwmark : UInt32
  /-- `peers.keyMap`. -/
  peers : List (List UInt8 × Peer E)
  allowedips : AllowedIPs (List UInt8)

variable {E : Type}

/-- `NewDevice`: down, with zero keys, no peers and an empty table. -/
def newDevice (brokenRoaming : Bool) : Device E :=
  ⟨.down, brokenRoaming, zeroKey, zeroKey, 0, 0, [], AllowedIPs.empty⟩

namespace Device

def keys (device : Device E) : List (List UInt8) := device.peers.map Prod.fst

/-- `LookupPeer`. -/
def lookupPeer (device : Device E) (pk : List UInt8) : Option (Peer E) := device.peers.lookup pk

/-- A write to the peer of a key, as the handlers write through their pointer. -/
def modifyPeer (device : Device E) (pk : List UInt8) (f : Peer E → Peer E) : Device E :=
  { device with peers := device.peers.map fun entry => if entry.1 = pk then (entry.1, f entry.2) else entry }

/-- `removePeerLocked`: the peer's allowed IPs leave the table and its key the map;
`Stop` ends the routines of the peer, which the model does not hold. -/
def removePeerLocked (device : Device E) (key : List UInt8) : Device E :=
  { device with allowedips := device.allowedips.removeByPeer key,
                peers := device.peers.filter fun entry => entry.1 ≠ key }

def removePeer (device : Device E) (key : List UInt8) : Device E :=
  match device.lookupPeer key with
  | none => device
  | some _ => device.removePeerLocked key

def removeAllPeers (device : Device E) : Device E :=
  { device.peers.foldl (fun device entry => device.removePeerLocked entry.1) device with peers := [] }

/-- `SetPrivateKey`: peers of the new public key leave, and every other peer's
static-static secret is computed again. `cookieChecker.Init` and the
`ExpireCurrentKeypairs` of each peer are outside this model. -/
def setPrivateKey (suite : Suite) (device : Device E) (sk : List UInt8) : Device E :=
  if sk = device.privateKey then device
  else
    let publicKey := suite.scalarBaseMult sk
    let device := device.peers.foldl (fun device entry =>
      if entry.2.remoteStatic = publicKey then device.removePeerLocked entry.1 else device) device
    { device with
      privateKey := sk
      publicKey
      peers := device.peers.map fun entry =>
        (entry.1, { entry.2 with precomputedStaticStatic := suite.scalarMult sk entry.2.remoteStatic }) }

/-- The peer `NewPeer` makes for a public key. -/
def freshPeer (suite : Suite) (device : Device E) (pk : List UInt8) : Peer E where
  remoteStatic := pk
  presharedKey := zeroKey
  precomputedStaticStatic := suite.scalarMult device.privateKey pk
  endpoint := none
  disableRoaming := false
  persistentKeepaliveInterval := 0
  trick := []
  reserved := (0, 0, 0)
  isRunning := false

/-- `NewPeer`. -/
def newPeer (suite : Suite) (device : Device E) (pk : List UInt8) : Except NewPeerError (Device E) :=
  if device.state = .closed then .error .deviceClosed
  else if maxPeers ≤ device.peers.length then .error .tooManyPeers
  else if (device.lookupPeer pk).isSome then .error .addingExistingPeer
  else .ok { device with peers := device.peers ++ [(pk, freshPeer suite device pk)] }

/-- `BindUpdate`: whether it succeeded, and the device with the port it leaves. -/
def bindUpdate (env : Env) (device : Device E) : Device E × Bool :=
  if !env.close then (device, false)
  else if device.state ≠ .up then (device, true)
  else
    match env.openAt device.port with
    | none => ({ device with port := 0 }, false)
    | some port =>
      if !env.routeListener then ({ device with port := 0 }, false)
      else ({ device with port }, device.fwmark = 0 || env.setMark device.fwmark)

/-- `BindSetMark`. -/
def bindSetMark (env : Env) (device : Device E) (mark : UInt32) : Device E × Bool :=
  if device.fwmark = mark then (device, true)
  else ({ device with fwmark := mark }, device.state ≠ .up || env.setMark mark)

end Device

/-- `ipcSetPeer`, what the lines configure: the device before the first
`public_key` line (`deviceConfig`, and `Peer` still nil), a placeholder
(`dummy`), or the device's peer of a public key, and whether this operation
created it. -/
inductive Selected where
  | device
  | dummy
  | peer (key : List UInt8) (created : Bool)
  deriving DecidableEq, Repr

/-- A write to the selected peer; a placeholder takes it and is dropped. -/
def writePeer (device : Device E) (peer : Selected) (f : Peer E → Peer E) : Device E :=
  match peer with
  | .peer key _ => device.modifyPeer key f
  | _ => device

/-- `handlePostConfig`. `Start` sets the peer running; the handshake and the staged
packets it then sends are outside this model. -/
def handlePostConfig (device : Device E) : Selected → Device E
  | .device | .dummy => device
  | .peer key created =>
    let device := if created then
        device.modifyPeer key fun peer => { peer with disableRoaming := device.brokenRoaming && peer.endpoint.isSome }
      else device
    if device.state = .up then device.modifyPeer key fun peer => { peer with isRunning := true } else device

def handleDeviceLine (env : Env) (suite : Suite) (device : Device E) (key value : List UInt8) :
    Device E × Option Failure :=
  if key = ascii "private_key" then
    match fromMaybeZeroHex value with
    | .error err => (device, some (.privateKey err))
    | .ok sk => (device.setPrivateKey suite sk, none)
  else if key = ascii "listen_port" then
    match parseUint value 16 with
    | none => (device, some (.listenPort value))
    | some port =>
      -- the port is set before the bind is updated, and stays set when that fails
      let (device, ok) := Device.bindUpdate env { device with port := port.toUInt16 }
      (device, if ok then none else some .bindUpdate)
  else if key = ascii "fwmark" then
    match parseUint value 32 with
    | none => (device, some (.fwmark value))
    | some mark =>
      let (device, ok) := device.bindSetMark env mark.toUInt32
      (device, if ok then none else some .bindSetMark)
  else if key = ascii "replace_peers" then
    if value ≠ ascii "true" then (device, some (.replacePeers value)) else (device.removeAllPeers, none)
  else (device, some (.deviceKey key))

def handlePublicKeyLine (suite : Suite) (device : Device E) (value : List UInt8) :
    Except Failure (Device E × Selected) :=
  match loadExactHex value with
  | .error err => .error (.publicKey err)
  | .ok publicKey =>
    -- the device's own key configures nothing
    if device.publicKey = publicKey then .ok (device, .dummy)
    else
      match device.lookupPeer publicKey with
      | some _ => .ok (device, .peer publicKey false)
      | none =>
        match device.newPeer suite publicKey with
        | .error err => .error (.newPeer err)
        | .ok device => .ok (device, .peer publicKey true)

def handlePeerLine (device : Device AddrPort) (peer : Selected) (key value : List UInt8) :
    Except Failure (Device AddrPort × Selected) :=
  if key = ascii "update_only" then
    if value ≠ ascii "true" then .error (.updateOnly value)
    else
      match peer with
      | .peer pk true => .ok (device.removePeer pk, .dummy)
      | _ => .ok (device, peer)
  else if key = ascii "remove" then
    if value ≠ ascii "true" then .error (.remove value)
    else
      match peer with
      | .peer pk _ => .ok (device.removePeer pk, .dummy)
      | _ => .ok (device, .dummy)
  else if key = ascii "preshared_key" then
    match loadExactHex value with
    | .error err => .error (.presharedKey err)
    | .ok psk => .ok (writePeer device peer fun p => { p with presharedKey := psk }, peer)
  else if key = ascii "endpoint" then
    match parseAddrPort value with
    | none => .error (.endpoint value)
    | some endpoint => .ok (writePeer device peer fun p => { p with endpoint := some endpoint }, peer)
  else if key = ascii "persistent_keepalive_interval" then
    match parseUint value 16 with
    | none => .error (.persistentKeepaliveInterval value)
    | some secs =>
      .ok (writePeer device peer fun p => { p with persistentKeepaliveInterval := secs.toUInt32 }, peer)
  else if key = ascii "replace_allowed_ips" then
    if value ≠ ascii "true" then .error (.replaceAllowedIps value)
    else
      match peer with
      | .peer pk _ => .ok ({ device with allowedips := device.allowedips.removeByPeer pk }, peer)
      | _ => .ok (device, peer)
  else if key = ascii "allowed_ip" then
    match parsePrefix value with
    | none => .error (.allowedIp value)
    | some (addr, bits) =>
      match peer with
      | .peer pk _ => .ok ({ device with allowedips := device.allowedips.insert ⟨addr, bits⟩ pk }, peer)
      | _ => .ok (device, peer)
  else if key = ascii "protocol_version" then
    if value ≠ ascii "1" then .error (.protocolVersion value) else .ok (device, peer)
  else if key = ascii "trick" then .ok (writePeer device peer fun p => { p with trick := value }, peer)
  else if key = ascii "reserved" then
    match parseReserved value with
    | none => .error (.reserved value)
    | some reserved => .ok (writePeer device peer fun p => { p with reserved }, peer)
  else .error (.peerKey key)

/-- What one round of the loop leaves: the loop goes on, or the operation returns. -/
inductive Next (E : Type) where
  | more (device : Device E) (peer : Selected)
  | done (device : Device E) (result : Option Failure)

/-- One line of `IpcSetOperation`. -/
def ipcSetLine (env : Env) (suite : Suite) (device : Device AddrPort) (peer : Selected) (line : List UInt8) :
    Next AddrPort :=
  if line = [] then .done (handlePostConfig device peer) none
  else
    match cut line 61 with
    | none => .done device (some (.parseLine line))
    | some (key, value) =>
      if key = ascii "public_key" then
        let device := handlePostConfig device peer
        match handlePublicKeyLine suite device value with
        | .error err => .done device (some err)
        | .ok (device, peer) => .more device peer
      else
        match peer with
        | .device =>
          match handleDeviceLine env suite device key value with
          | (device, none) => .more device .device
          | (device, some err) => .done device (some err)
        | peer =>
          match handlePeerLine device peer key value with
          | .error err => .done device (some err)
          | .ok (device, peer) => .more device peer

/-- The loop of `IpcSetOperation` over the scanned lines. -/
def ipcSetLoop (env : Env) (suite : Suite) :
    Device AddrPort → Selected → List (List UInt8) → Next AddrPort
  | device, peer, [] => .more device peer
  | device, peer, line :: lines =>
    match ipcSetLine env suite device peer line with
    | .more device peer => ipcSetLoop env suite device peer lines
    | .done device result => .done device result

/-- `IpcSetOperation`, and `IpcSet` of a string: the device after it and the
error it returns, if any. -/
def ipcSetOperation (env : Env) (suite : Suite) (device : Device AddrPort) (input : List UInt8) :
    Device AddrPort × Option Failure :=
  let (lines, tooLong) := scanLines input
  match ipcSetLoop env suite device .device lines with
  | .more device peer => (handlePostConfig device peer, if tooLong then some .readInput else none)
  | .done device result => (device, result)

/-! ### The loop, line by line -/

section Loop

variable {env : Env} {suite : Suite} {device device' : Device AddrPort} {peer peer' : Selected}

theorem ipcSetLoop_append_of_more {lines : List (List UInt8)}
    (ran : ipcSetLoop env suite device peer lines = .more device' peer') (rest : List (List UInt8)) :
    ipcSetLoop env suite device peer (lines ++ rest) = ipcSetLoop env suite device' peer' rest := by
  induction lines generalizing device peer with
  | nil => cases ran; rfl
  | cons line lines ih =>
    simp only [ipcSetLoop] at ran
    rw [List.cons_append, ipcSetLoop]
    -- the split of the first line's round rewrites the goal's copy of it too
    split at ran
    · exact ih ran
    · cases ran

theorem ipcSetLoop_cons_of_more {line : List UInt8} (ran : ipcSetLine env suite device peer line = .more device' peer')
    (lines : List (List UInt8)) :
    ipcSetLoop env suite device peer (line :: lines) = ipcSetLoop env suite device' peer' lines := by
  rw [ipcSetLoop, ran]

theorem ipcSetLine_pair {key value : List UInt8} (absent : 61 ∉ key) :
    ipcSetLine env suite device peer (key ++ 61 :: value) =
      if key = ascii "public_key" then
        match handlePublicKeyLine suite (handlePostConfig device peer) value with
        | .error err => .done (handlePostConfig device peer) (some err)
        | .ok (device, peer) => .more device peer
      else
        match peer with
        | .device =>
          match handleDeviceLine env suite device key value with
          | (device, none) => .more device .device
          | (device, some err) => .done device (some err)
        | peer =>
          match handlePeerLine device peer key value with
          | .error err => .done device (some err)
          | .ok (device, peer) => .more device peer := by
  rw [ipcSetLine, if_neg (by simp), cut_append absent]

theorem ipcSetLine_publicKey {value : List UInt8}
    (handled : handlePublicKeyLine suite (handlePostConfig device peer) value = .ok (device', peer')) :
    ipcSetLine env suite device peer (ascii "public_key" ++ 61 :: value) = .more device' peer' := by
  rw [ipcSetLine_pair (by decide), if_pos rfl, handled]

theorem ipcSetLine_device {key value : List UInt8} (absent : 61 ∉ key) (notPublic : key ≠ ascii "public_key")
    (handled : handleDeviceLine env suite device key value = (device', none)) :
    ipcSetLine env suite device .device (key ++ 61 :: value) = .more device' .device := by
  rw [ipcSetLine_pair absent, if_neg notPublic]
  simp only [handled]

theorem ipcSetLine_peer {key value : List UInt8} (absent : 61 ∉ key) (notPublic : key ≠ ascii "public_key")
    (selected : peer ≠ .device) (handled : handlePeerLine device peer key value = .ok (device', peer')) :
    ipcSetLine env suite device peer (key ++ 61 :: value) = .more device' peer' := by
  rw [ipcSetLine_pair absent, if_neg notPublic]
  cases peer with
  | device => exact absurd rfl selected
  | dummy => simp only [handled]
  | peer key created => simp only [handled]

end Loop

end WarpPlus.Uapi
