import WarpPlus.Device.IndexTable

/-! The handshake and keypair bookkeeping of `device/noise-protocol.go`,
`device/keypair.go` and `device/peer.go`, as far as it touches indices: which
index a handshake holds, which keypairs a peer holds, and what the index table
maps.

The cryptography is left out: where a call fails on a key or an authentication
check, the operation carries the outcome (`keysOk`), and a call that fails before
its first write to the handshake's index or state leaves the device as it was.
Which peer an initiation decrypts to is the `peer` of `consumeMessageInitiation`.
A call answers `none` only when the draws it was given run out.
-/

set_option autoImplicit false
set_option linter.dupNamespace false

namespace WarpPlus.Device

inductive HandshakeState where
  | zeroed
  | initiationCreated
  | initiationConsumed
  | responseCreated
  | responseConsumed
  deriving DecidableEq, Repr

structure Handshake where
  state : HandshakeState
  localIndex : UInt32
  remoteIndex : UInt32
  deriving DecidableEq, Repr

/-- `Clear`, on the fields it shares with the model. -/
def Handshake.clear (handshake : Handshake) : Handshake :=
  { handshake with localIndex := 0, state := .zeroed }

structure Keypairs where
  current : Option Keypair
  previous : Option Keypair
  next : Option Keypair
  deriving DecidableEq, Repr

structure Peer where
  handshake : Handshake
  keypairs : Keypairs
  deriving DecidableEq, Repr

structure Device (P : Type) where
  peers : P → Peer
  indexTable : IndexTable P
  keypairsMade : Nat

variable {P : Type}

/-- A device with its peers as `NewPeer` makes them, and an empty table. -/
def Device.init : Device P :=
  ⟨fun _ => ⟨⟨.zeroed, 0, 0⟩, ⟨none, none, none⟩⟩, fun _ => none, 0⟩

/-- `DeleteKeypair`: a keypair's index leaves the table. -/
def deleteKeypair (table : IndexTable P) : Option Keypair → IndexTable P
  | none => table
  | some key => table.delete key.localIndex

@[simp] theorem deleteKeypair_none (table : IndexTable P) : deleteKeypair table none = table := rfl

@[simp] theorem deleteKeypair_some (table : IndexTable P) (key : Keypair) :
    deleteKeypair table (some key) = table.delete key.localIndex := rfl

variable [DecidableEq P]

def Device.setPeer (device : Device P) (peer : P) (state : Peer) : Device P :=
  { device with peers := Function.update device.peers peer state }

@[simp] theorem Device.setPeer_peers (device : Device P) (peer : P) (state : Peer) :
    (device.setPeer peer state).peers = Function.update device.peers peer state := rfl

@[simp] theorem Device.setPeer_indexTable (device : Device P) (peer : P) (state : Peer) :
    (device.setPeer peer state).indexTable = device.indexTable := rfl

namespace Device

def createMessageInitiation (device : Device P) (peer : P) (keysOk : Bool) (draws : List Draw) :
    Option (Device P) :=
  if !keysOk then some device
  else
    let handshake := (device.peers peer).handshake
    let table := device.indexTable.delete handshake.localIndex
    match table.newIndexForHandshake peer draws with
    | none => none
    | some (.error _) => some { device with indexTable := table }
    | some (.ok (index, table)) =>
      some ({ device with indexTable := table }.setPeer peer { device.peers peer with
        handshake := { handshake with localIndex := index, state := .initiationCreated } })

def consumeMessageInitiation (device : Device P) (peer : P) (sender : UInt32) : Device P :=
  device.setPeer peer { device.peers peer with
    handshake := { (device.peers peer).handshake with
      remoteIndex := sender, state := .initiationConsumed } }

/-- `keysOk` is whether the ephemeral key and both shared secrets are made; the index
is assigned before them. -/
def createMessageResponse (device : Device P) (peer : P) (keysOk : Bool) (draws : List Draw) :
    Option (Device P) :=
  let handshake := (device.peers peer).handshake
  if handshake.state ≠ .initiationConsumed then some device
  else
    let table := device.indexTable.delete handshake.localIndex
    match table.newIndexForHandshake peer draws with
    | none => none
    | some (.error index) =>
      some ({ device with indexTable := table }.setPeer peer { device.peers peer with
        handshake := { handshake with localIndex := index } })
    | some (.ok (index, table)) =>
      let handshake := { handshake with localIndex := index }
      some ({ device with indexTable := table }.setPeer peer { device.peers peer with
        handshake := if keysOk then { handshake with state := .responseCreated } else handshake })

def consumeMessageResponse (device : Device P) (receiver sender : UInt32) (keysOk : Bool) :
    Device P :=
  match device.indexTable receiver with
  | some entry =>
    let handshake := (device.peers entry.peer).handshake
    if entry.handshake ∧ handshake.state = .initiationCreated ∧ keysOk then
      device.setPeer entry.peer { device.peers entry.peer with
        handshake := { handshake with remoteIndex := sender, state := .responseConsumed } }
    else device
  | none => device

/-- The rotation of `BeginSymmetricSession`: the peer's new slots and the table after
the keypairs that leave them are deleted. -/
def rotate (table : IndexTable P) (keypairs : Keypairs) (isInitiator : Bool) (keypair : Keypair) :
    Keypairs × IndexTable P :=
  if isInitiator then
    if keypairs.next.isSome then
      (⟨some keypair, keypairs.next, none⟩,
        deleteKeypair (deleteKeypair table keypairs.current) keypairs.previous)
    else (⟨some keypair, keypairs.current, keypairs.next⟩, deleteKeypair table keypairs.previous)
  else
    (⟨keypairs.current, none, some keypair⟩,
      deleteKeypair (deleteKeypair table keypairs.next) keypairs.previous)

def beginSymmetricSession (device : Device P) (peer : P) : Device P :=
  let handshake := (device.peers peer).handshake
  let isInitiator? : Option Bool := match handshake.state with
    | .responseConsumed => some true
    | .responseCreated => some false
    | _ => none
  match isInitiator? with
  | none => device
  | some isInitiator =>
    let keypair : Keypair :=
      ⟨device.keypairsMade, isInitiator, handshake.localIndex, handshake.remoteIndex⟩
    let table := device.indexTable.swapIndexForKeypair handshake.localIndex keypair
    let rotated := rotate table (device.peers peer).keypairs isInitiator keypair
    { peers := Function.update device.peers peer
        ⟨{ handshake with state := .zeroed, localIndex := 0 }, rotated.1⟩
      indexTable := rotated.2
      keypairsMade := device.keypairsMade + 1 }

def receivedWithKeypair (device : Device P) (peer : P) (received : Keypair) : Device P :=
  let keypairs := (device.peers peer).keypairs
  if keypairs.next ≠ some received then device
  else
    { device.setPeer peer { device.peers peer with
        keypairs := ⟨keypairs.next, keypairs.current, none⟩ } with
      indexTable := deleteKeypair device.indexTable keypairs.previous }

def expireCurrentKeypairs (device : Device P) (peer : P) : Device P :=
  let handshake := (device.peers peer).handshake
  { device.setPeer peer { device.peers peer with handshake := handshake.clear } with
    indexTable := device.indexTable.delete handshake.localIndex }

def zeroAndFlushAll (device : Device P) (peer : P) : Device P :=
  let keypairs := (device.peers peer).keypairs
  let table := deleteKeypair (deleteKeypair (deleteKeypair device.indexTable keypairs.previous)
    keypairs.current) keypairs.next
  let handshake := (device.peers peer).handshake
  { device.setPeer peer ⟨handshake.clear, ⟨none, none, none⟩⟩ with
    indexTable := table.delete handshake.localIndex }

end Device

/-- The calls that read or write the index table. -/
inductive Op (P : Type) where
  | createMessageInitiation (peer : P) (keysOk : Bool) (draws : List Draw)
  | consumeMessageInitiation (peer : P) (sender : UInt32)
  | createMessageResponse (peer : P) (keysOk : Bool) (draws : List Draw)
  | consumeMessageResponse (receiver sender : UInt32) (keysOk : Bool)
  | beginSymmetricSession (peer : P)
  | receivedWithKeypair (peer : P) (keypair : Keypair)
  | expireCurrentKeypairs (peer : P)
  | zeroAndFlushAll (peer : P)

def Device.apply (device : Device P) : Op P → Option (Device P)
  | .createMessageInitiation peer keysOk draws => device.createMessageInitiation peer keysOk draws
  | .consumeMessageInitiation peer sender => some (device.consumeMessageInitiation peer sender)
  | .createMessageResponse peer keysOk draws => device.createMessageResponse peer keysOk draws
  | .consumeMessageResponse receiver sender keysOk =>
    some (device.consumeMessageResponse receiver sender keysOk)
  | .beginSymmetricSession peer => some (device.beginSymmetricSession peer)
  | .receivedWithKeypair peer keypair => some (device.receivedWithKeypair peer keypair)
  | .expireCurrentKeypairs peer => some (device.expireCurrentKeypairs peer)
  | .zeroAndFlushAll peer => some (device.zeroAndFlushAll peer)

/-- A run of operations from a device; `none` once a call does not return. -/
def Device.run (device : Device P) : List (Op P) → Option (Device P)
  | [] => some device
  | op :: ops => (device.apply op).bind fun next => next.run ops

end WarpPlus.Device
