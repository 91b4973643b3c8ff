import WarpPlus.Semantics.Crypto
import WarpPlus.Semantics.Decimal
import WarpPlus.Device.Noise
import WarpPlus.Device.InitiationReplay
import WarpPlus.Tai64n.Stamp

/-! The Noise IKpsk2 handshake of `device/noise-protocol.go`, with its
cryptography: the transcript hash and chain key each side folds the messages
into, the two messages, and the keys `BeginSymmetricSession` derives.

BLAKE2s, its HMAC, ChaCha20-Poly1305 and X25519 are a `Crypto.Suite`. A random
ephemeral key is its 32 drawn bytes, clamped as `newPrivateKey` clamps them.
The index each call takes is drawn as in `WarpPlus.Device.IndexTable`.
`LookupPeer` is the device's key map, and `isRunning` its peers' flag. Each call
reads `time.Now()` once, as `now`.

A call writes the peer's handshake as it goes, so a call that fails part of the
way keeps what it wrote before it failed, as in Go.
-/

set_option autoImplicit false

namespace WarpPlus.Noise

open Crypto GoText
open WarpPlus.Device (HandshakeState IndexTable Draw)
open WarpPlus.Device.Initiation (Timestamp)

def noiseConstruction : List UInt8 := ascii "Noise_IKpsk2_25519_ChaChaPoly_BLAKE2s"

def wgIdentifier : List UInt8 := ascii "WireGuard v1 zx2c4 Jason@zx2c4.com"

def messageInitiationType : UInt32 := 1

def messageResponseType : UInt32 := 2

/-- `ZeroNonce`, the nonce of every handshake seal. -/
def zeroNonce : List UInt8 := List.replicate 12 0

/-- `isZero`, in constant time in Go. -/
def isZero (val : List UInt8) : Bool := val.all (· == 0)

/-- `NoisePrivateKey.clamp`. -/
def clamp (sk : List UInt8) : List UInt8 :=
  (sk.modify 0 (· &&& 248)).modify 31 fun b => (b &&& 127) ||| 64

inductive HandshakeError where
  /-- `errInvalidPublicKey`: a shared secret, or the precomputed one, is zero. -/
  | invalidPublicKey
  /-- The failed `randUint32` of `NewIndexForHandshake`, with the value it read. -/
  | indexTable (value : UInt32)
  /-- "handshake initiation must be consumed first" -/
  | initiationNotConsumed
  deriving DecidableEq, Repr

section Primitives

variable (suite : Suite)

def mixKey (c data : List UInt8) : List UInt8 := suite.kdf1 c data

/-- `mixHash`: BLAKE2s over the hash, then the data. -/
def mixHash (h data : List UInt8) : List UInt8 := suite.hash (h ++ data)

def initialChainKey : List UInt8 := suite.hash noiseConstruction

def initialHash : List UInt8 := mixHash suite (initialChainKey suite) wgIdentifier

def publicKey (sk : List UInt8) : List UInt8 := suite.scalarBaseMult sk

def sharedSecret (sk pk : List UInt8) : Except HandshakeError (List UInt8) :=
  let ss := suite.scalarMult sk pk
  if isZero ss then .error .invalidPublicKey else .ok ss

end Primitives

/-- The fields of `Handshake` the four calls read and write. `initiation` holds
`lastTimestamp` and `lastInitiationConsumption`, which the replay and flood
checks of `WarpPlus.Device.Initiation` read. -/
structure Handshake where
  state : HandshakeState
  hash : List UInt8
  chainKey : List UInt8
  presharedKey : List UInt8
  localEphemeral : List UInt8
  localIndex : UInt32
  remoteIndex : UInt32
  remoteStatic : List UInt8
  remoteEphemeral : List UInt8
  precomputedStaticStatic : List UInt8
  initiation : Device.Initiation.Handshake
  deriving DecidableEq, Repr

structure StaticIdentity where
  privateKey : List UInt8
  publicKey : List UInt8
  deriving DecidableEq, Repr

/-- The fields of `MessageInitiation` the handshake writes; `AddMacs` fills the
two MACs after it. -/
structure MessageInitiation where
  type : UInt32
  sender : UInt32
  ephemeral : List UInt8
  static : List UInt8
  timestamp : List UInt8
  deriving DecidableEq, Repr

structure MessageResponse where
  type : UInt32
  sender : UInt32
  receiver : UInt32
  ephemeral : List UInt8
  empty : List UInt8
  deriving DecidableEq, Repr

structure Device (P : Type) where
  staticIdentity : StaticIdentity
  /-- `LookupPeer`: the peer whose remote static key this is. -/
  lookupPeer : List UInt8 → Option P
  isRunning : P → Bool
  handshakes : P → Handshake
  indexTable : IndexTable P

variable {P : Type}

section Calls

variable [DecidableEq P]

def Device.setHandshake (device : Device P) (peer : P) (handshake : Handshake) : Device P :=
  { device with handshakes := Function.update device.handshakes peer handshake }

@[simp] theorem Device.setHandshake_same (device : Device P) (peer : P) (handshake : Handshake) :
    (device.setHandshake peer handshake).handshakes peer = handshake := by
  simp [Device.setHandshake]

variable (suite : Suite)

/-- `CreateMessageInitiation`, with the ephemeral key's random bytes, the time
`tai64n.Now` reads, and the draws of `NewIndexForHandshake`. -/
def createMessageInitiation (device : Device P) (peer : P) (ephemeral : List UInt8) (now : Int)
    (draws : List Draw) : Option (Device P × Except HandshakeError MessageInitiation) :=
  let handshake := device.handshakes peer
  let localEphemeral := clamp ephemeral
  let hash := mixHash suite (initialHash suite) handshake.remoteStatic
  let msgEphemeral := publicKey suite localEphemeral
  let chainKey := mixKey suite (initialChainKey suite) msgEphemeral
  let hash := mixHash suite hash msgEphemeral
  -- what the call has written when it returns early
  let written (hash chainKey : List UInt8) := device.setHandshake peer
    { handshake with hash, chainKey, localEphemeral }
  match sharedSecret suite localEphemeral handshake.remoteStatic with
  | .error err => some (written hash chainKey, .error err)
  | .ok ss =>
    let (chainKey, key) := suite.kdf2 chainKey ss
    let static := suite.aeadSeal key zeroNonce device.staticIdentity.publicKey hash
    let hash := mixHash suite hash static
    if isZero handshake.precomputedStaticStatic then some (written hash chainKey, .error .invalidPublicKey)
    else
      let (chainKey, key) := suite.kdf2 chainKey handshake.precomputedStaticStatic
      let timestamp := suite.aeadSeal key zeroNonce (Tai64n.stamp now) hash
      let table := device.indexTable.delete handshake.localIndex
      match table.newIndexForHandshake peer draws with
      | none => none
      | some (.error value) =>
        some ({ written hash chainKey with indexTable := table }, .error (.indexTable value))
      | some (.ok (index, table)) =>
        some ({ device with indexTable := table }.setHandshake peer
            { handshake with hash := mixHash suite hash timestamp, chainKey, localEphemeral,
                             localIndex := index, state := .initiationCreated },
          .ok ⟨messageInitiationType, index, msgEphemeral, static, timestamp⟩)

/-- `ConsumeMessageInitiation` at time `now`: the peer it returns, if any, and the
device after it. -/
def consumeMessageInitiation (device : Device P) (msg : MessageInitiation) (now : Int) :
    Option P × Device P :=
  if msg.type ≠ messageInitiationType then (none, device)
  else
    let hash := mixHash suite (mixHash suite (initialHash suite) device.staticIdentity.publicKey) msg.ephemeral
    let chainKey := mixKey suite (initialChainKey suite) msg.ephemeral
    match sharedSecret suite device.staticIdentity.privateKey msg.ephemeral with
    | .error _ => (none, device)
    | .ok ss =>
      let (chainKey, key) := suite.kdf2 chainKey ss
      match suite.aeadOpen key zeroNonce msg.static hash with
      | none => (none, device)
      | some peerPK =>
        let hash := mixHash suite hash msg.static
        match device.lookupPeer peerPK with
        | none => (none, device)
        | some peer =>
          let handshake := device.handshakes peer
          if !device.isRunning peer || isZero handshake.precomputedStaticStatic then (none, device)
          else
            let (chainKey, key) := suite.kdf2 chainKey handshake.precomputedStaticStatic
            -- the replay and flood checks, on the decrypted timestamp
            match Device.Initiation.check handshake.initiation now
                (suite.aeadOpen key zeroNonce msg.timestamp hash) with
            | none => (none, device)
            | some timestamp =>
              (some peer, device.setHandshake peer
                { handshake with hash := mixHash suite hash msg.timestamp, chainKey,
                                 remoteIndex := msg.sender, remoteEphemeral := msg.ephemeral,
                                 initiation := handshake.initiation.update timestamp now,
                                 state := .initiationConsumed })

/-- `CreateMessageResponse`, with the ephemeral key's random bytes and the draws
of `NewIndexForHandshake`. -/
def createMessageResponse (device : Device P) (peer : P) (ephemeral : List UInt8) (draws : List Draw) :
    Option (Device P × Except HandshakeError MessageResponse) :=
  let handshake := device.handshakes peer
  if handshake.state ≠ .initiationConsumed then some (device, .error .initiationNotConsumed)
  else
    let table := device.indexTable.delete handshake.localIndex
    match table.newIndexForHandshake peer draws with
    | none => none
    -- `handshake.localIndex, err = ...` keeps the value read also on an error
    | some (.error value) =>
      some ({ device with indexTable := table }.setHandshake peer { handshake with localIndex := value },
        .error (.indexTable value))
    | some (.ok (index, table)) =>
      let device := { device with indexTable := table }
      let localEphemeral := clamp ephemeral
      let msgEphemeral := publicKey suite localEphemeral
      let hash := mixHash suite handshake.hash msgEphemeral
      let chainKey := mixKey suite handshake.chainKey msgEphemeral
      let written (chainKey : List UInt8) := device.setHandshake peer
        { handshake with localIndex := index, localEphemeral, hash, chainKey }
      match sharedSecret suite localEphemeral handshake.remoteEphemeral with
      | .error err => some (written chainKey, .error err)
      | .ok ss =>
        let chainKey := mixKey suite chainKey ss
        match sharedSecret suite localEphemeral handshake.remoteStatic with
        | .error err => some (written chainKey, .error err)
        | .ok ss =>
          let chainKey := mixKey suite chainKey ss
          -- the preshared key
          let (chainKey, tau, key) := suite.kdf3 chainKey handshake.presharedKey
          let hash := mixHash suite hash tau
          let empty := suite.aeadSeal key zeroNonce [] hash
          some (device.setHandshake peer
              { handshake with localIndex := index, localEphemeral, hash := mixHash suite hash empty,
                               chainKey, state := .responseCreated },
            .ok ⟨messageResponseType, index, handshake.remoteIndex, msgEphemeral, empty⟩)

/-- `ConsumeMessageResponse`: the peer it returns, if any, and the device after it. -/
def consumeMessageResponse (device : Device P) (msg : MessageResponse) : Option P × Device P :=
  if msg.type ≠ messageResponseType then (none, device)
  else
    match device.indexTable msg.receiver with
    | none => (none, device)
    | some entry =>
      let handshake := device.handshakes entry.peer
      if !entry.handshake || handshake.state ≠ .initiationCreated then (none, device)
      else
        let hash := mixHash suite handshake.hash msg.ephemeral
        let chainKey := mixKey suite handshake.chainKey msg.ephemeral
        match sharedSecret suite handshake.localEphemeral msg.ephemeral with
        | .error _ => (none, device)
        | .ok ss =>
          let chainKey := mixKey suite chainKey ss
          match sharedSecret suite device.staticIdentity.privateKey msg.ephemeral with
          | .error _ => (none, device)
          | .ok ss =>
            let chainKey := mixKey suite chainKey ss
            let (chainKey, tau, key) := suite.kdf3 chainKey handshake.presharedKey
            let hash := mixHash suite hash tau
            match suite.aeadOpen key zeroNonce msg.empty hash with
            | none => (none, device)
            | some _ =>
              (some entry.peer, device.setHandshake entry.peer
                { handshake with hash := mixHash suite hash msg.empty, chainKey, remoteIndex := msg.sender,
                                 state := .responseConsumed })

/-- The keys `BeginSymmetricSession` derives: whether this side initiated, then
the sending key and the receiving key; `none` in any other state, where it
returns an error. -/
def sessionKeys (handshake : Handshake) : Option (Bool × List UInt8 × List UInt8) :=
  match handshake.state with
  | .responseConsumed =>
    let (first, second) := suite.kdf2 handshake.chainKey []
    some (true, first, second)
  | .responseCreated =>
    let (first, second) := suite.kdf2 handshake.chainKey []
    some (false, second, first)
  | _ => none

end Calls

/-! ### The transcript

What the two sides fold into the handshake, as a function of what both can
compute: each side makes the same calls on the same values, the initiator from
its ephemeral secret and the responder from its static one. -/

section Transcript

variable (suite : Suite)

structure InitiationTranscript where
  static : List UInt8
  timestamp : List UInt8
  hash : List UInt8
  chainKey : List UInt8

/-- The initiation's sealed static key and timestamp, and the hash and chain key
after them, from the responder's static key, the ephemeral public key, their
shared secret `es`, the static-static secret, the initiator's static key and the
timestamp. -/
def initiationTranscript (responderStatic ephemeral es staticStatic initiatorStatic timestamp : List UInt8) :
    InitiationTranscript :=
  let hash := mixHash suite (mixHash suite (initialHash suite) responderStatic) ephemeral
  let keys := suite.kdf2 (mixKey suite (initialChainKey suite) ephemeral) es
  let static := suite.aeadSeal keys.2 zeroNonce initiatorStatic hash
  let hash := mixHash suite hash static
  let keys := suite.kdf2 keys.1 staticStatic
  let sealed := suite.aeadSeal keys.2 zeroNonce timestamp hash
  ⟨static, sealed, mixHash suite hash sealed, keys.1⟩

structure ResponseTranscript where
  empty : List UInt8
  hash : List UInt8
  chainKey : List UInt8

/-- The response's sealed empty field, and the hash and chain key after it, from
the hash and chain key after the initiation, the responder's ephemeral public
key, the ephemeral-ephemeral and static-ephemeral secrets and the preshared
key. -/
def responseTranscript (hash chainKey ephemeral ee se presharedKey : List UInt8) : ResponseTranscript :=
  let hash := mixHash suite hash ephemeral
  let chainKey := mixKey suite (mixKey suite (mixKey suite chainKey ephemeral) ee) se
  let keys := suite.kdf3 chainKey presharedKey
  let hash := mixHash suite hash keys.2.1
  let empty := suite.aeadSeal keys.2.2 zeroNonce [] hash
  ⟨empty, mixHash suite hash empty, keys.1⟩

end Transcript

/-! ### What each call does on success

The two calls that create a message compute the transcript from their own side,
and the two that consume one accept the transcript they compute from theirs. -/

section Spec

variable [DecidableEq P] {suite : Suite} {device device' : Device P} {peer : P}

theorem createMessageInitiation_ok {ephemeral : List UInt8} {now : Int} {draws : List Draw}
    {msg : MessageInitiation}
    (created : createMessageInitiation suite device peer ephemeral now draws = some (device', .ok msg)) :
    ∃ es index table,
      sharedSecret suite (clamp ephemeral) (device.handshakes peer).remoteStatic = .ok es ∧
      isZero (device.handshakes peer).precomputedStaticStatic = false ∧
      (device.indexTable.delete (device.handshakes peer).localIndex).newIndexForHandshake peer draws =
        some (.ok (index, table)) ∧
      let transcript := initiationTranscript suite (device.handshakes peer).remoteStatic
        (publicKey suite (clamp ephemeral)) es (device.handshakes peer).precomputedStaticStatic
        device.staticIdentity.publicKey (Tai64n.stamp now)
      msg = ⟨messageInitiationType, index, publicKey suite (clamp ephemeral), transcript.static,
        transcript.timestamp⟩ ∧
      device' = { device with indexTable := table }.setHandshake peer
        { device.handshakes peer with hash := transcript.hash, chainKey := transcript.chainKey,
                                      localEphemeral := clamp ephemeral, localIndex := index,
                                      state := .initiationCreated } := by
  unfold createMessageInitiation at created
  dsimp only at created
  split at created
  · cases created
  next es secret =>
  split at created
  · cases created
  next nonzero =>
  split at created
  · cases created
  · cases created
  next index table assigned =>
  simp only [Option.some.injEq, Prod.mk.injEq, Except.ok.injEq] at created
  obtain ⟨rfl, rfl⟩ := created
  exact ⟨es, index, table, secret, Bool.eq_false_iff.mpr nonzero, assigned, rfl, rfl⟩

theorem createMessageResponse_ok {ephemeral : List UInt8} {draws : List Draw} {msg : MessageResponse}
    (created : createMessageResponse suite device peer ephemeral draws = some (device', .ok msg)) :
    ∃ ee se index table,
      (device.handshakes peer).state = .initiationConsumed ∧
      (device.indexTable.delete (device.handshakes peer).localIndex).newIndexForHandshake peer draws =
        some (.ok (index, table)) ∧
      sharedSecret suite (clamp ephemeral) (device.handshakes peer).remoteEphemeral = .ok ee ∧
      sharedSecret suite (clamp ephemeral) (device.handshakes peer).remoteStatic = .ok se ∧
      let transcript := responseTranscript suite (device.handshakes peer).hash (device.handshakes peer).chainKey
        (publicKey suite (clamp ephemeral)) ee se (device.handshakes peer).presharedKey
      msg = ⟨messageResponseType, index, (device.handshakes peer).remoteIndex, publicKey suite (clamp ephemeral),
        transcript.empty⟩ ∧
      device' = { device with indexTable := table }.setHandshake peer
        { device.handshakes peer with localIndex := index, localEphemeral := clamp ephemeral,
                                      hash := transcript.hash, chainKey := transcript.chainKey,
                                      state := .responseCreated } := by
  unfold createMessageResponse at created
  dsimp only at created
  split at created
  · cases created
  next consumed =>
  split at created
  · cases created
  · cases created
  next index table assigned =>
  split at created
  · cases created
  next ee ephemeralSecret =>
  split at created
  · cases created
  next se staticSecret =>
  simp only [Option.some.injEq, Prod.mk.injEq, Except.ok.injEq] at created
  obtain ⟨rfl, rfl⟩ := created
  exact ⟨ee, se, index, table, not_not.mp consumed, assigned, ephemeralSecret, staticSecret, rfl, rfl⟩

theorem consumeMessageInitiation_transcript (laws : suite.Laws) (sender : UInt32)
    {ephemeral es initiatorStatic : List UInt8} {timestamp : Timestamp} {now : Int}
    (secret : sharedSecret suite device.staticIdentity.privateKey ephemeral = .ok es)
    (found : device.lookupPeer initiatorStatic = some peer) (running : device.isRunning peer = true)
    (nonzero : isZero (device.handshakes peer).precomputedStaticStatic = false)
    (fresh : (device.handshakes peer).initiation.lastTimestamp < timestamp)
    (quiet : Device.Initiation.handshakeInitationRate <
      now - (device.handshakes peer).initiation.lastInitiationConsumption) :
    let transcript := initiationTranscript suite device.staticIdentity.publicKey ephemeral es
      (device.handshakes peer).precomputedStaticStatic initiatorStatic timestamp
    consumeMessageInitiation suite device
        ⟨messageInitiationType, sender, ephemeral, transcript.static, transcript.timestamp⟩ now =
      (some peer, device.setHandshake peer
        { device.handshakes peer with hash := transcript.hash, chainKey := transcript.chainKey,
                                      remoteIndex := sender, remoteEphemeral := ephemeral,
                                      initiation := (device.handshakes peer).initiation.update timestamp now,
                                      state := .initiationConsumed }) := by
  dsimp only [initiationTranscript]
  unfold consumeMessageInitiation
  simp only [ne_eq, not_true_eq_false, if_false]
  rw [secret]
  dsimp only
  -- the static key opens under the key the responder derives
  rw [laws.aeadOpen_aeadSeal]
  dsimp only
  rw [found]
  dsimp only
  rw [running, nonzero, laws.aeadOpen_aeadSeal, Device.Initiation.check_eq_some.mpr ⟨rfl, fresh, quiet⟩]
  rfl

theorem consumeMessageResponse_transcript (laws : suite.Laws) (sender : UInt32) {ephemeral ee se : List UInt8}
    (entry : device.indexTable (device.handshakes peer).localIndex = some ⟨peer, true, none⟩)
    (state : (device.handshakes peer).state = .initiationCreated)
    (ephemeralSecret : sharedSecret suite (device.handshakes peer).localEphemeral ephemeral = .ok ee)
    (staticSecret : sharedSecret suite device.staticIdentity.privateKey ephemeral = .ok se) :
    let transcript := responseTranscript suite (device.handshakes peer).hash (device.handshakes peer).chainKey
      ephemeral ee se (device.handshakes peer).presharedKey
    consumeMessageResponse suite device
        ⟨messageResponseType, sender, (device.handshakes peer).localIndex, ephemeral, transcript.empty⟩ =
      (some peer, device.setHandshake peer
        { device.handshakes peer with hash := transcript.hash, chainKey := transcript.chainKey,
                                      remoteIndex := sender, state := .responseConsumed }) := by
  dsimp only [responseTranscript]
  unfold consumeMessageResponse
  simp only [ne_eq, not_true_eq_false, if_false]
  rw [entry]
  dsimp only
  rw [state]
  simp only [Bool.not_true, Bool.false_or, not_true_eq_false, decide_false, Bool.false_eq_true, if_false]
  rw [ephemeralSecret]
  dsimp only
  rw [staticSecret]
  dsimp only
  rw [laws.aeadOpen_aeadSeal]

end Spec

/-! ### An honest handshake

Two devices whose peer entries name each other: each static public key is its
private key's, each entry holds the other's static key, the static-static secret
`NewPeer` and `SetPrivateKey` compute from them, and one preshared key. The
responder finds the initiator by its key and runs it. With the suite's two laws,
the responder accepts the initiation, the initiator accepts the response, and
`BeginSymmetricSession` gives each side the other's keys: the transcript both fold
is the same, since each shared secret is the same from either side. -/

section Agreement

variable {suite : Suite} {Q : Type}

structure Configured (suite : Suite) (devI : Device P) (pR : P) (devR : Device Q) (pI : Q) : Prop where
  keyedI : devI.staticIdentity.publicKey = publicKey suite devI.staticIdentity.privateKey
  keyedR : devR.staticIdentity.publicKey = publicKey suite devR.staticIdentity.privateKey
  toR : (devI.handshakes pR).remoteStatic = devR.staticIdentity.publicKey
  toI : (devR.handshakes pI).remoteStatic = devI.staticIdentity.publicKey
  staticI : (devI.handshakes pR).precomputedStaticStatic =
    suite.scalarMult devI.staticIdentity.privateKey (devI.handshakes pR).remoteStatic
  staticR : (devR.handshakes pI).precomputedStaticStatic =
    suite.scalarMult devR.staticIdentity.privateKey (devR.handshakes pI).remoteStatic
  presharedKey : (devR.handshakes pI).presharedKey = (devI.handshakes pR).presharedKey
  found : devR.lookupPeer devI.staticIdentity.publicKey = some pI
  running : devR.isRunning pI = true

/-- The two sides once the responder has consumed the initiation: one hash and
one chain key, and on the responder's side the initiator's ephemeral key and
index, which the initiator's table maps to its handshake; the static keys and
the preshared key stay as they were configured. -/
structure Initiated (suite : Suite) (devI : Device P) (pR : P) (devR : Device Q) (pI : Q) : Prop where
  initiatorState : (devI.handshakes pR).state = .initiationCreated
  entry : devI.indexTable (devI.handshakes pR).localIndex = some ⟨pR, true, none⟩
  responderState : (devR.handshakes pI).state = .initiationConsumed
  hash : (devR.handshakes pI).hash = (devI.handshakes pR).hash
  chainKey : (devR.handshakes pI).chainKey = (devI.handshakes pR).chainKey
  ephemeral : (devR.handshakes pI).remoteEphemeral = publicKey suite (devI.handshakes pR).localEphemeral
  index : (devR.handshakes pI).remoteIndex = (devI.handshakes pR).localIndex
  static : (devR.handshakes pI).remoteStatic = publicKey suite devI.staticIdentity.privateKey
  presharedKey : (devR.handshakes pI).presharedKey = (devI.handshakes pR).presharedKey

/-- The two sides once the initiator has consumed the response. -/
structure Responded (devI : Device P) (pR : P) (devR : Device Q) (pI : Q) : Prop where
  initiatorState : (devI.handshakes pR).state = .responseConsumed
  responderState : (devR.handshakes pI).state = .responseCreated
  chainKey : (devR.handshakes pI).chainKey = (devI.handshakes pR).chainKey
  initiatorIndex : (devR.handshakes pI).remoteIndex = (devI.handshakes pR).localIndex
  responderIndex : (devI.handshakes pR).remoteIndex = (devR.handshakes pI).localIndex

variable {devI : Device P} {pR : P} {devR : Device Q} {pI : Q}

theorem Configured.precomputed_eq (laws : suite.Laws) (paired : Configured suite devI pR devR pI) :
    (devR.handshakes pI).precomputedStaticStatic = (devI.handshakes pR).precomputedStaticStatic := by
  rw [paired.staticR, paired.staticI, paired.toI, paired.toR, paired.keyedI, paired.keyedR, publicKey, publicKey,
    laws.scalarMult_comm]

theorem sharedSecret_comm (laws : suite.Laws) (a b : List UInt8) :
    sharedSecret suite a (publicKey suite b) = sharedSecret suite b (publicKey suite a) := by
  unfold sharedSecret publicKey
  rw [laws.scalarMult_comm]

theorem Responded.keys_agree (responded : Responded devI pR devR pI) :
    ∃ send receive, sessionKeys suite (devI.handshakes pR) = some (true, send, receive) ∧
      sessionKeys suite (devR.handshakes pI) = some (false, receive, send) := by
  refine ⟨(suite.kdf2 (devI.handshakes pR).chainKey []).1, (suite.kdf2 (devI.handshakes pR).chainKey []).2, ?_, ?_⟩
  · rw [sessionKeys, responded.initiatorState]
  · rw [sessionKeys, responded.responderState, responded.chainKey]

variable [DecidableEq P] [DecidableEq Q]

theorem Configured.initiate (laws : suite.Laws) (paired : Configured suite devI pR devR pI)
    {devI₁ : Device P} {eI : List UInt8} {nowI nowR : Int} {draws : List Draw} {init : MessageInitiation}
    (fresh : (devR.handshakes pI).initiation.lastTimestamp < Tai64n.stamp nowI)
    (quiet : Device.Initiation.handshakeInitationRate <
      nowR - (devR.handshakes pI).initiation.lastInitiationConsumption)
    (created : createMessageInitiation suite devI pR eI nowI draws = some (devI₁, .ok init)) :
    (consumeMessageInitiation suite devR init nowR).1 = some pI ∧
      Initiated suite devI₁ pR (consumeMessageInitiation suite devR init nowR).2 pI := by
  obtain ⟨es, index, table, secret, nonzero, assigned, rfl, rfl⟩ := createMessageInitiation_ok created
  -- the responder's side of the ephemeral-static secret
  have esR : sharedSecret suite devR.staticIdentity.privateKey (publicKey suite (clamp eI)) = .ok es := by
    rw [sharedSecret_comm laws, ← paired.keyedR, ← paired.toR, secret]
  have consumed := consumeMessageInitiation_transcript laws index esR paired.found paired.running
    (paired.precomputed_eq laws ▸ nonzero) fresh quiet
  rw [← paired.toR, paired.precomputed_eq laws] at consumed
  rw [consumed]
  have entry := (IndexTable.newIndexForHandshake_ok assigned).2.2
  refine ⟨rfl, ⟨?_, ?_, ?_, ?_, ?_, ?_, ?_, ?_, ?_⟩⟩ <;> simp only [Device.setHandshake_same]
  · simp [Device.setHandshake, entry]
  · exact paired.toI.trans paired.keyedI
  · exact paired.presharedKey

theorem Initiated.respond (laws : suite.Laws) (initiated : Initiated suite devI pR devR pI)
    {devR₁ : Device Q} {eR : List UInt8} {draws : List Draw} {resp : MessageResponse}
    (created : createMessageResponse suite devR pI eR draws = some (devR₁, .ok resp)) :
    (consumeMessageResponse suite devI resp).1 = some pR ∧
      Responded (consumeMessageResponse suite devI resp).2 pR devR₁ pI := by
  obtain ⟨ee, se, index, table, -, -, eeSecret, seSecret, rfl, rfl⟩ := createMessageResponse_ok created
  -- the initiator's side of the ephemeral-ephemeral and static-ephemeral secrets
  have eeI : sharedSecret suite (devI.handshakes pR).localEphemeral (publicKey suite (clamp eR)) = .ok ee := by
    rw [sharedSecret_comm laws, ← initiated.ephemeral, eeSecret]
  have seI : sharedSecret suite devI.staticIdentity.privateKey (publicKey suite (clamp eR)) = .ok se := by
    rw [sharedSecret_comm laws, ← initiated.static, seSecret]
  have consumed := consumeMessageResponse_transcript laws index initiated.entry initiated.initiatorState eeI seI
  rw [initiated.index, initiated.hash, initiated.chainKey, initiated.presharedKey, consumed]
  refine ⟨rfl, ⟨?_, ?_, ?_, ?_, ?_⟩⟩ <;> simp only [Device.setHandshake_same]
  · exact initiated.index

/-- An honest handshake agrees: the responder accepts the initiation, the
initiator accepts the response, and each derives the keys the other receives
and sends with. -/
theorem handshake_agreement (laws : suite.Laws) (paired : Configured suite devI pR devR pI)
    {devI₁ : Device P} {devR₂ : Device Q} {eI eR : List UInt8} {nowI nowR : Int} {drawsI drawsR : List Draw}
    {init : MessageInitiation} {resp : MessageResponse}
    (fresh : (devR.handshakes pI).initiation.lastTimestamp < Tai64n.stamp nowI)
    (quiet : Device.Initiation.handshakeInitationRate <
      nowR - (devR.handshakes pI).initiation.lastInitiationConsumption)
    (created : createMessageInitiation suite devI pR eI nowI drawsI = some (devI₁, .ok init))
    (responded : createMessageResponse suite (consumeMessageInitiation suite devR init nowR).2 pI eR drawsR =
      some (devR₂, .ok resp)) :
    (consumeMessageInitiation suite devR init nowR).1 = some pI ∧
    (consumeMessageResponse suite devI₁ resp).1 = some pR ∧
    Responded (consumeMessageResponse suite devI₁ resp).2 pR devR₂ pI ∧
    ∃ send receive,
      sessionKeys suite ((consumeMessageResponse suite devI₁ resp).2.handshakes pR) = some (true, send, receive) ∧
      sessionKeys suite (devR₂.handshakes pI) = some (false, receive, send) := by
  obtain ⟨accepted, initiated⟩ := paired.initiate laws fresh quiet created
  obtain ⟨answered, done⟩ := initiated.respond laws responded
  exact ⟨accepted, answered, done, done.keys_agree⟩

end Agreement

def sumTag (bytes : List UInt8) : UInt8 := bytes.foldl (· + ·) 0

/-- A suite of byte sums, with no security at all but with the two laws, to run
the handshake on. -/
def sumSuite : Suite where
  hash bytes := [sumTag bytes, sumTag bytes.reverse * 3]
  hmac key input := [sumTag (key ++ input), sumTag (input ++ key) + 1]
  aeadSeal key nonce plaintext ad := plaintext ++ [sumTag (key ++ nonce ++ ad)]
  aeadOpen key nonce ciphertext ad :=
    if ciphertext.getLast? = some (sumTag (key ++ nonce ++ ad)) then some ciphertext.dropLast else none
  scalarBaseMult scalar := scalar
  scalarMult scalar point := List.zipWith (· * ·) scalar point

theorem sumSuite_laws : sumSuite.Laws where
  aeadOpen_aeadSeal key nonce plaintext ad := by
    simp [sumSuite]
  scalarMult_comm a b := by
    simp only [sumSuite]
    exact List.zipWith_comm_of_comm mul_comm

def sumHandshake (presharedKey remoteStatic staticStatic : List UInt8) : Handshake :=
  ⟨.zeroed, [], [], presharedKey, [], 0, 0, remoteStatic, [], staticStatic, ⟨[], 0⟩⟩

def sumInitiator : Device Unit :=
  ⟨⟨[8, 3], [8, 3]⟩, fun _ => some (), fun _ => true, fun _ => sumHandshake [7, 7] [16, 5] [128, 15], fun _ => none⟩

def sumResponder : Device Unit :=
  ⟨⟨[16, 5], [16, 5]⟩, fun key => if key = [8, 3] then some () else none, fun _ => true,
    fun _ => sumHandshake [7, 7] [8, 3] [128, 15], fun _ => none⟩

set_option maxRecDepth 4000 in
theorem handshake_agreement_sums :
    ∃ (devI₁ devR₂ : Device Unit) (init : MessageInitiation) (resp : MessageResponse),
      createMessageInitiation sumSuite sumInitiator () [24, 9] 5000000000 [.value 11] = some (devI₁, .ok init) ∧
      createMessageResponse sumSuite (consumeMessageInitiation sumSuite sumResponder init 6000000000).2 ()
        [40, 6] [.value 12] = some (devR₂, .ok resp) ∧
      (consumeMessageInitiation sumSuite sumResponder init 6000000000).1 = some () ∧
      (consumeMessageResponse sumSuite devI₁ resp).1 = some () ∧
      Responded (consumeMessageResponse sumSuite devI₁ resp).2 () devR₂ () ∧
      ∃ send receive,
        sessionKeys sumSuite ((consumeMessageResponse sumSuite devI₁ resp).2.handshakes ()) =
          some (true, send, receive) ∧
        sessionKeys sumSuite (devR₂.handshakes ()) = some (false, receive, send) :=
  ⟨_, _, _, _, rfl, rfl, handshake_agreement sumSuite_laws
    (show Configured sumSuite sumInitiator () sumResponder () from
      ⟨by decide, by decide, by decide, by decide, by decide, by decide, by decide, by decide, by decide⟩)
    (show _ < Tai64n.stamp 5000000000 by decide) (by decide)
    (show createMessageInitiation sumSuite sumInitiator () [24, 9] 5000000000 [.value 11] = _ from rfl)
    (show createMessageResponse sumSuite _ () [40, 6] [.value 12] = _ from rfl)⟩

end WarpPlus.Noise
