import WarpPlus.Semantics.Base64
import WarpPlus.Semantics.IPText

/-! The cached WARP identity of `warp/account.go` and the WireGuard configuration
that `app.generateWireguardConfig` builds from it.

`LoadIdentity` accepts any cache file that unmarshals into an `Identity` with a
peer, and `LoadOrCreateIdentity` keeps an identity that loads. The configuration
then indexes the first three bytes of the base64-decoded `client_id`, dropping the
decoding error, and parses the two interface addresses with `netip.MustParseAddr`;
it panics exactly when one of these fails (`generateWireguardConfig_eq_none`).
A client id of fewer than four bytes decodes to nothing, so a cached identity with
a peer and such a client id is loaded, kept, and stops every start of `runWarp`
before it has a configuration.

JSON strings are their bytes. The WARP API and the key generator are an
`Environment` of answers; writing the cache is taken to succeed and to read back
as the identity written.
-/

set_option autoImplicit false

namespace WarpPlus.Warp

open GoText NetIP

structure IdentityAccount where
  license : List UInt8
  deriving DecidableEq, Repr

structure IdentityConfigPeerEndpoint where
  host : List UInt8
  deriving DecidableEq, Repr

structure IdentityConfigPeer where
  publicKey : List UInt8
  endpoint : IdentityConfigPeerEndpoint
  deriving DecidableEq, Repr

structure IdentityConfigInterfaceAddresses where
  v4 : List UInt8
  v6 : List UInt8
  deriving DecidableEq, Repr

structure IdentityConfigInterface where
  addresses : IdentityConfigInterfaceAddresses
  deriving DecidableEq, Repr

structure IdentityConfig where
  peers : List IdentityConfigPeer
  interface : IdentityConfigInterface
  clientID : List UInt8
  deriving DecidableEq, Repr

structure Identity where
  privateKey : List UInt8
  account : IdentityAccount
  config : IdentityConfig
  deriving DecidableEq, Repr

/-! ### The configuration -/

/-- `netip.Prefix`: an address and its length in bits. -/
structure Prefix where
  addr : List UInt8
  bits : Nat
  deriving DecidableEq, Repr

structure InterfaceConfig where
  privateKey : List UInt8
  addresses : List (List UInt8)
  deriving DecidableEq, Repr

structure PeerConfig where
  publicKey : List UInt8
  preSharedKey : List UInt8
  allowedIPs : List Prefix
  endpoint : List UInt8
  reserved : UInt8 × UInt8 × UInt8
  deriving DecidableEq, Repr

structure Configuration where
  interface : InterfaceConfig
  peers : List PeerConfig
  deriving DecidableEq, Repr

/-- `wiresocks.EncodeBase64ToHex`: the hex of a 32-byte base64 key, or `""` and an error. -/
def encodeBase64ToHex (key : List UInt8) : List UInt8 × Option (List UInt8) :=
  let (decoded, failed) := decodeString key
  if failed then ([], some (ascii "invalid base64 string: " ++ key))
  else if decoded.length ≠ 32 then ([], some (ascii "key should be 32 bytes: " ++ key))
  else (hexString decoded, none)

/-- `netip.MustParsePrefix("0.0.0.0/0")` and `netip.MustParsePrefix("::/0")`. -/
def allowedIPs : List Prefix := [⟨[0, 0, 0, 0], 0⟩, ⟨List.replicate 16 0, 0⟩]

/-- `generateWireguardConfig`, with `none` for a panic: `Peers[0]` of no peer,
`MustParseAddr` of an address it refuses, or `clientID[0..2]` past the decoded bytes.
The keys' errors are dropped, leaving `""`. -/
def generateWireguardConfig (i : Identity) : Option Configuration := do
  let priv := (encodeBase64ToHex i.privateKey).1
  let peer ← i.config.peers.head?
  let pub := (encodeBase64ToHex peer.publicKey).1
  let clientID := (decodeString i.config.clientID).1
  let v4 ← parseAddr i.config.interface.addresses.v4
  let v6 ← parseAddr i.config.interface.addresses.v6
  let r0 ← clientID[0]?
  let r1 ← clientID[1]?
  let r2 ← clientID[2]?
  pure {
    interface := { privateKey := priv, addresses := [v4, v6] }
    peers := [{
      publicKey := pub
      preSharedKey := ascii "0000000000000000000000000000000000000000000000000000000000000000"
      allowedIPs := allowedIPs
      endpoint := peer.endpoint.host
      reserved := (r0, r1, r2) }] }

/-! ### Loading the identity -/

/-- What `LoadIdentity` finds at the identity path. -/
inductive CachedIdentity
  /-- no file: `os.Stat` fails with `fs.ErrNotExist` -/
  | missing
  /-- `os.Stat`, `os.ReadFile` or `json.Unmarshal` fails with this error -/
  | unreadable (err : String)
  /-- the file unmarshals to this identity -/
  | stored (i : Identity)
  deriving DecidableEq, Repr

def loadIdentity : CachedIdentity → Except String Identity
  | .missing => .error "file does not exist"
  | .unreadable err => .error err
  | .stored i => if i.config.peers.length < 1 then .error "identity contains 0 peers" else .ok i

/-- The answers `LoadOrCreateIdentity` gets from outside: the key generator and the
WARP API. -/
structure Environment where
  /-- `GeneratePrivateKey`, as the key's base64 text -/
  privateKey : Except String (List UInt8)
  /-- `Register` with the new public key -/
  register : Except String Identity
  /-- `UpdateAccount`; only its error is read -/
  updateAccount : Except String Unit
  getAccount : Except String IdentityAccount

/-- `UpdateAccount` and then `GetAccount`, whose account replaces the identity's. -/
def updateLicense (env : Environment) (i : Identity) : Except String Identity := do
  env.updateAccount
  let account ← env.getAccount
  pure { i with account }

def createIdentity (env : Environment) (license : List UInt8) : Except String Identity := do
  let privateKey ← env.privateKey
  let i ← env.register
  let i ← if license ≠ [] then updateLicense env i else pure i
  pure { i with privateKey }

/-- The first half of `LoadOrCreateIdentity`: an identity that loads is kept as it
is; anything else clears the directory and registers anew. -/
def loadOrCreate (env : Environment) (license : List UInt8) (cache : CachedIdentity) :
    CachedIdentity × Except String Identity :=
  match loadIdentity cache with
  | .ok i => (cache, .ok i)
  | .error _ =>
    match createIdentity env license with
    | .ok i => (.stored i, .ok i)
    | .error e => (.missing, .error e)

/-- The second half: a license other than the account's is applied and saved. -/
def relicense (env : Environment) (license : List UInt8) :
    CachedIdentity × Except String Identity → CachedIdentity × Except String Identity
  | (cache, .error e) => (cache, .error e)
  | (cache, .ok i) =>
    if license ≠ [] ∧ i.account.license ≠ license then
      match updateLicense env i with
      | .ok i => (.stored i, .ok i)
      | .error e => (cache, .error e)
    else (cache, .ok i)

/-- `LoadOrCreateIdentity`: the cache after the call and the identity or error. -/
def loadOrCreateIdentity (env : Environment) (license : List UInt8) (cache : CachedIdentity) :
    CachedIdentity × Except String Identity :=
  relicense env license (loadOrCreate env license cache)

/-- `runWarp` up to its configuration: the cache after the start, and an error
returned, a panic (`none`) or the configuration. -/
def start (env : Environment) (license : List UInt8) (cache : CachedIdentity) :
    CachedIdentity × Except String (Option Configuration) :=
  let loaded := loadOrCreateIdentity env license cache
  (loaded.1, loaded.2.map generateWireguardConfig)

/-- One start after another, each in its own environment, on the cache the last left. -/
def starts (license : List UInt8) : List Environment → CachedIdentity → List (Except String (Option Configuration))
  | [], _ => []
  | env :: envs, cache => (start env license cache).2 :: starts license envs (start env license cache).1

/-! ### When the configuration panics -/

/-- The configuration panics exactly when there is no peer, an interface address
does not parse, or the client id decodes to fewer than three bytes. -/
theorem generateWireguardConfig_eq_none (i : Identity) :
    generateWireguardConfig i = none ↔
      i.config.peers = [] ∨ parseAddr i.config.interface.addresses.v4 = none ∨
        parseAddr i.config.interface.addresses.v6 = none ∨ (decodeString i.config.clientID).1.length < 3 := by
  unfold generateWireguardConfig
  cases peers : i.config.peers with
  | nil => simp
  | cons peer rest =>
    cases v4 : parseAddr i.config.interface.addresses.v4 with
    | none => simp
    | some a4 =>
      cases v6 : parseAddr i.config.interface.addresses.v6 with
      | none => simp
      | some a6 =>
        -- only the client id's three bytes are left to index
        generalize (decodeString i.config.clientID).1 = clientID
        rcases clientID with _ | ⟨b0, _ | ⟨b1, _ | ⟨b2, more⟩⟩⟩ <;> simp

theorem generateWireguardConfig_of_same {i i' : Identity} (key : i'.privateKey = i.privateKey)
    (config : i'.config = i.config) : generateWireguardConfig i' = generateWireguardConfig i := by
  simp only [generateWireguardConfig, key, config]

/-! ### Loading keeps what loads -/

theorem loadIdentity_stored {i : Identity} (peer : i.config.peers ≠ []) : loadIdentity (.stored i) = .ok i := by
  have some : ¬ i.config.peers.length < 1 := by
    cases peers : i.config.peers with
    | nil => exact absurd peers peer
    | cons p ps => simp
  simp [loadIdentity, some]

theorem updateLicense_ok {env : Environment} {i i' : Identity} (updated : updateLicense env i = .ok i') :
    i'.privateKey = i.privateKey ∧ i'.config = i.config := by
  unfold updateLicense at updated
  cases updateAccount : env.updateAccount with
  | error e => simp [updateAccount] at updated; cases updated
  | ok u =>
    cases account : env.getAccount with
    | error e => simp [updateAccount, account] at updated; cases updated
    | ok a =>
      simp [updateAccount, account] at updated
      cases updated
      exact ⟨rfl, rfl⟩

theorem loadOrCreateIdentity_stored {env : Environment} {license : List UInt8} {i : Identity}
    (peer : i.config.peers ≠ []) :
    ∃ i', (loadOrCreateIdentity env license (.stored i)).1 = .stored i' ∧ i'.privateKey = i.privateKey ∧
      i'.config = i.config ∧
      ((loadOrCreateIdentity env license (.stored i)).2 = .ok i' ∨
        ∃ e, (loadOrCreateIdentity env license (.stored i)).2 = .error e) := by
  have loaded : loadOrCreate env license (.stored i) = (.stored i, .ok i) := by
    simp [loadOrCreate, loadIdentity_stored peer]
  rw [loadOrCreateIdentity, loaded, relicense]
  split_ifs with relicensed
  · cases updated : updateLicense env i with
    | ok i' =>
      obtain ⟨key, config⟩ := updateLicense_ok updated
      exact ⟨i', rfl, key, config, .inl rfl⟩
    | error e => exact ⟨i, rfl, rfl, rfl, .inr ⟨e, rfl⟩⟩
  · exact ⟨i, rfl, rfl, rfl, .inl rfl⟩

/-! ### Every start on an unusable cache fails -/

/-- A cache `LoadIdentity` accepts but `generateWireguardConfig` cannot use. -/
def Unusable (cache : CachedIdentity) : Prop :=
  ∃ i, cache = .stored i ∧ i.config.peers ≠ [] ∧ generateWireguardConfig i = none

theorem start_unusable {cache : CachedIdentity} (unusable : Unusable cache) (env : Environment)
    (license : List UInt8) :
    Unusable (start env license cache).1 ∧ ∀ c, (start env license cache).2 ≠ .ok (some c) := by
  obtain ⟨i, rfl, peer, panics⟩ := unusable
  obtain ⟨i', kept, key, config, outcome⟩ := @loadOrCreateIdentity_stored env license i peer
  have panics' : generateWireguardConfig i' = none := by
    rw [generateWireguardConfig_of_same key config, panics]
  refine ⟨⟨i', kept, config ▸ peer, panics'⟩, fun c => ?_⟩
  rcases outcome with loaded | ⟨e, failed⟩
  · simp [start, loaded, panics', Except.map]
  · simp [start, failed, Except.map]

theorem starts_unusable {cache : CachedIdentity} (unusable : Unusable cache) (license : List UInt8)
    (envs : List Environment) : ∀ o ∈ starts license envs cache, ∀ c, o ≠ .ok (some c) := by
  induction envs generalizing cache with
  | nil => simp [starts]
  | cons env envs ih =>
    have step := start_unusable unusable env license
    intro o mem c
    simp only [starts, List.mem_cons] at mem
    rcases mem with rfl | later
    · exact step.2 c
    · exact ih step.1 o later c

/-- Every identity with a peer on which the configuration fails, through its client
id or an interface address, is accepted by `LoadIdentity`, and no start from a
cache holding it ever has a configuration, whatever the license and the API answer. -/
theorem unusable_identity_loaded (i : Identity) (peer : i.config.peers ≠ [])
    (fails : (decodeString i.config.clientID).1.length < 3 ∨ parseAddr i.config.interface.addresses.v4 = none ∨
      parseAddr i.config.interface.addresses.v6 = none)
    (license : List UInt8) (envs : List Environment) :
    loadIdentity (.stored i) = .ok i ∧ generateWireguardConfig i = none ∧
      ∀ o ∈ starts license envs (.stored i), ∀ c, o ≠ .ok (some c) := by
  have panics : generateWireguardConfig i = none := by
    rw [generateWireguardConfig_eq_none]
    rcases fails with short | v4 | v6
    · exact .inr (.inr (.inr short))
    · exact .inr (.inl v4)
    · exact .inr (.inr (.inl v6))
  exact ⟨loadIdentity_stored peer, panics, starts_unusable ⟨i, rfl, peer, panics⟩ license envs⟩

/-- A cache file with one peer, good interface addresses and `"client_id": ""`,
started once with no license while the API is unreachable. -/
theorem unusable_identity_loaded_emptyClientId :
    let i : Identity :=
      ⟨[], ⟨[]⟩, ⟨[⟨[], ⟨ascii "engage.cloudflareclient.com:2408"⟩⟩], ⟨⟨ascii "172.16.0.2", ascii "fd01::1"⟩⟩, []⟩⟩
    let offline : Environment := ⟨.error "offline", .error "offline", .error "offline", .error "offline"⟩
    i.config.peers ≠ [] ∧
      ((decodeString i.config.clientID).1.length < 3 ∨ parseAddr i.config.interface.addresses.v4 = none ∨
        parseAddr i.config.interface.addresses.v6 = none) ∧
      loadIdentity (.stored i) = .ok i ∧ generateWireguardConfig i = none ∧
      ∀ o ∈ starts [] [offline] (.stored i), ∀ c, o ≠ .ok (some c) := by
  intro i offline
  have peer : i.config.peers ≠ [] := by decide
  have fails : (decodeString i.config.clientID).1.length < 3 ∨ parseAddr i.config.interface.addresses.v4 = none ∨
      parseAddr i.config.interface.addresses.v6 = none := .inl (by decide)
  exact ⟨peer, fails, unusable_identity_loaded i peer fails [] [offline]⟩

end WarpPlus.Warp
