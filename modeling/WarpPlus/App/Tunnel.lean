import WarpPlus.App.Establish

/-! The tunnel `runWarp` in `app/app.go` sets up from its cached identity: the
configuration `generateWireguardConfig` builds, with `runWarp`'s endpoint, keepalive and
reserved bytes on each peer, given to `establishWireguard`.

`generateWireguardConfig` gives one peer, the identity's, with the two default routes
`0.0.0.0/0` and `::/0`. When the identity's keys are base64 of 32 bytes, the device the
first tunnel configures has that peer and no other, at the endpoint `runWarp` was given,
and its table sends every IPv4 and IPv6 address to it (`runWarpTunnel_routes_all`).
-/

set_option autoImplicit false

namespace WarpPlus.App

open Crypto GoText NetIP
open WarpPlus.Warp (Identity IdentityConfigPeer Configuration encodeBase64ToHex generateWireguardConfig)
open WarpPlus.Uapi
open WarpPlus.Device (AllowedIP AllowedIPs maskSelf)
open WarpPlus.Device.AllowedIPs (Refines refines_empty)

/-- The loop of `runWarp` over the configuration's peers: the endpoint it was given, a
keepalive of five seconds, and the reserved bytes `ParseReserved` read from the options,
when they set some. It sets `Trick` too, which `establishWireguard` does not read. -/
def runWarpPeers (conf : Configuration) (endpoint : List UInt8) (reserved : Option (UInt8 × UInt8 × UInt8)) :
    List TunnelPeer :=
  conf.peers.map fun peer => { peer with endpoint, reserved := reserved.getD peer.reserved, keepAlive := 5 }

/-- `runWarp` from its identity to the `IpcSet` of its first tunnel, the one of trick `t1`:
`none` when `generateWireguardConfig` panics. -/
def runWarpTunnel (env : Env) (suite : Suite) (brokenRoaming : Bool) (i : Identity) (endpoint : List UInt8)
    (reserved : Option (UInt8 × UInt8 × UInt8)) (tun : Bool) (fwmark : UInt32) :
    Option (Device AddrPort × Option Failure) :=
  (generateWireguardConfig i).map fun conf =>
    establishWireguard env suite brokenRoaming conf.interface.privateKey (runWarpPeers conf endpoint reserved) tun
      fwmark (ascii "t1")

theorem generateWireguardConfig_eq_some {i : Identity} {conf : Configuration}
    (built : generateWireguardConfig i = some conf) :
    conf.interface.privateKey = (encodeBase64ToHex i.privateKey).1 ∧
      ∃ peer, i.config.peers.head? = some peer ∧ ∃ reserved, conf.peers =
        [{ publicKey := (encodeBase64ToHex peer.publicKey).1
           preSharedKey := ascii "0000000000000000000000000000000000000000000000000000000000000000"
           allowedIPs := Warp.allowedIPs
           endpoint := peer.endpoint.host
           reserved }] := by
  simp only [generateWireguardConfig, Option.bind_eq_bind, Option.bind_eq_some_iff, Option.pure_def,
    Option.some.injEq] at built
  obtain ⟨peer, first, _, -, _, -, r0, -, r1, -, r2, -, rfl⟩ := built
  exact ⟨rfl, peer, first, (r0, r1, r2), rfl⟩

theorem loadExactHex_encodeBase64ToHex {key bytes : List UInt8} (decoded : decodeString key = (bytes, false))
    (size : bytes.length = 32) : loadExactHex (encodeBase64ToHex key).1 = .ok bytes := by
  simp only [encodeBase64ToHex, decoded, size, Bool.false_eq_true, if_false, ne_eq, not_true_eq_false,
    hexString_eq_encodeToString]
  exact loadExactHex_encodeToString size

theorem loadExactHex_zero :
    loadExactHex (ascii "0000000000000000000000000000000000000000000000000000000000000000") = .ok zeroKey :=
  rfl

/-! ### The default routes -/

theorem maskSelf_zero {ip : List UInt8} (family : ip.length = 4 ∨ ip.length = 16) :
    maskSelf ip 0 = List.replicate ip.length 0 := by
  refine (WarpPlus.Device.eq_maskSelf family (Nat.zero_le _) List.length_replicate ?_ ?_).symm
  · intro i _
    simp [Bits.bitAt]
  · exact fun i below => absurd below (Nat.not_lt_zero i)

theorem lookup_defaultRoutes (pk : List UInt8) {ip : List UInt8} (family : ip.length = 4 ∨ ip.length = 16) :
    (([⟨[0, 0, 0, 0], 0⟩, ⟨List.replicate 16 0, 0⟩] : List AllowedIP).foldl (fun table pfx => table.insert pfx pk)
      AllowedIPs.empty).lookup ip = some pk := by
  have refines : Refines
      (((AllowedIPs.empty : AllowedIPs (List UInt8)).insert ⟨[0, 0, 0, 0], 0⟩ pk).insert ⟨List.replicate 16 0, 0⟩ pk)
      (WarpPlus.Device.PrefixMap.insert (WarpPlus.Device.PrefixMap.insert WarpPlus.Device.PrefixMap.empty
        ⟨[0, 0, 0, 0], 0⟩ pk) ⟨List.replicate 16 0, 0⟩ pk) :=
    (refines_empty.insert (by decide) pk).insert (by decide) pk
  rw [List.foldl_cons, List.foldl_cons, List.foldl_nil, refines.lookup family,
    WarpPlus.Device.PrefixMap.lookup_eq_some_iff]
  have v4 : (⟨[0, 0, 0, 0], 0⟩ : AllowedIP).masked = ⟨List.replicate 4 0, 0⟩ := by decide
  have v6 : (⟨List.replicate 16 0, 0⟩ : AllowedIP).masked = ⟨List.replicate 16 0, 0⟩ := by decide
  have self : (⟨ip, 0⟩ : AllowedIP).masked = ⟨List.replicate ip.length 0, 0⟩ := by
    rw [AllowedIP.masked, maskSelf_zero family]
  refine ⟨0, Nat.zero_le _, ?_, ?_⟩
  · -- the default route of the address's family
    rw [WarpPlus.Device.PrefixMap.insert, WarpPlus.Device.PrefixMap.insert, v4, v6, self]
    rcases family with four | sixteen
    · rw [four, Function.update_of_ne (by decide), Function.update_self]
    · rw [sixteen, Function.update_self]
  · -- no route is longer than the default ones
    intro longer positive _
    have other : ∀ addr : List UInt8, (⟨maskSelf ip longer, longer⟩ : AllowedIP) ≠ ⟨addr, 0⟩ :=
      fun addr same => by simp only [AllowedIP.mk.injEq] at same; omega
    rw [WarpPlus.Device.PrefixMap.insert, WarpPlus.Device.PrefixMap.insert, v4, v6, AllowedIP.masked,
      Function.update_of_ne (other _), Function.update_of_ne (other _)]
    rfl

/-- From a cached identity whose keys are base64 of 32 bytes, the first tunnel of `runWarp`
configures a device whose only peer is the identity's, at the endpoint `runWarp` was
given and with its keepalive of five seconds, and whose table sends every IPv4 and IPv6
address to that peer; `IpcSet` returns no error. -/
theorem runWarpTunnel_routes_all (env : Env) (suite : Suite) (brokenRoaming : Bool) {i : Identity}
    (built : (generateWireguardConfig i).isSome) {peer : IdentityConfigPeer}
    (first : i.config.peers.head? = some peer) {sk pk : List UInt8}
    (privateKey : decodeString i.privateKey = (sk, false)) (privateSize : sk.length = 32)
    (publicKey : decodeString peer.publicKey = (pk, false)) (publicSize : pk.length = 32)
    (notSelf : pk ≠ keyedPublicKey suite (if Noise.isZero sk then sk else Noise.clamp sk))
    {endpoint : List UInt8} {e : AddrPort} (parsed : parseAddrPort endpoint = some e)
    (endpointField : GoText.Field endpoint) (reserved : Option (UInt8 × UInt8 × UInt8)) (tun : Bool) (fwmark : UInt32) :
    ∃ device p, runWarpTunnel env suite brokenRoaming i endpoint reserved tun fwmark = some (device, none) ∧
      device.peers = [(pk, p)] ∧ p.endpoint = some e ∧ p.persistentKeepaliveInterval = 5 ∧
      ∀ ip, (ip.length = 4 ∨ ip.length = 16) → device.allowedips.lookup ip = some pk := by
  obtain ⟨conf, builtConf⟩ := Option.isSome_iff_exists.mp built
  obtain ⟨keyText, peer', first', r, confPeers⟩ := generateWireguardConfig_eq_some builtConf
  cases first.symm.trans first'
  let spec : PeerSpec :=
    ⟨pk, zeroKey, e, 5, reserved.getD r, [⟨[0, 0, 0, 0], 0⟩, ⟨List.replicate 16 0, 0⟩]⟩
  have keyed : fromMaybeZeroHex conf.interface.privateKey =
      .ok (if Noise.isZero sk then sk else Noise.clamp sk) := by
    rw [fromMaybeZeroHex, keyText, loadExactHex_encodeBase64ToHex privateKey privateSize]
    rfl
  have reads : List.Forall₂ Reads (runWarpPeers conf endpoint reserved) [spec] := by
    rw [runWarpPeers, confPeers]
    refine .cons
      { publicKey := loadExactHex_encodeBase64ToHex publicKey publicSize
        presharedKey := loadExactHex_zero
        endpoint := parsed
        endpointField
        keepAlive := rfl
        keepAliveFits := show 5 < 2 ^ 16 by decide
        reserved := rfl
        allowedIPs := rfl
        prefixesValid := by simp [Warp.allowedIPs] } .nil
  have trick : GoText.Field (ascii "t1") := Field.of_printable (by simp [ascii, byteOf]) (by simp [ascii, maxScanTokenSize])
  obtain ⟨device', sel', ran, posted⟩ := ipcSetLoop_requestLines suite brokenRoaming (ascii "t1") keyed reads (by simp) (by simpa using notSelf) (by simp [maxPeers]) tun fwmark
  have established : establishWireguard env suite brokenRoaming conf.interface.privateKey
      (runWarpPeers conf endpoint reserved) tun fwmark (ascii "t1") = (handlePostConfig device' sel', none) :=
    ipcSetOperation_unlines suite (lines_requestLines keyed reads tun fwmark trick) ran
  rw [posted] at established
  refine ⟨configured suite brokenRoaming (if Noise.isZero sk then sk else Noise.clamp sk)
    (if tun && fwmark != 0 then fwmark else 0) (ascii "t1") [spec], _,
    by rw [runWarpTunnel, builtConf, Option.map_some, established], rfl, rfl, rfl, ?_⟩
  intro ip family
  exact lookup_defaultRoutes pk family

/-- An environment whose bind calls all succeed. -/
def defaultRoutesEnv : Env where
  close := true
  openAt := some
  routeListener := true
  setMark _ := true

/-- An identity with keys of sevens and nines and the client id `AQID`. -/
def sampleIdentity : Identity :=
  ⟨ascii "BwcHBwcHBwcHBwcHBwcHBwcHBwcHBwcHBwcHBwcHBwc=", ⟨[]⟩,
    ⟨[⟨ascii "CQkJCQkJCQkJCQkJCQkJCQkJCQkJCQkJCQkJCQkJCQk=", ⟨ascii "engage.cloudflareclient.com:2408"⟩⟩],
      ⟨⟨ascii "172.16.0.2", ascii "fd01::1"⟩⟩, ascii "AQID"⟩⟩

theorem runWarpTunnel_routes_all_sample :
    ∃ device p, runWarpTunnel defaultRoutesEnv Noise.sumSuite false sampleIdentity (ascii "162.159.192.1:2408")
        none true 0 = some (device, none) ∧
      device.peers = [(List.replicate 32 9, p)] ∧ p.endpoint = some ⟨[162, 159, 192, 1], 2408⟩ ∧
      p.persistentKeepaliveInterval = 5 ∧
      ∀ ip, (ip.length = 4 ∨ ip.length = 16) → device.allowedips.lookup ip = some (List.replicate 32 9) :=
  runWarpTunnel_routes_all defaultRoutesEnv Noise.sumSuite false rfl rfl
    (show decodeString sampleIdentity.privateKey = (List.replicate 32 7, false) from rfl) rfl
    (show decodeString (ascii "CQkJCQkJCQkJCQkJCQkJCQkJCQkJCQkJCQkJCQkJCQk=") = (List.replicate 32 9, false) from rfl)
    rfl (by decide) (show parseAddrPort (ascii "162.159.192.1:2408") = some ⟨[162, 159, 192, 1], 2408⟩ by decide)
    (Field.of_printable (by simp [ascii, byteOf]) (by simp [ascii, maxScanTokenSize])) none true 0

end WarpPlus.App
