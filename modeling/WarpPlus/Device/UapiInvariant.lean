import WarpPlus.Device.Uapi

/-! What every run of the set operation keeps, whatever its input and whatever the
environment answers (`reachable_wellFormed`): the peer map holds each key once,
each peer under its own static key and never under the device's public key, with
the static-static secret of the device's current private key, and no more than
`MaxPeers` peers; and the allowed-IPs table stands for a prefix map whose every
prefix routes to a peer of the map, so that a removed peer receives nothing
(`reachable_lookup_configured`).

The device's fields change through a handful of operations: a write to one
peer that keeps its key and secret, `removePeerLocked`, `NewPeer`, the loops of
`SetPrivateKey` and `RemoveAllPeers`, and the table's `Insert` and
`RemoveByPeer`. Each keeps `WellFormed`, and each handler is made of them.
-/

set_option autoImplicit false

namespace WarpPlus.Uapi

open Crypto GoText
open WarpPlus.Device (AllowedIP AllowedIPs)
open WarpPlus.Device.AllowedIPs (Refines)
open NetIP (AddrPort)

variable {E : Type}

namespace Device

variable (device : Device E)

theorem mem_keys {key : List UInt8} : key ∈ device.keys ↔ ∃ peer, (key, peer) ∈ device.peers := by
  simp [keys]

@[simp] theorem keys_modifyPeer (pk : List UInt8) (f : Peer E → Peer E) :
    (device.modifyPeer pk f).keys = device.keys := by
  simp only [keys, modifyPeer, List.map_map]
  congr 1
  funext entry
  simp only [Function.comp_apply]
  split <;> rfl

theorem mem_modifyPeer {pk : List UInt8} {f : Peer E → Peer E} {entry : List UInt8 × Peer E}
    (member : entry ∈ (device.modifyPeer pk f).peers) :
    ∃ peer, (entry.1, peer) ∈ device.peers ∧ (entry.2 = peer ∨ entry.2 = f peer) := by
  simp only [modifyPeer, List.mem_map] at member
  obtain ⟨⟨key, peer⟩, inside, rfl⟩ := member
  refine ⟨peer, ?_, ?_⟩
  · split <;> exact inside
  · split
    · exact .inr rfl
    · exact .inl rfl

@[simp] theorem keys_removePeerLocked (key : List UInt8) :
    (device.removePeerLocked key).keys = device.keys.filter (· ≠ key) := by
  simp only [keys, removePeerLocked, List.filter_map]
  rfl

theorem lookupPeer_isSome_iff (pk : List UInt8) : (device.lookupPeer pk).isSome ↔ pk ∈ device.keys := by
  simp only [lookupPeer, keys, List.lookup_isSome_iff, List.mem_map, beq_iff_eq]
  exact exists_congr fun _ => and_congr_right fun _ => eq_comm

theorem mem_removePeerLocked {key : List UInt8} {entry : List UInt8 × Peer E}
    (member : entry ∈ (device.removePeerLocked key).peers) : entry ∈ device.peers :=
  List.mem_of_mem_filter member

end Device

/-- What the set operation keeps of a device. -/
structure WellFormed (suite : Suite) (device : Device E) : Prop where
  nodup : device.keys.Nodup
  keyed : ∀ key peer, (key, peer) ∈ device.peers → peer.remoteStatic = key
  sized : ∀ key peer, (key, peer) ∈ device.peers → key.length = keySize ∧ peer.presharedKey.length = keySize
  precomputed : ∀ key peer, (key, peer) ∈ device.peers →
    peer.precomputedStaticStatic = suite.scalarMult device.privateKey key
  notSelf : device.publicKey ∉ device.keys
  bounded : device.peers.length ≤ maxPeers
  /-- The table stands for a prefix map that routes to peers of the map only. -/
  routes : ∃ m, Refines device.allowedips m ∧ ∀ k key, m k = some key → key ∈ device.keys

/-- A write to a peer that keeps its static key and secret, and the size of its
preshared key. -/
def Keeps (f : Peer E → Peer E) : Prop :=
  ∀ peer, (f peer).remoteStatic = peer.remoteStatic ∧
    (f peer).precomputedStaticStatic = peer.precomputedStaticStatic ∧
    (peer.presharedKey.length = keySize → (f peer).presharedKey.length = keySize)

section Operations

variable {suite : Suite} {device : Device E}

theorem wellFormed_newDevice (brokenRoaming : Bool) : WellFormed suite (newDevice brokenRoaming : Device E) where
  nodup := List.nodup_nil
  keyed _ _ member := by cases member
  sized _ _ member := by cases member
  precomputed _ _ member := by cases member
  notSelf member := by cases member
  bounded := Nat.zero_le _
  routes := ⟨_, AllowedIPs.refines_empty, fun _ _ found => by cases found⟩

theorem WellFormed.of_core (wf : WellFormed suite device) {device' : Device E}
    (privateKey : device'.privateKey = device.privateKey) (publicKey : device'.publicKey = device.publicKey)
    (peers : device'.peers = device.peers) (allowedips : device'.allowedips = device.allowedips) :
    WellFormed suite device' := by
  have keys : device'.keys = device.keys := by rw [Device.keys, peers]; rfl
  refine ⟨keys ▸ wf.nodup, fun key peer member => wf.keyed key peer (peers ▸ member),
    fun key peer member => wf.sized key peer (peers ▸ member), fun key peer member => ?_,
    keys ▸ publicKey ▸ wf.notSelf, peers ▸ wf.bounded, ?_⟩
  · rw [privateKey]
    exact wf.precomputed key peer (peers ▸ member)
  · rw [allowedips, keys]
    exact wf.routes

theorem WellFormed.modifyPeer (wf : WellFormed suite device) (pk : List UInt8) {f : Peer E → Peer E}
    (keeps : Keeps f) : WellFormed suite (device.modifyPeer pk f) := by
  have keys := device.keys_modifyPeer pk f
  -- every entry after the write is an entry before it, written or not
  have before : ∀ key peer, (key, peer) ∈ (device.modifyPeer pk f).peers →
      ∃ old, (key, old) ∈ device.peers ∧ (peer = old ∨ peer = f old) :=
    fun key peer member => device.mem_modifyPeer member
  refine ⟨keys ▸ wf.nodup, fun key peer member => ?_, fun key peer member => ?_, fun key peer member => ?_,
    keys ▸ wf.notSelf, by simpa [Device.modifyPeer] using wf.bounded, keys ▸ wf.routes⟩
  · obtain ⟨old, inside, rfl | rfl⟩ := before key peer member
    · exact wf.keyed key _ inside
    · rw [(keeps old).1]
      exact wf.keyed key old inside
  · obtain ⟨old, inside, rfl | rfl⟩ := before key peer member
    · exact wf.sized key _ inside
    · exact ⟨(wf.sized key old inside).1, (keeps old).2.2 (wf.sized key old inside).2⟩
  · obtain ⟨old, inside, rfl | rfl⟩ := before key peer member
    · exact wf.precomputed key _ inside
    · rw [(keeps old).2.1]
      exact wf.precomputed key old inside

theorem WellFormed.removePeerLocked (wf : WellFormed suite device) (key : List UInt8) :
    WellFormed suite (device.removePeerLocked key) := by
  have keys := device.keys_removePeerLocked key
  obtain ⟨m, refines, values⟩ := wf.routes
  refine ⟨keys ▸ wf.nodup.filter _, fun k peer member => wf.keyed k peer (device.mem_removePeerLocked member),
    fun k peer member => wf.sized k peer (device.mem_removePeerLocked member),
    fun k peer member => wf.precomputed k peer (device.mem_removePeerLocked member),
    fun member => wf.notSelf (List.mem_of_mem_filter (keys ▸ member)),
    le_trans (List.length_filter_le _ _) wf.bounded,
    ⟨WarpPlus.Device.PrefixMap.removeByPeer m key, refines.removeByPeer key, fun k p found => ?_⟩⟩
  -- what the removal leaves routes to another peer, which stays
  unfold WarpPlus.Device.PrefixMap.removeByPeer at found
  split at found
  · cases found
  · next other =>
    rw [keys, List.mem_filter]
    exact ⟨values k p found, by simpa [found] using other⟩

theorem WellFormed.removePeer (wf : WellFormed suite device) (key : List UInt8) :
    WellFormed suite (device.removePeer key) := by
  unfold Device.removePeer
  split
  · exact wf
  · exact wf.removePeerLocked key

theorem WellFormed.foldl_removePeerLocked (c : List UInt8 × Peer E → Prop) [DecidablePred c] :
    ∀ (entries : List (List UInt8 × Peer E)) {device : Device E}, WellFormed suite device →
      let after := entries.foldl (fun device entry => if c entry then device.removePeerLocked entry.1 else device)
        device
      WellFormed suite after ∧ after.privateKey = device.privateKey ∧ after.publicKey = device.publicKey ∧
        ∀ key ∈ after.keys, key ∈ device.keys ∧ ∀ entry ∈ entries, c entry → entry.1 ≠ key
  | [], _, wf => ⟨wf, rfl, rfl, fun _ member => ⟨member, fun _ none => absurd none List.not_mem_nil⟩⟩
  | entry :: entries, device, wf => by
    -- one round of the loop, then the rest from there
    have step : WellFormed suite (if c entry then device.removePeerLocked entry.1 else device) := by
      split
      · exact wf.removePeerLocked entry.1
      · exact wf
    obtain ⟨wfAfter, samePrivate, samePublic, kept⟩ := WellFormed.foldl_removePeerLocked c entries step
    have stepPrivate : (if c entry then device.removePeerLocked entry.1 else device).privateKey =
        device.privateKey := by
      split <;> rfl
    have stepPublic : (if c entry then device.removePeerLocked entry.1 else device).publicKey =
        device.publicKey := by
      split <;> rfl
    have stepKeys : ∀ key ∈ (if c entry then device.removePeerLocked entry.1 else device).keys,
        key ∈ device.keys ∧ (c entry → entry.1 ≠ key) := by
      intro key member
      split at member
      · rw [Device.keys_removePeerLocked, List.mem_filter] at member
        exact ⟨member.1, fun _ same => by simp [same] at member⟩
      · next notRemoved => exact ⟨member, fun removed => absurd removed notRemoved⟩
    refine ⟨wfAfter, samePrivate.trans stepPrivate, samePublic.trans stepPublic, fun key member => ?_⟩
    obtain ⟨earlier, later⟩ := kept key member
    obtain ⟨original, first⟩ := stepKeys key earlier
    refine ⟨original, fun other inside holds => ?_⟩
    rcases List.mem_cons.mp inside with rfl | rest
    · exact first holds
    · exact later other rest holds

theorem WellFormed.rekey (wf : WellFormed suite device) (sk pk : List UInt8) (absent : pk ∉ device.keys) :
    WellFormed suite { device with
      privateKey := sk
      publicKey := pk
      peers := device.peers.map fun entry =>
        (entry.1, { entry.2 with precomputedStaticStatic := suite.scalarMult sk entry.2.remoteStatic }) } := by
  have keys : ({ device with
      privateKey := sk
      publicKey := pk
      peers := device.peers.map fun entry =>
        (entry.1, { entry.2 with precomputedStaticStatic := suite.scalarMult sk entry.2.remoteStatic }) } :
        Device E).keys = device.keys := by
    simp [Device.keys, Function.comp_def]
  have before : ∀ key peer, (key, peer) ∈ device.peers.map (fun entry =>
      (entry.1, { entry.2 with precomputedStaticStatic := suite.scalarMult sk entry.2.remoteStatic })) →
      ∃ old, (key, old) ∈ device.peers ∧
        peer = { old with precomputedStaticStatic := suite.scalarMult sk old.remoteStatic } := by
    intro key peer member
    obtain ⟨⟨k, old⟩, inside, same⟩ := List.mem_map.mp member
    simp only [Prod.mk.injEq] at same
    obtain ⟨rfl, rfl⟩ := same
    exact ⟨old, inside, rfl⟩
  refine ⟨keys ▸ wf.nodup, fun key peer member => ?_, fun key peer member => ?_,
    fun key peer member => ?_, keys ▸ absent, by simpa using wf.bounded, keys ▸ wf.routes⟩
  · obtain ⟨old, inside, rfl⟩ := before key peer member
    exact wf.keyed key old inside
  · obtain ⟨old, inside, rfl⟩ := before key peer member
    exact wf.sized key old inside
  · obtain ⟨old, inside, rfl⟩ := before key peer member
    show suite.scalarMult sk old.remoteStatic = suite.scalarMult sk key
    rw [wf.keyed key old inside]

theorem WellFormed.setPrivateKey (wf : WellFormed suite device) (sk : List UInt8) :
    WellFormed suite (device.setPrivateKey suite sk) := by
  unfold Device.setPrivateKey
  split
  · exact wf
  obtain ⟨removed, -, -, kept⟩ := wf.foldl_removePeerLocked
    (fun entry => entry.2.remoteStatic = suite.scalarBaseMult sk) device.peers
  refine removed.rekey sk _ fun self => ?_
  -- a peer of the new public key was removed by the loop
  obtain ⟨original, gone⟩ := kept _ self
  obtain ⟨peer, inside⟩ := (device.mem_keys).mp original
  exact gone _ inside (wf.keyed _ peer inside) rfl

theorem WellFormed.removeAllPeers (wf : WellFormed suite device) : WellFormed suite device.removeAllPeers := by
  have always : (fun device entry => Device.removePeerLocked device entry.1) =
      fun (device : Device E) (entry : List UInt8 × Peer E) =>
        if True then device.removePeerLocked entry.1 else device := by
    funext device entry
    rw [if_pos trivial]
  obtain ⟨removed, -, -, kept⟩ := wf.foldl_removePeerLocked (fun _ => True) device.peers
  unfold Device.removeAllPeers
  rw [always]
  obtain ⟨m, refines, values⟩ := removed.routes
  -- every key was removed, so the table routes nowhere
  have none : ∀ key, key ∉ (device.peers.foldl (fun device entry =>
      if True then device.removePeerLocked entry.1 else device) device).keys := by
    intro key member
    obtain ⟨original, gone⟩ := kept key member
    obtain ⟨peer, inside⟩ := (device.mem_keys).mp original
    exact gone _ inside trivial rfl
  exact ⟨List.nodup_nil, fun _ _ member => (by cases member), fun _ _ member => (by cases member),
    fun _ _ member => (by cases member), fun member => (by cases member), Nat.zero_le _,
    ⟨m, refines, fun k key found => absurd (values k key found) (none key)⟩⟩

theorem WellFormed.newPeer (wf : WellFormed suite device) {pk : List UInt8} {device' : Device E}
    (added : device.newPeer suite pk = .ok device') (sized : pk.length = keySize) (other : device.publicKey ≠ pk) :
    WellFormed suite device' := by
  unfold Device.newPeer at added
  split at added
  · cases added
  split at added
  · cases added
  next room =>
  split at added
  · cases added
  next absent =>
  cases added
  have fresh : pk ∉ device.keys := fun member => absent ((device.lookupPeer_isSome_iff pk).mpr member)
  have keys : ({ device with peers := device.peers ++ [(pk, device.freshPeer suite pk)] } : Device E).keys =
      device.keys ++ [pk] := by
    simp [Device.keys]
  obtain ⟨m, refines, values⟩ := wf.routes
  refine ⟨keys ▸ wf.nodup.append (List.nodup_singleton pk) (by simpa using fresh), fun key peer member => ?_,
    fun key peer member => ?_, fun key peer member => ?_, keys ▸ ?_, ?_,
    ⟨m, refines, fun k key found => keys ▸ List.mem_append_left _ (values k key found)⟩⟩
  · rcases List.mem_append.mp member with old | added
    · exact wf.keyed key peer old
    · simp only [List.mem_singleton, Prod.mk.injEq] at added
      obtain ⟨rfl, rfl⟩ := added
      rfl
  · rcases List.mem_append.mp member with old | added
    · exact wf.sized key peer old
    · simp only [List.mem_singleton, Prod.mk.injEq] at added
      obtain ⟨rfl, rfl⟩ := added
      exact ⟨sized, List.length_replicate⟩
  · rcases List.mem_append.mp member with old | added
    · exact wf.precomputed key peer old
    · simp only [List.mem_singleton, Prod.mk.injEq] at added
      obtain ⟨rfl, rfl⟩ := added
      rfl
  · simpa [other] using wf.notSelf
  · simp only [List.length_append, List.length_singleton]
    omega

theorem WellFormed.setAllowedips (wf : WellFormed suite device) {table : AllowedIPs (List UInt8)}
    (routes : ∃ m, Refines table m ∧ ∀ k key, m k = some key → key ∈ device.keys) :
    WellFormed suite { device with allowedips := table } :=
  ⟨wf.nodup, wf.keyed, wf.sized, wf.precomputed, wf.notSelf, wf.bounded, routes⟩

theorem WellFormed.insert (wf : WellFormed suite device) {pfx : AllowedIP} (valid : pfx.Valid) {pk : List UInt8}
    (live : pk ∈ device.keys) : WellFormed suite { device with allowedips := device.allowedips.insert pfx pk } := by
  obtain ⟨m, refines, values⟩ := wf.routes
  refine wf.setAllowedips ⟨_, refines.insert valid pk, fun k key found => ?_⟩
  rw [WarpPlus.Device.PrefixMap.insert, Function.update_apply] at found
  split at found
  · cases found
    exact live
  · exact values k key found

theorem WellFormed.removeByPeer (wf : WellFormed suite device) (pk : List UInt8) :
    WellFormed suite { device with allowedips := device.allowedips.removeByPeer pk } := by
  obtain ⟨m, refines, values⟩ := wf.routes
  refine wf.setAllowedips ⟨_, refines.removeByPeer pk, fun k key found => ?_⟩
  unfold WarpPlus.Device.PrefixMap.removeByPeer at found
  split at found
  · cases found
  · exact values k key found

theorem WellFormed.bindUpdate (wf : WellFormed suite device) (env : Env) :
    WellFormed suite (device.bindUpdate env).1 := by
  unfold Device.bindUpdate
  repeat' split
  all_goals exact wf.of_core rfl rfl rfl rfl

theorem WellFormed.bindSetMark (wf : WellFormed suite device) (env : Env) (mark : UInt32) :
    WellFormed suite (device.bindSetMark env mark).1 := by
  unfold Device.bindSetMark
  split
  · exact wf
  · exact wf.of_core rfl rfl rfl rfl

end Operations

/-! ### The handlers -/

/-- The selected peer is a peer of the device. -/
def Selected.Live (device : Device E) : Selected → Prop
  | .peer key _ => key ∈ device.keys
  | _ => True

theorem Selected.Live.of_keys {device device' : Device E} {peer : Selected} (live : peer.Live device)
    (keys : device'.keys = device.keys) : peer.Live device' := by
  cases peer with
  | peer key created => exact (keys ▸ live : key ∈ device'.keys)
  | _ => trivial

@[simp] theorem keys_writePeer (device : Device E) (peer : Selected) (f : Peer E → Peer E) :
    (writePeer device peer f).keys = device.keys := by
  cases peer <;> simp [writePeer]

@[simp] theorem keys_handlePostConfig (device : Device E) (peer : Selected) :
    (handlePostConfig device peer).keys = device.keys := by
  cases peer with
  | peer key created =>
    unfold handlePostConfig
    dsimp only
    split <;> split <;> simp
  | _ => rfl

theorem length_of_loadExactHex {src key : List UInt8} (loaded : loadExactHex src = .ok key) :
    key.length = keySize := by
  unfold loadExactHex at loaded
  split at loaded
  · cases loaded
  · split at loaded
    · cases loaded
      assumption
    · cases loaded

section Handlers

variable {suite : Suite} {env : Env} {device device' : Device E} {peer peer' : Selected}

theorem WellFormed.writePeer (wf : WellFormed suite device) (peer : Selected) {f : Peer E → Peer E}
    (keeps : Keeps f) : WellFormed suite (writePeer device peer f) := by
  cases peer with
  | peer key created => exact wf.modifyPeer key keeps
  | _ => exact wf

theorem WellFormed.handlePostConfig (wf : WellFormed suite device) (peer : Selected) :
    WellFormed suite (handlePostConfig device peer) := by
  cases peer with
  | peer key created =>
    -- the roaming flag, then the running flag: neither touches the keys or the secret
    have roaming : WellFormed suite (if created then device.modifyPeer key fun peer =>
        { peer with disableRoaming := device.brokenRoaming && peer.endpoint.isSome } else device) := by
      split
      · exact wf.modifyPeer key fun _ => ⟨rfl, rfl, id⟩
      · exact wf
    have started : ∀ {roamed : Device E}, WellFormed suite roamed →
        WellFormed suite (if roamed.state = .up then
          roamed.modifyPeer key fun peer => { peer with isRunning := true } else roamed) := by
      intro roamed wf
      split
      · exact wf.modifyPeer key fun _ => ⟨rfl, rfl, id⟩
      · exact wf
    exact started roaming
  | _ => exact wf

theorem WellFormed.handleDeviceLine (wf : WellFormed suite device) (env : Env) (key value : List UInt8) :
    WellFormed suite (handleDeviceLine env suite device key value).1 := by
  unfold Uapi.handleDeviceLine
  split
  · split
    · exact wf
    · exact wf.setPrivateKey _
  split
  · split
    · exact wf
    · rename_i port _
      -- the port is written, then the bind updated
      have updated : WellFormed suite (Device.bindUpdate env { device with port := port.toUInt16 }).1 :=
        (wf.of_core rfl rfl rfl rfl : WellFormed suite { device with port := port.toUInt16 }).bindUpdate env
      revert updated
      cases Device.bindUpdate env { device with port := port.toUInt16 }
      exact id
  split
  · split
    · exact wf
    · rename_i mark _
      have marked := wf.bindSetMark env mark.toUInt32
      revert marked
      cases device.bindSetMark env mark.toUInt32
      exact id
  split
  · split
    · exact wf
    · exact wf.removeAllPeers
  · exact wf

theorem handlePublicKeyLine_sound (wf : WellFormed suite device) {value : List UInt8}
    (ok : handlePublicKeyLine suite device value = .ok (device', peer')) :
    WellFormed suite device' ∧ peer'.Live device' := by
  unfold handlePublicKeyLine at ok
  split at ok
  · cases ok
  next pk loaded =>
  split at ok
  · cases ok
    exact ⟨wf, trivial⟩
  next other =>
  split at ok
  · next found =>
    cases ok
    exact ⟨wf, (device.lookupPeer_isSome_iff pk).mp (by simp [found])⟩
  · split at ok
    · cases ok
    next added =>
    cases ok
    refine ⟨wf.newPeer added (length_of_loadExactHex loaded) other, ?_⟩
    -- the new peer is the last entry of the map
    unfold Device.newPeer at added
    repeat' split at added
    all_goals cases added
    show pk ∈ (device.peers ++ [(pk, device.freshPeer suite pk)]).map Prod.fst
    simp

theorem handlePeerLine_sound {device device' : Device AddrPort} (wf : WellFormed suite device)
    (live : peer.Live device) {key value : List UInt8} (ok : handlePeerLine device peer key value = .ok (device', peer')) :
    WellFormed suite device' ∧ peer'.Live device' := by
  -- the writes to the selected peer
  have write : ∀ {f : Peer AddrPort → Peer AddrPort}, Keeps f →
      WellFormed suite (writePeer device peer f) ∧ peer.Live (writePeer device peer f) :=
    fun keeps => ⟨wf.writePeer peer keeps, live.of_keys (keys_writePeer _ _ _)⟩
  unfold handlePeerLine at ok
  -- `update_only` and `remove`
  split at ok
  · split at ok
    · cases ok
    · split at ok
      · cases ok
        exact ⟨wf.removePeer _, trivial⟩
      · cases ok
        exact ⟨wf, live⟩
  split at ok
  · split at ok
    · cases ok
    · split at ok
      · cases ok
        exact ⟨wf.removePeer _, trivial⟩
      · cases ok
        exact ⟨wf, trivial⟩
  -- `preshared_key`, `endpoint` and `persistent_keepalive_interval`
  split at ok
  · split at ok
    · cases ok
    · next loaded =>
      cases ok
      exact write fun _ => ⟨rfl, rfl, fun _ => length_of_loadExactHex loaded⟩
  split at ok
  · split at ok
    · cases ok
    · cases ok
      exact write fun _ => ⟨rfl, rfl, id⟩
  split at ok
  · split at ok
    · cases ok
    · cases ok
      exact write fun _ => ⟨rfl, rfl, id⟩
  -- `replace_allowed_ips` and `allowed_ip`
  split at ok
  · split at ok
    · cases ok
    · split at ok
      · cases ok
        exact ⟨wf.removeByPeer _, live⟩
      · cases ok
        exact ⟨wf, live⟩
  split at ok
  · split at ok
    · cases ok
    · next addr bits parsed =>
      split at ok
      · cases ok
        exact ⟨wf.insert (NetIP.parsePrefix_valid parsed) live, live⟩
      · cases ok
        exact ⟨wf, live⟩
  -- `protocol_version`, `trick` and `reserved`
  split at ok
  · split at ok
    · cases ok
    · cases ok
      exact ⟨wf, live⟩
  split at ok
  · cases ok
    exact write fun _ => ⟨rfl, rfl, id⟩
  split at ok
  · split at ok
    · cases ok
    · cases ok
      exact write fun _ => ⟨rfl, rfl, id⟩
  · cases ok

end Handlers

/-! ### Runs -/

/-- What a round of the loop keeps: the invariant, and while the loop goes on, a
selected peer of the device. -/
def Next.Sound (suite : Suite) : Next E → Prop
  | .more device peer => WellFormed suite device ∧ peer.Live device
  | .done device _ => WellFormed suite device

section Runs

variable {suite : Suite} {env : Env}

theorem ipcSetLine_sound (env : Env) {device : Device AddrPort} {peer : Selected} (wf : WellFormed suite device)
    (live : peer.Live device) (line : List UInt8) : (ipcSetLine env suite device peer line).Sound suite := by
  unfold ipcSetLine
  split
  · exact wf.handlePostConfig peer
  split
  · exact wf
  next key value _ =>
  split
  · -- a `public_key` line: the post-config of the peer before, then the new one
    have posted := wf.handlePostConfig peer
    dsimp only
    split
    · exact posted
    · next next selected configured => exact handlePublicKeyLine_sound posted configured
  split
  · have handled := wf.handleDeviceLine env key value
    split
    · next configured =>
      rw [configured] at handled
      exact ⟨handled, trivial⟩
    · next configured =>
      rw [configured] at handled
      exact handled
  · split
    · exact wf
    · next configured => exact handlePeerLine_sound wf live configured

theorem ipcSetLoop_sound (env : Env) :
    ∀ (lines : List (List UInt8)) {device : Device AddrPort} {peer : Selected}, WellFormed suite device →
      peer.Live device → (ipcSetLoop env suite device peer lines).Sound suite
  | [], _, _, wf, live => ⟨wf, live⟩
  | line :: lines, device, peer, wf, live => by
    have step := ipcSetLine_sound env wf live line
    unfold ipcSetLoop
    split
    · next next selected stepped =>
      rw [stepped] at step
      exact ipcSetLoop_sound env lines step.1 step.2
    · next next result stepped =>
      rw [stepped] at step
      exact step

theorem WellFormed.ipcSetOperation {device : Device AddrPort} (wf : WellFormed suite device)
    (input : List UInt8) : WellFormed suite (ipcSetOperation env suite device input).1 := by
  have run := ipcSetLoop_sound env (scanLines input).1 wf (show Selected.Live device .device from trivial)
  unfold Uapi.ipcSetOperation
  dsimp only
  split
  · next next selected ran =>
    rw [ran] at run
    exact run.1.handlePostConfig selected
  · next next result ran =>
    rw [ran] at run
    exact run

end Runs

/-- The devices a new device reaches by set operations, with any input and any
outcomes of the bind's calls, and by the state changes of `Up`, `Down` and `Close`,
which write no field the set operation's invariant reads. -/
inductive Reachable (suite : Suite) : Device AddrPort → Prop
  | init (brokenRoaming : Bool) : Reachable suite (newDevice brokenRoaming)
  | set {device : Device AddrPort} (env : Env) (input : List UInt8) :
      Reachable suite device → Reachable suite (ipcSetOperation env suite device input).1
  | changeState {device : Device AddrPort} (state : DeviceState) :
      Reachable suite device → Reachable suite { device with state }

theorem reachable_wellFormed {suite : Suite} {device : Device AddrPort} (reachable : Reachable suite device) :
    WellFormed suite device := by
  induction reachable with
  | init brokenRoaming => exact wellFormed_newDevice brokenRoaming
  | set env input _ wf => exact wf.ipcSetOperation input
  | changeState state _ wf => exact wf.of_core rfl rfl rfl rfl

/-- The allowed-IPs table of a reachable device routes an address of either
family by longest prefix among the prefixes it holds, and only ever to a peer of
the device's map. -/
theorem reachable_lookup_configured {suite : Suite} {device : Device AddrPort} (reachable : Reachable suite device)
    {ip : List UInt8} (family : ip.length = 4 ∨ ip.length = 16) {key : List UInt8}
    (routed : device.allowedips.lookup ip = some key) :
    ∃ peer, (key, peer) ∈ device.peers ∧ peer.remoteStatic = key ∧
      peer.precomputedStaticStatic = suite.scalarMult device.privateKey key := by
  have wf := reachable_wellFormed reachable
  obtain ⟨m, refines, values⟩ := wf.routes
  rw [refines.lookup family, WarpPlus.Device.PrefixMap.lookup_eq_some_iff] at routed
  obtain ⟨c, -, held, -⟩ := routed
  obtain ⟨peer, inside⟩ := (device.mem_keys).mp (values _ key held)
  exact ⟨peer, inside, wf.keyed key peer inside, wf.precomputed key peer inside⟩

/-- An environment whose bind calls all succeed. -/
def sampleEnv : Env where
  close := true
  openAt := some
  routeListener := true
  setMark _ := true

/-- A private key, one peer, and its prefix. -/
def sampleInput : List UInt8 :=
  unlines [ascii "private_key=" ++ Hex.encodeToString (List.replicate 32 7),
    ascii "public_key=" ++ Hex.encodeToString (List.replicate 32 9), ascii "allowed_ip=10.0.0.0/8"]

theorem reachable_wellFormed_sample :
    WellFormed Noise.sumSuite (ipcSetOperation sampleEnv Noise.sumSuite (newDevice false) sampleInput).1 :=
  reachable_wellFormed (.set sampleEnv sampleInput (.init false))

theorem reachable_lookup_configured_sample :
    ∃ peer, (List.replicate 32 9, peer) ∈
        (ipcSetOperation sampleEnv Noise.sumSuite (newDevice false) sampleInput).1.peers ∧
      peer.remoteStatic = List.replicate 32 9 ∧
      peer.precomputedStaticStatic = Noise.sumSuite.scalarMult
        (ipcSetOperation sampleEnv Noise.sumSuite (newDevice false) sampleInput).1.privateKey
        (List.replicate 32 9) :=
  reachable_lookup_configured (.set sampleEnv sampleInput (.init false))
    (show [10, 1, 2, 3].length = 4 ∨ [10, 1, 2, 3].length = 16 from Or.inl rfl) (by decide)

end WarpPlus.Uapi
