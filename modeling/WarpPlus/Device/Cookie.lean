import Mathlib

/-! The MAC fields and cookies of `device/cookie.go`, and the path a handshake packet
takes from `AddMacs` to `CheckMAC1`: `SendBuffers` writes the peer's reserved bytes over
bytes 1 to 3 of it, and `RoutineReceiveIncoming` zeroes them again.

BLAKE2s and XChaCha20-Poly1305 are parameters (`Primitives`): `hash` is `blake2s.New256`
over the concatenated writes, `mac key` is `blake2s.New128(key)`, and `aeadSeal` and `aeadOpen`
are the AEAD's `Seal` and `Open`. Time is a count of nanoseconds; a time never set
(`time.Time{}`) is `none`, and `time.Since` of it exceeds every bound. The random secret
and nonce that `CreateReply` reads are arguments.
-/

set_option autoImplicit false

namespace WarpPlus.Device

structure Primitives where
  hash : List UInt8 → List UInt8
  mac : List UInt8 → List UInt8 → List UInt8
  aeadSeal : List UInt8 → List UInt8 → List UInt8 → List UInt8 → List UInt8
  aeadOpen : List UInt8 → List UInt8 → List UInt8 → List UInt8 → Option (List UInt8)

/-- `blake2s.Size128`, the size of each MAC field and of a cookie. -/
def size128 : Nat := 16

def cookieRefreshTime : Nat := 120 * 1000000000

def messageInitiationSize : Nat := 148

def messageResponseSize : Nat := 92

def wgLabelMAC1 : List UInt8 := "mac1----".toUTF8.toList

def wgLabelCookie : List UInt8 := "cookie--".toUTF8.toList

/-- `time.Since(set) > CookieRefreshTime`. -/
def expired (set : Option Nat) (now : Nat) : Bool :=
  match set with
  | none => true
  | some time => decide (cookieRefreshTime < now - time)

structure CookieChecker where
  mac1Key : List UInt8
  secret : List UInt8
  secretSet : Option Nat
  encryptionKey : List UInt8
  deriving DecidableEq, Repr

structure CookieGenerator where
  mac1Key : List UInt8
  cookie : List UInt8
  cookieSet : Option Nat
  hasLastMAC1 : Bool
  lastMAC1 : List UInt8
  encryptionKey : List UInt8
  deriving DecidableEq, Repr

structure MessageCookieReply where
  receiver : UInt32
  nonce : List UInt8
  cookie : List UInt8
  deriving DecidableEq, Repr

/-- What `binary.Write` makes of a `MessageInitiation` or a `MessageResponse`: its type, 1
or 2, as a little-endian `uint32`, and 148 or 92 bytes in all. -/
def HandshakePacket (packet : List UInt8) : Prop :=
  (packet.length = messageInitiationSize ∨ packet.length = messageResponseSize) ∧
    (packet.take 4 = [1, 0, 0, 0] ∨ packet.take 4 = [2, 0, 0, 0])

instance (packet : List UInt8) : Decidable (HandshakePacket packet) :=
  inferInstanceAs (Decidable (_ ∧ _))

/-- The rewrite in `SendBuffers`: unless `trick`, a message of type 1 to 4 carries the
peer's reserved bytes in bytes 1 to 3. -/
def reserve (reserved : UInt8 × UInt8 × UInt8) (trick : Bool) (buffer : List UInt8) : List UInt8 :=
  match buffer with
  | type :: _ :: _ :: _ :: rest =>
    if !trick && 0 < type && type < 5 then
      type :: reserved.1 :: reserved.2.1 :: reserved.2.2 :: rest
    else buffer
  | _ => buffer

def sendBuffers (reserved : UInt8 × UInt8 × UInt8) (trick : Bool) (buffers : List (List UInt8)) :
    List (List UInt8) :=
  buffers.map (reserve reserved trick)

/-- `RoutineReceiveIncoming` zeroes bytes 1 to 3 of a packet before it reads the type. -/
def zeroReserved : List UInt8 → List UInt8
  | type :: _ :: _ :: _ :: rest => type :: 0 :: 0 :: 0 :: rest
  | packet => packet

/-- What the other side receives of a packet `SendBuffers` sends. -/
def transmit (reserved : UInt8 × UInt8 × UInt8) (trick : Bool) (packet : List UInt8) :
    List UInt8 :=
  zeroReserved (reserve reserved trick packet)

theorem zeroReserved_reserve (reserved : UInt8 × UInt8 × UInt8) (trick : Bool)
    (packet : List UInt8) : zeroReserved (reserve reserved trick packet) = zeroReserved packet := by
  unfold reserve
  split
  · split <;> rfl
  · rfl

theorem transmit_of_take {packet : List UInt8} {type : UInt8} (reserved : UInt8 × UInt8 × UInt8)
    (trick : Bool) (zero : packet.take 4 = [type, 0, 0, 0]) :
    transmit reserved trick packet = packet := by
  unfold transmit
  rw [zeroReserved_reserve]
  match packet with
  | _ :: _ :: _ :: _ :: rest =>
    simp only [List.take_succ_cons, List.take_zero, List.cons.injEq] at zero
    obtain ⟨rfl, rfl, rfl, rfl, -⟩ := zero
    rfl
  | [] | [_] | [_, _] | [_, _, _] => simp at zero

theorem HandshakePacket.long {packet : List UInt8} (shaped : HandshakePacket packet) :
    2 * size128 + 4 ≤ packet.length := by
  rcases shaped.1 with size | size <;>
    simp [size, size128, messageInitiationSize, messageResponseSize]

theorem HandshakePacket.reserved_zero {packet : List UInt8} (shaped : HandshakePacket packet) :
    ∃ type, packet.take 4 = [type, 0, 0, 0] := by
  rcases shaped.2 with front | front
  · exact ⟨1, front⟩
  · exact ⟨2, front⟩

variable (c : Primitives)

namespace CookieChecker

def init (st : CookieChecker) (pk : List UInt8) : CookieChecker :=
  { st with
    mac1Key := c.hash (wgLabelMAC1 ++ pk)
    encryptionKey := c.hash (wgLabelCookie ++ pk)
    secretSet := none }

def checkMAC1 (st : CookieChecker) (msg : List UInt8) : Bool :=
  let smac2 := msg.length - size128
  let smac1 := smac2 - size128
  c.mac st.mac1Key (msg.take smac1) == (msg.drop smac1).take size128

def checkMAC2 (st : CookieChecker) (now : Nat) (msg src : List UInt8) : Bool :=
  if expired st.secretSet now then false
  else
    let cookie := c.mac st.secret src
    let smac2 := msg.length - size128
    c.mac cookie (msg.take smac2) == msg.drop smac2

/-- `secret` and `nonce` are what `rand.Read` gives; the secret is read only when the old
one has expired. -/
def createReply (st : CookieChecker) (now : Nat) (msg : List UInt8) (recv : UInt32)
    (src secret nonce : List UInt8) : CookieChecker × MessageCookieReply :=
  let st := if expired st.secretSet now then { st with secret := secret, secretSet := some now }
    else st
  let cookie := c.mac st.secret src
  let smac2 := msg.length - size128
  let smac1 := smac2 - size128
  (st, ⟨recv, nonce, c.aeadSeal st.encryptionKey nonce cookie ((msg.drop smac1).take size128)⟩)

end CookieChecker

namespace CookieGenerator

def init (st : CookieGenerator) (pk : List UInt8) : CookieGenerator :=
  { st with
    mac1Key := c.hash (wgLabelMAC1 ++ pk)
    encryptionKey := c.hash (wgLabelCookie ++ pk)
    cookieSet := none }

def consumeReply (st : CookieGenerator) (now : Nat) (msg : MessageCookieReply) :
    CookieGenerator × Bool :=
  if !st.hasLastMAC1 then (st, false)
  else
    match c.aeadOpen st.encryptionKey msg.nonce msg.cookie st.lastMAC1 with
    | none => (st, false)
    | some cookie => ({ st with cookieSet := some now, cookie := cookie }, true)

/-- `AddMacs` writes MAC1 over the 16 bytes before the last 16, and MAC2 over the last 16
while its cookie is fresh. -/
def addMacs (st : CookieGenerator) (now : Nat) (msg : List UInt8) :
    CookieGenerator × List UInt8 :=
  let smac2 := msg.length - size128
  let smac1 := smac2 - size128
  let mac1 := c.mac st.mac1Key (msg.take smac1)
  let msg := msg.take smac1 ++ mac1 ++ msg.drop smac2
  let st := { st with lastMAC1 := mac1, hasLastMAC1 := true }
  if expired st.cookieSet now then (st, msg)
  else (st, msg.take smac2 ++ c.mac st.cookie (msg.take smac2))

/-- `AddMacs` on each of `calls`, a time and a message, in order. -/
def addMacsAll (st : CookieGenerator) : List (Nat × List UInt8) → CookieGenerator
  | [] => st
  | (now, msg) :: calls => addMacsAll (st.addMacs c now msg).1 calls

end CookieGenerator

/-- One exchange under load: `G` adds MACs to `msg` at `sent` and the peer sends it; `C`
answers the packet it receives from `src` at `answered`; `G` consumes the reply at
`consumed`. -/
structure CookieExchange where
  msg : List UInt8
  sent : Nat
  reserved : UInt8 × UInt8 × UInt8
  trick : Bool
  answered : Nat
  receiver : UInt32
  src : List UInt8
  secret : List UInt8
  nonce : List UInt8
  consumed : Nat

/-- The states and the reply an exchange leaves. -/
structure ExchangeResult where
  macced : CookieGenerator
  checker : CookieChecker
  reply : MessageCookieReply
  generator : CookieGenerator
  accepted : Bool

def CookieExchange.run (e : CookieExchange) (generator : CookieGenerator)
    (checker : CookieChecker) : ExchangeResult :=
  let macced := generator.addMacs c e.sent e.msg
  let replied := checker.createReply c e.answered (transmit e.reserved e.trick macced.2) e.receiver
    e.src e.secret e.nonce
  let consumed := macced.1.consumeReply c e.consumed replied.2
  ⟨macced.1, replied.1, replied.2, consumed.1, consumed.2⟩

/-- A checker `Init` keyed with `pk`: no later call changes its keys. -/
structure CookieChecker.Keyed (st : CookieChecker) (pk : List UInt8) : Prop where
  mac1Key_eq : st.mac1Key = c.hash (wgLabelMAC1 ++ pk)
  encryptionKey_eq : st.encryptionKey = c.hash (wgLabelCookie ++ pk)

structure CookieGenerator.Keyed (st : CookieGenerator) (pk : List UInt8) : Prop where
  mac1Key_eq : st.mac1Key = c.hash (wgLabelMAC1 ++ pk)
  encryptionKey_eq : st.encryptionKey = c.hash (wgLabelCookie ++ pk)

variable {c}

/-! ### What each call leaves -/

@[simp] theorem CookieExchange.run_macced (e : CookieExchange) (generator : CookieGenerator)
    (checker : CookieChecker) :
    (e.run c generator checker).macced = (generator.addMacs c e.sent e.msg).1 := rfl

@[simp] theorem CookieExchange.run_checker (e : CookieExchange) (generator : CookieGenerator)
    (checker : CookieChecker) :
    (e.run c generator checker).checker = (checker.createReply c e.answered
      (transmit e.reserved e.trick (generator.addMacs c e.sent e.msg).2) e.receiver e.src e.secret
      e.nonce).1 := rfl

@[simp] theorem CookieExchange.run_reply (e : CookieExchange) (generator : CookieGenerator)
    (checker : CookieChecker) :
    (e.run c generator checker).reply = (checker.createReply c e.answered
      (transmit e.reserved e.trick (generator.addMacs c e.sent e.msg).2) e.receiver e.src e.secret
      e.nonce).2 := rfl

theorem CookieExchange.run_consumed (e : CookieExchange) (generator : CookieGenerator)
    (checker : CookieChecker) :
    ((e.run c generator checker).generator, (e.run c generator checker).accepted) =
      (e.run c generator checker).macced.consumeReply c e.consumed
        (e.run c generator checker).reply := rfl

theorem CookieChecker.init_keyed (st : CookieChecker) (pk : List UInt8) :
    (st.init c pk).Keyed c pk := ⟨rfl, rfl⟩

theorem CookieGenerator.init_keyed (st : CookieGenerator) (pk : List UInt8) :
    (st.init c pk).Keyed c pk := ⟨rfl, rfl⟩

@[simp] theorem CookieGenerator.addMacs_fst (st : CookieGenerator) (now : Nat) (msg : List UInt8) :
    (st.addMacs c now msg).1 = { st with
      lastMAC1 := c.mac st.mac1Key (msg.take (msg.length - size128 - size128))
      hasLastMAC1 := true } := by
  unfold CookieGenerator.addMacs
  dsimp only
  split <;> rfl

theorem CookieGenerator.addMacsAll_keys (st : CookieGenerator) (calls : List (Nat × List UInt8)) :
    (st.addMacsAll c calls).mac1Key = st.mac1Key ∧ (st.addMacsAll c calls).cookie = st.cookie ∧
      (st.addMacsAll c calls).cookieSet = st.cookieSet ∧
      (st.addMacsAll c calls).encryptionKey = st.encryptionKey := by
  induction calls generalizing st with
  | nil => exact ⟨rfl, rfl, rfl, rfl⟩
  | cons call calls ih =>
    obtain ⟨now, msg⟩ := call
    obtain ⟨mac1Key, cookie, cookieSet, encryptionKey⟩ := ih (st.addMacs c now msg).1
    refine ⟨mac1Key.trans ?_, cookie.trans ?_, cookieSet.trans ?_, encryptionKey.trans ?_⟩ <;>
      simp

theorem CookieGenerator.consumeReply_of_aeadOpen {st : CookieGenerator} {now : Nat}
    {msg : MessageCookieReply} {cookie : List UInt8} (remembered : st.hasLastMAC1 = true)
    (opened : c.aeadOpen st.encryptionKey msg.nonce msg.cookie st.lastMAC1 = some cookie) :
    st.consumeReply c now msg = ({ st with cookieSet := some now, cookie := cookie }, true) := by
  simp [CookieGenerator.consumeReply, remembered, opened]

theorem CookieGenerator.consumeReply_of_aeadOpen_none {st : CookieGenerator} {now : Nat}
    {msg : MessageCookieReply}
    (rejected : c.aeadOpen st.encryptionKey msg.nonce msg.cookie st.lastMAC1 = none) :
    (st.consumeReply c now msg).2 = false := by
  unfold CookieGenerator.consumeReply
  split
  · rfl
  · rw [rejected]

/-! ### The two MAC fields -/

theorem CookieChecker.checkMAC1_append (st : CookieChecker) {front mac1 tail : List UInt8}
    (mac1_length : mac1.length = size128) (tail_length : tail.length = size128) :
    st.checkMAC1 c (front ++ mac1 ++ tail) = (c.mac st.mac1Key front == mac1) := by
  have smac1 : (front ++ mac1 ++ tail).length - size128 - size128 = front.length := by
    simp only [List.length_append, mac1_length, tail_length]
    omega
  unfold CookieChecker.checkMAC1
  dsimp only
  rw [smac1, List.append_assoc, List.take_left, List.drop_left, List.take_left' mac1_length]

theorem CookieChecker.checkMAC2_append (st : CookieChecker) {now : Nat} {front mac1 tail : List UInt8}
    (src : List UInt8) (young : expired st.secretSet now = false)
    (tail_length : tail.length = size128) :
    st.checkMAC2 c now (front ++ mac1 ++ tail) src =
      (c.mac (c.mac st.secret src) (front ++ mac1) == tail) := by
  have smac2 : (front ++ mac1 ++ tail).length - size128 = (front ++ mac1).length := by
    simp only [List.length_append, tail_length]
    omega
  unfold CookieChecker.checkMAC2
  simp only [young, Bool.false_eq_true, if_false]
  rw [smac2, List.take_left, List.drop_left]

theorem CookieChecker.createReply_snd (st : CookieChecker) (now : Nat) {front mac1 tail : List UInt8}
    (recv : UInt32) (src secret nonce : List UInt8)
    (mac1_length : mac1.length = size128) (tail_length : tail.length = size128) :
    (st.createReply c now (front ++ mac1 ++ tail) recv src secret nonce).2 =
      ⟨recv, nonce, c.aeadSeal st.encryptionKey nonce
        (c.mac (st.createReply c now (front ++ mac1 ++ tail) recv src secret nonce).1.secret src)
        mac1⟩ := by
  have smac1 : (front ++ mac1 ++ tail).length - size128 - size128 = front.length := by
    simp only [List.length_append, mac1_length, tail_length]
    omega
  have keys : (if expired st.secretSet now then { st with secret := secret, secretSet := some now }
      else st).encryptionKey = st.encryptionKey := by
    split <;> rfl
  unfold CookieChecker.createReply
  dsimp only
  rw [smac1, List.append_assoc, List.drop_left, List.take_left' mac1_length, keys]

section layout

variable (mac_length : ∀ key data, (c.mac key data).length = size128)
include mac_length

theorem CookieGenerator.addMacs_snd (st : CookieGenerator) (now : Nat) {msg : List UInt8}
    (long : 2 * size128 ≤ msg.length) :
    (st.addMacs c now msg).2 =
      msg.take (msg.length - size128 - size128) ++ (st.addMacs c now msg).1.lastMAC1 ++
        if expired st.cookieSet now then msg.drop (msg.length - size128)
        else c.mac st.cookie
          (msg.take (msg.length - size128 - size128) ++ (st.addMacs c now msg).1.lastMAC1) := by
  rw [CookieGenerator.addMacs_fst]
  unfold CookieGenerator.addMacs
  dsimp only
  split
  · rfl
  · -- MAC2 covers the body and MAC1 as `AddMacs` has just written them
    have front : (msg.take (msg.length - size128 - size128) ++
        c.mac st.mac1Key (msg.take (msg.length - size128 - size128)) ++
        msg.drop (msg.length - size128)).take (msg.length - size128) =
          msg.take (msg.length - size128 - size128) ++
            c.mac st.mac1Key (msg.take (msg.length - size128 - size128)) := by
      rw [List.take_append_of_le_length (by simp [mac_length]; omega)]
      apply List.take_of_length_le
      simp [mac_length]
      omega
    rw [front, List.append_assoc]

theorem CookieGenerator.length_lastMAC1_addMacs (st : CookieGenerator) (now : Nat)
    (msg : List UInt8) : (st.addMacs c now msg).1.lastMAC1.length = size128 := by
  simp [mac_length]

theorem CookieGenerator.length_mac2_addMacs (st : CookieGenerator) (now : Nat) {msg : List UInt8}
    (long : 2 * size128 ≤ msg.length) :
    (if expired st.cookieSet now then msg.drop (msg.length - size128)
      else c.mac st.cookie
        (msg.take (msg.length - size128 - size128) ++ (st.addMacs c now msg).1.lastMAC1)).length =
      size128 := by
  split
  · simp
    omega
  · exact mac_length _ _

theorem CookieGenerator.transmit_addMacs (st : CookieGenerator) (now : Nat) {msg : List UInt8}
    (shaped : HandshakePacket msg) (reserved : UInt8 × UInt8 × UInt8) (trick : Bool) :
    transmit reserved trick (st.addMacs c now msg).2 = (st.addMacs c now msg).2 := by
  obtain ⟨type, zero⟩ := shaped.reserved_zero
  have long := shaped.long
  refine @transmit_of_take _ type reserved trick ?_
  rw [CookieGenerator.addMacs_snd mac_length st now (by omega), List.append_assoc,
    List.take_append_of_le_length (by simp; omega), List.take_take,
    Nat.min_eq_left (by omega), zero]

theorem CookieExchange.reply_eq (e : CookieExchange) (generator : CookieGenerator)
    (checker : CookieChecker) (shaped : HandshakePacket e.msg) :
    (e.run c generator checker).reply = ⟨e.receiver, e.nonce, c.aeadSeal checker.encryptionKey
      e.nonce (c.mac (e.run c generator checker).checker.secret e.src)
      (e.run c generator checker).macced.lastMAC1⟩ := by
  have long := shaped.long
  simp only [CookieExchange.run_reply, CookieExchange.run_checker, CookieExchange.run_macced]
  rw [CookieGenerator.transmit_addMacs mac_length generator e.sent shaped,
    CookieGenerator.addMacs_snd mac_length generator e.sent (by omega)]
  exact CookieChecker.createReply_snd checker e.answered e.receiver e.src e.secret e.nonce
    (CookieGenerator.length_lastMAC1_addMacs mac_length generator e.sent e.msg)
    (CookieGenerator.length_mac2_addMacs mac_length generator e.sent (by omega))

section keyed

variable {pk : List UInt8} {generator : CookieGenerator} {checker : CookieChecker}
  (generatorKeyed : generator.Keyed c pk) (checkerKeyed : checker.Keyed c pk)
include generatorKeyed checkerKeyed

theorem CookieExchange.run_accepts (e : CookieExchange) (shaped : HandshakePacket e.msg)
    (aeadOpen_aeadSeal : ∀ key nonce plain ad, plain.length = size128 → ad.length = size128 →
      c.aeadOpen key nonce (c.aeadSeal key nonce plain ad) ad = some plain) :
    (e.run c generator checker).accepted = true ∧
      (e.run c generator checker).generator = { (e.run c generator checker).macced with
        cookieSet := some e.consumed
        cookie := c.mac (e.run c generator checker).checker.secret e.src } := by
  -- both sides derived the AEAD key from `pk`
  have keys : (e.run c generator checker).macced.encryptionKey = checker.encryptionKey := by
    simp [generatorKeyed.encryptionKey_eq, checkerKeyed.encryptionKey_eq]
  have opened : c.aeadOpen (e.run c generator checker).macced.encryptionKey
      (e.run c generator checker).reply.nonce (e.run c generator checker).reply.cookie
      (e.run c generator checker).macced.lastMAC1 =
        some (c.mac (e.run c generator checker).checker.secret e.src) := by
    rw [CookieExchange.reply_eq mac_length e generator checker shaped, keys]
    exact aeadOpen_aeadSeal _ _ _ _ (mac_length _ _)
      (CookieGenerator.length_lastMAC1_addMacs mac_length generator e.sent e.msg)
  have consumed := @CookieExchange.run_consumed c e generator checker
  rw [CookieGenerator.consumeReply_of_aeadOpen (by simp) opened, Prod.mk.injEq] at consumed
  exact ⟨consumed.2, consumed.1⟩

theorem CookieExchange.later_passes (e : CookieExchange) (shaped : HandshakePacket e.msg)
    (aeadOpen_aeadSeal : ∀ key nonce plain ad, plain.length = size128 → ad.length = size128 →
      c.aeadOpen key nonce (c.aeadSeal key nonce plain ad) ad = some plain)
    (calls : List (Nat × List UInt8)) {msg : List UInt8} (shaped' : HandshakePacket msg)
    {sent : Nat} (within : sent - e.consumed ≤ cookieRefreshTime)
    (reserved : UInt8 × UInt8 × UInt8) (trick : Bool) {checker' : CookieChecker} {checked : Nat}
    (checkerKeyed' : checker'.Keyed c pk)
    (unchanged : checker'.secret = (e.run c generator checker).checker.secret)
    (young : expired checker'.secretSet checked = false) :
    checker'.checkMAC1 c (transmit reserved trick
        ((((e.run c generator checker).generator.addMacsAll c calls).addMacs c sent msg).2)) = true ∧
      checker'.checkMAC2 c checked (transmit reserved trick
        ((((e.run c generator checker).generator.addMacsAll c calls).addMacs c sent msg).2))
        e.src = true := by
  obtain ⟨_, consumed⟩ :=
    CookieExchange.run_accepts mac_length generatorKeyed checkerKeyed e shaped aeadOpen_aeadSeal
  obtain ⟨mac1Key, cookie, cookieSet, -⟩ :=
    @CookieGenerator.addMacsAll_keys c (e.run c generator checker).generator calls
  set later := (e.run c generator checker).generator.addMacsAll c calls
  simp only [consumed, CookieExchange.run_macced, CookieGenerator.addMacs_fst]
    at mac1Key cookie cookieSet
  -- the cookie set at the consumption is still fresh
  have fresh : expired later.cookieSet sent = false := by
    simp only [cookieSet, expired, decide_eq_false_iff_not, Nat.not_lt]
    exact within
  have long := shaped'.long
  rw [CookieGenerator.transmit_addMacs mac_length later sent shaped',
    CookieGenerator.addMacs_snd mac_length later sent (by omega), fresh]
  simp only [Bool.false_eq_true, if_false]
  constructor
  · rw [CookieChecker.checkMAC1_append checker'
      (CookieGenerator.length_lastMAC1_addMacs mac_length later sent msg) (mac_length _ _)]
    simp [mac1Key, generatorKeyed.mac1Key_eq, checkerKeyed'.mac1Key_eq]
  · rw [CookieChecker.checkMAC2_append checker' e.src young (mac_length _ _), cookie, unchanged]
    simp

omit generatorKeyed in
theorem CookieExchange.reply_rejected (e : CookieExchange) (shaped : HandshakePacket e.msg)
    (aeadOpen_aeadSeal_of_ne : ∀ key nonce plain ad ad', plain.length = size128 →
      ad.length = size128 → ad' ≠ ad → c.aeadOpen key nonce (c.aeadSeal key nonce plain ad) ad' = none)
    {other : CookieGenerator} (otherKeyed : other.Keyed c pk) {msg : List UInt8} {sent now : Nat}
    (differs : (other.addMacs c sent msg).1.lastMAC1 ≠ (e.run c generator checker).macced.lastMAC1) :
    ((other.addMacs c sent msg).1.consumeReply c now (e.run c generator checker).reply).2 = false := by
  have keys : (other.addMacs c sent msg).1.encryptionKey = checker.encryptionKey := by
    simp [otherKeyed.encryptionKey_eq, checkerKeyed.encryptionKey_eq]
  apply CookieGenerator.consumeReply_of_aeadOpen_none
  rw [CookieExchange.reply_eq mac_length e generator checker shaped, keys]
  exact aeadOpen_aeadSeal_of_ne _ _ _ _ _ (mac_length _ _)
    (CookieGenerator.length_lastMAC1_addMacs mac_length generator e.sent e.msg) differs

end keyed

end layout

variable (c) in
/-- The cookie exchange, with the reserved bytes written on the way out and zeroed on the
way in: `G` accepts `C`'s reply; every message `G` adds MACs to while the cookie is fresh
passes both checks at `C` from the same source while `C` keeps its secret; and once `G` has
added MACs to a message with another MAC1, the reply is rejected. -/
theorem cookie_reply_admits_later_messages
    (mac_length : ∀ key data, (c.mac key data).length = size128)
    (aeadOpen_aeadSeal : ∀ key nonce plain ad, plain.length = size128 → ad.length = size128 →
      c.aeadOpen key nonce (c.aeadSeal key nonce plain ad) ad = some plain)
    (aeadOpen_aeadSeal_of_ne : ∀ key nonce plain ad ad', plain.length = size128 →
      ad.length = size128 → ad' ≠ ad → c.aeadOpen key nonce (c.aeadSeal key nonce plain ad) ad' = none)
    {pk : List UInt8} {generator : CookieGenerator} {checker : CookieChecker}
    (generatorKeyed : generator.Keyed c pk) (checkerKeyed : checker.Keyed c pk)
    (e : CookieExchange) (shaped : HandshakePacket e.msg) :
    (e.run c generator checker).accepted = true ∧
      (∀ (calls : List (Nat × List UInt8)) (msg : List UInt8) (sent : Nat)
        (reserved : UInt8 × UInt8 × UInt8) (trick : Bool) (checker' : CookieChecker) (checked : Nat),
        HandshakePacket msg → sent - e.consumed ≤ cookieRefreshTime → checker'.Keyed c pk →
        checker'.secret = (e.run c generator checker).checker.secret →
        expired checker'.secretSet checked = false →
        checker'.checkMAC1 c (transmit reserved trick
            ((((e.run c generator checker).generator.addMacsAll c calls).addMacs c sent msg).2)) =
          true ∧
        checker'.checkMAC2 c checked (transmit reserved trick
            ((((e.run c generator checker).generator.addMacsAll c calls).addMacs c sent msg).2))
          e.src = true) ∧
      (∀ (other : CookieGenerator) (msg : List UInt8) (sent now : Nat), other.Keyed c pk →
        (other.addMacs c sent msg).1.lastMAC1 ≠ (e.run c generator checker).macced.lastMAC1 →
        ((other.addMacs c sent msg).1.consumeReply c now (e.run c generator checker).reply).2 =
          false) := by
  refine ⟨(CookieExchange.run_accepts mac_length generatorKeyed checkerKeyed e shaped
    aeadOpen_aeadSeal).1, ?_, ?_⟩
  · intro calls msg sent reserved trick checker' checked shaped' within checkerKeyed' unchanged young
    exact CookieExchange.later_passes mac_length generatorKeyed checkerKeyed e shaped
      aeadOpen_aeadSeal calls shaped' within reserved trick checkerKeyed' unchanged young
  · intro other msg sent now otherKeyed differs
    exact CookieExchange.reply_rejected mac_length checkerKeyed e shaped aeadOpen_aeadSeal_of_ne
      otherKeyed differs

/-- Stand-ins for BLAKE2s and XChaCha20-Poly1305 with what the exchange needs of them: 16-byte
MACs, and sealed data that opens only under the associated data it was sealed with. -/
def paddedPrimitives : Primitives where
  hash data := data
  mac _ data := (data ++ List.replicate 16 0).take 16
  aeadSeal _ _ plain ad := plain ++ ad
  aeadOpen _ _ sealed ad := if sealed.drop 16 = ad then some (sealed.take 16) else none

def blankGenerator : CookieGenerator := ⟨[], [], none, false, [], []⟩

def blankChecker : CookieChecker := ⟨[], [], none, []⟩

/-- An initiation sent with reserved bytes 7, 8, 9 and answered from source 10.0.0.1. -/
def initiationExchange : CookieExchange :=
  ⟨1 :: 0 :: 0 :: 0 :: List.replicate 144 5, 0, (7, 8, 9), false, 1, 3, [10, 0, 0, 1], [42],
    [0], 2⟩

theorem cookie_reply_admits_later_messages_padded :
    (initiationExchange.run paddedPrimitives (blankGenerator.init paddedPrimitives [1])
        (blankChecker.init paddedPrimitives [1])).accepted = true ∧
      (∀ (calls : List (Nat × List UInt8)) (msg : List UInt8) (sent : Nat)
        (reserved : UInt8 × UInt8 × UInt8) (trick : Bool) (checker' : CookieChecker) (checked : Nat),
        HandshakePacket msg → sent - initiationExchange.consumed ≤ cookieRefreshTime →
        checker'.Keyed paddedPrimitives [1] →
        checker'.secret = (initiationExchange.run paddedPrimitives
          (blankGenerator.init paddedPrimitives [1]) (blankChecker.init paddedPrimitives [1])).checker.secret →
        expired checker'.secretSet checked = false →
        checker'.checkMAC1 paddedPrimitives (transmit reserved trick
            ((((initiationExchange.run paddedPrimitives (blankGenerator.init paddedPrimitives [1])
              (blankChecker.init paddedPrimitives [1])).generator.addMacsAll paddedPrimitives
                calls).addMacs paddedPrimitives sent msg).2)) = true ∧
        checker'.checkMAC2 paddedPrimitives checked (transmit reserved trick
            ((((initiationExchange.run paddedPrimitives (blankGenerator.init paddedPrimitives [1])
              (blankChecker.init paddedPrimitives [1])).generator.addMacsAll paddedPrimitives
                calls).addMacs paddedPrimitives sent msg).2)) initiationExchange.src = true) ∧
      (∀ (other : CookieGenerator) (msg : List UInt8) (sent now : Nat),
        other.Keyed paddedPrimitives [1] →
        (other.addMacs paddedPrimitives sent msg).1.lastMAC1 ≠
          (initiationExchange.run paddedPrimitives (blankGenerator.init paddedPrimitives [1])
            (blankChecker.init paddedPrimitives [1])).macced.lastMAC1 →
        ((other.addMacs paddedPrimitives sent msg).1.consumeReply paddedPrimitives now
          (initiationExchange.run paddedPrimitives (blankGenerator.init paddedPrimitives [1])
            (blankChecker.init paddedPrimitives [1])).reply).2 = false) :=
  cookie_reply_admits_later_messages paddedPrimitives
    (fun _ data => by simp [paddedPrimitives, size128])
    (fun _ _ plain ad (plain_length : plain.length = 16) _ => by
      simp [paddedPrimitives, List.drop_left' plain_length, List.take_left' plain_length])
    (fun _ _ plain ad ad' (plain_length : plain.length = 16) _ differs => by
      simp [paddedPrimitives, List.drop_left' plain_length, Ne.symm differs])
    (CookieGenerator.init_keyed blankGenerator [1]) (CookieChecker.init_keyed blankChecker [1])
    initiationExchange (by simp [initiationExchange, HandshakePacket, messageInitiationSize])

end WarpPlus.Device
