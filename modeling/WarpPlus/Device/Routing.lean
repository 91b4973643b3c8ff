import Mathlib
import WarpPlus.Device.Noise
import WarpPlus.Semantics.Machine

/-! Routing of inbound messages by receiver index: every keypair a peer holds is
what the index table maps its index to, and every entry of the table is a held
keypair or a handshake at its own index (`Routes`).

Index 0 is both a value `randUint32` can return and the index `Clear` and
`BeginSymmetricSession` leave in a handshake, and four calls delete a
handshake's index unconditionally. A keypair made on index 0 is therefore
unrouted by the next of them, from any peer (`index_zero_unroutes_keypair`).
When the generator never returns 0 (and never fails), `Indexed` is an
inductive invariant and every reachable device routes (`routes_of_nonzero_draws`).
-/

set_option autoImplicit false
set_option linter.dupNamespace false

namespace WarpPlus.Device

inductive Slot where
  | current
  | previous
  | next
  deriving DecidableEq, Repr

instance : Fintype Slot where
  elems := {.current, .previous, .next}
  complete slot := by cases slot <;> decide

def Keypairs.get (keypairs : Keypairs) : Slot → Option Keypair
  | .current => keypairs.current
  | .previous => keypairs.previous
  | .next => keypairs.next

variable {P : Type}

/-- Inbound transport messages reach the keypair they are addressed to. -/
structure Routes (device : Device P) : Prop where
  held : ∀ peer slot keypair, (device.peers peer).keypairs.get slot = some keypair →
    ∃ entry, device.indexTable keypair.localIndex = some entry ∧ entry.keypair = some keypair
  entries : ∀ index entry, device.indexTable index = some entry →
    (∃ keypair, entry.keypair = some keypair ∧ keypair.localIndex = index ∧
      ∃ peer slot, (device.peers peer).keypairs.get slot = some keypair) ∨
    (entry.handshake = true ∧ (device.peers entry.peer).handshake.localIndex = index)

theorem Routes.lookup_ne_none {device : Device P} (routes : Routes device) (peer : P) (slot : Slot)
    {keypair : Keypair} (held : (device.peers peer).keypairs.get slot = some keypair) :
    device.indexTable keypair.localIndex ≠ none := by
  obtain ⟨entry, found, _⟩ := routes.held peer slot keypair held
  simp [found]

/-- Index 0, drawn for a first handshake, is deleted by a second peer's initiation while
the keypair made on it is still current. -/
theorem index_zero_unroutes_keypair :
    ∃ device, (Device.init : Device Bool).run
        [.createMessageInitiation false true [.value 0], .consumeMessageResponse 0 7 true,
          .beginSymmetricSession false, .createMessageInitiation true true [.value 5]] = some device ∧
      (device.peers false).keypairs.current = some ⟨0, true, 0, 7⟩ ∧ device.indexTable 0 = none ∧
      ¬ Routes device := by
  refine ⟨_, rfl, by decide, by decide, fun routes => ?_⟩
  exact routes.lookup_ne_none false .current (show _ = some (⟨0, true, 0, 7⟩ : Keypair) by decide)
    (by decide)

/-! ### The invariant when index 0 is never drawn -/

/-- No two slots hold keypairs with one index. -/
def Keypairs.Distinct (keypairs : Keypairs) : Prop :=
  ∀ slot slot' held held', keypairs.get slot = some held → keypairs.get slot' = some held' →
    held.localIndex = held'.localIndex → slot = slot'

/-- The states in which a handshake's index has been sent: an answer may carry it. -/
def HandshakeState.holdsIndex : HandshakeState → Bool
  | .initiationCreated | .responseCreated | .responseConsumed => true
  | .zeroed | .initiationConsumed => false

/-- What an entry at `index` may be: its peer's handshake at that index, or a keypair
its peer holds at that index. -/
inductive Owns (device : Device P) (index : UInt32) : IndexTableEntry P → Prop where
  | handshake {peer : P} : (device.peers peer).handshake.localIndex = index →
      Owns device index ⟨peer, true, none⟩
  | keypair {peer : P} {slot : Slot} {keypair : Keypair} :
      (device.peers peer).keypairs.get slot = some keypair → keypair.localIndex = index →
      Owns device index ⟨peer, false, some keypair⟩

structure Indexed (device : Device P) : Prop where
  zero_free : device.indexTable 0 = none
  handshake_entry : ∀ peer, (device.peers peer).handshake.localIndex ≠ 0 →
    device.indexTable (device.peers peer).handshake.localIndex = some ⟨peer, true, none⟩
  assigned : ∀ peer, (device.peers peer).handshake.state.holdsIndex = true →
    (device.peers peer).handshake.localIndex ≠ 0
  keypair_entry : ∀ peer slot keypair, (device.peers peer).keypairs.get slot = some keypair →
    device.indexTable keypair.localIndex = some ⟨peer, false, some keypair⟩
  owned : ∀ index entry, device.indexTable index = some entry → Owns device index entry
  distinct : ∀ peer, (device.peers peer).keypairs.Distinct

theorem Indexed.routes {device : Device P} (inv : Indexed device) : Routes device where
  held peer slot keypair held := ⟨_, inv.keypair_entry peer slot keypair held, rfl⟩
  entries index entry found := by
    cases inv.owned index entry found with
    | handshake same => exact .inr ⟨rfl, same⟩
    | keypair held same => exact .inl ⟨_, rfl, same, _, _, held⟩

/-- Every draw is a value other than 0: `randUint32` neither fails nor returns 0. -/
def NonzeroDraws (draws : List Draw) : Prop :=
  ∀ draw ∈ draws, ∃ index, draw = .value index ∧ index ≠ 0

def Op.nonzeroDraws : Op P → Prop
  | .createMessageInitiation _ _ draws | .createMessageResponse _ _ draws => NonzeroDraws draws
  | _ => True

theorem newIndexForHandshake_nonzero {table : IndexTable P} {peer : P} {draws : List Draw}
    {result : Except UInt32 (UInt32 × IndexTable P)} (nonzero : NonzeroDraws draws)
    (drawn : table.newIndexForHandshake peer draws = some result) :
    ∃ index, index ≠ 0 ∧ table index = none ∧
      result = .ok (index, Function.update table index (some ⟨peer, true, none⟩)) := by
  cases result with
  | error index =>
    have values : ∀ draw ∈ draws, ∃ index, draw = .value index :=
      fun draw member => (nonzero draw member).imp fun _ => And.left
    exact absurd drawn (IndexTable.newIndexForHandshake_ne_error values index)
  | ok found =>
    obtain ⟨index, table'⟩ := found
    obtain ⟨member, free, rfl⟩ := IndexTable.newIndexForHandshake_ok drawn
    obtain ⟨_, same, positive⟩ := nonzero _ member
    cases same
    exact ⟨index, positive, free, rfl⟩

theorem Indexed.init : Indexed (Device.init : Device P) where
  zero_free := rfl
  handshake_entry _ zero := absurd rfl zero
  assigned _ holds := by cases holds
  keypair_entry _ slot _ held := by cases slot <;> cases held
  owned _ _ found := by cases found
  distinct _ slot _ _ _ held := by cases slot <;> cases held

namespace Indexed

variable {device : Device P} (inv : Indexed device)
include inv

theorem keypair_index_ne_zero {peer : P} {slot : Slot} {keypair : Keypair}
    (held : (device.peers peer).keypairs.get slot = some keypair) : keypair.localIndex ≠ 0 := by
  intro zero
  have found := inv.keypair_entry peer slot keypair held
  rw [zero, inv.zero_free] at found
  cases found

theorem handshake_index_inj {peer other : P} (nonzero : (device.peers peer).handshake.localIndex ≠ 0)
    (same : (device.peers peer).handshake.localIndex = (device.peers other).handshake.localIndex) :
    peer = other := by
  have mine := inv.handshake_entry peer nonzero
  rw [same, inv.handshake_entry other (same ▸ nonzero)] at mine
  cases mine
  rfl

theorem keypair_index_ne_handshake {peer : P} {slot : Slot} {keypair : Keypair}
    (held : (device.peers peer).keypairs.get slot = some keypair) (other : P) :
    keypair.localIndex ≠ (device.peers other).handshake.localIndex := by
  intro same
  by_cases zero : (device.peers other).handshake.localIndex = 0
  · exact inv.keypair_index_ne_zero held (same.trans zero)
  · have found := inv.keypair_entry peer slot keypair held
    rw [same, inv.handshake_entry other zero] at found
    cases found

theorem keypair_index_inj {peer other : P} {slot slot' : Slot} {keypair keypair' : Keypair}
    (held : (device.peers peer).keypairs.get slot = some keypair)
    (held' : (device.peers other).keypairs.get slot' = some keypair')
    (same : keypair.localIndex = keypair'.localIndex) : peer = other ∧ keypair = keypair' := by
  have found := inv.keypair_entry peer slot keypair held
  rw [same, inv.keypair_entry other slot' keypair' held'] at found
  cases found
  exact ⟨rfl, rfl⟩

end Indexed

/-! ### Moving keypairs between slots

Each branch of the rotation in `BeginSymmetricSession`, `ReceivedWithKeypair` and the
flush in `ZeroAndFlushAll` fill every slot from an old slot, with the new keypair or
with nothing, and delete the keypairs of the old slots they drop. -/

/-- Where a slot's keypair comes from. -/
inductive Source where
  | old (slot : Slot)
  | fresh
  | empty
  deriving DecidableEq

def Source.pick (old : Keypairs) (fresh : Option Keypair) : Source → Option Keypair
  | .old slot => old.get slot
  | .fresh => fresh
  | .empty => none

def Keypairs.reslot (old : Keypairs) (fresh : Option Keypair) (source : Slot → Source) : Keypairs :=
  ⟨(source .current).pick old fresh, (source .previous).pick old fresh, (source .next).pick old fresh⟩

@[simp] theorem Keypairs.get_reslot (old : Keypairs) (fresh : Option Keypair)
    (source : Slot → Source) (slot : Slot) :
    (old.reslot fresh source).get slot = (source slot).pick old fresh := by
  cases slot <;> rfl

/-- The table once the keypairs of the `dropped` slots are deleted, in order. -/
def deleteSlots (table : IndexTable P) (old : Keypairs) (dropped : List Slot) : IndexTable P :=
  dropped.foldl (fun table slot => deleteKeypair table (old.get slot)) table

@[simp] theorem deleteSlots_cons (table : IndexTable P) (old : Keypairs) (slot : Slot)
    (rest : List Slot) :
    deleteSlots table old (slot :: rest) = deleteSlots (deleteKeypair table (old.get slot)) old rest :=
  rfl

theorem deleteSlots_of_none {table : IndexTable P} {old : Keypairs} {index : UInt32}
    (dropped : List Slot) (free : table index = none) : deleteSlots table old dropped index = none := by
  induction dropped generalizing table with
  | nil => exact free
  | cons slot rest ih =>
    rw [deleteSlots_cons]
    apply ih
    cases old.get slot with
    | none => exact free
    | some gone => simp [free]

theorem deleteSlots_of_dropped {table : IndexTable P} {old : Keypairs} {dropped : List Slot}
    {slot : Slot} {held : Keypair} (member : slot ∈ dropped) (found : old.get slot = some held) :
    deleteSlots table old dropped held.localIndex = none := by
  induction dropped generalizing table with
  | nil => cases member
  | cons first rest ih =>
    rw [deleteSlots_cons]
    rcases List.mem_cons.mp member with rfl | later
    · apply deleteSlots_of_none
      simp [found]
    · exact ih later

theorem deleteSlots_of_kept {table : IndexTable P} {old : Keypairs} {dropped : List Slot}
    {index : UInt32} (kept : ∀ slot ∈ dropped, ∀ held, old.get slot = some held → held.localIndex ≠ index) :
    deleteSlots table old dropped index = table index := by
  induction dropped generalizing table with
  | nil => rfl
  | cons first rest ih =>
    rw [deleteSlots_cons, ih fun slot member => kept slot (List.mem_cons_of_mem _ member)]
    cases found : old.get first with
    | none => rfl
    | some gone => simp [Ne.symm (kept first List.mem_cons_self gone found)]

/-- What the invariant needs of keypairs moving from the `old` slots to the `new` while the
table goes from `before` to `after`. -/
structure Rotation (old new : Keypairs) (fresh : Option Keypair) (before after : IndexTable P) :
    Prop where
  from_old : ∀ slot held, new.get slot = some held →
    fresh = some held ∨ ∃ slot', old.get slot' = some held
  placed : ∀ keypair, fresh = some keypair → ∃ slot, new.get slot = some keypair
  distinct : new.Distinct
  deletes : ∀ index, after index = before index ∨
    (after index = none ∧ ∃ slot held, old.get slot = some held ∧ held.localIndex = index)
  keeps : ∀ slot held, new.get slot = some held → after held.localIndex = before held.localIndex
  drops : ∀ slot held, old.get slot = some held →
    (∃ slot', new.get slot' = some held) ∨ after held.localIndex = none

/-- Sources that fill slots from distinct places, and old slots that are each moved or
dropped but not both. -/
structure Reslot (source : Slot → Source) (dropped : List Slot) : Prop where
  injective : ∀ slot slot', source slot = source slot' → source slot ≠ .empty → slot = slot'
  covers : ∀ slot, (∃ slot', source slot' = .old slot) ∨ slot ∈ dropped
  disjoint : ∀ slot ∈ dropped, ∀ slot', source slot' ≠ .old slot

theorem Reslot.rotation {source : Slot → Source} {dropped : List Slot} (reslot : Reslot source dropped)
    {old : Keypairs} {fresh : Option Keypair} (table : IndexTable P) (distinct : old.Distinct)
    (apart : ∀ slot held keypair, old.get slot = some held → fresh = some keypair →
      held.localIndex ≠ keypair.localIndex)
    (placed : ∀ keypair, fresh = some keypair → ∃ slot, source slot = .fresh) :
    Rotation old (old.reslot fresh source) fresh table (deleteSlots table old dropped) := by
  -- a slot holds the fresh keypair or one an old slot held
  have filled : ∀ slot held, (source slot).pick old fresh = some held →
      (source slot = .fresh ∧ fresh = some held) ∨
        ∃ slot', source slot = .old slot' ∧ old.get slot' = some held := by
    intro slot held found
    cases picked : source slot with
    | old slot' =>
      rw [picked] at found
      exact .inr ⟨slot', rfl, found⟩
    | fresh =>
      rw [picked] at found
      exact .inl ⟨rfl, found⟩
    | empty =>
      rw [picked] at found
      cases found
  -- and its index is that of no dropped keypair
  have undropped : ∀ slot held, (source slot).pick old fresh = some held →
      ∀ gone ∈ dropped, ∀ held', old.get gone = some held' → held'.localIndex ≠ held.localIndex := by
    intro slot held found gone member held' found' same
    rcases filled slot held found with ⟨_, fresh_eq⟩ | ⟨slot', picked, old_found⟩
    · exact apart gone held' held found' fresh_eq same
    · obtain rfl := distinct gone slot' held' held found' old_found same
      exact reslot.disjoint gone member slot picked
  refine ⟨?_, ?_, ?_, ?_, ?_, ?_⟩
  · intro slot held found
    rw [Keypairs.get_reslot] at found
    rcases filled slot held found with ⟨_, fresh_eq⟩ | ⟨slot', _, old_found⟩
    · exact .inl fresh_eq
    · exact .inr ⟨slot', old_found⟩
  · intro keypair fresh_eq
    obtain ⟨slot, picked⟩ := placed keypair fresh_eq
    exact ⟨slot, by rw [Keypairs.get_reslot, picked, ← fresh_eq]; rfl⟩
  · intro slot slot' held held' found found' same
    rw [Keypairs.get_reslot] at found found'
    have nonempty : source slot ≠ .empty := by
      intro empty
      rw [empty] at found
      cases found
    refine reslot.injective slot slot' ?_ nonempty
    rcases filled slot held found with ⟨picked, fresh_eq⟩ | ⟨old_slot, picked, old_found⟩ <;>
      rcases filled slot' held' found' with ⟨picked', fresh_eq'⟩ | ⟨old_slot', picked', old_found'⟩
    · rw [picked, picked']
    · exact absurd same.symm (apart old_slot' held' held old_found' fresh_eq)
    · exact absurd same (apart old_slot held held' old_found fresh_eq')
    · rw [picked, picked', distinct old_slot old_slot' held held' old_found old_found' same]
  · intro index
    by_cases gone : ∃ slot ∈ dropped, ∃ held, old.get slot = some held ∧ held.localIndex = index
    · obtain ⟨slot, member, held, found, rfl⟩ := gone
      exact .inr ⟨deleteSlots_of_dropped member found, slot, held, found, rfl⟩
    · refine .inl (deleteSlots_of_kept ?_)
      intro slot member held found same
      exact gone ⟨slot, member, held, found, same⟩
  · intro slot held found
    rw [Keypairs.get_reslot] at found
    exact deleteSlots_of_kept (undropped slot held found)
  · intro slot held found
    rcases reslot.covers slot with ⟨slot', picked⟩ | member
    · exact .inl ⟨slot', by rw [Keypairs.get_reslot, picked]; exact found⟩
    · exact .inr (deleteSlots_of_dropped member found)

theorem rotate_reslot (table : IndexTable P) (keypairs : Keypairs) (isInitiator : Bool)
    (keypair : Keypair) :
    ∃ source dropped, Reslot source dropped ∧ (∃ slot, source slot = .fresh) ∧
      Device.rotate table keypairs isInitiator keypair =
        (keypairs.reslot (some keypair) source, deleteSlots table keypairs dropped) := by
  unfold Device.rotate
  split_ifs
  · -- the initiator confirms a pending next keypair by replacing the current one
    exact ⟨fun | .current => .fresh | .previous => .old .next | .next => .empty,
      [.current, .previous], ⟨by decide, by decide, by decide⟩, ⟨.current, rfl⟩, rfl⟩
  · exact ⟨fun | .current => .fresh | .previous => .old .current | .next => .old .next,
      [.previous], ⟨by decide, by decide, by decide⟩, ⟨.current, rfl⟩, rfl⟩
  · -- the responder waits with the new keypair in the next slot
    exact ⟨fun | .current => .old .current | .previous => .empty | .next => .fresh,
      [.next, .previous], ⟨by decide, by decide, by decide⟩, ⟨.next, rfl⟩, rfl⟩

variable [DecidableEq P]

theorem Device.zeroAndFlushAll_eq (device : Device P) (peer : P) :
    device.zeroAndFlushAll peer =
      ({ device.setPeer peer { device.peers peer with keypairs := ⟨none, none, none⟩ } with
        indexTable := deleteSlots device.indexTable (device.peers peer).keypairs
          [.previous, .current, .next] }).expireCurrentKeypairs peer := by
  simp [Device.zeroAndFlushAll, Device.expireCurrentKeypairs, Device.setPeer, deleteSlots,
    Keypairs.get]

section Frame

variable {device next : Device P} {peer : P} {state : Peer}

theorem peers_of_ne (peers : next.peers = Function.update device.peers peer state) {other : P}
    (ne : other ≠ peer) : next.peers other = device.peers other := by
  rw [peers, Function.update_of_ne ne]

theorem peers_field {α : Type} (field : Peer → α)
    (peers : next.peers = Function.update device.peers peer state)
    (kept : field state = field (device.peers peer)) (other : P) :
    field (next.peers other) = field (device.peers other) := by
  rw [peers, Function.update_apply]
  split
  · next same => rw [same, kept]
  · rfl

end Frame

namespace Indexed

variable {device : Device P} (inv : Indexed device)
include inv

theorem setHandshake {next : Device P} {peer : P} {handshake : Handshake}
    (peers : next.peers =
      Function.update device.peers peer { device.peers peer with handshake := handshake })
    (zero : next.indexTable 0 = none)
    (registered : handshake.localIndex ≠ 0 →
      next.indexTable handshake.localIndex = some ⟨peer, true, none⟩)
    (assigned : handshake.state.holdsIndex = true → handshake.localIndex ≠ 0)
    (fresh : handshake.localIndex = 0 ∨
      handshake.localIndex = (device.peers peer).handshake.localIndex ∨
      device.indexTable handshake.localIndex = none)
    (released : (device.peers peer).handshake.localIndex ≠ handshake.localIndex →
      next.indexTable (device.peers peer).handshake.localIndex = none)
    (unchanged : ∀ index, index ≠ (device.peers peer).handshake.localIndex →
      index ≠ handshake.localIndex → next.indexTable index = device.indexTable index) :
    Indexed next := by
  have keypairs := peers_field Peer.keypairs peers rfl
  have others : ∀ other, other ≠ peer → next.peers other = device.peers other :=
    fun _ => peers_of_ne peers
  have mine : (next.peers peer).handshake = handshake := by rw [peers, Function.update_self]
  -- an entry other than this peer's handshake is at neither index the change touches
  have kept : ∀ index entry, device.indexTable index = some entry →
      entry ≠ ⟨peer, true, none⟩ → next.indexTable index = some entry := by
    intro index entry found other
    have nonzero : index ≠ 0 := by
      rintro rfl
      rw [inv.zero_free] at found
      cases found
    have old : index ≠ (device.peers peer).handshake.localIndex := by
      rintro rfl
      rw [inv.handshake_entry peer nonzero] at found
      exact other (Option.some.inj found).symm
    have new : index ≠ handshake.localIndex := by
      rcases fresh with zero | same | free
      · rwa [zero]
      · rwa [same]
      · rintro rfl
        rw [free] at found
        cases found
    rw [unchanged index old new, found]
  refine ⟨zero, ?_, ?_, ?_, ?_, ?_⟩
  · intro other nonzero
    by_cases same : other = peer
    · subst same
      rw [mine] at nonzero ⊢
      exact registered nonzero
    · rw [others other same] at nonzero ⊢
      refine kept _ _ (inv.handshake_entry other nonzero) ?_
      intro equal
      cases equal
      exact same rfl
  · intro other holds
    by_cases same : other = peer
    · subst same
      rw [mine] at holds ⊢
      exact assigned holds
    · rw [others other same] at holds ⊢
      exact inv.assigned other holds
  · intro other slot keypair held
    rw [keypairs] at held
    exact kept _ _ (inv.keypair_entry other slot keypair held) (by simp)
  · intro index entry found
    by_cases new : index = handshake.localIndex
    · have nonzero : handshake.localIndex ≠ 0 := by
        rintro zero'
        rw [new, zero', zero] at found
        cases found
      rw [new, registered nonzero] at found
      cases found
      exact .handshake (by rw [mine, new])
    · by_cases old : index = (device.peers peer).handshake.localIndex
      · rw [old, released (old ▸ new)] at found
        cases found
      · rw [unchanged index old new] at found
        cases inv.owned index entry found with
        | @handshake owner same =>
          have moved : owner ≠ peer := by
            rintro rfl
            exact old same.symm
          exact .handshake (by rw [others owner moved]; exact same)
        | keypair held same => exact .keypair (by rw [keypairs]; exact held) same
  · intro other
    rw [keypairs]
    exact inv.distinct other

theorem assign {peer : P} {index : UInt32} (nonzero : index ≠ 0)
    (free : device.indexTable.delete (device.peers peer).handshake.localIndex index = none)
    (state : HandshakeState) :
    Indexed ({ device with
        indexTable := Function.update
          (device.indexTable.delete (device.peers peer).handshake.localIndex) index
          (some ⟨peer, true, none⟩) }.setPeer peer { device.peers peer with
        handshake := { (device.peers peer).handshake with localIndex := index, state := state } }) := by
  refine inv.setHandshake rfl ?_ ?_ (fun _ => nonzero) ?_ ?_ ?_
  · simp [Ne.symm nonzero, inv.zero_free]
  · intro _
    simp
  · by_cases old : index = (device.peers peer).handshake.localIndex
    · exact .inr (.inl old)
    · simp only [IndexTable.delete_apply, old, if_false] at free
      exact .inr (.inr free)
  · intro old
    simpa [Function.update_apply] using old
  · intro other old new
    simp [old, new]

theorem createMessageInitiation {peer : P} {keysOk : Bool} {draws : List Draw} {next : Device P}
    (nonzero : NonzeroDraws draws)
    (result : device.createMessageInitiation peer keysOk draws = some next) : Indexed next := by
  unfold Device.createMessageInitiation at result
  dsimp only at result
  split at result
  · cases result
    exact inv
  · split at result
    · cases result
    · next drawn =>
      obtain ⟨_, _, _, impossible⟩ := newIndexForHandshake_nonzero nonzero drawn
      cases impossible
    · next index table drawn =>
      obtain ⟨_, positive, free, same⟩ := newIndexForHandshake_nonzero nonzero drawn
      cases same
      cases result
      exact inv.assign positive free .initiationCreated

theorem consumeMessageInitiation (peer : P) (sender : UInt32) :
    Indexed (device.consumeMessageInitiation peer sender) :=
  inv.setHandshake rfl inv.zero_free (inv.handshake_entry peer) (fun holds => by cases holds)
    (.inr (.inl rfl)) (fun moved => (moved rfl).elim) (fun _ _ _ => rfl)

theorem createMessageResponse {peer : P} {keysOk : Bool} {draws : List Draw} {next : Device P}
    (nonzero : NonzeroDraws draws)
    (result : device.createMessageResponse peer keysOk draws = some next) : Indexed next := by
  unfold Device.createMessageResponse at result
  dsimp only at result
  split at result
  · cases result
    exact inv
  · split at result
    · cases result
    · next drawn =>
      obtain ⟨_, _, _, impossible⟩ := newIndexForHandshake_nonzero nonzero drawn
      cases impossible
    · next index table drawn =>
      obtain ⟨_, positive, free, same⟩ := newIndexForHandshake_nonzero nonzero drawn
      cases same
      cases result
      cases keysOk
      · exact inv.assign positive free (device.peers peer).handshake.state
      · exact inv.assign positive free .responseCreated

theorem consumeMessageResponse (receiver sender : UInt32) (keysOk : Bool) :
    Indexed (device.consumeMessageResponse receiver sender keysOk) := by
  unfold Device.consumeMessageResponse
  split
  · next entry _ =>
    dsimp only
    split
    · next accepted =>
      obtain ⟨-, initiated, -⟩ := accepted
      -- the handshake was initiated, so it holds an index
      have nonzero : (device.peers entry.peer).handshake.localIndex ≠ 0 :=
        inv.assigned _ (by rw [initiated]; rfl)
      exact inv.setHandshake rfl inv.zero_free (fun _ => inv.handshake_entry _ nonzero)
        (fun _ => nonzero) (.inr (.inl rfl)) (fun moved => (moved rfl).elim) (fun _ _ _ => rfl)
    · exact inv
  · exact inv

theorem expireCurrentKeypairs (peer : P) : Indexed (device.expireCurrentKeypairs peer) := by
  refine inv.setHandshake rfl ?_ (fun zero => (zero rfl).elim) (fun holds => by cases holds)
    (.inl rfl) ?_ ?_
  · simp [Device.expireCurrentKeypairs, inv.zero_free]
  · intro _
    simp [Device.expireCurrentKeypairs]
  · intro index old _
    simp [Device.expireCurrentKeypairs, old]

theorem setKeypairs {next : Device P} {peer : P} {keypairs : Keypairs}
    (peers : next.peers =
      Function.update device.peers peer { device.peers peer with keypairs := keypairs })
    (rotation : Rotation (device.peers peer).keypairs keypairs none device.indexTable
      next.indexTable) :
    Indexed next := by
  have others : ∀ other, other ≠ peer → next.peers other = device.peers other :=
    fun _ => peers_of_ne peers
  have handshakes := peers_field Peer.handshake peers rfl
  have mine : (next.peers peer).keypairs = keypairs := by rw [peers, Function.update_self]
  -- an entry other than one of this peer's keypairs stays
  have kept : ∀ index entry, device.indexTable index = some entry →
      (∀ held, entry ≠ ⟨peer, false, some held⟩) → next.indexTable index = some entry := by
    intro index entry found other
    rcases rotation.deletes index with same | ⟨_, slot, held, old, rfl⟩
    · rw [same, found]
    · rw [inv.keypair_entry peer slot held old] at found
      cases found
      exact absurd rfl (other held)
  refine ⟨?_, ?_, ?_, ?_, ?_, ?_⟩
  · rcases rotation.deletes 0 with same | ⟨gone, _⟩
    · rw [same, inv.zero_free]
    · exact gone
  · intro other nonzero
    rw [handshakes] at nonzero ⊢
    exact kept _ _ (inv.handshake_entry other nonzero) (by simp)
  · intro other holds
    rw [handshakes] at holds ⊢
    exact inv.assigned other holds
  · intro other slot held found
    by_cases same : other = peer
    · subst same
      rw [mine] at found
      rcases rotation.from_old slot held found with fresh | ⟨slot', old⟩
      · cases fresh
      · rw [rotation.keeps slot held found]
        exact inv.keypair_entry other slot' held old
    · rw [others other same] at found
      refine kept _ _ (inv.keypair_entry other slot held found) ?_
      intro _ equal
      cases equal
      exact same rfl
  · intro index entry found
    rcases rotation.deletes index with same | ⟨gone, _⟩
    · rw [same] at found
      cases inv.owned index entry found with
      | handshake at_index => exact .handshake (by rw [handshakes]; exact at_index)
      | @keypair owner slot held old at_index =>
        by_cases moved : owner = peer
        · subst moved
          rcases rotation.drops slot held old with ⟨slot', now⟩ | gone
          · exact .keypair (by rw [mine]; exact now) at_index
          · rw [at_index, same, found] at gone
            cases gone
        · exact .keypair (by rw [others owner moved]; exact old) at_index
    · rw [gone] at found
      cases found
  · intro other
    by_cases same : other = peer
    · subst same
      rw [mine]
      exact rotation.distinct
    · rw [others other same]
      exact inv.distinct other

theorem openSession {next : Device P} {peer : P} {keypairs : Keypairs} (keypair : Keypair)
    (peers : next.peers = Function.update device.peers peer
      ⟨{ (device.peers peer).handshake with state := .zeroed, localIndex := 0 }, keypairs⟩)
    (holds : (device.peers peer).handshake.state.holdsIndex = true)
    (index : keypair.localIndex = (device.peers peer).handshake.localIndex)
    (rotation : Rotation (device.peers peer).keypairs keypairs (some keypair)
      (Function.update device.indexTable keypair.localIndex (some ⟨peer, false, some keypair⟩))
      next.indexTable) :
    Indexed next := by
  have nonzero := inv.assigned peer holds
  have others : ∀ other, other ≠ peer → next.peers other = device.peers other :=
    fun _ => peers_of_ne peers
  have mine : next.peers peer =
      ⟨{ (device.peers peer).handshake with state := .zeroed, localIndex := 0 }, keypairs⟩ := by
    rw [peers, Function.update_self]
  -- an entry of another peer stays
  have kept : ∀ index entry, device.indexTable index = some entry → entry.peer ≠ peer →
      next.indexTable index = some entry := by
    intro other_index entry found other
    have away : other_index ≠ keypair.localIndex := by
      rintro rfl
      rw [index, inv.handshake_entry peer nonzero] at found
      cases found
      exact other rfl
    rcases rotation.deletes other_index with same | ⟨_, slot, held, old, rfl⟩
    · rw [same, Function.update_of_ne away, found]
    · rw [inv.keypair_entry peer slot held old] at found
      cases found
      exact absurd rfl other
  refine ⟨?_, ?_, ?_, ?_, ?_, ?_⟩
  · have away : (0 : UInt32) ≠ keypair.localIndex := by
      rw [index]
      exact Ne.symm nonzero
    rcases rotation.deletes 0 with same | ⟨gone, _⟩
    · rw [same, Function.update_of_ne away, inv.zero_free]
    · exact gone
  · intro other nonzero'
    by_cases same : other = peer
    · subst same
      rw [mine] at nonzero'
      exact absurd rfl nonzero'
    · rw [others other same] at nonzero' ⊢
      exact kept _ _ (inv.handshake_entry other nonzero') same
  · intro other holds'
    by_cases same : other = peer
    · subst same
      rw [mine] at holds'
      cases holds'
    · rw [others other same] at holds' ⊢
      exact inv.assigned other holds'
  · intro other slot held found
    by_cases same : other = peer
    · subst same
      rw [mine] at found
      rw [rotation.keeps slot held found]
      rcases rotation.from_old slot held found with fresh | ⟨slot', old⟩
      · cases fresh
        exact Function.update_self _ _ _
      · rw [Function.update_of_ne (by rw [index]; exact inv.keypair_index_ne_handshake old other)]
        exact inv.keypair_entry other slot' held old
    · rw [others other same] at found
      exact kept _ _ (inv.keypair_entry other slot held found) same
  · intro other_index entry found
    rcases rotation.deletes other_index with same | ⟨gone, _⟩
    · rw [same] at found
      by_cases fresh : other_index = keypair.localIndex
      · rw [fresh, Function.update_self] at found
        cases found
        obtain ⟨slot, placed⟩ := rotation.placed keypair rfl
        exact .keypair (by rw [mine]; exact placed) fresh.symm
      · rw [Function.update_of_ne fresh] at found
        cases inv.owned other_index entry found with
        | @handshake owner at_index =>
          have moved : owner ≠ peer := by
            rintro rfl
            exact fresh (at_index.symm.trans index.symm)
          exact .handshake (by rw [others owner moved]; exact at_index)
        | @keypair owner slot held old at_index =>
          by_cases moved : owner = peer
          · subst moved
            rcases rotation.drops slot held old with ⟨slot', now⟩ | gone
            · exact .keypair (by rw [mine]; exact now) at_index
            · rw [at_index, same, Function.update_of_ne fresh, found] at gone
              cases gone
          · exact .keypair (by rw [others owner moved]; exact old) at_index
    · rw [gone] at found
      cases found
  · intro other
    by_cases same : other = peer
    · subst same
      rw [mine]
      exact rotation.distinct
    · rw [others other same]
      exact inv.distinct other

theorem beginSymmetricSession (peer : P) : Indexed (device.beginSymmetricSession peer) := by
  unfold Device.beginSymmetricSession
  dsimp only
  split
  · exact inv
  · next isInitiator chosen =>
    -- only a handshake with a response sent or received begins a session
    have holds : (device.peers peer).handshake.state.holdsIndex = true := by
      cases state : (device.peers peer).handshake.state <;> simp [state] at chosen <;> rfl
    set keypair : Keypair := ⟨device.keypairsMade, isInitiator,
      (device.peers peer).handshake.localIndex, (device.peers peer).handshake.remoteIndex⟩
    have swapped : device.indexTable.swapIndexForKeypair keypair.localIndex keypair =
        Function.update device.indexTable keypair.localIndex (some ⟨peer, false, some keypair⟩) := by
      simp [IndexTable.swapIndexForKeypair, keypair, inv.handshake_entry peer (inv.assigned peer holds)]
    obtain ⟨source, dropped, reslot, placed, rotated⟩ :=
      rotate_reslot (device.indexTable.swapIndexForKeypair keypair.localIndex keypair)
        (device.peers peer).keypairs isInitiator keypair
    have apart : ∀ slot held fresh, (device.peers peer).keypairs.get slot = some held →
        some keypair = some fresh → held.localIndex ≠ fresh.localIndex := by
      intro slot held fresh found same
      cases same
      exact inv.keypair_index_ne_handshake found peer
    have rotation := reslot.rotation (device.indexTable.swapIndexForKeypair keypair.localIndex keypair)
      (inv.distinct peer) apart fun _ _ => placed
    rw [swapped] at rotation
    rw [rotated, swapped]
    exact inv.openSession keypair rfl holds rfl rotation

theorem receivedWithKeypair (peer : P) (received : Keypair) :
    Indexed (device.receivedWithKeypair peer received) := by
  unfold Device.receivedWithKeypair
  dsimp only
  split
  · exact inv
  · -- the next keypair becomes current, the current previous, and the previous is dropped
    have reslot : Reslot (fun | .current => .old .next | .previous => .old .current | .next => .empty)
        [.previous] := ⟨by decide, by decide, by decide⟩
    exact inv.setKeypairs rfl (reslot.rotation device.indexTable (inv.distinct peer)
      (fun _ _ _ _ fresh => by cases fresh) (fun _ fresh => by cases fresh))

theorem zeroAndFlushAll (peer : P) : Indexed (device.zeroAndFlushAll peer) := by
  have reslot : Reslot (fun _ => .empty) [.previous, .current, .next] :=
    ⟨by decide, by decide, by decide⟩
  have flushed : Indexed { device.setPeer peer { device.peers peer with keypairs := ⟨none, none, none⟩ } with
      indexTable := deleteSlots device.indexTable (device.peers peer).keypairs
        [.previous, .current, .next] } :=
    inv.setKeypairs rfl (reslot.rotation device.indexTable (inv.distinct peer)
    (fun _ _ _ _ fresh => by cases fresh) (fun _ fresh => by cases fresh))
  rw [Device.zeroAndFlushAll_eq]
  exact flushed.expireCurrentKeypairs peer

theorem apply {op : Op P} {next : Device P} (nonzero : op.nonzeroDraws)
    (applied : device.apply op = some next) : Indexed next := by
  cases op with
  | createMessageInitiation peer keysOk draws => exact inv.createMessageInitiation nonzero applied
  | consumeMessageInitiation peer sender =>
    cases applied
    exact inv.consumeMessageInitiation peer sender
  | createMessageResponse peer keysOk draws => exact inv.createMessageResponse nonzero applied
  | consumeMessageResponse receiver sender keysOk =>
    cases applied
    exact inv.consumeMessageResponse receiver sender keysOk
  | beginSymmetricSession peer =>
    cases applied
    exact inv.beginSymmetricSession peer
  | receivedWithKeypair peer keypair =>
    cases applied
    exact inv.receivedWithKeypair peer keypair
  | expireCurrentKeypairs peer =>
    cases applied
    exact inv.expireCurrentKeypairs peer
  | zeroAndFlushAll peer =>
    cases applied
    exact inv.zeroAndFlushAll peer

end Indexed

/-- One call whose draws are all values other than 0. -/
def NonzeroStep (device next : Device P) : Prop :=
  ∃ op : Op P, op.nonzeroDraws ∧ device.apply op = some next

theorem reachable_run {ops : List (Op P)} (nonzero : ∀ op ∈ ops, op.nonzeroDraws) :
    ∀ {start next : Device P}, Transition.Reachable (· = Device.init) NonzeroStep start →
      start.run ops = some next → Transition.Reachable (· = Device.init) NonzeroStep next := by
  induction ops with
  | nil =>
    intro start next reachable ran
    cases ran
    exact reachable
  | cons op rest ih =>
    intro start next reachable ran
    obtain ⟨mid, applied, ran⟩ := Option.bind_eq_some_iff.mp ran
    have stepped := reachable.step ⟨op, nonzero op List.mem_cons_self, applied⟩
    exact ih (fun op' member => nonzero op' (List.mem_cons_of_mem op member)) stepped ran

/-- When `randUint32` never fails and never returns 0, every device the calls reach from
the initial one routes inbound messages, no two peers share a handshake index other
than 0, and held keypairs with one index are one keypair of one peer. -/
theorem routes_of_nonzero_draws {device : Device P}
    (reachable : Transition.Reachable (· = Device.init) NonzeroStep device) :
    Routes device ∧
      (∀ peer other, (device.peers peer).handshake.localIndex ≠ 0 →
        (device.peers peer).handshake.localIndex = (device.peers other).handshake.localIndex →
          peer = other) ∧
      (∀ peer other slot slot' keypair keypair',
        (device.peers peer).keypairs.get slot = some keypair →
        (device.peers other).keypairs.get slot' = some keypair' →
        keypair.localIndex = keypair'.localIndex → peer = other ∧ keypair = keypair') := by
  have indexed : Indexed device := by
    refine Transition.Reachable.invariant Indexed ?_ ?_ reachable
    · rintro _ rfl
      exact Indexed.init
    · rintro state next inv ⟨op, nonzero, applied⟩
      exact inv.apply nonzero applied
  refine ⟨indexed.routes, fun peer other nonzero same => ?_, fun peer other slot slot' _ _ held held' same => ?_⟩
  · exact indexed.handshake_index_inj nonzero same
  · exact indexed.keypair_index_inj held held' same

/-- The handshake of `index_zero_unroutes_keypair` on index 3: the keypair stays
routed after the second peer's initiation. -/
theorem routes_of_nonzero_draws_handshake :
    ∃ device, (Device.init : Device Bool).run
        [.createMessageInitiation false true [.value 3], .consumeMessageResponse 3 7 true,
          .beginSymmetricSession false, .createMessageInitiation true true [.value 5]] = some device ∧
      (device.peers false).keypairs.current = some ⟨0, true, 3, 7⟩ ∧ device.indexTable 3 ≠ none ∧
      Routes device ∧
      (∀ peer other, (device.peers peer).handshake.localIndex ≠ 0 →
        (device.peers peer).handshake.localIndex = (device.peers other).handshake.localIndex →
          peer = other) ∧
      (∀ peer other slot slot' keypair keypair',
        (device.peers peer).keypairs.get slot = some keypair →
        (device.peers other).keypairs.get slot' = some keypair' →
        keypair.localIndex = keypair'.localIndex → peer = other ∧ keypair = keypair') := by
  refine ⟨_, rfl, by decide, by decide, ?_⟩
  have nonzero : ∀ op ∈ ([.createMessageInitiation false true [.value 3], .consumeMessageResponse 3 7 true,
      .beginSymmetricSession false, .createMessageInitiation true true [.value 5]] : List (Op Bool)),
      op.nonzeroDraws := by
    simp [Op.nonzeroDraws, NonzeroDraws]
  exact routes_of_nonzero_draws (reachable_run nonzero (.init rfl) rfl)

end WarpPlus.Device
