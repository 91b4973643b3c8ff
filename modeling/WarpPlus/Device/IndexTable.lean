import Mathlib

/-! The index table of `device/indextable.go`: 32-bit indices mapped to the
handshake or the keypair an inbound message carrying that index belongs to.

A keypair is what the table and the rotation read of it; its `id` is the
allocation that made it, since Go compares keypairs as pointers. An entry's
handshake pointer always points at the entry peer's own handshake, so it is a
flag. `randUint32` is a list of draws: `NewIndexForHandshake` takes the first
value not in the table, and answers `none` when the draws run out before it
returns.
-/

set_option autoImplicit false

namespace WarpPlus.Device

structure Keypair where
  id : Nat
  isInitiator : Bool
  localIndex : UInt32
  remoteIndex : UInt32
  deriving DecidableEq, Repr

structure IndexTableEntry (P : Type) where
  peer : P
  handshake : Bool
  keypair : Option Keypair
  deriving DecidableEq, Repr

abbrev IndexTable (P : Type) := UInt32 → Option (IndexTableEntry P)

/-- A result of `randUint32`: a value, or a failed read with the value its bytes give. -/
inductive Draw where
  | value (index : UInt32)
  | failed (index : UInt32)
  deriving DecidableEq, Repr

variable {P : Type}

namespace IndexTable

def delete (table : IndexTable P) (index : UInt32) : IndexTable P :=
  Function.update table index none

def swapIndexForKeypair (table : IndexTable P) (index : UInt32) (keypair : Keypair) : IndexTable P :=
  match table index with
  | none => table
  | some entry => Function.update table index (some ⟨entry.peer, false, some keypair⟩)

/-- The loop of `NewIndexForHandshake`: the first drawn value not in the table gets an
entry for `peer`'s handshake; a failed draw returns its value as the error. -/
def newIndexForHandshake (table : IndexTable P) (peer : P) :
    List Draw → Option (Except UInt32 (UInt32 × IndexTable P))
  | [] => none
  | .failed index :: _ => some (.error index)
  | .value index :: rest =>
    match table index with
    | some _ => newIndexForHandshake table peer rest
    | none => some (.ok (index, Function.update table index (some ⟨peer, true, none⟩)))

@[simp] theorem delete_apply (table : IndexTable P) (index other : UInt32) :
    table.delete index other = if other = index then none else table other := by
  simp [delete, Function.update_apply]

theorem newIndexForHandshake_ok {table table' : IndexTable P} {peer : P} {draws : List Draw}
    {index : UInt32} (result : table.newIndexForHandshake peer draws = some (.ok (index, table'))) :
    Draw.value index ∈ draws ∧ table index = none ∧
      table' = Function.update table index (some ⟨peer, true, none⟩) := by
  induction draws with
  | nil => simp [newIndexForHandshake] at result
  | cons draw rest ih =>
    cases draw with
    | failed _ => simp [newIndexForHandshake] at result
    | value drawn =>
      unfold newIndexForHandshake at result
      cases found : table drawn with
      | some _ =>
        rw [found] at result
        obtain ⟨member, free, rfl⟩ := ih result
        exact ⟨List.mem_cons_of_mem _ member, free, rfl⟩
      | none =>
        rw [found] at result
        simp only [Option.some.injEq, Except.ok.injEq, Prod.mk.injEq] at result
        obtain ⟨rfl, rfl⟩ := result
        exact ⟨List.mem_cons_self, found, rfl⟩

theorem newIndexForHandshake_ne_error {table : IndexTable P} {peer : P} {draws : List Draw}
    (values : ∀ draw ∈ draws, ∃ index, draw = .value index) (index : UInt32) :
    table.newIndexForHandshake peer draws ≠ some (.error index) := by
  induction draws with
  | nil => simp [newIndexForHandshake]
  | cons draw rest ih =>
    obtain ⟨drawn, rfl⟩ := values draw List.mem_cons_self
    unfold newIndexForHandshake
    cases table drawn with
    | some _ => exact ih fun other member => values other (List.mem_cons_of_mem _ member)
    | none => simp

end IndexTable

end WarpPlus.Device
