import WarpPlus.Semantics.Decimal

/-! Go's `encoding/hex` on byte strings: `EncodeToString`, which writes each byte
as two lower-case digits, high half first, and `DecodeString`, which reads the
digits two at a time in either case.

`Decode` checks each pair before it writes a byte, and a string of odd length
fails on its last byte: with `InvalidByteError` when that byte is no digit, and
with `ErrLength` when it is. Reading back what was written gives the bytes it was
written from (`decodeString_encodeToString`), and a string that reads has two
digits for every byte (`length_of_decodeString`).
-/

set_option autoImplicit false

namespace GoText.Hex

inductive Error where
  /-- `InvalidByteError`, with the byte. -/
  | invalidByte (b : UInt8)
  /-- `ErrLength`: "encoding/hex: odd length hex string" -/
  | length
  deriving DecidableEq, Repr

/-- `hextable`, "0123456789abcdef", at a value below 16. -/
def hexDigit (v : Nat) : UInt8 := if v < 10 then (48 + v).toUInt8 else (87 + v).toUInt8

/-- `reverseHexTable`: the value of a digit of either case. -/
def fromHexChar (c : UInt8) : Option UInt8 :=
  if 48 ≤ c ∧ c ≤ 57 then some (c - 48)
  else if 97 ≤ c ∧ c ≤ 102 then some (c - 87)
  else if 65 ≤ c ∧ c ≤ 70 then some (c - 55)
  else none

theorem byteOf_digitChar {v : Nat} (small : v < 16) : byteOf v.digitChar = hexDigit v := by
  rcases v with _ | _ | _ | _ | _ | _ | _ | _ | _ | _ | _ | _ | _ | _ | _ | _ | v
  all_goals first | decide | omega

theorem le_hexDigit {v : Nat} (small : v < 16) : 48 ≤ hexDigit v := by
  rcases v with _ | _ | _ | _ | _ | _ | _ | _ | _ | _ | _ | _ | _ | _ | _ | _ | v
  all_goals first | decide | omega

/-- The two digits `Encode` writes for a byte. -/
def hexPair (b : UInt8) : List UInt8 := [hexDigit (b.toNat / 16), hexDigit (b.toNat % 16)]

def encodeToString (src : List UInt8) : List UInt8 := src.flatMap hexPair

def decodeString : List UInt8 → Except Error (List UInt8)
  | [] => .ok []
  -- the odd byte at the end
  | [c] => if (fromHexChar c).isSome then .error .length else .error (.invalidByte c)
  | p :: q :: rest =>
    match fromHexChar p, fromHexChar q with
    | none, _ => .error (.invalidByte p)
    | some _, none => .error (.invalidByte q)
    | some a, some b => (decodeString rest).map fun bytes => (a <<< 4 ||| b) :: bytes

@[simp] theorem decodeString_nil : decodeString [] = .ok [] := rfl

theorem fromHexChar_hexDigit {v : Nat} (small : v < 16) : fromHexChar (hexDigit v) = some v.toUInt8 := by
  rcases v with _ | _ | _ | _ | _ | _ | _ | _ | _ | _ | _ | _ | _ | _ | _ | _ | v
  all_goals first | decide | omega

theorem halves_join (b : UInt8) : (b.toNat / 16).toUInt8 <<< 4 ||| (b.toNat % 16).toUInt8 = b := by
  have below := b.toNat_lt
  apply UInt8.toNat_inj.mp
  simp only [UInt8.toNat_or, UInt8.toNat_shiftLeft, Nat.toUInt8_eq, UInt8.toNat_ofNat']
  have low : b.toNat % 16 < 2 ^ 4 := Nat.mod_lt _ (by decide)
  have four : (4 : UInt8).toNat % 8 = 4 := rfl
  -- the two halves fit in a byte, and their bits do not overlap
  rw [four, Nat.mod_eq_of_lt (by omega : b.toNat / 16 < 2 ^ 8), Nat.mod_eq_of_lt (by omega : b.toNat % 16 < 2 ^ 8),
    Nat.shiftLeft_eq, Nat.mod_eq_of_lt (by omega : b.toNat / 16 * 2 ^ 4 < 2 ^ 8), ← Nat.shiftLeft_eq,
    ← Nat.shiftLeft_add_eq_or_of_lt low, Nat.shiftLeft_eq]
  omega

@[simp] theorem decodeString_hexPair (b : UInt8) (rest : List UInt8) :
    decodeString (hexPair b ++ rest) = (decodeString rest).map (b :: ·) := by
  have high := fromHexChar_hexDigit (Nat.div_lt_of_lt_mul (by have := b.toNat_lt; omega) : b.toNat / 16 < 16)
  have low := fromHexChar_hexDigit (Nat.mod_lt b.toNat (by decide : 0 < 16))
  simp only [hexPair, List.cons_append, List.nil_append, decodeString, high, low, halves_join]

/-- What `EncodeToString` wrote, `DecodeString` reads back. -/
theorem decodeString_encodeToString (src : List UInt8) : decodeString (encodeToString src) = .ok src := by
  induction src with
  | nil => rfl
  | cons b rest ih =>
    rw [encodeToString, List.flatMap_cons, decodeString_hexPair, ← encodeToString, ih]
    rfl

/-- A string that reads has two digits for each byte it gives. -/
theorem length_of_decodeString : ∀ {s bytes : List UInt8}, decodeString s = .ok bytes →
    s.length = 2 * bytes.length
  | [], _, decoded => by cases decoded; rfl
  | [c], _, decoded => by
    simp only [decodeString] at decoded
    split at decoded <;> cases decoded
  | p :: q :: rest, bytes, decoded => by
    simp only [decodeString] at decoded
    split at decoded
    · cases decoded
    · cases decoded
    next a b _ _ =>
    cases rested : decodeString rest with
    | error e => rw [rested] at decoded; cases decoded
    | ok more =>
      rw [rested] at decoded
      cases decoded
      simp only [List.length_cons, length_of_decodeString rested]
      omega

theorem isSome_fromHexChar_of_decodeString : ∀ {s bytes : List UInt8}, decodeString s = .ok bytes →
    ∀ c ∈ s, (fromHexChar c).isSome
  | [], _, _, _, member => absurd member List.not_mem_nil
  | [c], _, decoded, _, _ => by
    simp only [decodeString] at decoded
    split at decoded <;> cases decoded
  | p :: q :: rest, bytes, decoded, c, member => by
    simp only [decodeString] at decoded
    split at decoded
    · cases decoded
    · cases decoded
    next a b first second =>
    cases rested : decodeString rest with
    | error e => rw [rested] at decoded; cases decoded
    | ok more =>
      rcases List.mem_cons.mp member with rfl | member
      · simp [first]
      rcases List.mem_cons.mp member with rfl | member
      · simp [second]
      exact isSome_fromHexChar_of_decodeString rested c member

end GoText.Hex
