import Mathlib

/-! Reading a byte stream the way Go's `io.Reader` helpers do.

A reader runs on the bytes still to come and answers a value with the bytes it
leaves, or `none` when the stream ends before it is done (`io.EOF` or
`io.ErrUnexpectedEOF`). `readByte` is a one-byte `Read`, `readFull` is
`io.ReadFull`, and `readUntil` reads one byte at a time up to a terminator, which
it consumes and does not return.

Each primitive has one equation for the input it accepts; a decoder's round trip
is then a chain of those equations over the encoder's output.
-/

set_option autoImplicit false

namespace Stream

/-- A read from a byte stream. -/
abbrev Reader (α : Type) := StateT (List UInt8) Option α

def readByte : Reader UInt8 := fun
  | [] => none
  | byte :: rest => some (byte, rest)

def readFull (count : Nat) : Reader (List UInt8) := fun input =>
  if count ≤ input.length then some (input.take count, input.drop count) else none

def readUntil (stop : UInt8) : Reader (List UInt8) := fun
  | [] => none
  | byte :: rest =>
    if byte = stop then some ([], rest)
    else (readUntil stop rest).map fun (field, after) => (byte :: field, after)

variable {α β : Type}

@[simp] theorem readByte_cons (byte : UInt8) (rest : List UInt8) :
    readByte.run (byte :: rest) = some (byte, rest) := rfl

@[simp] theorem readByte_nil : readByte.run [] = none := rfl

theorem readFull_append (field rest : List UInt8) {count : Nat} (length : field.length = count) :
    (readFull count).run (field ++ rest) = some (field, rest) := by
  subst length
  simp [readFull, StateT.run]

theorem readUntil_append {stop : UInt8} {field : List UInt8} (clean : stop ∉ field)
    (rest : List UInt8) : (readUntil stop).run (field ++ stop :: rest) = some (field, rest) := by
  induction field with
  | nil => simp [readUntil, StateT.run]
  | cons byte field ih =>
    have other : byte ≠ stop := fun same => clean (same ▸ List.mem_cons_self ..)
    have tail := ih (fun inside => clean (List.mem_cons_of_mem _ inside))
    simp only [StateT.run] at tail ⊢
    simp [readUntil, other, tail]

theorem run_bind_some {x : Reader α} {f : α → Reader β} {input rest : List UInt8} {a : α}
    (first : x.run input = some (a, rest)) : (x >>= f).run input = (f a).run rest := by
  simp only [StateT.run_bind, first, Option.bind_eq_bind, Option.bind_some]

theorem run_bind_none {x : Reader α} {f : α → Reader β} {input : List UInt8}
    (first : x.run input = none) : (x >>= f).run input = none := by
  simp only [StateT.run_bind, first, Option.bind_eq_bind, Option.bind_none]

end Stream
