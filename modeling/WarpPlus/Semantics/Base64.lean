import Mathlib

/-! Go's `base64.StdEncoding.DecodeString`, the non-strict decoder with `=` padding.

`Decode` reads a quantum of four alphabet bytes at a time (`decodeQuantum`),
skipping `\r` and `\n`, and writes three bytes for it. A quantum cut short by
`==` or `=` writes one or two bytes, and anything but line breaks after the padding
is an error that still keeps those bytes. Any other stop is an error that writes
nothing for the quantum. `DecodeString` returns the bytes written before the error,
so a caller that drops the error keeps a prefix of the decoding. The loop is
given a round for each byte of the input.
-/

set_option autoImplicit false

namespace GoText

/-- `StdEncoding`'s decode map: the 6-bit value of an alphabet byte. -/
def decodeMap (c : UInt8) : Option Nat :=
  if 65 ≤ c ∧ c ≤ 90 then some (c.toNat - 65)
  else if 97 ≤ c ∧ c ≤ 122 then some (c.toNat - 71)
  else if 48 ≤ c ∧ c ≤ 57 then some (c.toNat + 4)
  else if c = 43 then some 62
  else if c = 47 then some 63
  else none

/-- The `for si < len(src) && (src[si] == '\n' || src[si] == '\r')` skips. -/
def dropNewlines (src : List UInt8) : List UInt8 :=
  src.dropWhile fun c => c == 10 || c == 13

/-- The bytes of a quantum of `dlen` values: `val` holds them from bit 18 down,
missing ones zero, and `dlen - 1` of its three bytes are written. -/
def quantumBytes (vals : List Nat) : List UInt8 :=
  let val := vals.getD 0 0 <<< 18 ||| vals.getD 1 0 <<< 12 ||| vals.getD 2 0 <<< 6 ||| vals.getD 3 0
  [(val >>> 16).toUInt8, (val >>> 8).toUInt8, val.toUInt8].take (vals.length - 1)

/-- The end of a padded quantum: after the padding only line breaks may follow;
the quantum's bytes are written either way. -/
def paddedEnd (vals : List Nat) (src : List UInt8) : List UInt8 × List UInt8 × Bool :=
  let src := dropNewlines src
  (quantumBytes vals, src, src ≠ [])

/-- `decodeQuantum` on the unread bytes `src`, with the values `vals` of this
quantum read so far: the bytes it writes, the bytes after it, and whether it
returned an error. -/
def decodeQuantum : List UInt8 → List Nat → List UInt8 × List UInt8 × Bool
  -- `len(src) == si`: only a quantum not yet begun ends without an error
  | [], vals => ([], [], vals ≠ [])
  | c :: src, vals =>
    match decodeMap c with
    | some v => if vals.length = 3 then (quantumBytes (vals ++ [v]), src, false) else decodeQuantum src (vals ++ [v])
    | none =>
      if c = 10 ∨ c = 13 then decodeQuantum src vals
      else if c ≠ 61 then ([], src, true)
      else if vals.length < 2 then ([], src, true)
      else if vals.length = 2 then
        -- `==`: a second padding byte, maybe after line breaks
        match dropNewlines src with
        | [] => ([], [], true)
        | d :: src => if d ≠ 61 then ([], src, true) else paddedEnd vals src
      else paddedEnd vals src

/-- The loop of `Decode`, one quantum a round until the input ends or a quantum
fails; `fuel` rounds at most. -/
def decodeLoop : Nat → List UInt8 → List UInt8 × Bool
  | 0, _ => ([], false)
  | fuel + 1, src =>
    if src = [] then ([], false)
    else
      let (bytes, rest, failed) := decodeQuantum src []
      if failed then (bytes, true)
      else
        let (more, err) := decodeLoop fuel rest
        (bytes ++ more, err)

/-- `StdEncoding.DecodeString`: the bytes written before any error, and whether
there was one. -/
def decodeString (s : List UInt8) : List UInt8 × Bool := decodeLoop s.length s

/-- `TWFu` is `Man`; `TQ==` is `M`, and a byte after the padding is an error that keeps it. -/
example : decodeString [84, 87, 70, 117] = ([77, 97, 110], false) ∧ decodeString [84, 81, 61, 61] = ([77], false) ∧
    decodeString [84, 81, 61, 61, 65] = ([77], true) := by
  decide

end GoText
