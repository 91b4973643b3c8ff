import Mathlib

/-! Keyed primitives as a protocol model takes them: a hash, an HMAC, an AEAD,
and the two scalar multiplications of a Diffie-Hellman group, all over byte
strings; with HKDF (RFC 5869) built on the HMAC as the Noise framework uses it,
one extraction followed by one, two or three expansion blocks.

The primitives are parameters. A protocol's correctness rests on two laws
(`Suite.Laws`): opening what was sealed under the same key, nonce and associated
data gives the plaintext back, and the two parties of an exchange, each with its
own secret and the other's public value, compute the same shared secret. What
follows from the laws holds for every implementation that has them.
-/

set_option autoImplicit false

namespace Crypto

/-- `seal key nonce plaintext ad` and `open key nonce ciphertext ad`;
`scalarMult scalar point`. -/
structure Suite where
  hash : List UInt8 → List UInt8
  hmac : List UInt8 → List UInt8 → List UInt8
  aeadSeal : List UInt8 → List UInt8 → List UInt8 → List UInt8 → List UInt8
  aeadOpen : List UInt8 → List UInt8 → List UInt8 → List UInt8 → Option (List UInt8)
  scalarBaseMult : List UInt8 → List UInt8
  scalarMult : List UInt8 → List UInt8 → List UInt8

structure Suite.Laws (suite : Suite) : Prop where
  aeadOpen_aeadSeal : ∀ key nonce plaintext ad,
    suite.aeadOpen key nonce (suite.aeadSeal key nonce plaintext ad) ad = some plaintext
  scalarMult_comm : ∀ a b, suite.scalarMult a (suite.scalarBaseMult b) = suite.scalarMult b (suite.scalarBaseMult a)

namespace Suite

variable (suite : Suite)

/-- HKDF with one output: the extracted key, expanded by one block. -/
def kdf1 (key input : List UInt8) : List UInt8 :=
  suite.hmac (suite.hmac key input) [1]

/-- HKDF with two outputs, each expansion block keyed by the extracted key and
fed the block before it. -/
def kdf2 (key input : List UInt8) : List UInt8 × List UInt8 :=
  let prk := suite.hmac key input
  let t0 := suite.hmac prk [1]
  (t0, suite.hmac prk (t0 ++ [2]))

def kdf3 (key input : List UInt8) : List UInt8 × List UInt8 × List UInt8 :=
  let prk := suite.hmac key input
  let t0 := suite.hmac prk [1]
  let t1 := suite.hmac prk (t0 ++ [2])
  (t0, t1, suite.hmac prk (t1 ++ [3]))

end Suite

end Crypto
