import Mathlib.Tactic.Common

/-!
# The device SDK

The cryptographic services of the operating system are parameters: the hash
functions, the derivation of a private key from a path, the public key of a
private key and the signature of a digest are arbitrary functions.  The only
law the application relies on is that of the constant-time comparison.
-/

namespace Neo3App

def bip44PathLen : Nat := 5

/-- A BIP44 path, as the array `bip44_path`. -/
abbrev Bip44Path : Type :=
  Vector UInt32 bip44PathLen

/-- The services of the SDK that the application calls. -/
structure Sdk where
  /-- `cx_hash` on a `cx_sha256_t`, with `CX_LAST`. -/
  sha256 : List UInt8 → Vector UInt8 32
  /-- `cx_hash` on a `cx_ripemd160_t`, with `CX_LAST`. -/
  ripemd160 : List UInt8 → Vector UInt8 20
  /-- `os_perso_derive_node_bip32` followed by `cx_ecfp_init_private_key`. -/
  deriveNodeBip32 : Bip44Path → List UInt8
  /-- The 64 coordinate bytes that `cx_ecfp_generate_pair` computes. -/
  generatePair : List UInt8 → Vector UInt8 64
  /-- `cx_ecdsa_sign`; `none` where the returned length is negative. -/
  ecdsaSign : List UInt8 → List UInt8 → Option (List UInt8)
  /-- `os_secure_memcmp`. -/
  secureMemcmp : List UInt8 → List UInt8 → Nat → Int
  /-- The comparison of the first `length` bytes is zero on equal bytes. -/
  secureMemcmp_eq_zero :
    ∀ first second length,
      secureMemcmp first second length = 0 ↔
        first.take length = second.take length

def Sdk.constant : Sdk where
  sha256 _ := Vector.replicate 32 0
  ripemd160 _ := Vector.replicate 20 0
  deriveNodeBip32 _ := []
  generatePair _ := Vector.replicate 64 0
  ecdsaSign _ _ := some []
  secureMemcmp first second length :=
    if first.take length = second.take length then 0 else 1
  secureMemcmp_eq_zero first second length := by
    by_cases same : first.take length = second.take length
    · simp [same]
    · simp [same]

instance : Inhabited Sdk :=
  ⟨Sdk.constant⟩

end Neo3App
