import Neo3App.Common.Base58
import Neo3App.Sdk
import Neo3App.Transaction.Types

/-!
# Addresses

`ui/utils.c`: a script hash becomes an address by prefixing the address
version, appending four bytes of its double hash and encoding in base 58; the
script hash of a public key is the hash of its verification script.
-/

namespace Neo3App

open Neo3App.Lib

def addressVersion : UInt8 := 0x35
def scriptHashChecksumLen : Nat := 4

/-- The 25 bytes that are encoded: version, script hash, checksum. -/
def addressBytes (sdk : Sdk) (scriptHash : List UInt8) : List UInt8 :=
  let payload := addressVersion :: scriptHash.take uint160Len
  payload ++
    (sdk.sha256 (sdk.sha256 payload).toList).toList.take
      scriptHashChecksumLen

/-- `script_hash_to_address`: the memory `out` afterwards.  The result of
`base58_encode` is ignored. -/
def scriptHashToAddress (sdk : Sdk) (out : List Char) (outLen : Nat)
    (scriptHash : List UInt8) : List Char :=
  (base58Encode (addressBytes sdk scriptHash) out outLen).2

/-- `create_signature_redeem_script`, for the 64 bytes of a public key. -/
def createSignatureRedeemScript (publicKey : List UInt8) : List UInt8 :=
  [0x0c, 0x21] ++
    [if publicKey.getD 63 0 &&& 1 ≠ 0 then 0x03 else 0x02] ++
    publicKey.take 32 ++ [0x41, 0x56, 0xe7, 0xb3, 0x27]

def publicKeyHash160 (sdk : Sdk) (input : List UInt8) : List UInt8 :=
  (sdk.ripemd160 (sdk.sha256 input).toList).toList

/-- `address_from_pubkey`, which never fails. -/
def addressFromPubkey (sdk : Sdk) (publicKey : List UInt8)
    (out : List Char) (outLen : Nat) : List Char :=
  scriptHashToAddress sdk out outLen
    (publicKeyHash160 sdk (createSignatureRedeemScript publicKey))

def addressText (sdk : Sdk) (scriptHash : List UInt8) : List Char :=
  base58Text (addressBytes sdk scriptHash)

/-- The bytes after the address version. -/
private def addressTail (sdk : Sdk) (scriptHash : List UInt8) : List UInt8 :=
  scriptHash.take uint160Len ++
    (sdk.sha256
      (sdk.sha256
        (addressVersion :: scriptHash.take uint160Len)).toList).toList.take
      scriptHashChecksumLen

private theorem addressBytes_eq (sdk : Sdk) (scriptHash : List UInt8) :
    addressBytes sdk scriptHash =
      addressVersion :: addressTail sdk scriptHash :=
  rfl

private theorem length_addressTail
    (sdk : Sdk) {scriptHash : List UInt8}
    (length : scriptHash.length = uint160Len) :
    (addressTail sdk scriptHash).length = 24 := by
  rw [addressTail, List.length_append, List.length_take, List.length_take,
    length, Vector.length_toList]
  rfl

/-- An address has 34 characters. -/
theorem length_addressText
    (sdk : Sdk) {scriptHash : List UInt8}
    (length : scriptHash.length = uint160Len) :
    (addressText sdk scriptHash).length = addressLen := by
  have tail := length_addressTail sdk length
  have bound : beNat (addressTail sdk scriptHash) < 256 ^ 24 := by
    have small := leNat_lt (addressTail sdk scriptHash).reverse
    rwa [List.length_reverse, tail] at small
  have value :
      beNat (addressVersion :: addressTail sdk scriptHash) =
        53 * 256 ^ 24 + beNat (addressTail sdk scriptHash) := by
    rw [beNat_cons, tail]
    rfl
  have upper :
      (Nat.digits 58
        (beNat (addressVersion :: addressTail sdk scriptHash))).length ≤ 34 :=
    (Nat.digits_length_le_iff (by omega) _).mpr (by
      rw [value]
      omega)
  have lower :
      33 < (Nat.digits 58
        (beNat (addressVersion :: addressTail sdk scriptHash))).length :=
    (Nat.lt_digits_length_iff (by omega) _).mpr (by
      rw [value]
      omega)
  rw [addressText, addressBytes_eq, base58Text_cons_of_ne_zero (by decide),
    List.length_map, List.length_reverse]
  unfold addressLen
  omega

/-- `script_hash_to_address` writes the whole address. -/
theorem scriptHashToAddress_eq
    (sdk : Sdk) {scriptHash : List UInt8}
    (length : scriptHash.length = uint160Len)
    {out : List Char} (room : out.length = addressLen) :
    scriptHashToAddress sdk out addressLen scriptHash =
      addressText sdk scriptHash := by
  have text := length_addressText sdk length
  unfold addressText at text ⊢
  have short : (addressBytes sdk scriptHash).length ≤ 120 := by
    rw [addressBytes_eq, List.length_cons, length_addressTail sdk length]
    omega
  rw [scriptHashToAddress, base58Encode_eq short, text, if_neg (by omega)]
  simp [memmove, text, room]

/-- Different script hashes have different addresses. -/
theorem addressText_injective
    (sdk : Sdk) {first second : List UInt8}
    (firstLength : first.length = uint160Len)
    (secondLength : second.length = uint160Len)
    (equal : addressText sdk first = addressText sdk second) :
    first = second := by
  rw [addressText, addressText, addressBytes_eq, addressBytes_eq] at equal
  have bytes :=
    base58Text_injective (by decide) (by decide)
      (by rw [length_addressTail sdk firstLength,
        length_addressTail sdk secondLength]) equal
  have tails := (List.cons.inj bytes).2
  have hashes := congrArg (List.take uint160Len) tails
  rw [addressTail, addressTail, List.take_left' (by simp [firstLength]),
    List.take_left' (by simp [secondLength]),
    List.take_of_length_le firstLength.le,
    List.take_of_length_le secondLength.le] at hashes
  exact hashes

end Neo3App
