import Neo3App.Common.Base58RoundTrip
import Neo3App.Transaction.TxUtils
import Neo3App.Ui.Review

/-!
# The addresses on the screen

Every script hash has an address of 34 characters that starts with `N` and
decodes to the version, the hash and the checksum, so that the destination
and the public-key screen show different addresses for different hashes.
-/

namespace Neo3App

open Neo3App.Lib

/-- The first bytes of the double hash. -/
def addressChecksum (sdk : Sdk) (scriptHash : List UInt8) : List UInt8 :=
  (sdk.sha256
    (sdk.sha256 (addressVersion :: scriptHash)).toList).toList.take
      scriptHashChecksumLen

/-- What is expected of the address of a script hash. -/
structure ExactAddress (sdk : Sdk) (scriptHash : List UInt8)
    (address : List Char) : Prop where
  length : address.length = 34
  base58 : ∀ character ∈ address, character ∈ base58Alphabet
  leading : address.head? = some 'N'
  encoded : ∀ out : List Char,
    base58Encode (addressBytes sdk scriptHash) out addressLen =
      (34, memmove out 0 address)
  decoded : ∀ (out : List UInt8) (outLen : Nat),
    25 ≤ outLen → outLen < 2 ^ 31 →
    base58Decode address out outLen =
      (25,
        memmove out 0 (0x35 :: scriptHash ++ addressChecksum sdk scriptHash))

/-- The texts that the destination and the public-key screen show, with the
script hashes that they are about. -/
inductive ShowsAddress (sdk : Sdk) : List UInt8 → List Char → Prop
  | destination (tx : Transaction) (ui : Ui) {scriptHash : List UInt8}
      (room : tx.dstAddress.length = addressLen)
      (length : scriptHash.length = uint160Len) :
      ShowsAddress sdk scriptHash
        (displayTransfer (tx.setDestination sdk scriptHash) ui).2.address
  | publicKey (app : App) (isAddress : app.context.reqType = .confirmAddress)
      (isNone : app.context.state = .none) :
      ShowsAddress sdk
        (publicKeyHash160 sdk
          (createSignatureRedeemScript app.context.rawPublicKey))
        (uiDisplayAddress sdk app).1.ui.address

theorem addressBytes_eq_append
    (sdk : Sdk) {scriptHash : List UInt8}
    (length : scriptHash.length = uint160Len) :
    addressBytes sdk scriptHash =
      0x35 :: scriptHash ++ addressChecksum sdk scriptHash := by
  rw [addressBytes, addressChecksum, List.take_of_length_le length.le]
  rfl

theorem length_addressBytes
    (sdk : Sdk) {scriptHash : List UInt8}
    (length : scriptHash.length = uint160Len) :
    (addressBytes sdk scriptHash).length = 25 := by
  rw [addressBytes_eq_append sdk length, List.length_append,
    List.length_cons, length, addressChecksum, List.length_take,
    Vector.length_toList]
  rfl

def addressDigits (sdk : Sdk) (scriptHash : List UInt8) : List Nat :=
  rebase 256 58 ((addressBytes sdk scriptHash).map UInt8.toNat)

theorem addressText_eq_characters (sdk : Sdk) (scriptHash : List UInt8) :
    addressText sdk scriptHash =
      base58Characters (addressDigits sdk scriptHash) :=
  base58Text_eq_rebase _

theorem length_addressDigits
    (sdk : Sdk) {scriptHash : List UInt8}
    (length : scriptHash.length = uint160Len) :
    (addressDigits sdk scriptHash).length = 34 := by
  have text := length_addressText sdk length
  rwa [addressText_eq_characters, base58Characters, List.length_map] at text

theorem numeral_addressDigits
    (sdk : Sdk) {scriptHash : List UInt8}
    (length : scriptHash.length = uint160Len) :
    53 * 256 ^ 24 ≤ numeral 58 (addressDigits sdk scriptHash) ∧
      numeral 58 (addressDigits sdk scriptHash) < 54 * 256 ^ 24 := by
  have bytes := length_addressBytes sdk length
  have tailLength :
      (scriptHash ++ addressChecksum sdk scriptHash).length = 24 := by
    rw [addressBytes_eq_append sdk length, List.cons_append,
      List.length_cons] at bytes
    omega
  have bound :
      beNat (scriptHash ++ addressChecksum sdk scriptHash) < 256 ^ 24 := by
    have small :=
      leNat_lt (scriptHash ++ addressChecksum sdk scriptHash).reverse
    rwa [List.length_reverse, tailLength] at small
  have value : numeral 58 (addressDigits sdk scriptHash) =
      53 * 256 ^ 24 +
        beNat (scriptHash ++ addressChecksum sdk scriptHash) := by
    rw [addressDigits, numeral_rebase, numeral_map_toNat,
      addressBytes_eq_append sdk length, List.cons_append, beNat_cons,
      tailLength]
    rfl
  rw [value]
  omega

/-- The leading digit is that of `N`. -/
theorem head_addressDigits
    (sdk : Sdk) {scriptHash : List UInt8}
    (length : scriptHash.length = uint160Len) :
    (addressDigits sdk scriptHash).head? = some 21 := by
  obtain ⟨lower, upper⟩ := numeral_addressDigits sdk length
  have count := length_addressDigits sdk length
  have small : ∀ digit ∈ addressDigits sdk scriptHash, digit < 58 :=
    rebase_map_toNat_lt _
  generalize addressDigits sdk scriptHash = digits at lower upper count small
  cases digits with
  | nil => cases count
  | cons digit rest =>
      have restCount : rest.length = 33 := by
        rw [List.length_cons] at count
        omega
      have restBound := numeral_lt (show 1 < 58 by omega)
        fun other member => small other (List.mem_cons_of_mem digit member)
      rw [restCount] at restBound
      rw [numeral_cons, restCount] at lower upper
      rw [List.head?_cons]
      congr 1
      omega

theorem mem_base58Alphabet_of_mem_characters
    {digits : List Nat} (small : ∀ digit ∈ digits, digit < 58)
    {character : Char} (member : character ∈ base58Characters digits) :
    character ∈ base58Alphabet := by
  obtain ⟨digit, inDigits, rfl⟩ := List.mem_map.mp member
  have inside : digit < base58Alphabet.length := small digit inDigits
  rw [List.getD_eq_getElem _ _ inside]
  exact List.getElem_mem inside

theorem exactAddress
    (sdk : Sdk) {scriptHash : List UInt8}
    (length : scriptHash.length = uint160Len) :
    ExactAddress sdk scriptHash (addressText sdk scriptHash) := by
  have bytes := length_addressBytes sdk length
  have text := length_addressText sdk length
  have encoded : ∀ out : List Char,
      base58Encode (addressBytes sdk scriptHash) out addressLen =
        (34, memmove out 0 (addressText sdk scriptHash)) := by
    intro out
    unfold addressText at text ⊢
    rw [base58Encode_eq (by omega), text, if_neg (Nat.lt_irrefl _)]
    rfl
  constructor
  · exact text
  · intro character member
    rw [addressText_eq_characters] at member
    exact mem_base58Alphabet_of_mem_characters (rebase_map_toNat_lt _) member
  · rw [addressText_eq_characters, base58Characters, List.head?_map,
      head_addressDigits sdk length]
    rfl
  · exact encoded
  · intro out outLen room valid
    have decoded :=
      base58Decode_base58Encode valid (by unfold maxEncInputSize; omega)
        (encoded []) (by omega) (bytes.le.trans room) out
    rw [bytes, addressBytes_eq_append sdk length] at decoded
    have whole : (memmove [] 0 (addressText sdk scriptHash)).take 34 =
        addressText sdk scriptHash := by
      have front := take_memmove [] (addressText sdk scriptHash)
      rwa [text] at front
    rw [← whole]
    exact decoded

theorem snprintf_addressText
    (sdk : Sdk) {scriptHash : List UInt8}
    (length : scriptHash.length = uint160Len) :
    snprintf 35 (cString (addressText sdk scriptHash)) =
      addressText sdk scriptHash := by
  have text := length_addressText sdk length
  have whole :=
    cString_append_zeros
      (zero_not_mem_base58Text (addressBytes sdk scriptHash)) 0
  rw [zeros, List.replicate_zero, List.append_nil] at whole
  rw [addressText, whole, snprintf, List.take_of_length_le]
  exact text.le

theorem ShowsAddress.text_eq
    {sdk : Sdk} {scriptHash : List UInt8} {text : List Char}
    (shown : ShowsAddress sdk scriptHash text) :
    scriptHash.length = uint160Len ∧ text = addressText sdk scriptHash := by
  cases shown with
  | destination tx ui room length =>
      refine ⟨length, ?_⟩
      rw [displayTransfer_eq]
      change snprintf 35
        (cString (scriptHashToAddress sdk tx.dstAddress addressLen _)) = _
      rw [scriptHashToAddress_eq sdk length room]
      exact snprintf_addressText sdk length
  | publicKey app isAddress isNone =>
      have length :
          (publicKeyHash160 sdk
            (createSignatureRedeemScript app.context.rawPublicKey)).length =
              uint160Len :=
        Vector.length_toList
      refine ⟨length, ?_⟩
      rw [uiDisplayAddress, if_neg (by simp [isAddress, isNone])]
      change snprintf 35
        (cString (scriptHashToAddress sdk (zeros addressLen) addressLen _)) =
          _
      rw [scriptHashToAddress_eq sdk length (length_zeros _)]
      exact snprintf_addressText sdk length

/-- **Addresses are exact**: `script_hash_to_address` writes 34 characters
that decode to the version, the script hash and the checksum, and no two
script hashes show the same address. -/
theorem addresses_exact (sdk : Sdk) :
    (∀ (scriptHash : List UInt8) (out : List Char),
      scriptHash.length = uint160Len → out.length = addressLen →
      ExactAddress sdk scriptHash
        (scriptHashToAddress sdk out addressLen scriptHash)) ∧
      ∀ (first second : List UInt8) (text : List Char),
        ShowsAddress sdk first text → ShowsAddress sdk second text →
        first = second := by
  constructor
  · intro scriptHash out length room
    rw [scriptHashToAddress_eq sdk length room]
    exact exactAddress sdk length
  · intro first second text firstShown secondShown
    obtain ⟨firstLength, firstText⟩ := firstShown.text_eq
    obtain ⟨secondLength, secondText⟩ := secondShown.text_eq
    apply addressText_injective sdk firstLength secondLength
    exact firstText.symm.trans secondText

/-- The address of the zero hash, with constant hash functions. -/
theorem addresses_exact_zero :
    ExactAddress Sdk.constant (List.replicate 20 0)
      (scriptHashToAddress Sdk.constant (zeros 34) addressLen
        (List.replicate 20 0)) :=
  (addresses_exact Sdk.constant).1 (List.replicate 20 0) (zeros 34)
    List.length_replicate (length_zeros 34)

end Neo3App
