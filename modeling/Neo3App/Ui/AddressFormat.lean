import Neo3App.Ui.Addresses

/-!
# Addresses as a format

What a wallet takes for an address: a text that `base58_decode` turns into
the version, a script hash and the checksum of both.  These texts are exactly
the addresses that the application writes.
-/

namespace Neo3App

open Neo3App.Lib

def addressSize : Nat := 25

/-- The script hash that a wallet reads from a text, if the text is an
address. -/
def readAddress (sdk : Sdk) (text : List Char) : Option (List UInt8) :=
  match base58Decode text (List.replicate addressSize 0) addressSize with
  | (length, bytes) =>
      let scriptHash := (bytes.drop 1).take uint160Len
      if length = addressSize ∧
          bytes = addressVersion :: scriptHash ++
            addressChecksum sdk scriptHash then
        some scriptHash
      else
        none

/-- An address that a wallet accepts, with the script hash it stands for. -/
structure Address (sdk : Sdk) where
  text : List Char
  scriptHash : List UInt8
  accepted : readAddress sdk text = some scriptHash

theorem length_addressChecksum (sdk : Sdk) (scriptHash : List UInt8) :
    (addressChecksum sdk scriptHash).length = scriptHashChecksumLen := by
  rw [addressChecksum, List.length_take, Vector.length_toList]
  rfl

/-- The address of a script hash is read back. -/
theorem readAddress_addressText
    (sdk : Sdk) {scriptHash : List UInt8}
    (length : scriptHash.length = uint160Len) :
    readAddress sdk (addressText sdk scriptHash) = some scriptHash := by
  have bytes := length_addressBytes sdk length
  rw [addressBytes_eq_append sdk length] at bytes
  have decoded :=
    (exactAddress sdk length).decoded (List.replicate addressSize 0)
      addressSize (by decide) (by decide)
  have whole :
      memmove (List.replicate addressSize 0) 0
          (addressVersion :: scriptHash ++ addressChecksum sdk scriptHash) =
        addressVersion :: scriptHash ++ addressChecksum sdk scriptHash := by
    rw [memmove, List.take_zero, List.nil_append, Nat.zero_add,
      List.drop_eq_nil_of_le, List.append_nil]
    exact (List.length_replicate.trans bytes.symm).le
  have middle :
      ((addressVersion :: scriptHash ++
          addressChecksum sdk scriptHash).drop 1).take uint160Len =
        scriptHash := by
    rw [← length]
    exact List.take_left
  change base58Decode _ _ _ = (25, memmove _ 0 (addressVersion :: _ ++ _))
    at decoded
  rw [readAddress, decoded, whole]
  dsimp only
  rw [middle, if_pos ⟨rfl, rfl⟩]

/-- A text that is read is the address of what it is read as. -/
theorem eq_addressText_of_readAddress
    {sdk : Sdk} {text : List Char} {scriptHash : List UInt8}
    (accepted : readAddress sdk text = some scriptHash) :
    scriptHash.length = uint160Len ∧ text = addressText sdk scriptHash := by
  rw [readAddress] at accepted
  rcases decoded : base58Decode text (List.replicate addressSize 0)
    addressSize with ⟨length, bytes⟩
  rw [decoded] at accepted
  dsimp only at accepted
  split at accepted
  · rename_i wellFormed
    obtain ⟨full, form⟩ := wellFormed
    rw [Option.some.injEq] at accepted
    rw [accepted] at form
    have hashLength : scriptHash.length = uint160Len := by
      have checksum := length_addressChecksum sdk scriptHash
      rw [form, List.cons_append, List.drop_one, List.tail_cons] at accepted
      have lengths := congrArg List.length accepted
      rw [List.length_take, List.length_append, checksum] at lengths
      unfold uint160Len scriptHashChecksumLen at *
      omega
    refine ⟨hashLength, ?_⟩
    have written : bytes = addressBytes sdk scriptHash :=
      form.trans (addressBytes_eq_append sdk hashLength).symm
    have size := length_addressBytes sdk hashLength
    rw [← written] at size
    have whole : bytes.take length.toNat = bytes := by
      rw [full]
      exact List.take_of_length_le size.le
    have encoded :=
      base58Encode_base58Decode decoded (by rw [full]; decide)
        (by rw [full]; decide) (Nat.le_refl text.length) []
    rw [whole, base58Encode_eq (by omega)] at encoded
    have alone (text : List Char) : memmove [] 0 text = text := by
      simp [memmove]
    split at encoded
    · have negative := congrArg Prod.fst encoded
      dsimp only at negative
      omega
    · have texts := congrArg Prod.snd encoded
      dsimp only at texts
      rw [alone, alone] at texts
      rw [addressText, ← written, texts]
  · cases accepted

def Address.write (sdk : Sdk)
    (scriptHash : {bytes : List UInt8 // bytes.length = uint160Len}) :
    Address sdk where
  text :=
    scriptHashToAddress sdk (zeros addressLen) addressLen scriptHash.val
  scriptHash := scriptHash.val
  accepted := by
    rw [scriptHashToAddress_eq sdk scriptHash.property
      (length_zeros addressLen)]
    exact readAddress_addressText sdk scriptHash.property

/-- What is expected of the format: the accepted texts are those that the
application writes, one for each script hash, and every screen with an
address shows the one of the script hash that it is about. -/
structure AddressFormat (sdk : Sdk) : Prop where
  accepts : ∀ (text : List Char) (scriptHash : List UInt8),
    readAddress sdk text = some scriptHash ↔
      scriptHash.length = uint160Len ∧
        text =
          scriptHashToAddress sdk (zeros addressLen) addressLen scriptHash
  bijective : Function.Bijective (Address.write sdk)
  shown : ∀ (scriptHash : List UInt8) (text : List Char),
    ShowsAddress sdk scriptHash text → readAddress sdk text = some scriptHash

/-- **Addresses are a format**: what is accepted is what is written, and what
is shown is accepted. -/
theorem addressFormat (sdk : Sdk) : AddressFormat sdk := by
  have accepts (text : List Char) (scriptHash : List UInt8) :
      readAddress sdk text = some scriptHash ↔
        scriptHash.length = uint160Len ∧
          text =
            scriptHashToAddress sdk (zeros addressLen) addressLen
              scriptHash := by
    constructor
    · intro accepted
      obtain ⟨length, same⟩ := eq_addressText_of_readAddress accepted
      refine ⟨length, ?_⟩
      rw [scriptHashToAddress_eq sdk length (length_zeros addressLen), same]
    · rintro ⟨length, rfl⟩
      exact (Address.write sdk ⟨scriptHash, length⟩).accepted
  constructor
  · exact accepts
  · constructor
    · intro first second same
      exact Subtype.ext (congrArg Address.scriptHash same)
    · rintro ⟨text, scriptHash, accepted⟩
      obtain ⟨length, rfl⟩ := (accepts text scriptHash).mp accepted
      exact ⟨⟨scriptHash, length⟩, rfl⟩
  · intro scriptHash text shown
    obtain ⟨length, rfl⟩ := shown.text_eq
    exact readAddress_addressText sdk length

end Neo3App
