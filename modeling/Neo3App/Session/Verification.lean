import Neo3App.Lib.Collision
import Neo3App.Lib.Compression
import Neo3App.Session.AddressReview

/-!
# What the client can check

The signature of a transaction verifies under the public key of the same
path, and the address on the screen identifies the public key.
-/

namespace Neo3App

open Neo3App.Lib
open Neo3App.Host

variable {sdk : Sdk}

/-! ## Signatures -/

/-- A signature verifies under the key of the one who signs. -/
def VerifiesOwn (sdk : Sdk)
    (verify : List UInt8 → List UInt8 → List UInt8 → Bool) : Prop :=
  ∀ privateKey digest signature,
    sdk.ecdsaSign privateKey digest = some signature →
      verify (0x04 :: (sdk.generatePair privateKey).toList) digest
        signature = true

/-- A signature comes from an approved transfer. -/
theorem ecdsaSign_of_submittedReply
    {path : Bip44Path} {magic : UInt32} {b signature : List UInt8}
    {presses : List Press}
    (signed : submittedReply sdk path magic b presses =
      some (.ok signature)) :
    ∃ tx, AcceptedTransfer sdk b tx ∧
      cursorAfter (reviewScreens tx).length presses + 2 =
        (reviewScreens tx).length ∧
      sdk.ecdsaSign (sdk.deriveNodeBip32 path)
        (signingDigest sdk magic b) = some signature := by
  rw [submittedReply] at signed
  split at signed
  next tx parsed =>
    split at signed
    next isTransfer =>
      refine ⟨tx, ⟨parsed, isTransfer⟩, ?_⟩
      rw [reviewReply] at signed
      split at signed
      next atApprove =>
        refine ⟨atApprove, ?_⟩
        rw [approvalReply] at signed
        split at signed
        next signs =>
          cases signed
          exact signs
        next => cases signed
      next =>
        split at signed <;> cases signed
    next =>
      split at signed <;> cases signed
  next => cases signed

/-- A reply to flagged commands is that of the last one. -/
theorem submittedReply_of_signTxReply
    {path : Bip44Path} {magic : UInt32} {b signature : List UInt8}
    {presses : List Press} (flagged : ¬ UnflaggedSize b.length)
    (valid : pathOffence 0x80000010 4999 path = none)
    (signed : signTxReply sdk presses path b magic =
      some (.ok signature)) :
    submittedReply sdk path magic b presses = some (.ok signature) := by
  rw [signTxReply, valid] at signed
  dsimp only at signed
  by_cases empty : b = []
  · rw [if_pos empty] at signed
    cases signed
  by_cases long : maxTransactionLen < b.length
  · rw [if_neg empty, if_pos long] at signed
    cases signed
  · rwa [if_neg empty, if_neg long, if_neg flagged] at signed

structure SignedTransfer (sdk : Sdk)
    (verify : List UInt8 → List UInt8 → List UInt8 → Bool)
    (key : List UInt8) (magic : UInt32) (b signature : List UInt8)
    (presses : List Press) : Prop where
  /-- The signature is one of the bytes and the network, under the key. -/
  verifies : verify key (signingDigest sdk magic b) signature = true
  /-- The user has approved a transfer. -/
  approved : ∃ tx, AcceptedTransfer sdk b tx ∧
    cursorAfter (reviewScreens tx).length presses + 2 =
      (reviewScreens tx).length

/-- The key and the signature that a client gets for a path belong together,
whatever the device does before and in between. -/
theorem signature_verifies
    (fit : SignaturesFit sdk)
    {verify : List UInt8 → List UInt8 → List UInt8 → Bool}
    (verifies : VerifiesOwn sdk verify) (before later : List (Option Event))
    {path : Bip44Path} {magic : UInt32} {b key signature : List UInt8}
    {presses : List Press} (flagged : ¬ UnflaggedSize b.length)
    (isKey : (getPublicKey sdk path ((ioMain sdk).after before)).2 =
      some (.ok key))
    (isSignature :
      (clientSignTx sdk presses path b magic
        ((ioMain sdk).after later)).2 = some (.ok signature)) :
    SignedTransfer sdk verify key magic b signature presses := by
  rcases waits_after sdk before with attending | stuck
  swap
  · rw [getPublicKey_eq (.inr stuck), if_pos stuck.overtaken] at isKey
    cases isKey
  rw [getPublicKey_eq (.inl attending), if_neg attending.not_overtaken,
    publicKeyReply] at isKey
  rcases waits_after sdk later with signing | stuck
  swap
  · rw [clientSignTx_of_stuck stuck] at isSignature
    cases isSignature
  rw [clientSignTx_of_attending fit signing] at isSignature
  cases offends : pathOffence 0x80000010 4999 path with
  | some status =>
      rw [offends] at isKey
      cases isKey
  | none =>
      rw [offends] at isKey
      cases isKey
      obtain ⟨tx, accepted, atApprove, signs⟩ :=
        ecdsaSign_of_submittedReply
          (submittedReply_of_signTxReply flagged offends isSignature)
      exact ⟨verifies _ _ _ signs, tx, accepted, atApprove⟩

def twoByteVerify (_ digest signature : List UInt8) : Bool :=
  signature = digest.take 2

theorem verifiesOwn_twoByteSigner :
    VerifiesOwn twoByteSigner twoByteVerify := by
  intro privateKey digest signature signs
  cases signs
  exact decide_eq_true rfl

theorem signature_verifies_oneNeo :
    SignedTransfer twoByteSigner twoByteVerify
      (0x04 :: publicKeyOf twoByteSigner firstPath) networkMainnet
      oneNeoTransaction [0, 0] (List.replicate 11 .right) :=
  signature_verifies signaturesFit_twoByteSigner verifiesOwn_twoByteSigner
    [some .confirm] [none, some (getPublicKeyEvent 1 firstKeyPath)]
    (by decide +kernel) (getPublicKey_eq (waits_after _ _) firstPath)
    ((clientSignTx_of_attending signaturesFit_twoByteSigner
      (attending_of_not_overtaken _ (by decide +kernel)) _ firstPath _
      _).trans (by decide +kernel))

/-! ## Addresses -/

/-- The public keys are points of the curve `y ^ 2 = f x` modulo `p`. -/
def KeysOnCurve (sdk : Sdk) (p : Nat) (f : ZMod p → ZMod p) : Prop :=
  ∀ privateKey, CurvePoint p f
    (beNat ((sdk.generatePair privateKey).toList.take 32))
    (beNat ((sdk.generatePair privateKey).toList.drop 32))

def redeemScriptOf (sdk : Sdk) (path : Bip44Path) : List UInt8 :=
  createSignatureRedeemScript (publicKeyOf sdk path)

theorem and_one_ne_zero_iff (byte : UInt8) :
    byte &&& 1 ≠ 0 ↔ byte.toNat % 2 = 1 := by
  rw [Ne, ← UInt8.toNat_inj, UInt8.toNat_and]
  change ¬ byte.toNat &&& 1 = 0 ↔ _
  rw [Nat.and_one_is_mod]
  omega

/-- The last byte of a key has the parity of the second coordinate. -/
theorem parity_of_last {key : List UInt8} (length : key.length = 64) :
    key.getD 63 0 &&& 1 ≠ 0 ↔ beNat (key.drop 32) % 2 = 1 := by
  have whole := List.take_append_drop 32 key
  have half : (key.drop 32).length = 32 := by
    rw [List.length_drop, length]
  rcases List.eq_nil_or_concat (key.drop 32) with empty | ⟨front, last, y⟩
  · rw [empty] at half
    cases half
  rw [List.concat_eq_append] at y
  rw [y, List.length_append, List.length_singleton] at half
  have position : (key.take 32 ++ front).length = 63 := by
    rw [List.length_append, List.length_take, length]
    omega
  have isLast : key.getD 63 0 = last := by
    rw [← whole, y, ← List.append_assoc, ← position,
      List.getD_eq_getElem?_getD, List.getElem?_concat_length,
      Option.getD_some]
  rw [isLast, y, beNat_append_singleton, and_one_ne_zero_iff]
  omega

/-- The verification script of a point of the curve determines the key. -/
theorem createSignatureRedeemScript_injective
    {p : Nat} [Fact p.Prime] (odd : p % 2 = 1) {f : ZMod p → ZMod p}
    {first second : List UInt8}
    (firstLength : first.length = 64) (secondLength : second.length = 64)
    (firstPoint : CurvePoint p f (beNat (first.take 32))
      (beNat (first.drop 32)))
    (secondPoint : CurvePoint p f (beNat (second.take 32))
      (beNat (second.drop 32)))
    (same : createSignatureRedeemScript first =
      createSignatureRedeemScript second) :
    first = second := by
  simp only [createSignatureRedeemScript, List.cons_append, List.nil_append,
    List.cons.injEq, true_and, List.append_left_inj] at same
  obtain ⟨flag, x⟩ := same
  have parity : beNat (first.drop 32) % 2 = 1 ↔
      beNat (second.drop 32) % 2 = 1 := by
    rw [← parity_of_last firstLength, ← parity_of_last secondLength]
    split_ifs at flag with isOdd otherOdd otherOdd
    · exact iff_of_true isOdd otherOdd
    · exact absurd flag (by decide)
    · exact absurd flag (by decide)
    · exact iff_of_false isOdd otherOdd
  rw [← x] at secondPoint
  have value : beNat (first.drop 32) = beNat (second.drop 32) :=
    firstPoint.eq_of_parity odd secondPoint (by omega)
  have y : first.drop 32 = second.drop 32 :=
    beNat_injective
      (by rw [List.length_drop, List.length_drop, firstLength, secondLength])
      value
  rw [← List.take_append_drop 32 first, ← List.take_append_drop 32 second, x,
    y]

/-- Two address reviews that show the same text are of the same key, unless
the verification scripts of the two keys have one hash. -/
theorem address_identifies_key
    {p : Nat} [Fact p.Prime] (odd : p % 2 = 1) {f : ZMod p → ZMod p}
    (onCurve : KeysOnCurve sdk p f) (before later : List Event)
    {path other : Bip44Path}
    (valid : pathOffence 0x80000010 4999 path = none)
    (otherValid : pathOffence 0x80000010 4999 other = none)
    (presses otherPresses : List Press)
    (same :
      ((device sdk).runFrom ((device sdk).after before)
          (getPublicKeyEvent 1 (pathBytes path) ::
            presses.map Event.press)).1.ui.address =
        ((device sdk).runFrom ((device sdk).after later)
          (getPublicKeyEvent 1 (pathBytes other) ::
            otherPresses.map Event.press)).1.ui.address) :
    publicKeyOf sdk path = publicKeyOf sdk other ∨
      Collides (publicKeyHash160 sdk) (redeemScriptOf sdk path)
        (redeemScriptOf sdk other) := by
  rw [address_of_review _ valid, address_of_review _ otherValid] at same
  have length (path : Bip44Path) : (publicKeyOf sdk path).length = 64 :=
    Vector.length_toList
  have hashes :=
    addressText_injective sdk Vector.length_toList Vector.length_toList same
  rcases
    @eq_or_collides _ _ (publicKeyHash160 sdk) (redeemScriptOf sdk path)
      (redeemScriptOf sdk other) hashes with
    scripts | collides
  · left
    exact
      createSignatureRedeemScript_injective odd (length path) (length other)
        (onCurve _) (onCurve _) scripts
  · exact .inr collides

/-- A device with two keys, opposite points of the curve
`y ^ 2 = x ^ 3 + x + 1` modulo 23, and constant hashes. -/
def twoPointSdk : Sdk :=
  { Sdk.constant with
    deriveNodeBip32 := fun path => [path[4].toUInt8]
    generatePair := fun privateKey =>
      ((Vector.replicate 64 0).set 31 3).set 63
        (if privateKey = [0] then 10 else 13) }

theorem keysOnCurve_twoPointSdk :
    KeysOnCurve twoPointSdk 23 fun x => x ^ 3 + x + 1 := by
  intro privateKey
  by_cases first : privateKey = [0]
  · rw [first]
    exact ⟨by decide, by decide, by decide⟩
  · have second : twoPointSdk.generatePair privateKey =
        ((Vector.replicate 64 0).set 31 3).set 63 13 := by
      simp only [twoPointSdk, if_neg first]
    rw [second]
    exact ⟨by decide, by decide, by decide⟩

instance fact_prime_twentyThree : Fact (Nat.Prime 23) :=
  ⟨by decide⟩

/-- The second path with the same address comes from a collision. -/
theorem address_identifies_key_twoPoint :
    publicKeyOf twoPointSdk firstPath =
        publicKeyOf twoPointSdk (firstPath.set 4 1) ∨
      Collides (publicKeyHash160 twoPointSdk)
        (redeemScriptOf twoPointSdk firstPath)
        (redeemScriptOf twoPointSdk (firstPath.set 4 1)) :=
  address_identifies_key (by decide) keysOnCurve_twoPointSdk [.confirm] []
    (by decide) (by decide) [] [.right]
    ((address_of_review _ (by decide) []).trans
      (address_of_review _ (by decide) [.right]).symm)

end Neo3App
