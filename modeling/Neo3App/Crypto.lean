import Neo3App.Ui.State

/-!
# Keys and signatures

`crypto.c` and `helper/send_response.c`.
-/

namespace Neo3App

/-- `crypto_derive_private_key`, with the use of the path that it makes. -/
def cryptoDerivePrivateKey (sdk : Sdk) (path : Bip44Path) :
    List UInt8 × List Effect :=
  (sdk.deriveNodeBip32 path, [.derivePrivateKey path])

/-- `crypto_init_public_key`, into the `raw_public_key` of the context. -/
def cryptoInitPublicKey (sdk : Sdk) (privateKey : List UInt8)
    (context : GlobalCtx) : GlobalCtx :=
  { context with
    rawTx := memmove context.rawTx 0 (sdk.generatePair privateKey).toList }

/-- The 36 bytes that are hashed: the magic as it lies in memory, then the
hash of the transaction. -/
def signedData (context : GlobalCtx) : List UInt8 :=
  Lib.leBytes 4 context.networkMagic.toNat ++ context.hash.toList

def cryptoSignTx (sdk : Sdk) (context : GlobalCtx) :
    Bool × GlobalCtx × List Effect :=
  let (privateKey, derived) := cryptoDerivePrivateKey sdk context.bip44Path
  let messageHash := (sdk.sha256 (signedData context)).toList
  let effects := derived ++ [.ecdsaSign privateKey messageHash]
  match sdk.ecdsaSign privateKey messageHash with
  | none => (false, context, effects)
  | some signature =>
      (true,
        { context with
          signature := memmove context.signature 0 signature
          signatureLen := UInt8.ofNat signature.length },
        effects)

def helperSendResponsePubkey (context : GlobalCtx) : List Effect :=
  [.response (0x04 :: context.rawPublicKey) swOk]

end Neo3App
