import Neo3App.Transaction.Types
import Neo3App.Sdk

/-!
# The global context

`types.h`, `globals.h`, `constants.h` and `sw.h`: the record `G_context` that
the handlers and the user interface share, and the status words.  The public
key and the transaction are a union in the source: the 64 key bytes are the
first bytes of the raw transaction.
-/

namespace Neo3App

def networkMainnet : UInt32 := 860833102
def networkTestnet : UInt32 := 877933390

def maxDerSigLen : Nat := 72
def pubkeyLen : Nat := 64

def swOk : UInt16 := 0x9000
def swDeny : UInt16 := 0x6985
def swWrongP1P2 : UInt16 := 0x6A86
def swWrongDataLength : UInt16 := 0x6A87
def swInsNotSupported : UInt16 := 0x6D00
def swClaNotSupported : UInt16 := 0x6E00
def swWrongTxLength : UInt16 := 0xB001
def swTxParsingFail : UInt16 := 0xB002
def swBadState : UInt16 := 0xB004
def swSignFail : UInt16 := 0xB005
def swBip44BadPurpose : UInt16 := 0xB100
def swBip44BadCoinType : UInt16 := 0xB101
def swBip44AccountNotHardened : UInt16 := 0xB102
def swBip44BadAccount : UInt16 := 0xB103
def swBip44BadChange : UInt16 := 0xB104
def swBip44BadAddress : UInt16 := 0xB105
def swMagicParsingFail : UInt16 := 0xB106
def swDisplaySystemFeeFail : UInt16 := 0xB107
def swDisplayNetworkFeeFail : UInt16 := 0xB108
def swDisplayTotalFeeFail : UInt16 := 0xB109
def swDisplayTokenTransferAmountFail : UInt16 := 0xB10A

inductive State where
  | none
  | bip44Ok
  | magicOk
  | parsed
  | approved
  deriving DecidableEq, Repr

inductive RequestType where
  | confirmAddress
  | confirmTransaction
  deriving DecidableEq, Repr

/-- `global_ctx_t`, with the fields of `transaction_ctx_t`. -/
structure GlobalCtx where
  state : State
  rawTx : List UInt8
  rawTxLen : Nat
  transaction : Transaction
  hash : Vector UInt8 32
  signature : List UInt8
  signatureLen : UInt8
  networkMagic : UInt32
  reqType : RequestType
  bip44Path : Bip44Path
  deriving DecidableEq

/-- The context after `explicit_bzero`. -/
def GlobalCtx.zero : GlobalCtx where
  state := .none
  rawTx := List.replicate maxTransactionLen 0
  rawTxLen := 0
  transaction := Transaction.zero
  hash := Vector.replicate 32 0
  signature := List.replicate maxDerSigLen 0
  signatureLen := 0
  networkMagic := 0
  reqType := .confirmAddress
  bip44Path := Vector.replicate bip44PathLen 0

/-- `raw_public_key`, which shares its memory with `raw_tx`. -/
def GlobalCtx.rawPublicKey (context : GlobalCtx) : List UInt8 :=
  context.rawTx.take pubkeyLen

/-- What the application asks of its surroundings, in order: a response to
the host, or a use of the private key. -/
inductive Effect where
  /-- `io_send_response`. -/
  | response (data : List UInt8) (sw : UInt16)
  /-- `crypto_derive_private_key`. -/
  | derivePrivateKey (path : Bip44Path)
  /-- `cx_ecdsa_sign` of a digest with a private key. -/
  | ecdsaSign (privateKey digest : List UInt8)
  deriving DecidableEq

def ioSendSw (sw : UInt16) : List Effect :=
  [.response [] sw]

end Neo3App
