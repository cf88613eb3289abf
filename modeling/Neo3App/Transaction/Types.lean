import Neo3App.Common.Buffer
import Neo3App.Lib.Slots

/-!
# The parsed transaction

The limits, status codes and records of `transaction/types.h`.  The pointers
of the records are positions in the raw transaction.
-/

namespace Neo3App

open Neo3App.Lib

def addressLen : Nat := 34
def uint160Len : Nat := 20
def ecpointLen : Nat := 33
def maxTxSigners : Nat := 2
def minTxSigners : Nat := 1
def maxSignerSubItems : Nat := 2
def maxAttributes : Nat := 2
def maxTransactionLen : Nat := 1024

inductive ParserStatus where
  | parsingOk
  | invalidLengthError
  | versionParsingError
  | versionValueError
  | nonceParsingError
  | systemFeeParsingError
  | systemFeeValueError
  | networkFeeParsingError
  | networkFeeValueError
  | validUntilBlockParsingError
  | signerLengthParsingError
  | signerLengthValueError
  | signerAccountParsingError
  | signerAccountDuplicateError
  | signerScopeParsingError
  | signerScopeValueErrorGlobalFlag
  | signerAllowedContractsLengthParsingError
  | signerAllowedContractsLengthValueError
  | signerAllowedContractParsingError
  | signerAllowedGroupsLengthParsingError
  | signerAllowedGroupsLengthValueError
  | signerAllowedGroupsParsingError
  | attributesLengthParsingError
  | attributesLengthValueError
  | attributesUnsupportedType
  | attributesDuplicateType
  | scriptLengthParsingError
  | scriptLengthValueError
  deriving DecidableEq, Repr

/-- The numbers of the enumeration: 1, then -1, -2, and so on. -/
def ParserStatus.code : ParserStatus → Int
  | .parsingOk => 1
  | status => -(status.ctorIdx : Int)

def scopeNone : UInt8 := 0
def scopeCalledByEntry : UInt8 := 0x1
def scopeCustomContracts : UInt8 := 0x10
def scopeCustomGroups : UInt8 := 0x20
def scopeGlobal : UInt8 := 0x80

def highPriority : UInt8 := 0x1

structure Signer where
  account : Ptr
  scope : UInt8
  allowedContracts : Vector Ptr maxSignerSubItems
  allowedContractsSize : UInt8
  allowedGroups : Vector Ptr maxSignerSubItems
  allowedGroupsSize : UInt8
  deriving DecidableEq, Repr

def Signer.zero : Signer where
  account := none
  scope := 0
  allowedContracts := Vector.replicate maxSignerSubItems none
  allowedContractsSize := 0
  allowedGroups := Vector.replicate maxSignerSubItems none
  allowedGroupsSize := 0

instance : Inhabited Signer :=
  ⟨Signer.zero⟩

/-- `transaction_t`; an `attribute_t` is its type. -/
structure Transaction where
  version : UInt8
  nonce : UInt32
  systemFee : Int64
  networkFee : Int64
  validUntilBlock : UInt32
  signers : Vector Signer maxTxSigners
  signersSize : UInt8
  attributes : Vector UInt8 maxAttributes
  attributesSize : UInt8
  script : Ptr
  scriptSize : UInt16
  isSystemAssetTransfer : Bool
  isNeo : Bool
  amount : Int64
  dstAddress : List Char
  deriving DecidableEq

/-- The record after `explicit_bzero`. -/
def Transaction.zero : Transaction where
  version := 0
  nonce := 0
  systemFee := 0
  networkFee := 0
  validUntilBlock := 0
  signers := Vector.replicate maxTxSigners Signer.zero
  signersSize := 0
  attributes := Vector.replicate maxAttributes 0
  attributesSize := 0
  script := none
  scriptSize := 0
  isSystemAssetTransfer := false
  isNeo := false
  amount := 0
  dstAddress := List.replicate addressLen '\x00'

example : ParserStatus.scriptLengthValueError.code = -27 := by
  decide

end Neo3App
