import Neo3App.Common.Scan
import Neo3App.Ui.Utils

/-!
# Recognising a transfer script

`try_parse_transfer_script` of `transaction/tx_utils.c`.  Every early return
of the source is an exit with the code `()`; what was stored before it stays.
The scratch union of the source is only read in the width last written into
it, except once: the operand of `PUSHINT8` is read as a signed byte and used
as the unsigned one.
-/

namespace Neo3App

open Neo3App.Lib
open Neo3App.Lib.EarlyExit

/-- `PUSH4 PACK PUSH15 PUSHDATA1 8 'transfer' PUSHDATA1 20`. -/
def callSequence : List UInt8 :=
  [0x14, 0xC0, 0x1F, 0x0C, 0x08,
    0x74, 0x72, 0x61, 0x6e, 0x73, 0x66, 0x65, 0x72, 0x0C, 0x14]

/-- `SYSCALL System.Contract.Call`. -/
def syscallSequence : List UInt8 :=
  [0x41, 0x62, 0x7d, 0x5b, 0x52]

def neoScriptHash : List UInt8 :=
  [0xf5, 0x63, 0xea, 0x40, 0xbc, 0x28, 0x3d, 0x4d, 0x0e, 0x05,
    0xc4, 0x8e, 0xa3, 0x05, 0xb3, 0xf2, 0xa0, 0x73, 0x40, 0xef]

def gasScriptHash : List UInt8 :=
  [0xcf, 0x76, 0xe2, 0x8b, 0xd0, 0x06, 0x2c, 0x4a, 0x47, 0x8e,
    0xe3, 0x55, 0x61, 0x01, 0x13, 0x19, 0xf3, 0xcf, 0xa4, 0xd2]

/-- The recogniser's early returns carry no code. -/
abbrev Recogniser (α : Type) : Type :=
  Parser Transaction Unit α

/-- Store the amount that the push instruction `op` puts on the stack. -/
def parseAmount (op : UInt8) : Recogniser Unit :=
  let put (amount : Int64) : Recogniser Unit :=
    assignField fun tx => { tx with amount := amount }
  if 0x10 ≤ op ∧ op ≤ 0x20 then
    put (op.toUInt64.toInt64 - 0x10)
  else if op = 0x00 then do
    let operand ← readLocal bufferReadS8 ()
    -- the source assigns `s.u8` here, not the `s.s8` just read
    put operand.toUInt8.toUInt64.toInt64
  else if op = 0x01 then do
    let operand ← readLocal (bufferReadS16 · .le) ()
    put operand.toInt64
  else if op = 0x02 then do
    let operand ← readLocal (bufferReadS32 · .le) ()
    put operand.toInt64
  else if op = 0x03 then do
    let operand ← readLocal (bufferReadS64 · .le) ()
    put operand
  else
    exitIf True ()

def parsePush : Recogniser Unit := do
  let op ← readLocal bufferReadU8 ()
  parseAmount op

/-- `PUSHDATA1` with a length of 20 bytes. -/
def expectPushData20 : Recogniser Unit := do
  let word ← readLocal (bufferReadU16 · .be) ()
  exitIf (word ≠ 0x0C14) ()

/-- `if (!buffer_can_read(…)) return; if (os_secure_memcmp(…)) return;
buffer_seek_cur(…);` -/
def expectBytes (sdk : Sdk) (expected : List UInt8) : Recogniser Unit :=
  do
  exitWhen (fun scan => !bufferCanRead scan.buf expected.length) ()
  exitWhen (fun scan =>
    sdk.secureMemcmp (peek scan expected.length) expected
      expected.length != 0) ()
  EarlyExit.assign fun scan =>
    { scan with buf := (bufferSeekCur scan.buf expected.length).2 }

/-- `tx->is_neo = true;` -/
def Transaction.setNeo (tx : Transaction) : Transaction :=
  { tx with isNeo := true }

/-- The contract must be NEO, which is recorded, or GAS. -/
def matchContract (sdk : Sdk) (hash : List UInt8) : Recogniser Unit :=
  if sdk.secureMemcmp hash neoScriptHash uint160Len = 0 then
    assignField Transaction.setNeo
  else
    exitIf (sdk.secureMemcmp hash gasScriptHash uint160Len ≠ 0) ()

def parseContract (sdk : Sdk) : Recogniser Unit := do
  exitWhen (fun scan => !bufferCanRead scan.buf uint160Len) ()
  let hash ← inspect fun scan => peek scan uint160Len
  matchContract sdk hash
  EarlyExit.assign fun scan =>
    { scan with buf := (bufferSeekCur scan.buf uint160Len).2 }

/-- `script_hash_to_address(tx->dst_address, …, script_hash);` -/
def Transaction.setDestination (sdk : Sdk) (scriptHash : List UInt8)
    (tx : Transaction) : Transaction :=
  { tx with
    dstAddress :=
      scriptHashToAddress sdk tx.dstAddress addressLen scriptHash }

def recogniseCall (sdk : Sdk) : Recogniser Unit := do
  let pushNull ← readLocal bufferReadU8 ()
  exitIf (pushNull ≠ 0x0B) ()
  parsePush
  expectPushData20
  let destination ← takeBytes uint160Len ()
  assignField (Transaction.setDestination sdk destination)
  expectPushData20
  seekCur uint160Len ()
  expectBytes sdk callSequence
  parseContract sdk
  expectBytes sdk syscallSequence

def recogniseTransfer (sdk : Sdk) : Recogniser Unit := do
  recogniseCall sdk
  exitWhen (fun scan => scan.buf.offset != scan.store.scriptSize.toNat) ()
  assignField fun tx => { tx with isSystemAssetTransfer := true }

/-- `try_parse_transfer_script`: the transaction afterwards. -/
def tryParseTransferScript (sdk : Sdk) (script : Buffer)
    (tx : Transaction) : Transaction :=
  (recogniseTransfer sdk ⟨script, tx⟩).2.store

end Neo3App
