import Neo3App.Transaction.TxUtils

/-!
# Transfer scripts

The script of a transfer, instruction by instruction, and the recogniser as
a parser of that format.
-/

namespace Neo3App

open Neo3App.Lib

inductive Push where
  | small (value : Fin 17)
  | int8 (value : Int8)
  | int16 (value : Int16)
  | int32 (value : Int32)
  | int64 (value : Int64)
  deriving DecidableEq, Repr

/-- `PUSH0` to `PUSH16`, `PUSHINT8`, `PUSHINT16`, `PUSHINT32`, `PUSHINT64`. -/
def Push.encode : Push → List UInt8
  | .small value => [0x10 + UInt8.ofNat value.val]
  | .int8 value => 0x00 :: [value.toUInt8]
  | .int16 value => 0x01 :: leBytes 2 value.toUInt16.toNat
  | .int32 value => 0x02 :: leBytes 4 value.toUInt32.toNat
  | .int64 value => 0x03 :: leBytes 8 value.toUInt64.toNat

/-- The integer that the instruction places on the stack. -/
def Push.value : Push → Int
  | .small value => value.val
  | .int8 value => value.toInt
  | .int16 value => value.toInt
  | .int32 value => value.toInt
  | .int64 value => value.toInt

/-- The amount that the application records for the instruction. -/
def Push.amount : Push → Int64
  | .small value => Int64.ofNat value.val
  | .int8 value => value.toUInt8.toUInt64.toInt64
  | .int16 value => value.toInt64
  | .int32 value => value.toInt64
  | .int64 value => value

def Transaction.setAmount (amount : Int64) (tx : Transaction) : Transaction :=
  { tx with amount := amount }

/-- A push with an operand: its first byte `op` has been read. -/
private theorem operand_accepts
    {α : Type} {read : Buffer → Read α} {format : α → List UInt8 → Prop}
    (reads : Reads read format) (op : UInt8) (toPush : α → Push)
    (encode : ∀ push encoding,
      push.encode = op :: encoding ↔
        ∃ value, toPush value = push ∧ format value encoding) :
    Accepts
      (readLocal read () >>= fun operand =>
        assignField (Transaction.setAmount (toPush operand).amount) :
        Recogniser Unit)
      (fun _ (push : Push) encoding => push.encode = op :: encoding)
      (fun _ => ()) (fun push : Push => Transaction.setAmount push.amount)
      (fun _ _ => True) (fun _ => True) := by
  have sequence :
      Accepts
        (readLocal read () >>= fun operand =>
          assignField (Transaction.setAmount (toPush operand).amount) :
          Recogniser Unit)
        _ _ _ (fun _ _ => True) (fun _ => True) :=
    Accepts.seq (Accepts.readLocal reads ())
      (fun _ => Accepts.assignField _ (fun _ => rfl)) (fun _ _ _ => rfl)
  refine sequence.reshape (fun layout => toPush layout.1) ?_ (fun _ => rfl)
    (fun _ _ => rfl)
  intro offset push encoding
  rw [encode]
  constructor
  · rintro ⟨value, rfl, isFormat⟩
    exact ⟨(value, ()), rfl, encoding, [], (List.append_nil _).symm,
      isFormat, rfl, trivial⟩
  · rintro ⟨⟨value, _⟩, rfl, _, _, rfl, isFormat, rfl, _⟩
    exact ⟨value, rfl, by rwa [List.append_nil]⟩

/-- The opcode of a small push. -/
theorem smallOp_range (value : Fin 17) :
    0x10 ≤ 0x10 + UInt8.ofNat value.val ∧
      0x10 + UInt8.ofNat value.val ≤ 0x20 := by
  revert value
  decide

theorem smallOp_of_range
    {op : UInt8} (range : 0x10 ≤ op ∧ op ≤ 0x20) :
    ∃ value : Fin 17, op = 0x10 + UInt8.ofNat value.val := by
  have low : 16 ≤ op.toNat := UInt8.le_iff_toNat_le.mp range.1
  have high : op.toNat ≤ 32 := UInt8.le_iff_toNat_le.mp range.2
  refine ⟨⟨op.toNat - 16, by omega⟩, ?_⟩
  apply UInt8.toNat_inj.mp
  rw [UInt8.toNat_add, UInt8.toNat_ofNat']
  change op.toNat = (16 + (op.toNat - 16) % 2 ^ 8) % 2 ^ 8
  omega

private theorem smallOp_ne
    (value : Fin 17) {op : UInt8} (low : op < 0x10) :
    0x10 + UInt8.ofNat value.val ≠ op := by
  rintro rfl
  exact UInt8.not_lt.mpr (smallOp_range value).1 low

private theorem smallOp_injective
    {value other : Fin 17}
    (same : 0x10 + UInt8.ofNat value.val = 0x10 + UInt8.ofNat other.val) :
    value = other := by
  revert value other
  decide

private theorem smallOp_amount (value : Fin 17) :
    (0x10 + UInt8.ofNat value.val).toUInt64.toInt64 - 0x10 =
      Int64.ofNat value.val := by
  revert value
  decide

theorem parseAmount_accepts (op : UInt8) :
    Accepts (parseAmount op)
      (fun _ (push : Push) encoding => push.encode = op :: encoding)
      (fun _ => ()) (fun push : Push => Transaction.setAmount push.amount)
      (fun _ _ => True) (fun _ => True) := by
  unfold parseAmount
  split
  next inRange =>
    obtain ⟨value, rfl⟩ := smallOp_of_range inRange
    have assigns (amount : Int64) :
        Accepts (assignField (Transaction.setAmount amount) : Recogniser Unit)
          _ _ _ (fun _ _ => True) (fun _ => True) :=
      Accepts.assignField _ (fun _ => rfl)
    refine (assigns _).reshape (fun _ => Push.small value) ?_ (fun _ => rfl) ?_
    · intro offset push encoding
      constructor
      · intro encodes
        cases push with
        | small other =>
            injection encodes with sameOp rest
            rw [smallOp_injective sameOp]
            exact ⟨(), rfl, rest.symm, trivial⟩
        | int8 operand | int16 operand | int32 operand | int64 operand =>
            injection encodes with sameOp
            exact absurd sameOp.symm (smallOp_ne value (by decide))
      · rintro ⟨_, rfl, rfl, _⟩
        rfl
    · intro offset _ encoding _ tx
      rw [smallOp_amount]
      rfl
  next outOfRange =>
    have notSmall (value : Fin 17) : op ≠ 0x10 + UInt8.ofNat value.val := by
      rintro rfl
      exact outOfRange (smallOp_range value)
    split
    next isInt8 =>
      subst isInt8
      refine operand_accepts reads_s8 0x00 Push.int8 fun push encoding => ?_
      cases push <;> simp [Push.encode, eq_comm, notSmall]
    next notInt8 =>
    split
    next isInt16 =>
      subst isInt16
      refine operand_accepts reads_s16_le 0x01 Push.int16
        fun push encoding => ?_
      cases push <;> simp [Push.encode, eq_comm, notSmall]
    next notInt16 =>
    split
    next isInt32 =>
      subst isInt32
      refine operand_accepts reads_s32_le 0x02 Push.int32
        fun push encoding => ?_
      cases push <;> simp [Push.encode, eq_comm, notSmall]
    next notInt32 =>
    split
    next isInt64 =>
      subst isInt64
      refine operand_accepts reads_s64_le 0x03 Push.int64
        fun push encoding => ?_
      cases push <;> simp [Push.encode, eq_comm, notSmall]
    next notInt64 =>
      refine Accepts.never ?_ ?_
      · intro scan final result _ run
        exact (EarlyExit.exitIf_eq_ok_iff.mp run).1 trivial
      · intro offset push encoding encodes
        cases push with
        | small value =>
            injection encodes with sameOp
            exact notSmall value sameOp.symm
        | int8 operand =>
            injection encodes with sameOp
            exact notInt8 sameOp.symm
        | int16 operand =>
            injection encodes with sameOp
            exact notInt16 sameOp.symm
        | int32 operand =>
            injection encodes with sameOp
            exact notInt32 sameOp.symm
        | int64 operand =>
            injection encodes with sameOp
            exact notInt64 sameOp.symm

theorem parsePush_accepts :
    Accepts parsePush (fun _ (push : Push) encoding => encoding = push.encode)
      (fun _ => ()) (fun push : Push => Transaction.setAmount push.amount)
      (fun _ _ => True) (fun _ => True) := by
  have sequence :
      Accepts parsePush _ _ _ (fun _ _ => True) (fun _ => True) :=
    Accepts.seq (Accepts.readLocal reads_u8 ()) parseAmount_accepts
      (fun _ _ _ => rfl)
  refine sequence.reshape Prod.snd ?_ (fun _ => rfl) (fun _ _ => rfl)
  intro offset push encoding
  constructor
  · rintro rfl
    obtain ⟨op, rest, split⟩ : ∃ op rest, push.encode = op :: rest := by
      cases push <;> exact ⟨_, _, rfl⟩
    exact ⟨(op, push), rfl, [op], rest, split, rfl, split⟩
  · rintro ⟨⟨op, _⟩, rfl, _, rest, rfl, rfl, split⟩
    exact split.symm

/-- A parser of one fixed string that stores nothing. -/
abbrev Expects (parser : Recogniser Unit) (text : List UInt8) : Prop :=
  Accepts parser (fun _ (_ : Unit) encoding => encoding = text)
    (fun _ => ()) (fun _ tx => tx) (fun _ _ => True) (fun _ => True)

theorem expectPushData20_accepts :
    Expects expectPushData20 [0x0C, 0x14] := by
  have sequence :
      Accepts expectPushData20 _ _ _ (fun _ _ => True) (fun _ => True) :=
    Accepts.seq (Accepts.readLocal reads_u16_be ())
      (fun _ => Accepts.exitIf _ ()) (fun _ _ _ => rfl)
  refine sequence.reshape (fun _ => ()) ?_ (fun _ => rfl) (fun _ _ => rfl)
  intro offset _ encoding
  constructor
  · rintro rfl
    exact ⟨(0x0C14, ()), rfl, [0x0C, 0x14], [], rfl, rfl, rfl,
      fun other => other rfl⟩
  · rintro ⟨⟨word, _⟩, _, _, _, rfl, rfl, rfl, isWord⟩
    have same : word = 0x0C14 := Decidable.not_not.mp isWord
    subst same
    change (leBytes 2 (0x0C14 : UInt16).toNat).reverse ++ [] = [0x0C, 0x14]
    decide

/-- The two checks before bytes are compared and skipped. -/
private theorem compare_decides
    (sdk : Sdk) (expected : List UInt8) (scan : Scan Transaction)
    (wf : scan.buf.Wf) :
    (bufferCanRead scan.buf expected.length = true ∧
        sdk.secureMemcmp (peek scan expected.length) expected
          expected.length = 0) ↔
      expected <+: scan.buf.rest := by
  rw [wf.canRead_iff, sdk.secureMemcmp_eq_zero, List.take_length]
  constructor
  · rintro ⟨available, same⟩
    have long : (scan.buf.rest.take expected.length).length =
        expected.length := by
      simp [available]
    have looked :=
      peek_prefix_eq (List.take_prefix expected.length scan.buf.rest)
    rw [long] at looked
    rw [looked, List.take_take, Nat.min_self] at same
    rw [← same]
    exact List.take_prefix _ _
  · intro isPrefix
    refine ⟨isPrefix.length_le, ?_⟩
    rw [peek_prefix_eq isPrefix, List.take_length]

theorem expectBytes_accepts (sdk : Sdk) (expected : List UInt8) :
    Expects (expectBytes sdk expected) expected := by
  refine Accepts.ofDecision ?_ (fun _ _ => rfl) ?_
  · intro scan wf
    by_cases isPrefix : expected <+: scan.buf.rest
    · left
      obtain ⟨canRead, same⟩ :=
        (compare_decides sdk expected scan wf).mpr isPrefix
      refine ⟨(), expected, rfl, isPrefix, ?_⟩
      simp [expectBytes, bind, EarlyExit.exitWhen, EarlyExit.assign, canRead,
        same, wf.seekCur_of_le isPrefix.length_le]
    · right
      refine ⟨fun _ _ same => same ▸ isPrefix, (), ?_⟩
      rw [← compare_decides sdk expected scan wf] at isPrefix
      by_cases canRead : bufferCanRead scan.buf expected.length = true
      · have differs : sdk.secureMemcmp (peek scan expected.length) expected
            expected.length ≠ 0 := fun same => isPrefix ⟨canRead, same⟩
        simp [expectBytes, bind, EarlyExit.exitWhen, canRead, differs]
      · simp [expectBytes, bind, EarlyExit.exitWhen, canRead]
  · rintro _ _ _ _ rfl rfl _
    exact ⟨rfl, rfl⟩

def contractHash (isNeo : Bool) : List UInt8 :=
  if isNeo then neoScriptHash else gasScriptHash

def Transaction.recordContract (isNeo : Bool) (tx : Transaction) :
    Transaction :=
  if isNeo then tx.setNeo else tx

theorem contractHash_injective
    {isNeo other : Bool}
    (isPrefix : contractHash isNeo <+: contractHash other) :
    isNeo = other := by
  revert isNeo other
  decide

theorem parseContract_accepts (sdk : Sdk) :
    Accepts (parseContract sdk)
      (fun _ (isNeo : Bool) encoding => encoding = contractHash isNeo)
      (fun _ => ()) Transaction.recordContract (fun _ _ => True)
      (fun _ => True) := by
  refine Accepts.ofDecision ?_ ?_ ?_
  · intro scan wf
    have neo := compare_decides sdk neoScriptHash scan wf
    have gas := compare_decides sdk gasScriptHash scan wf
    by_cases isNeo : neoScriptHash <+: scan.buf.rest
    · left
      obtain ⟨canRead, same⟩ := neo.mpr isNeo
      refine ⟨true, neoScriptHash, rfl, isNeo, ?_⟩
      have available : uint160Len ≤ scan.buf.rest.length := isNeo.length_le
      change bufferCanRead scan.buf uint160Len = true at canRead
      change sdk.secureMemcmp (peek scan uint160Len) neoScriptHash
        uint160Len = 0 at same
      simp [parseContract, matchContract, bind, EarlyExit.exitWhen,
        EarlyExit.assign, EarlyExit.inspect, assignField, canRead, same,
        wf.seekCur_of_le available, Transaction.recordContract]
      rfl
    · have notNeo := mt neo.mp isNeo
      by_cases isGas : gasScriptHash <+: scan.buf.rest
      · left
        obtain ⟨canRead, same⟩ := gas.mpr isGas
        refine ⟨false, gasScriptHash, rfl, isGas, ?_⟩
        have available : uint160Len ≤ scan.buf.rest.length :=
          isGas.length_le
        change bufferCanRead scan.buf uint160Len = true at canRead
        change sdk.secureMemcmp (peek scan uint160Len) gasScriptHash
          uint160Len = 0 at same
        have differs : ¬ sdk.secureMemcmp (peek scan uint160Len)
            neoScriptHash uint160Len = 0 := fun equal =>
          notNeo ⟨canRead, equal⟩
        simp [parseContract, matchContract, bind, EarlyExit.exitWhen,
          EarlyExit.exitIf, EarlyExit.assign, EarlyExit.inspect, canRead,
          same, differs, wf.seekCur_of_le available,
          Transaction.recordContract]
        rfl
      · right
        have notGas := mt gas.mp isGas
        refine ⟨?_, (), ?_⟩
        · rintro (_ | _) _ rfl isPrefix
          · exact isGas isPrefix
          · exact isNeo isPrefix
        · change ¬ (bufferCanRead scan.buf uint160Len = true ∧ _) at notNeo
          change ¬ (bufferCanRead scan.buf uint160Len = true ∧ _) at notGas
          by_cases canRead : bufferCanRead scan.buf uint160Len = true
          · have notNeo : ¬ sdk.secureMemcmp (peek scan uint160Len)
                neoScriptHash uint160Len = 0 := fun equal =>
              notNeo ⟨canRead, equal⟩
            have notGas : ¬ sdk.secureMemcmp (peek scan uint160Len)
                gasScriptHash uint160Len = 0 := fun equal =>
              notGas ⟨canRead, equal⟩
            simp [parseContract, matchContract, bind, EarlyExit.exitWhen,
              EarlyExit.exitIf, EarlyExit.inspect, canRead, notNeo, notGas]
          · simp [parseContract, bind, EarlyExit.exitWhen, canRead]
  · intro isNeo tx
    cases isNeo <;> rfl
  · rintro isNeo other _ _ rfl rfl isPrefix
    have same := contractHash_injective isPrefix
    exact ⟨same, congrArg contractHash same⟩

/-! ## The whole script -/

/-- A call of `transfer`: the amount, the two accounts and the contract. -/
structure TransferLayout where
  push : Push
  destination : List UInt8
  source : List UInt8
  isNeo : Bool
  deriving DecidableEq, Repr

def TransferLayout.encode (layout : TransferLayout) : List UInt8 :=
  [0x0B] ++ (layout.push.encode ++
    ([0x0C, 0x14] ++ (layout.destination ++
      ([0x0C, 0x14] ++ (layout.source ++
        ([0x14, 0xC0, 0x1F, 0x0C, 0x08,
          0x74, 0x72, 0x61, 0x6E, 0x73, 0x66, 0x65, 0x72,
          0x0C, 0x14] ++
          (contractHash layout.isNeo ++ [0x41, 0x62, 0x7D, 0x5B, 0x52])))))))

def TransferFormat : Format TransferLayout :=
  fun _ layout encoding =>
    layout.destination.length = uint160Len ∧
      layout.source.length = uint160Len ∧ encoding = layout.encode

/-- What recognising a transfer stores. -/
def writeTransfer (sdk : Sdk) (layout : TransferLayout) (tx : Transaction) :
    Transaction :=
  ((tx.setAmount layout.push.amount).setDestination sdk
    layout.destination).recordContract layout.isNeo

theorem setDestination_idempotent
    (sdk : Sdk) (scriptHash : List UInt8) (tx : Transaction) :
    (tx.setDestination sdk scriptHash).setDestination sdk scriptHash =
      tx.setDestination sdk scriptHash := by
  simp only [Transaction.setDestination, scriptHashToAddress,
    base58Encode_idempotent]

theorem recogniseCall_accepts (sdk : Sdk) :
    Accepts (recogniseCall sdk) TransferFormat (fun _ => ())
      (writeTransfer sdk) (fun _ _ => True) (fun _ => True) := by
  have sequence :
      Accepts (recogniseCall sdk) _ _ _ (fun _ _ => True)
        (fun _ => True) :=
    Accepts.seq (Accepts.readLocal reads_u8 ())
      (fun _ => Accepts.andThen (Accepts.exitIf _ ())
        (fun _ => Accepts.seq parsePush_accepts
          (fun _ => Accepts.seq expectPushData20_accepts
            (fun _ => Accepts.seq (Accepts.takeBytes (by decide) ())
              (fun _ => Accepts.andThen
                (Accepts.assignField _ (setDestination_idempotent sdk _))
                (fun _ => Accepts.seq expectPushData20_accepts
                  (fun _ => Accepts.seq (Accepts.seekCur (by decide) ())
                    (fun _ => Accepts.seq (expectBytes_accepts sdk _)
                      (fun _ => Accepts.seq (parseContract_accepts sdk)
                        (fun _ => expectBytes_accepts sdk _)
                        (by intros; rfl))
                      (by intros; rfl))
                    (by intros; rfl))
                  (by intros; rfl))
                (by
                  rintro ⟨_, _, _, isNeo, _⟩ tx
                  cases isNeo <;> rfl))
              (by intros; rfl))
            (by intros; rfl))
          (by
            rintro push ⟨_, _, _, _, _, isNeo, _⟩ tx
            cases isNeo <;> rfl))
        (by intros; rfl))
      (by intros; rfl)
  refine
    sequence.reshape
      (fun layout =>
        ⟨layout.2.1, layout.2.2.2.1, layout.2.2.2.2.2.1,
          layout.2.2.2.2.2.2.2.1⟩)
      ?_ (by intros; rfl) (by intros; rfl)
  rintro offset ⟨push, destination, source, isNeo⟩ encoding
  constructor
  · rintro ⟨destinationLength, sourceLength, rfl⟩
    exact ⟨(0x0B, push, (), destination, (), source, (), isNeo, ()), rfl,
      [0x0B], _, rfl, rfl, fun other => other rfl,
      push.encode, _, rfl, rfl, [0x0C, 0x14], _, rfl, rfl,
      destination, _, rfl, ⟨rfl, destinationLength⟩, trivial,
      [0x0C, 0x14], _, rfl, rfl, source, _, rfl, ⟨rfl, sourceLength⟩,
      callSequence, _, rfl, rfl, contractHash isNeo, _, rfl, rfl, rfl⟩
  · rintro ⟨⟨pushNull, _, _, _, _, _, _, _, _⟩, equality, _, _, rfl, rfl,
      isNull, _, _, rfl, rfl, _, _, rfl, rfl, _, _, rfl,
      ⟨rfl, destinationLength⟩, _, _, _, rfl, rfl, _, _, rfl,
      ⟨rfl, sourceLength⟩, _, _, rfl, rfl, _, _, rfl, rfl, rfl⟩
    cases equality
    have isPushNull : pushNull = 0x0B := Decidable.not_not.mp isNull
    subst isPushNull
    exact ⟨destinationLength, sourceLength, rfl⟩

/-- The record without what recognising a call stores. -/
def Transaction.eraseTransfer (tx : Transaction) : Transaction :=
  { tx with isNeo := false, amount := 0, dstAddress := [] }

theorem Transaction.eraseTransfer_isSystemAssetTransfer (tx : Transaction) :
    tx.eraseTransfer.isSystemAssetTransfer = tx.isSystemAssetTransfer :=
  rfl

private theorem parseAmount_keeps (op : UInt8) :
    (parseAmount op).Keeps fun scan => scan.store.eraseTransfer := by
  have assigns (amount : Int64) :
      (assignField fun tx : Transaction => { tx with amount := amount } :
        Recogniser Unit).Keeps fun scan => scan.store.eraseTransfer :=
    fun _ => rfl
  unfold parseAmount
  split
  · exact assigns _
  split
  · exact (Keeps.readLocal _ _ _).bind fun _ => assigns _
  split
  · exact (Keeps.readLocal _ _ _).bind fun _ => assigns _
  split
  · exact (Keeps.readLocal _ _ _).bind fun _ => assigns _
  split
  · exact (Keeps.readLocal _ _ _).bind fun _ => assigns _
  · exact EarlyExit.Keeps.exitIf _ _

private theorem expectBytes_keeps (sdk : Sdk) (expected : List UInt8) :
    (expectBytes sdk expected).Keeps fun scan =>
      scan.store.eraseTransfer :=
  (EarlyExit.Keeps.exitWhen _ _).bind fun _ =>
    (EarlyExit.Keeps.exitWhen _ _).bind fun _ =>
      EarlyExit.Keeps.assign fun _ => rfl

/-- Whether or not it succeeds, matching a call leaves the fields of the
transaction and the verdict alone. -/
theorem recogniseCall_keeps (sdk : Sdk) :
    (recogniseCall sdk).Keeps fun scan => scan.store.eraseTransfer := by
  have contract (hash : List UInt8) :
      (matchContract sdk hash).Keeps fun scan =>
        scan.store.eraseTransfer := by
    unfold matchContract
    split
    · exact fun _ => rfl
    · exact EarlyExit.Keeps.exitIf _ _
  have word : expectPushData20.Keeps fun scan =>
      scan.store.eraseTransfer :=
    (Keeps.readLocal _ _ _).bind fun _ => EarlyExit.Keeps.exitIf _ _
  refine (Keeps.readLocal _ _ _).bind fun _ =>
    (EarlyExit.Keeps.exitIf _ _).bind fun _ => ?_
  refine ((Keeps.readLocal _ _ _).bind parseAmount_keeps).bind fun _ =>
    word.bind fun _ => ?_
  have takes :
      (takeBytes uint160Len () : Recogniser (List UInt8)).Keeps fun scan =>
        scan.store.eraseTransfer :=
    (EarlyExit.Keeps.inspect _).bind fun _ =>
      (Keeps.seekCur _ _ _).bind fun _ => fun _ => rfl
  refine takes.bind fun _ =>
    EarlyExit.Keeps.bind (fun _ => rfl) fun _ =>
      word.bind fun _ => (Keeps.seekCur _ _ _).bind fun _ =>
        (expectBytes_keeps sdk _).bind fun _ => ?_
  refine EarlyExit.Keeps.bind ?_ fun _ => expectBytes_keeps sdk _
  exact
    (EarlyExit.Keeps.exitWhen _ _).bind fun _ =>
      (EarlyExit.Keeps.inspect _).bind fun _ =>
        (contract _).bind fun _ => EarlyExit.Keeps.assign fun _ => rfl

structure ScriptBuffer (script : Buffer) (tx : Transaction) : Prop where
  wf : script.Wf
  atStart : script.offset = 0
  size_eq : tx.scriptSize.toNat = script.size

/-- On a transfer script the recogniser records the transfer. -/
theorem tryParseTransferScript_of_format
    (sdk : Sdk) {script : Buffer} {tx : Transaction}
    (whole : ScriptBuffer script tx) {layout : TransferLayout}
    (format : TransferFormat 0 layout script.rest) :
    tryParseTransferScript sdk script tx =
      { writeTransfer sdk layout tx with isSystemAssetTransfer := true } := by
  have call :
      recogniseCall sdk ⟨script, tx⟩ =
        (.ok (),
          ⟨script.advance script.rest.length, writeTransfer sdk layout tx⟩) :=
    (recogniseCall_accepts sdk).complete whole.wf trivial trivial
      (by rwa [whole.atStart]) (List.prefix_refl _)
  have sameSize :
      (writeTransfer sdk layout tx).scriptSize = tx.scriptSize := by
    obtain ⟨_, _, _, _ | _⟩ := layout <;> rfl
  have atEnd :
      (script.advance script.rest.length).offset =
        (writeTransfer sdk layout tx).scriptSize.toNat := by
    rw [sameSize, whole.size_eq, Buffer.advance_offset, whole.wf.length_rest,
      whole.atStart]
    omega
  rw [tryParseTransferScript, recogniseTransfer, EarlyExit.bind_of_ok call]
  simp only [bind, EarlyExit.exitWhen, atEnd, bne_self_eq_false,
    Bool.false_eq_true, if_false]
  rfl

/-- On any other script it leaves the verdict and the fields alone. -/
theorem tryParseTransferScript_of_not_format
    (sdk : Sdk) {script : Buffer} {tx : Transaction}
    (whole : ScriptBuffer script tx)
    (noLayout : ¬ ∃ layout, TransferFormat 0 layout script.rest) :
    (tryParseTransferScript sdk script tx).eraseTransfer =
      tx.eraseTransfer := by
  have kept := recogniseCall_keeps sdk ⟨script, tx⟩
  rcases call : recogniseCall sdk ⟨script, tx⟩ with ⟨_ | _, scan⟩
  · rw [tryParseTransferScript, recogniseTransfer,
      EarlyExit.bind_of_error call]
    rw [call] at kept
    exact kept
  · obtain ⟨layout, encoding, format, isPrefix, _, rfl⟩ :=
      (recogniseCall_accepts sdk).sound whole.wf trivial call
    have notWhole : encoding.length ≠ script.rest.length := by
      intro sameLength
      rw [isPrefix.eq_of_length sameLength] at format
      exact noLayout ⟨layout, format⟩
    have sameSize :
        (writeTransfer sdk layout tx).scriptSize = tx.scriptSize := by
      obtain ⟨_, _, _, _ | _⟩ := layout <;> rfl
    have notAtEnd :
        (script.advance encoding.length).offset ≠
          (writeTransfer sdk layout tx).scriptSize.toNat := by
      rw [sameSize, whole.size_eq, Buffer.advance_offset, whole.atStart]
      have length := whole.wf.length_rest
      rw [whole.atStart] at length
      omega
    rw [tryParseTransferScript, recogniseTransfer, EarlyExit.bind_of_ok call]
    rw [call] at kept
    simp only [bind, EarlyExit.exitWhen, bne_iff_ne, ne_eq, notAtEnd,
      not_false_eq_true, if_true]
    exact kept

end Neo3App
