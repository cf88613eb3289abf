import Neo3App.Transaction.Accepted
import Neo3App.Ui.Review

/-!
# The reviewed amount

The amount recorded and shown for a transfer, compared with the integer that
the push instruction of its script places on the stack of the virtual
machine.  They agree exactly when that integer is not negative.
-/

namespace Neo3App

open Neo3App.Lib

/-- Little-endian bytes in two's complement. -/
def leInt (bytes : List UInt8) : Int :=
  if 2 * leNat bytes < 2 ^ (8 * bytes.length) then leNat bytes
  else leNat bytes - 2 ^ (8 * bytes.length)

/-- The integer that the virtual machine pushes for the instruction at the
start of `code`. -/
def pushedInteger : List UInt8 → Option Int
  | [] => none
  | op :: operand =>
      if 0x10 ≤ op ∧ op ≤ 0x20 then some (op.toNat - 0x10)
      else if op = 0x00 then some (leInt (operand.take 1))
      else if op = 0x01 then some (leInt (operand.take 2))
      else if op = 0x02 then some (leInt (operand.take 4))
      else if op = 0x03 then some (leInt (operand.take 8))
      else none

/-- The number on a screen whose text starts with the name of the token. -/
def shownNumber (text : List Char) : Option ℚ :=
  numberValue (text.drop 4)

/-- The application records and shows the amount `n`. -/
structure ShowsAmount (tx : Transaction) (text : List Char) (n : Int) :
    Prop where
  recorded : tx.amount.toInt = n
  shown : shownNumber text = some (if tx.isNeo then (n : ℚ) else n / 10 ^ 8)

theorem leInt_leBytes
    {count value : Nat} (bound : value < 256 ^ count) :
    leInt (leBytes count value) =
      if 2 * value < 2 ^ (8 * count) then (value : Int)
      else value - 2 ^ (8 * count) := by
  rw [leInt, leNat_leBytes bound, length_leBytes]

private theorem pushedInteger_small (value : Fin 17) (rest : List UInt8) :
    pushedInteger ((0x10 + UInt8.ofNat value.val) :: rest) =
      some (value.val : Int) := by
  rw [pushedInteger, if_pos (smallOp_range value)]
  revert value
  decide

/-- An operand is read as a signed number. -/
private theorem leInt_operand
    {count value : Nat} (bound : value < 256 ^ count) (rest : List UInt8)
    {signed : Int}
    (isSigned :
      signed =
        if 2 * value < 2 ^ (8 * count) then (value : Int)
        else value - 2 ^ (8 * count)) :
    some (leInt ((leBytes count value ++ rest).take count)) = some signed := by
  rw [List.take_left' (length_leBytes count value), leInt_leBytes bound,
    isSigned]

/-- The operands are signed. -/
theorem pushedInteger_encode (push : Push) (rest : List UInt8) :
    pushedInteger (push.encode ++ rest) = some push.value := by
  cases push with
  | small value =>
      exact pushedInteger_small value rest
  | int8 value =>
      have single :
          value.toUInt8 :: rest =
            leBytes 1 value.toUInt8.toNat ++ rest := by
        simp [leBytes]
      change some (leInt ((value.toUInt8 :: rest).take 1)) = some value.toInt
      rw [single]
      exact
        leInt_operand value.toUInt8.toNat_lt rest
          (BitVec.toInt_eq_toNat_cond value.toBitVec)
  | int16 value =>
      exact
        leInt_operand value.toUInt16.toNat_lt rest
          (BitVec.toInt_eq_toNat_cond value.toBitVec)
  | int32 value =>
      exact
        leInt_operand value.toUInt32.toNat_lt rest
          (BitVec.toInt_eq_toNat_cond value.toBitVec)
  | int64 value =>
      exact
        leInt_operand value.toUInt64.toNat_lt rest
          (BitVec.toInt_eq_toNat_cond value.toBitVec)

private theorem toInt_toUInt64 (value : UInt8) :
    value.toUInt64.toInt64.toInt = value.toNat := by
  have signed :=
    BitVec.toInt_eq_toNat_cond value.toUInt64.toInt64.toBitVec
  change value.toUInt64.toInt64.toInt = _ at signed
  have small := value.toNat_lt
  have bits : value.toUInt64.toInt64.toBitVec.toNat = value.toNat :=
    UInt8.toNat_toUInt64 value
  rw [signed, bits, if_pos (by omega)]

/-- An amount that is not negative is recorded as it is. -/
theorem Push.amount_toInt {push : Push} (nonneg : 0 ≤ push.value) :
    push.amount.toInt = push.value := by
  cases push with
  | small value =>
      clear nonneg
      revert value
      decide
  | int8 value =>
      have signed := BitVec.toInt_eq_toNat_cond value.toBitVec
      change value.toInt = _ at signed
      change 0 ≤ value.toInt at nonneg
      change value.toUInt8.toUInt64.toInt64.toInt = value.toInt
      have small := value.toUInt8.toNat_lt
      rw [toInt_toUInt64]
      change value.toBitVec.toNat < _ at small
      change (value.toBitVec.toNat : Int) = _
      omega
  | int16 value =>
      exact Int16.toInt_toInt64 value
  | int32 value =>
      exact Int32.toInt_toInt64 value
  | int64 value =>
      rfl

theorem toNat_toUInt64_of_nonneg
    {value : Int64} (nonneg : 0 ≤ value.toInt) :
    (value.toUInt64.toNat : Int) = value.toInt := by
  have signed := BitVec.toInt_eq_toNat_cond value.toBitVec
  change value.toInt = _ at signed
  have small := value.toUInt64.toNat_lt
  change value.toBitVec.toNat < _ at small
  change (value.toBitVec.toNat : Int) = _
  omega

theorem shownNumber_tokenAmountText (tx : Transaction) :
    shownNumber (tokenAmountText tx) =
      some ((tx.amount.toUInt64.toNat : ℚ) / 10 ^ tx.decimals) := by
  have number :
      (tokenAmountText tx).drop 4 =
        fixedDecimal tx.decimals tx.amount.toUInt64.toNat := by
    unfold tokenAmountText
    split <;> rfl
  rw [shownNumber, number, numberValue_fixedDecimal]

/-- The amount is recorded and shown as the push instruction means it
exactly when it is not negative. -/
theorem showsAmount_iff
    {tx : Transaction} {push : Push} (amount : tx.amount = push.amount) :
    ShowsAmount tx (tokenAmountText tx) push.value ↔ 0 ≤ push.value := by
  have scaled :
      (if tx.isNeo then (push.value : ℚ) else push.value / 10 ^ 8) =
        (push.value : ℚ) / 10 ^ tx.decimals := by
    unfold Transaction.decimals
    split
    · rw [pow_zero, div_one]
    · rfl
  have nonzero : (10 : ℚ) ^ tx.decimals ≠ 0 :=
    pow_ne_zero _ (by norm_num)
  constructor
  · intro shows
    have number := shows.shown
    rw [shownNumber_tokenAmountText, scaled, Option.some.injEq,
      div_left_inj' nonzero] at number
    have same : (tx.amount.toUInt64.toNat : Int) = push.value := by
      exact_mod_cast number
    omega
  · intro nonneg
    have recorded : tx.amount.toInt = push.value := by
      rw [amount]
      exact Push.amount_toInt nonneg
    have printed := toNat_toUInt64_of_nonneg (show 0 ≤ tx.amount.toInt by omega)
    refine ⟨recorded, ?_⟩
    rw [shownNumber_tokenAmountText, scaled, ← recorded, ← printed]
    rfl

/-- The amount of an accepted transfer is recorded and shown in its review as
the virtual machine pushes it exactly when it is not negative. -/
theorem reviewedAmount_iff
    (sdk : Sdk) (b : List UInt8) (tx : Transaction)
    (accepted : AcceptedTransfer sdk b tx) (app : App)
    (isTransaction : app.context.reqType = .confirmTransaction)
    (isParsed : app.context.state = .parsed)
    (reviewed : app.context.transaction = tx) :
    ∃ n, pushedInteger
          ((deref b tx.scriptSize.toNat tx.script).drop 1) = some n ∧
      (ShowsAmount tx (uiDisplayTransaction app).1.ui.text n ↔ 0 ≤ n) := by
  rcases accepted.decoded with
    ⟨layout, transfer, _, ⟨_, _, script⟩, decoded, amount, _⟩
  refine ⟨transfer.push.value, ?_, ?_⟩
  · rw [decoded.script]
    change pushedInteger (layout.script.bytes.drop 1) = _
    rw [script]
    exact pushedInteger_encode _ _
  · have isTransfer : app.context.transaction.isSystemAssetTransfer = true :=
      reviewed ▸ accepted.isTransfer
    rw [uiDisplayTransaction_eq isTransaction isParsed,
      reviewUi_text _ isTransfer, reviewed]
    exact showsAmount_iff amount

def parsedContext (tx : Transaction) : GlobalCtx :=
  { GlobalCtx.zero with
    transaction := tx
    reqType := .confirmTransaction
    state := .parsed }

theorem parsedContext_transaction (tx : Transaction) :
    (parsedContext tx).transaction = tx :=
  rfl

theorem reviewedAmount_iff_oneNeo :
    ∃ n, pushedInteger
          ((deref oneNeoTransaction oneNeo.scriptSize.toNat
            oneNeo.script).drop 1) = some n ∧
      (ShowsAmount oneNeo
          (uiDisplayTransaction
            ⟨parsedContext oneNeo, Ui.initial⟩).1.ui.text n ↔ 0 ≤ n) :=
  reviewedAmount_iff Sdk.constant oneNeoTransaction oneNeo
    acceptedTransfer_oneNeo ⟨parsedContext oneNeo, Ui.initial⟩ rfl rfl
    (parsedContext_transaction oneNeo)

/-- A transfer of NEO whose amount is pushed by `PUSHINT8 0xFF`. -/
def minusOneTransaction : List UInt8 :=
  plainTransaction
    (transferScript [0x00, 0xFF] (List.replicate 20 0x01)
      (List.replicate 20 0x02) neoScriptHash)

def minusOne : Transaction :=
  (parsedTransaction minusOneTransaction).2

/-- The virtual machine pushes -1, and the application records 255. -/
theorem not_showsAmount_minusOne :
    AcceptedTransfer Sdk.constant minusOneTransaction minusOne ∧
      ¬ ∃ n, pushedInteger
            ((deref minusOneTransaction minusOne.scriptSize.toNat
              minusOne.script).drop 1) = some n ∧
          ShowsAmount minusOne
            (uiDisplayTransaction
              ⟨parsedContext minusOne, Ui.initial⟩).1.ui.text n := by
  have pushed :
      pushedInteger
          ((deref minusOneTransaction minusOne.scriptSize.toNat
            minusOne.script).drop 1) = some (-1) := by
    decide +kernel
  have recorded : minusOne.amount.toInt = 255 := by
    decide +kernel
  refine ⟨.of_parsed (by decide +kernel) (by decide +kernel), ?_⟩
  rintro ⟨n, isPushed, shows⟩
  rw [pushed, Option.some.injEq] at isPushed
  have same := shows.recorded
  rw [recorded, ← isPushed] at same
  omega

end Neo3App
