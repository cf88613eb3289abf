import Neo3App.Transaction.Layout
import Neo3App.Transaction.Transfer

/-!
# When a transaction is accepted

The status `PARSING_OK` in terms of the layouts of the bytes: from a cleared
record, and from a record that refused attempts on shorter data have left
behind.
-/

namespace Neo3App

open Neo3App.Lib
open Neo3App.Lib.EarlyExit

private theorem parseItems_exits
    (itemLen : Nat) (put : Nat → Ptr → Transaction → Transaction)
    {code : ParserStatus} (isError : code ≠ .parsingOk)
    (remaining j : Nat) :
    (parseItems itemLen put code remaining j).Exits (· ≠ .parsingOk) := by
  induction remaining generalizing j with
  | zero =>
      exact Exits.pure ()
  | succ remaining inductionHypothesis =>
      exact
        Exits.bind (Exits.assign _) fun _ =>
          Exits.bind (Exits.seekCur _ isError) fun _ =>
            inductionHypothesis (j + 1)

private theorem parseSubItems_exits
    (itemLen : Nat) (putSize : UInt8 → Transaction → Transaction)
    (put : Nat → Ptr → Transaction → Transaction)
    {lengthCode valueCode itemCode : ParserStatus}
    (lengthError : lengthCode ≠ .parsingOk)
    (valueError : valueCode ≠ .parsingOk)
    (itemError : itemCode ≠ .parsingOk) :
    (parseSubItems itemLen putSize put lengthCode valueCode itemCode).Exits
      (· ≠ .parsingOk) :=
  Exits.bind (Exits.readField _ _ lengthError) fun _ =>
    Exits.bind (Exits.exitIf _ valueError) fun _ =>
      Exits.bind (Exits.assign _) fun _ =>
        parseItems_exits itemLen put itemError _ 0

private theorem parseSignersFrom_exits
    (sdk : Sdk) (remaining i : Nat) :
    (parseSignersFrom sdk remaining i).Exits (· ≠ .parsingOk) := by
  induction remaining generalizing i with
  | zero =>
      exact Exits.pure ()
  | succ remaining inductionHypothesis =>
      refine Exits.bind ?_ fun _ => inductionHypothesis (i + 1)
      exact
        Exits.bind (Exits.assign _) fun _ =>
          Exits.bind (Exits.seekCur _ (by decide)) fun _ =>
            Exits.bind (Exits.exitWhen _ (by decide)) fun _ =>
              Exits.bind (Exits.readField _ _ (by decide)) fun _ =>
                Exits.bind (Exits.assign _) fun _ =>
                  Exits.bind (Exits.exitIf _ (by decide)) fun _ =>
                    Exits.bind
                      (Exits.runIf _
                        (parseSubItems_exits _ _ _ (by decide) (by decide)
                          (by decide)))
                      fun _ =>
                        Exits.runIf _
                          (parseSubItems_exits _ _ _ (by decide)
                            (by decide) (by decide))

private theorem parseAttributesFrom_exits (remaining i : Nat) :
    (parseAttributesFrom remaining i).Exits (· ≠ .parsingOk) := by
  induction remaining generalizing i with
  | zero =>
      exact Exits.pure ()
  | succ remaining inductionHypothesis =>
      exact
        Exits.bind (Exits.readField _ _ (by decide)) fun _ =>
          Exits.bind (Exits.exitIf _ (by decide)) fun _ =>
            Exits.bind (Exits.exitWhen _ (by decide)) fun _ =>
              Exits.bind (Exits.assign _) fun _ =>
                inductionHypothesis (i + 1)

private theorem parseHeader_exits :
    parseHeader.Exits (· ≠ .parsingOk) :=
  Exits.bind (Exits.readField _ _ (by decide)) fun _ =>
    Exits.bind (Exits.exitIf _ (by decide)) fun _ =>
      Exits.bind (Exits.readField _ _ (by decide)) fun _ =>
        Exits.bind (Exits.readField _ _ (by decide)) fun _ =>
          Exits.bind (Exits.exitIf _ (by decide)) fun _ =>
            Exits.bind (Exits.readField _ _ (by decide)) fun _ =>
              Exits.bind (Exits.exitIf _ (by decide)) fun _ =>
                Exits.bind (Exits.readField _ _ (by decide)) fun _ =>
                  Exits.pure ()

/-- A section that leaves does so with an error status. -/
theorem parseFields_exits (sdk : Sdk) :
    (parseFields sdk).Exits (· ≠ .parsingOk) := by
  refine
    Exits.bind parseHeader_exits fun _ =>
      Exits.bind ?_ fun _ => Exits.bind ?_ fun _ => ?_
  · exact
      Exits.bind (Exits.readField _ _ (by decide)) fun _ =>
        Exits.bind (Exits.exitIf _ (by decide)) fun _ =>
          Exits.bind (Exits.assign _) fun _ =>
            parseSignersFrom_exits sdk _ 0
  · exact
      Exits.bind (Exits.readField _ _ (by decide)) fun _ =>
        Exits.bind (Exits.exitIf _ (by decide)) fun _ =>
          Exits.bind (Exits.assign _) fun _ =>
            parseAttributesFrom_exits _ 0
  · exact
      Exits.bind (Exits.readField _ _ (by decide)) fun _ =>
        Exits.bind (Exits.assign _) fun _ =>
          Exits.bind (Exits.exitIf _ (by decide)) fun _ =>
            Exits.bind (Exits.seekCur _ (by decide)) fun _ =>
              Exits.assign _

/-- `transaction_deserialize` case by case. -/
theorem transactionDeserialize_cases
    (sdk : Sdk) (buf : Buffer) (tx : Transaction) :
    (maxTransactionLen < buf.size ∧
      transactionDeserialize sdk buf tx = (.invalidLengthError, tx)) ∨
    buf.size ≤ maxTransactionLen ∧
      ((∃ status scan, parseFields sdk ⟨buf, tx⟩ = (.error status, scan) ∧
          status ≠ .parsingOk ∧
          transactionDeserialize sdk buf tx = (status, scan.store)) ∨
        ∃ rest filled, parseFields sdk ⟨buf, tx⟩ = (.ok (), ⟨rest, filled⟩) ∧
          transactionDeserialize sdk buf tx =
            (if rest.offset = rest.size then .parsingOk
              else .invalidLengthError,
              tryParseTransferScript sdk (scriptBuffer ⟨rest, filled⟩)
                filled)) := by
  by_cases long : maxTransactionLen < buf.size
  · left
    have leaves : deserialize sdk ⟨buf, tx⟩ =
        (.error .invalidLengthError, ⟨buf, tx⟩) :=
      bind_of_error (by simp [exitWhen, long])
    refine ⟨long, ?_⟩
    rw [transactionDeserialize, leaves]
  · right
    have passes : exitWhen (fun scan : Scan Transaction =>
          decide (maxTransactionLen < scan.buf.size))
          ParserStatus.invalidLengthError ⟨buf, tx⟩ = (.ok (), ⟨buf, tx⟩) := by
      simp [exitWhen, long]
    refine ⟨Nat.le_of_not_lt long, ?_⟩
    rcases fields : parseFields sdk ⟨buf, tx⟩ with ⟨status | _, scan⟩
    · left
      refine ⟨status, scan, rfl, parseFields_exits sdk _ _ _ fields, ?_⟩
      have leaves : deserialize sdk ⟨buf, tx⟩ = (.error status, scan) :=
        (bind_of_ok passes).trans (bind_of_error fields)
      rw [transactionDeserialize, leaves]
    · right
      refine ⟨scan.buf, scan.store, rfl, ?_⟩
      have continues : deserialize sdk ⟨buf, tx⟩ = _ :=
        (bind_of_ok passes).trans (bind_of_ok fields)
      rw [transactionDeserialize, continues]
      by_cases whole : scan.buf.offset = scan.buf.size
      · rw [if_pos whole, bind_of_ok (assign_apply _ _)]
        simp [exitWhen, whole]
      · rw [if_neg whole, bind_of_ok (assign_apply _ _)]
        simp [exitWhen, whole]

/-- The script is the end of the encoding. -/
theorem FieldsFormat.script_suffix
    {offset : Nat} {layout : TransactionLayout} {encoding : List UInt8}
    (format : FieldsFormat offset layout encoding) :
    (1 ≤ layout.script.bytes.length ∧
      layout.script.bytes.length ≤ 0xFFFF) ∧
      ∃ head, encoding = head ++ layout.script.bytes ∧
        layout.script.position = offset + head.length := by
  obtain ⟨header, signers, attributes, _, rfl, _, _, _,
    some, few, count, _, rfl, here⟩ := format
  refine ⟨⟨some, few⟩, header ++ (signers ++ (attributes ++ count)), ?_, ?_⟩
  · simp only [List.append_assoc]
  · rw [here]
    simp only [List.length_append]
    omega

/-- After the fields the script buffer is the script slice. -/
theorem scriptBuffer_of_fields
    {buf : Buffer} {layout : TransactionLayout}
    {encoding : List UInt8} (tx : Transaction)
    (format : FieldsFormat buf.offset layout encoding)
    (isPrefix : encoding <+: buf.rest) :
    let scan : Scan Transaction :=
      ⟨buf.advance encoding.length, writeFields layout tx⟩
    ScriptBuffer (scriptBuffer scan) scan.store ∧
      (scriptBuffer scan).rest = layout.script.bytes := by
  intro scan
  obtain ⟨⟨_, few⟩, head, split, here⟩ := format.script_suffix
  obtain ⟨beyond, memory⟩ := isPrefix.trans buf.rest_prefix
  have size :
      (UInt16.ofNat layout.script.bytes.length).toNat =
        layout.script.bytes.length := by
    rw [UInt16.toNat_ofNat']
    omega
  have pointer : buf.ptr.drop layout.script.position =
      layout.script.bytes ++ beyond := by
    rw [here, ← List.drop_drop, ← memory, split, List.append_assoc,
      List.drop_left]
  have same : scriptBuffer scan =
      ⟨layout.script.bytes ++ beyond, layout.script.bytes.length, 0⟩ := by
    rw [← pointer, ← size]
    rfl
  rw [same]
  refine ⟨⟨⟨Nat.zero_le _, ?_, ?_⟩, rfl, size⟩, ?_⟩
  · simp
  · change layout.script.bytes.length < sizeModulus
    unfold sizeModulus
    omega
  · simp [Buffer.rest]

/-- The input of the parser: a whole buffer of acceptable length. -/
structure InputBuffer (buf : Buffer) : Prop where
  atStart : buf.offset = 0
  size_le : buf.size ≤ buf.ptr.length
  short : buf.size ≤ maxTransactionLen

theorem InputBuffer.wf {buf : Buffer} (input : InputBuffer buf) : buf.Wf where
  offset_le := by
    rw [input.atStart]
    exact Nat.zero_le _
  size_le := input.size_le
  size_lt := by
    have short := input.short
    unfold maxTransactionLen at short
    unfold sizeModulus
    omega

theorem InputBuffer.length_rest {buf : Buffer} (input : InputBuffer buf) :
    buf.rest.length = buf.size := by
  rw [input.wf.length_rest, input.atStart, Nat.sub_zero]

/-- The input of the parser over the whole of `b`. -/
theorem InputBuffer.whole {b : List UInt8} (short : b.length ≤ 1024) :
    InputBuffer ⟨b, b.length, 0⟩ :=
  ⟨rfl, Nat.le_refl _, short⟩

theorem rest_whole (b : List UInt8) :
    Buffer.rest ⟨b, b.length, 0⟩ = b := by
  simp [Buffer.rest]

theorem transactionDeserialize_of_error
    (sdk : Sdk) {buf : Buffer} (input : InputBuffer buf) {tx : Transaction}
    {status : ParserStatus} {scan : Scan Transaction}
    (failed : parseFields sdk ⟨buf, tx⟩ = (.error status, scan)) :
    (transactionDeserialize sdk buf tx).1 = status := by
  rcases transactionDeserialize_cases sdk buf tx with
    ⟨long, _⟩ | ⟨_, ⟨_, _, run, _, left⟩ | ⟨_, _, run, _⟩⟩
  · exact absurd input.short (Nat.not_le.mpr long)
  · rw [failed] at run
    cases run
    rw [left]
  · rw [failed] at run
    cases run

theorem transactionDeserialize_of_long
    (sdk : Sdk) {buf : Buffer} (long : maxTransactionLen < buf.size)
    (tx : Transaction) :
    transactionDeserialize sdk buf tx = (.invalidLengthError, tx) := by
  rcases transactionDeserialize_cases sdk buf tx with ⟨_, left⟩ | ⟨short, _⟩
  · exact left
  · exact absurd long (Nat.not_lt.mpr short)

theorem size_le_of_parsed
    {sdk : Sdk} {buf : Buffer} {tx after : Transaction}
    (parsed : transactionDeserialize sdk buf tx = (.parsingOk, after)) :
    buf.size ≤ maxTransactionLen := by
  rcases transactionDeserialize_cases sdk buf tx with
    ⟨_, refused⟩ | ⟨short, _⟩
  · rw [parsed] at refused
    cases refused
  · exact short

/-- A record into which the layouts of every input that starts with `bytes`
would be stored as into a cleared one. -/
def Resumable (bytes : List UInt8) (tx : Transaction) : Prop :=
  ∀ {layout : TransactionLayout} {more : List UInt8}, more ≠ [] →
    FieldsFormat 0 layout (bytes ++ more) →
      writeFields layout tx = writeFields layout Transaction.zero

theorem Resumable.zero (bytes : List UInt8) :
    Resumable bytes Transaction.zero :=
  fun _ _ => rfl

theorem Resumable.append
    {bytes : List UInt8} {tx : Transaction}
    (resumable : Resumable bytes tx) (more : List UInt8) :
    Resumable (bytes ++ more) tx := by
  intro layout rest nonempty format
  rw [List.append_assoc] at format
  exact resumable (by simp [nonempty]) format

/-- What an accepted input stores. -/
theorem transactionDeserialize_eq_ok
    (sdk : Sdk) {buf : Buffer} (input : InputBuffer buf)
    {tx after : Transaction}
    (run : transactionDeserialize sdk buf tx = (.parsingOk, after)) :
    ∃ layout, FieldsFormat 0 layout buf.rest ∧
      after =
        tryParseTransferScript sdk
          (scriptBuffer
            ⟨buf.advance buf.rest.length, writeFields layout tx⟩)
          (writeFields layout tx) := by
  rcases transactionDeserialize_cases sdk buf tx with
    ⟨long, _⟩ | ⟨_, ⟨status, scan, _, isError, left⟩ |
      ⟨_, _, fields, left⟩⟩
  · exact absurd input.short (Nat.not_le.mpr long)
  · rw [run] at left
    cases left
    exact absurd rfl isError
  · obtain ⟨layout, encoding, format, isPrefix, _, reached⟩ :=
      (parseFields_accepts sdk).sound input.wf trivial fields
    cases reached
    rw [input.atStart] at format
    rw [run, Prod.mk.injEq] at left
    obtain ⟨accepted, stored⟩ := left
    split at accepted
    next whole =>
      have sameLength : encoding.length = buf.rest.length := by
        rw [input.length_rest, ← Buffer.advance_size buf encoding.length,
          ← whole, Buffer.advance_offset, input.atStart, Nat.zero_add]
      have same := isPrefix.eq_of_length sameLength
      subst same
      exact ⟨layout, format, stored⟩
    next =>
      cases accepted

/-- The parser accepts every formatted input from a record without a stale
attribute. -/
theorem transactionDeserialize_of_format
    (sdk : Sdk) {buf : Buffer} (input : InputBuffer buf) {tx : Transaction}
    (isClear : AttributesClear tx) {layout : TransactionLayout}
    (format : FieldsFormat 0 layout buf.rest) :
    transactionDeserialize sdk buf tx =
      (.parsingOk,
        tryParseTransferScript sdk
          (scriptBuffer
            ⟨buf.advance buf.rest.length, writeFields layout tx⟩)
          (writeFields layout tx)) := by
  have fields :
      parseFields sdk ⟨buf, tx⟩ =
        (.ok (), ⟨buf.advance buf.rest.length, writeFields layout tx⟩) :=
    (parseFields_accepts sdk).complete input.wf trivial isClear
      (by rwa [input.atStart]) (List.prefix_refl _)
  have whole : (buf.advance buf.rest.length).offset =
      (buf.advance buf.rest.length).size := by
    rw [Buffer.advance_offset, Buffer.advance_size, input.atStart,
      input.length_rest, Nat.zero_add]
  rcases transactionDeserialize_cases sdk buf tx with
    ⟨long, _⟩ | ⟨_, ⟨status, scan, failed, _⟩ | ⟨_, _, ran, left⟩⟩
  · exact absurd input.short (Nat.not_le.mpr long)
  · rw [fields] at failed
    cases failed
  · rw [fields] at ran
    cases ran
    rw [left, if_pos whole]

theorem attributesClear_zero : AttributesClear Transaction.zero := by
  intro j
  unfold slot Transaction.zero
  have differs : (default : UInt8) ≠ highPriority ∧ 0 ≠ highPriority := by
    decide
  by_cases inside : j < maxAttributes
  · simp [inside, differs.2]
  · simp [inside, differs.1]

/-- A later attempt that is accepted leaves what the same attempt on a
cleared record leaves. -/
theorem Resumable.transactionDeserialize_ok
    (sdk : Sdk) {buf : Buffer} (input : InputBuffer buf)
    {bytes more : List UInt8} {tx after : Transaction}
    (resumable : Resumable bytes tx) (nonempty : more ≠ [])
    (rest : buf.rest = bytes ++ more)
    (run : transactionDeserialize sdk buf tx = (.parsingOk, after)) :
    transactionDeserialize sdk buf Transaction.zero =
      (.parsingOk, after) := by
  obtain ⟨layout, format, stored⟩ :=
    transactionDeserialize_eq_ok sdk input run
  have resumed : FieldsFormat 0 layout (bytes ++ more) := rest ▸ format
  rw [transactionDeserialize_of_format sdk input attributesClear_zero format,
    stored, resumable nonempty resumed]

/-- Any attempt leaves a record that can be resumed. -/
theorem Resumable.transactionDeserialize
    (sdk : Sdk) {buf : Buffer} (input : InputBuffer buf)
    {bytes more : List UInt8} {tx : Transaction}
    (resumable : Resumable bytes tx) (nonempty : more ≠ [])
    (rest : buf.rest = bytes ++ more) :
    Resumable buf.rest (transactionDeserialize sdk buf tx).2 := by
  intro layout further furtherNonempty format
  rcases transactionDeserialize_cases sdk buf tx with
    ⟨long, _⟩ | ⟨_, ⟨status, scan, failed, _, left⟩ | ⟨_, _, ran, _⟩⟩
  · exact absurd input.short (Nat.not_le.mpr long)
  · have absorbed :=
      (parseFields_accepts sdk).stale input.wf trivial failed
        (by rwa [input.atStart]) (Or.inr (List.prefix_append _ _))
    have untouched :
        writeFields layout tx = writeFields layout Transaction.zero := by
      rw [rest, List.append_assoc] at format
      exact resumable (by simp [nonempty]) format
    rw [left]
    exact absorbed.trans untouched
  · obtain ⟨other, encoding, otherFormat, isPrefix, _⟩ :=
      (parseFields_accepts sdk).sound input.wf trivial ran
    rw [input.atStart] at otherFormat
    obtain ⟨_, same⟩ :=
      (parseFields_accepts sdk).unique otherFormat format
        (isPrefix.trans (List.prefix_append _ _))
    have tooLong : encoding.length ≤ buf.rest.length := isPrefix.length_le
    rw [same, List.length_append] at tooLong
    have positive := List.length_pos_iff.mpr furtherNonempty
    omega

end Neo3App
