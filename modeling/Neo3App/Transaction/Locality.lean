import Neo3App.Transaction.Attempts

/-!
# The parser sees only its bytes

Parsing does not depend on the memory behind the bytes: two buffers with the
same bytes give the same status and the same record, also where the script is
not a transfer and the recogniser has stored a part of one.
-/

namespace Neo3App

open Neo3App.Lib
open Neo3App.Lib.EarlyExit

variable {size : Nat}

/-- A part of the recogniser, run on the same bytes with the same record. -/
abbrev SameRun (size : Nat) {α : Type} (body : Recogniser α) : Prop :=
  Agree (Paired size Eq) (Paired size Eq) (fun _ => Paired size Eq) body body

/-- The record is the same and `count` bytes are left. -/
def PairedWith (size count : Nat) (first second : Scan Transaction) : Prop :=
  Paired size Eq first second ∧ count ≤ first.buf.rest.length

theorem peek_same
    {count : Nat} {first second : Scan Transaction}
    (both : PairedWith size count first second) :
    peek first count = peek second count := by
  have wf := both.1.1.firstWf
  have rest := wf.length_rest
  have offset := wf.offset_le
  have firstSize := both.1.1.firstSize
  have available := both.2
  have inside : first.buf.offset + count ≤ size := by omega
  have same := both.1.1.deref inside
  unfold peek
  rw [← both.1.1.offset]
  exact same

theorem SameRun.readLocal
    {α : Type} {read : Buffer → Read α} {format : α → List UInt8 → Prop}
    {zero : α} (reads : ReadsBytes read format zero) :
    SameRun size (readLocal read ()) :=
  Agree.readLocal reads () fun equal => equal

theorem SameRun.assignField (put : Transaction → Transaction) :
    SameRun size (assignField put : Recogniser Unit) :=
  Agree.assignField fun equal => congrArg put equal

theorem SameRun.seekCur
    {length : Nat} (small : length < sizeModulus) :
    SameRun size (seekCur length () : Recogniser Unit) :=
  Agree.seekCur small () fun equal => equal

theorem SameRun.exitIf (condition : Prop) [Decidable condition] :
    SameRun size (exitIf condition () : Recogniser Unit) :=
  Agree.exitIf condition () (fun both => both) fun both => both

theorem SameRun.bind
    {α β : Type} {first : Recogniser α} {next : α → Recogniser β}
    (head : SameRun size first) (tail : ∀ value, SameRun size (next value)) :
    SameRun size (first >>= next) :=
  Agree.bind _ head tail

/-- The bytes of a pointer count only where they are then skipped. -/
theorem takeBytes_same
    {length : Nat} (small : length < sizeModulus) :
    SameRun size (takeBytes length () : Recogniser (List UInt8)) := by
  refine ⟨?_⟩
  rintro ⟨first, tx⟩ ⟨second, tx'⟩ ⟨same, equal⟩
  have looks (scan : Scan Transaction) :
      takeBytes length () scan =
        (seekCur length () >>= fun _ => pure (peek scan length) :
          Recogniser (List UInt8)) scan :=
    bind_of_ok (inspect_apply _ scan)
  rw [looks, looks]
  by_cases available : length ≤ first.rest.length
  · have peeked :
        peek ⟨first, tx⟩ length = peek ⟨second, tx'⟩ length :=
      peek_same ⟨⟨same, equal⟩, available⟩
    rw [bind_of_ok (seekCur_of_le same.firstWf available),
      bind_of_ok (seekCur_of_le same.secondWf (same.rest ▸ available)),
      peeked]
    exact .ok ⟨same.advance available, equal⟩
  · have missing := Nat.lt_of_not_le available
    rw [bind_of_error (seekCur_of_lt same.firstWf missing small),
      bind_of_error
        (seekCur_of_lt same.secondWf (same.rest ▸ missing) small)]
    exact .error ⟨same, equal⟩

/-- `buffer_can_read`: what follows may look at the bytes. -/
theorem canRead_same (count : Nat) :
    Agree (Paired size Eq) (Paired size Eq)
      (fun _ => PairedWith size count)
      (exitWhen (fun scan => !bufferCanRead scan.buf count) () :
        Recogniser Unit)
      (exitWhen (fun scan => !bufferCanRead scan.buf count) ()) := by
  have reads {buffer : Buffer} (wf : buffer.Wf) :
      bufferCanRead buffer count = decide (count ≤ buffer.rest.length) := by
    rw [Bool.eq_iff_iff, wf.canRead_iff, decide_eq_true_iff]
  apply Agree.exitWhen
  · intro first second both
    rw [reads both.1.firstWf, reads both.1.secondWf, both.1.rest]
  · exact fun both => both
  · intro first second passed both
    rw [reads both.1.firstWf] at passed
    exact ⟨both, by simpa using passed⟩

/-- The bytes looked at are skipped. -/
theorem skip_same (count : Nat) :
    Agree (PairedWith size count) (Paired size Eq) (fun _ => Paired size Eq)
      (EarlyExit.assign fun scan =>
        { scan with buf := (bufferSeekCur scan.buf count).2 } :
        Recogniser Unit)
      (EarlyExit.assign fun scan =>
        { scan with buf := (bufferSeekCur scan.buf count).2 }) := by
  apply Agree.assign
  rintro ⟨first, tx⟩ ⟨second, tx'⟩ ⟨⟨same, equal⟩, available⟩
  have first' := same.firstWf.seekCur_of_le available
  have second' := same.secondWf.seekCur_of_le (same.rest ▸ available)
  refine ⟨?_, equal⟩
  simp only [first', second']
  exact same.advance available

theorem expectBytes_same (sdk : Sdk) (expected : List UInt8) :
    SameRun size (expectBytes sdk expected) := by
  refine Agree.bind _ (canRead_same _) fun _ => ?_
  refine
    Agree.bind (fun _ => PairedWith size expected.length)
      (Agree.exitWhen _ ?_ ?_ ?_) fun _ => skip_same _
  · intro first second both
    rw [peek_same both]
  · exact fun both => both.1
  · exact fun _ both => both

theorem matchContract_same (sdk : Sdk) (count : Nat) (hash : List UInt8) :
    Agree (PairedWith size count) (Paired size Eq)
      (fun _ => PairedWith size count) (matchContract sdk hash)
      (matchContract sdk hash) := by
  unfold matchContract
  split
  · apply Agree.assign
    rintro first second ⟨⟨same, equal⟩, available⟩
    exact ⟨⟨same, congrArg Transaction.setNeo equal⟩, available⟩
  · exact Agree.exitIf _ () (fun both => both.1) fun both => both

theorem parseContract_same (sdk : Sdk) :
    SameRun size (parseContract sdk) := by
  refine Agree.bind _ (canRead_same _) fun _ => ?_
  refine Agree.bind _ (Agree.inspect peek_same) fun hash => ?_
  exact Agree.bind _ (matchContract_same sdk _ hash) fun _ => skip_same _

theorem parseAmount_same (op : UInt8) :
    SameRun size (parseAmount op) := by
  have operand {α : Type} {read : Buffer → Read α}
      {format : α → List UInt8 → Prop} {zero : α}
      (reads : ReadsBytes read format zero) (amount : α → Int64) :
      SameRun size
        (readLocal read () >>= fun value =>
          assignField fun tx => { tx with amount := amount value }) :=
    SameRun.bind (SameRun.readLocal reads) fun _ => SameRun.assignField _
  unfold parseAmount
  split
  · exact SameRun.assignField _
  split
  · exact operand readsBytes_s8 _
  split
  · exact operand readsBytes_s16_le _
  split
  · exact operand readsBytes_s32_le _
  split
  · exact operand readsBytes_s64_le _
  · exact SameRun.exitIf True

theorem expectPushData20_same :
    SameRun size expectPushData20 :=
  SameRun.bind (SameRun.readLocal readsBytes_u16_be)
    fun _ => SameRun.exitIf _

theorem recogniseCall_same (sdk : Sdk) :
    SameRun size (recogniseCall sdk) := by
  refine SameRun.bind (SameRun.readLocal readsBytes_u8) fun _ => ?_
  refine SameRun.bind (SameRun.exitIf _) fun _ => ?_
  refine
    SameRun.bind
      (SameRun.bind (SameRun.readLocal readsBytes_u8) parseAmount_same)
      fun _ => ?_
  refine SameRun.bind expectPushData20_same fun _ => ?_
  refine SameRun.bind (takeBytes_same (by decide)) fun _ => ?_
  refine SameRun.bind (SameRun.assignField _) fun _ => ?_
  refine SameRun.bind expectPushData20_same fun _ => ?_
  refine SameRun.bind (SameRun.seekCur (by decide)) fun _ => ?_
  refine SameRun.bind (expectBytes_same sdk _) fun _ => ?_
  refine SameRun.bind (parseContract_same sdk) fun _ => ?_
  exact expectBytes_same sdk _

theorem recogniseTransfer_same (sdk : Sdk) :
    SameRun size (recogniseTransfer sdk) := by
  refine SameRun.bind (recogniseCall_same sdk) fun _ => ?_
  refine SameRun.bind ?_ fun _ => SameRun.assignField _
  apply Agree.exitWhen
  · intro first second both
    rw [both.1.offset, both.2]
  · exact fun both => both
  · exact fun _ both => both

theorem tryParseTransferScript_same
    (sdk : Sdk) {first second : Buffer}
    (same : SameInput size first second) (tx : Transaction) :
    tryParseTransferScript sdk first tx =
      tryParseTransferScript sdk second tx := by
  have outcome :=
    (recogniseTransfer_same sdk).run
      (show Paired size Eq ⟨first, tx⟩ ⟨second, tx⟩ from ⟨same, rfl⟩)
  unfold tryParseTransferScript
  generalize recogniseTransfer sdk ⟨first, tx⟩ = result at outcome ⊢
  generalize recogniseTransfer sdk ⟨second, tx⟩ = other at outcome ⊢
  cases outcome with
  | ok related => exact related.2
  | error related => exact related.2

/-- The slices of an accepted script. -/
theorem scriptBuffer_same
    (sdk : Sdk) {first second rest rest' : Buffer} {tx filled : Transaction}
    (firstInput : InputBuffer first) (secondInput : InputBuffer second)
    (same : first.rest = second.rest)
    (firstRun : parseFields sdk ⟨first, tx⟩ = (.ok (), ⟨rest, filled⟩))
    (secondRun : parseFields sdk ⟨second, tx⟩ = (.ok (), ⟨rest', filled⟩)) :
    SameInput filled.scriptSize.toNat (scriptBuffer ⟨rest, filled⟩)
      (scriptBuffer ⟨rest', filled⟩) := by
  obtain ⟨layout, encoding, format, isPrefix, _, reached⟩ :=
    (parseFields_accepts sdk).sound firstInput.wf trivial firstRun
  obtain ⟨layout', encoding', format', isPrefix', _, reached'⟩ :=
    (parseFields_accepts sdk).sound secondInput.wf trivial secondRun
  have bases : first.offset = second.offset :=
    firstInput.atStart.trans secondInput.atStart.symm
  obtain ⟨sameLayout, sameEncoding⟩ :=
    (parseFields_accepts sdk).unique_of_compatible format
      (bases ▸ format') isPrefix (Or.inl (same ▸ isPrefix'))
  subst sameLayout
  have firstScript := scriptBuffer_of_fields tx format isPrefix
  have secondScript := scriptBuffer_of_fields tx format' isPrefix'
  rw [← reached] at firstScript
  rw [← reached'] at secondScript
  refine
    ⟨firstScript.1.wf, secondScript.1.wf, rfl, rfl, rfl, ?_⟩
  have bytes := firstScript.2.trans secondScript.2.symm
  exact bytes

/-- Two buffers with the same bytes are parsed alike. -/
theorem transactionDeserialize_same
    (sdk : Sdk) {first second : Buffer} (firstInput : InputBuffer first)
    (secondInput : InputBuffer second) (same : first.rest = second.rest)
    (tx : Transaction) :
    transactionDeserialize sdk first tx =
      transactionDeserialize sdk second tx := by
  have input := SameInput.of_input firstInput secondInput same
  have alike : Alike True first.size 0 tx tx :=
    ⟨fun _ => rfl, fun _ => Iff.rfl,
      fun s early => absurd early (Nat.not_lt_zero s)⟩
  have outcome :=
    (parseFields_agree sdk).run
      (show Paired first.size (Alike True first.size 0) ⟨first, tx⟩
        ⟨second, tx⟩ from ⟨input, alike⟩)
  rcases transactionDeserialize_cases sdk first tx with
    ⟨long, _⟩ | ⟨_, ⟨status, scan, failed, _, left⟩ |
      ⟨rest, filled, ran, left⟩⟩
  · exact absurd firstInput.short (Nat.not_le.mpr long)
  · rcases transactionDeserialize_cases sdk second tx with
      ⟨long, _⟩ | ⟨_, ⟨status', scan', failed', _, left'⟩ |
        ⟨rest', filled', ran', left'⟩⟩
    · exact absurd secondInput.short (Nat.not_le.mpr long)
    · rw [failed, failed'] at outcome
      cases outcome with
      | error related => rw [left, left', related.2 trivial]
    · rw [failed, ran'] at outcome
      cases outcome
  · rcases transactionDeserialize_cases sdk second tx with
      ⟨long, _⟩ | ⟨_, ⟨status', scan', failed', _, left'⟩ |
        ⟨rest', filled', ran', left'⟩⟩
    · exact absurd secondInput.short (Nat.not_le.mpr long)
    · rw [ran, failed'] at outcome
      cases outcome
    · rw [ran, ran'] at outcome
      cases outcome with
      | ok related =>
          have records : filled = filled' := related.2.equal trivial
          subst records
          have offsets : rest.offset = rest'.offset := related.1.offset
          have sizes : rest.size = rest'.size :=
            related.1.firstSize.trans related.1.secondSize.symm
          have script :=
            scriptBuffer_same sdk firstInput secondInput same ran ran'
          rw [left, left', tryParseTransferScript_same sdk script]
          simp only [offsets, sizes]

end Neo3App
