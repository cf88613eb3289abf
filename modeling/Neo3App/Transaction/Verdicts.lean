import Neo3App.Common.Paired
import Neo3App.Lib.Commuting
import Neo3App.Transaction.Accepted
import Neo3App.Transaction.Slices

/-!
# Final verdicts

What becomes of the status of the parser when more bytes follow.  A value
that is refused stays refused, and a whole transaction becomes one of a wrong
length: no accepted byte string goes on to another one.
-/

namespace Neo3App

open Neo3App.Lib
open Neo3App.Lib.EarlyExit

variable {τ ε α : Type}

/-- The same scan of a buffer that has `more` further bytes. -/
def Scan.widen (more : Nat) (scan : Scan τ) : Scan τ :=
  { scan with buf := { scan.buf with size := scan.buf.size + more } }

structure Widens (more : Nat) (scan : Scan τ) : Prop where
  wf : scan.buf.Wf
  room : scan.buf.size + more ≤ scan.buf.ptr.length
  fits : scan.buf.size + more < sizeModulus

variable {more : Nat} {scan : Scan τ}

theorem Widens.wider (widens : Widens more scan) :
    (scan.widen more).buf.Wf where
  offset_le := Nat.le_add_right_of_le widens.wf.offset_le
  size_le := widens.room
  size_lt := widens.fits

theorem Scan.rest_prefix_widen (scan : Scan τ) (more : Nat) :
    scan.buf.rest <+: (scan.widen more).buf.rest :=
  (List.take_prefix_take_left (Nat.le_add_right _ more)).drop _

theorem Widens.advance
    (widens : Widens more scan) {count : Nat}
    (available : count ≤ scan.buf.rest.length) (store : τ) :
    Widens more ⟨scan.buf.advance count, store⟩ :=
  ⟨widens.wf.advance available, widens.room, widens.fits⟩

/-- A parser whose codes outside `final` may go away with more bytes. -/
abbrev Settles (more : Nat) (final : ε → Prop) (parser : Parser τ ε α) :
    Prop :=
  parser.Commutes (Widens more) (Scan.widen more) final

variable {final : ε → Prop}

theorem Settles.readField
    {read : Buffer → Read α} {format : α → List UInt8 → Prop}
    (reads : Reads read format) (put : α → τ → τ) {code : ε}
    (notFinal : ¬ final code) :
    Settles more final (readField read put code) := by
  constructor
  · intro scan after value widens run
    unfold Neo3App.readField at run ⊢
    dsimp only at run ⊢
    split at run
    next isRead =>
      cases run
      obtain ⟨encoding, isValue, isPrefix, advanced⟩ :=
        reads.sound widens.wf isRead
      have wider :=
        reads.complete widens.wider isValue
          (isPrefix.trans (scan.rest_prefix_widen more))
      rw [wider, advanced]
      exact ⟨widens.advance isPrefix.length_le _, rfl⟩
    next => cases run
  · intro scan after left _ run isFinal
    unfold Neo3App.readField at run
    dsimp only at run
    split at run
    next => cases run
    next =>
      cases run
      exact absurd isFinal notFinal

theorem Settles.readLocal
    {read : Buffer → Read α} {format : α → List UInt8 → Prop}
    (reads : Reads read format) {code : ε} (notFinal : ¬ final code) :
    Settles more final (readLocal read code : Parser τ ε α) :=
  Settles.readField reads _ notFinal

theorem Settles.seekCur
    {length : Nat} (small : length < sizeModulus) {code : ε}
    (notFinal : ¬ final code) :
    Settles more final (seekCur length code : Parser τ ε Unit) := by
  constructor
  · rintro ⟨buffer, store⟩ after value widens run
    by_cases available : length ≤ buffer.rest.length
    · rw [seekCur_of_le widens.wf available] at run
      cases run
      have there :=
        (Scan.rest_prefix_widen ⟨buffer, store⟩ more).length_le
      refine ⟨widens.advance available store, ?_⟩
      exact seekCur_of_le widens.wider (available.trans there)
    · rw [seekCur_of_lt widens.wf (Nat.lt_of_not_le available) small] at run
      cases run
  · rintro ⟨buffer, store⟩ after left widens run isFinal
    by_cases available : length ≤ buffer.rest.length
    · rw [seekCur_of_le widens.wf available] at run
      cases run
    · rw [seekCur_of_lt widens.wf (Nat.lt_of_not_le available) small] at run
      cases run
      exact absurd isFinal notFinal

theorem Settles.exitWhen
    {condition : Scan τ → Bool} (code : ε)
    (same : ∀ scan : Scan τ, condition (scan.widen more) = condition scan) :
    Settles more final (exitWhen condition code : Parser τ ε Unit) :=
  Commutes.exitWhen code fun _ => same _

theorem Settles.assignField (put : τ → τ) :
    Settles more final (assignField put : Parser τ ε Unit) :=
  Commutes.assign (fun widens => ⟨widens.wf, widens.room, widens.fits⟩)
    fun _ => rfl

theorem Settles.markField (put : Ptr → τ → τ) :
    Settles more final (markField put : Parser τ ε Unit) :=
  Commutes.assign (fun widens => ⟨widens.wf, widens.room, widens.fits⟩)
    fun _ => rfl

/-- The statuses of a wrong length and of a value that is refused.  A missing
attribute or script has the status of a refused one, which is therefore not
among them. -/
def finalErrors : List ParserStatus :=
  [.invalidLengthError, .versionValueError, .systemFeeValueError,
    .networkFeeValueError, .signerLengthValueError,
    .signerAccountDuplicateError, .signerScopeValueErrorGlobalFlag,
    .signerAllowedContractsLengthValueError,
    .signerAllowedGroupsLengthValueError, .attributesLengthValueError,
    .attributesDuplicateType]

abbrev SettlesErrors (more : Nat) (parser : Section α) : Prop :=
  Settles more (· ∈ finalErrors) parser

theorem parseHeader_settles : SettlesErrors more parseHeader := by
  unfold parseHeader
  refine (Settles.readField reads_u8 _ (by decide)).bind fun version => ?_
  refine (Commutes.exitIf _ _).bind fun _ => ?_
  refine (Settles.readField reads_u32_le _ (by decide)).bind fun _ => ?_
  refine (Settles.readField reads_s64_le _ (by decide)).bind fun _ => ?_
  refine (Commutes.exitIf _ _).bind fun _ => ?_
  refine (Settles.readField reads_s64_le _ (by decide)).bind fun _ => ?_
  refine (Commutes.exitIf _ _).bind fun _ => ?_
  refine (Settles.readField reads_u32_le _ (by decide)).bind fun _ => ?_
  exact Commutes.pure ()

theorem parseItems_settles
    {itemLen : Nat} (small : itemLen < sizeModulus)
    (put : Nat → Ptr → Transaction → Transaction) {code : ParserStatus}
    (notFinal : code ∉ finalErrors) (remaining j : Nat) :
    SettlesErrors more (parseItems itemLen put code remaining j) := by
  induction remaining generalizing j with
  | zero => exact Commutes.pure ()
  | succ remaining inductionHypothesis =>
      unfold parseItems
      refine (Settles.markField _).bind fun _ => ?_
      refine (Settles.seekCur small notFinal).bind fun _ => ?_
      exact inductionHypothesis (j + 1)

theorem parseSubItems_settles
    {itemLen : Nat} (small : itemLen < sizeModulus)
    (putSize : UInt8 → Transaction → Transaction)
    (put : Nat → Ptr → Transaction → Transaction)
    {lengthCode valueCode itemCode : ParserStatus}
    (lengthNotFinal : lengthCode ∉ finalErrors)
    (itemNotFinal : itemCode ∉ finalErrors) :
    SettlesErrors more
      (parseSubItems itemLen putSize put lengthCode valueCode itemCode) := by
  unfold parseSubItems
  refine (Settles.readLocal reads_varint lengthNotFinal).bind fun _ => ?_
  refine (Commutes.exitIf _ _).bind fun _ => ?_
  refine (Settles.assignField _).bind fun _ => ?_
  exact parseItems_settles small put itemNotFinal _ 0

theorem parseSigner_settles (sdk : Sdk) (i : Nat) :
    SettlesErrors more (parseSigner sdk i) := by
  unfold parseSigner
  refine (Settles.markField _).bind fun _ => ?_
  refine (Settles.seekCur (by decide) (by decide)).bind fun _ => ?_
  refine (Settles.exitWhen _ fun _ => rfl).bind fun _ => ?_
  refine (Settles.readLocal reads_u8 (by decide)).bind fun _ => ?_
  refine (Settles.assignField _).bind fun _ => ?_
  refine (Commutes.exitIf _ _).bind fun _ => ?_
  refine (Commutes.runIf _ ?_).bind fun _ => ?_
  · exact parseSubItems_settles (by decide) _ _ (by decide) (by decide)
  · apply Commutes.runIf
    exact parseSubItems_settles (by decide) _ _ (by decide) (by decide)

theorem parseSignersFrom_settles (sdk : Sdk) (remaining i : Nat) :
    SettlesErrors more (parseSignersFrom sdk remaining i) := by
  induction remaining generalizing i with
  | zero => exact Commutes.pure ()
  | succ remaining inductionHypothesis =>
      unfold parseSignersFrom
      exact
        (parseSigner_settles sdk i).bind fun _ => inductionHypothesis (i + 1)

theorem parseSigners_settles (sdk : Sdk) :
    SettlesErrors more (parseSigners sdk) := by
  unfold parseSigners
  refine (Settles.readLocal reads_varint (by decide)).bind fun _ => ?_
  refine (Commutes.exitIf _ _).bind fun _ => ?_
  refine (Settles.assignField _).bind fun _ => ?_
  exact parseSignersFrom_settles sdk _ 0

theorem parseAttributesFrom_settles (remaining i : Nat) :
    SettlesErrors more (parseAttributesFrom remaining i) := by
  induction remaining generalizing i with
  | zero => exact Commutes.pure ()
  | succ remaining inductionHypothesis =>
      unfold parseAttributesFrom
      refine (Settles.readLocal reads_u8 (by decide)).bind fun _ => ?_
      refine (Commutes.exitIf _ _).bind fun _ => ?_
      refine (Settles.exitWhen _ fun _ => rfl).bind fun _ => ?_
      refine (Settles.assignField _).bind fun _ => ?_
      exact inductionHypothesis (i + 1)

theorem parseAttributes_settles : SettlesErrors more parseAttributes := by
  unfold parseAttributes
  refine (Settles.readLocal reads_varint (by decide)).bind fun _ => ?_
  refine (Commutes.exitIf _ _).bind fun _ => ?_
  refine (Settles.assignField _).bind fun _ => ?_
  exact parseAttributesFrom_settles _ 0

theorem parseScript_settles : SettlesErrors more parseScript := by
  unfold parseScript
  refine (Settles.readLocal reads_varint (by decide)).bind fun length => ?_
  refine (Settles.markField _).bind fun _ => ?_
  refine (Commutes.exitIf _ _).bind fun _ => ?_
  refine
    (Settles.seekCur (Nat.mod_lt _ (by decide)) (by decide)).bind
      fun _ => ?_
  exact Settles.assignField _

theorem parseFields_settles (sdk : Sdk) :
    SettlesErrors more (parseFields sdk) := by
  unfold parseFields
  refine parseHeader_settles.bind fun _ => ?_
  refine (parseSigners_settles sdk).bind fun _ => ?_
  exact parseAttributes_settles.bind fun _ => parseScript_settles

def verdict (sdk : Sdk) (b : List UInt8) : ParserStatus :=
  (transactionDeserialize sdk ⟨b, b.length, 0⟩ Transaction.zero).1

def statusOf : Except ParserStatus Unit × Scan Transaction → ParserStatus
  | (.error status, _) => status
  | (.ok (), scan) =>
      if scan.buf.offset = scan.buf.size then .parsingOk
      else .invalidLengthError

theorem status_eq (sdk : Sdk) (buf : Buffer) (tx : Transaction) :
    (transactionDeserialize sdk buf tx).1 =
      if maxTransactionLen < buf.size then .invalidLengthError
      else statusOf (parseFields sdk ⟨buf, tx⟩) := by
  rcases transactionDeserialize_cases sdk buf tx with
    ⟨long, left⟩ | ⟨short, ⟨status, scan, failed, _, left⟩ |
      ⟨rest, filled, ran, left⟩⟩
  · rw [left, if_pos long]
  · rw [left, if_neg (Nat.not_lt.mpr short), failed]
    rfl
  · rw [left, if_neg (Nat.not_lt.mpr short), ran]
    rfl

/-- What becomes of the status when the buffer is made wider. -/
theorem statusOf_widen
    (sdk : Sdk) {more : Nat} {scan : Scan Transaction}
    (widens : Widens more scan) (some : 0 < more) :
    let narrow := statusOf (parseFields sdk scan)
    let wide := statusOf (parseFields sdk (scan.widen more))
    (narrow = .parsingOk → wide = .invalidLengthError) ∧
      (narrow ∈ finalErrors → wide = narrow) := by
  have settles := @parseFields_settles more sdk
  rcases run : parseFields sdk scan with ⟨status | value, after⟩
  · refine ⟨?_, fun isFinal => ?_⟩
    · rintro rfl
      exact absurd rfl (parseFields_exits sdk _ _ _ run)
    · rw [settles.error widens run isFinal]
      rfl
  · obtain ⟨good, wide⟩ := settles.ok widens run
    have inside := good.wf.offset_le
    have beyond : ¬ (after.widen more).buf.offset =
        (after.widen more).buf.size := by
      change ¬ after.buf.offset = after.buf.size + more
      omega
    have refused : statusOf (parseFields sdk (scan.widen more)) =
        .invalidLengthError := by
      rw [wide]
      exact if_neg beyond
    refine ⟨fun _ => refused, fun isFinal => ?_⟩
    rw [refused]
    by_cases whole : after.buf.offset = after.buf.size
    · rw [statusOf, if_pos whole] at isFinal
      exact absurd isFinal (by decide)
    · rw [statusOf, if_neg whole]

/-- More bytes do not repair a transaction: a refused value stays refused, and
nothing may follow a whole transaction. -/
theorem verdict_append
    (sdk : Sdk) (p : List UInt8) {extra : List UInt8}
    (nonempty : extra ≠ []) :
    (verdict sdk p = .parsingOk →
      verdict sdk (p ++ extra) = .invalidLengthError) ∧
    (verdict sdk p ∈ finalErrors →
      verdict sdk (p ++ extra) =
        if maxTransactionLen < (p ++ extra).length then .invalidLengthError
        else verdict sdk p) := by
  have some := List.length_pos_iff.mpr nonempty
  have total := @List.length_append _ p extra
  let start : Scan Transaction := ⟨bufferOver p extra, .zero⟩
  have narrow :
      verdict sdk p =
        if maxTransactionLen < p.length then .invalidLengthError
        else statusOf (parseFields sdk start) := by
    have beyond := transactionDeserialize_beyond sdk p [] extra .zero
    rw [bufferOver, List.append_nil] at beyond
    rw [verdict, beyond, status_eq]
    rfl
  have wide :
      verdict sdk (p ++ extra) =
        if maxTransactionLen < (p ++ extra).length then .invalidLengthError
        else statusOf (parseFields sdk (start.widen extra.length)) := by
    rw [verdict, status_eq, total]
    rfl
  by_cases long : maxTransactionLen < (p ++ extra).length
  · rw [wide, if_pos long, if_pos long]
    exact ⟨fun _ => rfl, fun _ => rfl⟩
  · have fits : p.length + extra.length ≤ 1024 := by
      rw [total] at long
      exact Nat.le_of_not_lt long
    have short : p.length ≤ 1024 := by
      omega
    have widens : Widens extra.length start :=
      ⟨(InputBuffer.over short extra).wf, total.ge, by
        change p.length + extra.length < sizeModulus
        unfold sizeModulus
        omega⟩
    rw [narrow, wide, if_neg long, if_neg long,
      if_neg (show ¬ maxTransactionLen < p.length from Nat.not_lt.mpr short)]
    exact statusOf_widen sdk widens some

/-- Nothing may follow the transfer of one NEO, and nothing repairs a wrong
version. -/
theorem verdict_append_oneNeo :
    verdict Sdk.constant (oneNeoTransaction ++ [0]) = .invalidLengthError ∧
      verdict Sdk.constant ([1] ++ oneNeoTransaction) =
        .versionValueError :=
  ⟨(verdict_append Sdk.constant oneNeoTransaction (by decide)).1
      (by decide +kernel),
    ((verdict_append Sdk.constant [1] (by decide +kernel)).2
      (by decide +kernel)).trans (by decide +kernel)⟩

end Neo3App
