import Neo3App.Common.Paired
import Neo3App.Transaction.Parse

/-!
# Attempts on the same bytes

Two attempts to parse the same bytes, from different memories or different
records.  The status depends only on the bytes and on which attributes of the
record have the type `HighPriority`; the rest of a stale record is
overwritten before it is looked at.
-/

namespace Neo3App

open Neo3App.Lib
open Neo3App.Lib.EarlyExit

/-- Two records during an attempt.  Where `same` holds they are equal; in any
case the attributes agree on `HighPriority` and the first accounts are stored
in both, at one place inside the bytes. -/
structure Alike (same : Prop) (size accounts : Nat)
    (first second : Transaction) : Prop where
  equal : same → first = second
  high : ∀ j, slot first.attributes j = highPriority ↔
    slot second.attributes j = highPriority
  account : ∀ s < accounts, ∃ position,
    (slot first.signers s).account = some position ∧
      (slot second.signers s).account = some position ∧
        position + uint160Len ≤ size

/-- What is left to say of two records after a refusal. -/
def Copies (same : Prop) (first second : Transaction) : Prop :=
  same → first = second

variable {same : Prop} {size accounts : Nat} {first second : Transaction}

theorem Alike.copies (alike : Alike same size accounts first second) :
    Copies same first second :=
  alike.equal

/-- Fields other than the signers and the attributes. -/
theorem Alike.put
    (alike : Alike same size accounts first second)
    (put : Transaction → Transaction)
    (keeps : ∀ tx, (put tx).signers = tx.signers ∧
      (put tx).attributes = tx.attributes) :
    Alike same size accounts (put first) (put second) where
  equal := fun isSame => congrArg put (alike.equal isSame)
  high := by
    rw [(keeps first).2, (keeps second).2]
    exact alike.high
  account := by
    rw [(keeps first).1, (keeps second).1]
    exact alike.account

theorem account_modifySigner
    (tx : Transaction) (i : Nat) {change : Signer → Signer}
    (keeps : ∀ signer, (change signer).account = signer.account) (s : Nat) :
    (slot (tx.modifySigner i change).signers s).account =
      (slot tx.signers s).account := by
  change (slot (modifySlot tx.signers i change) s).account = _
  by_cases inside : s < maxTxSigners
  · rw [slot_of_lt _ inside, slot_of_lt _ inside, getElem_modifySlot]
    split
    · exact keeps _
    · rfl
  · simp [slot, inside]

/-- Fields of a signer other than the account. -/
theorem Alike.modifySigner
    (alike : Alike same size accounts first second) (i : Nat)
    (change : Signer → Signer)
    (keeps : ∀ signer, (change signer).account = signer.account) :
    Alike same size accounts (first.modifySigner i change)
      (second.modifySigner i change) where
  equal := fun isSame =>
    congrArg (fun tx => tx.modifySigner i change) (alike.equal isSame)
  high := alike.high
  account := by
    intro s inside
    rw [account_modifySigner first i keeps s,
      account_modifySigner second i keeps s]
    exact alike.account s inside

theorem Alike.modifyAccount
    (alike : Alike same size accounts first second) (i : Nat)
    (position : Ptr) :
    Copies same
      (first.modifySigner i fun signer => { signer with account := position })
      (second.modifySigner i fun signer =>
        { signer with account := position }) :=
  fun isSame =>
    congrArg
      (fun tx : Transaction =>
        tx.modifySigner i fun signer => { signer with account := position })
      (alike.equal isSame)

/-- The account of the next signer. -/
theorem Alike.setAccount
    {i position : Nat} (alike : Alike same size i first second)
    (inside : position + uint160Len ≤ size) (few : i < maxTxSigners) :
    Alike same size (i + 1)
      (first.modifySigner i fun signer =>
        { signer with account := some position })
      (second.modifySigner i fun signer =>
        { signer with account := some position }) where
  equal := alike.modifyAccount i (some position)
  high := alike.high
  account := by
    intro s early
    by_cases last : s = i
    · subst last
      refine ⟨position, ?_, ?_, inside⟩
      · exact congrArg Signer.account (slot_modifySlot_self _ _ few)
      · exact congrArg Signer.account (slot_modifySlot_self _ _ few)
    · obtain ⟨place, here, there, fits⟩ := alike.account s (by omega)
      refine ⟨place, ?_, ?_, fits⟩
      · exact
          (congrArg Signer.account (slot_modifySlot_of_ne _ _ last)).trans
            here
      · exact
          (congrArg Signer.account (slot_modifySlot_of_ne _ _ last)).trans
            there

abbrev AgreeOn (same : Prop) (size : Nat)
    (before after : Transaction → Transaction → Prop)
    (body : Section Unit) : Prop :=
  Agree (Paired size before) (Paired size (Copies same))
    (fun _ => Paired size after) body body

theorem parseHeader_agree :
    AgreeOn same size (Alike same size 0) (Alike same size 0)
      parseHeader := by
  have field {α : Type} {read : Buffer → Read α}
      {format : α → List UInt8 → Prop} {zero : α}
      (reads : ReadsBytes read format zero)
      (put : α → Transaction → Transaction) (code : ParserStatus)
      (keeps : ∀ value tx, (put value tx).signers = tx.signers ∧
        (put value tx).attributes = tx.attributes) :
      Agree (Paired size (Alike same size 0)) (Paired size (Copies same))
        (fun _ => Paired size (Alike same size 0))
        (readField read put code) (readField read put code) :=
    Agree.readField reads put code
      (fun alike => (alike.put _ (keeps zero)).copies)
      fun value alike => alike.put _ (keeps value)
  refine Agree.bind _ (field readsBytes_u8 _ _ ?_) fun _ => ?_
  · exact fun _ _ => ⟨rfl, rfl⟩
  refine Agree.check _ _ Alike.copies fun _ => ?_
  refine Agree.bind _ (field readsBytes_u32_le _ _ ?_)
    fun _ => ?_
  · exact fun _ _ => ⟨rfl, rfl⟩
  refine Agree.bind _ (field readsBytes_s64_le _ _ ?_)
    fun _ => ?_
  · exact fun _ _ => ⟨rfl, rfl⟩
  refine Agree.check _ _ Alike.copies fun _ => ?_
  refine Agree.bind _ (field readsBytes_s64_le _ _ ?_)
    fun _ => ?_
  · exact fun _ _ => ⟨rfl, rfl⟩
  refine Agree.check _ _ Alike.copies fun _ => ?_
  refine Agree.bind _ (field readsBytes_u32_le _ _ ?_)
    fun _ => ?_
  · exact fun _ _ => ⟨rfl, rfl⟩
  exact Agree.pure () fun both => both

/-- A change of the record that changes one signer, but not its account. -/
def ChangesSigner (i : Nat) (put : Transaction → Transaction) : Prop :=
  ∃ change : Signer → Signer,
    (∀ signer, (change signer).account = signer.account) ∧
      ∀ tx, put tx = tx.modifySigner i change

theorem changesSigner
    (i : Nat) (change : Signer → Signer)
    (keeps : ∀ signer, (change signer).account = signer.account) :
    ChangesSigner i fun tx => tx.modifySigner i change :=
  ⟨change, keeps, fun _ => rfl⟩

theorem Alike.change
    {i : Nat} {put : Transaction → Transaction} (changes : ChangesSigner i put)
    (alike : Alike same size accounts first second) :
    Alike same size accounts (put first) (put second) := by
  obtain ⟨change, keeps, isPut⟩ := changes
  rw [isPut, isPut]
  exact alike.modifySigner i change keeps

theorem parseItems_agree
    {put : Nat → Ptr → Transaction → Transaction} {i itemLen : Nat}
    (changes : ∀ j item, ChangesSigner i (put j item))
    (small : itemLen < sizeModulus) (code : ParserStatus)
    (remaining j : Nat) :
    AgreeOn same size (Alike same size accounts) (Alike same size accounts)
      (parseItems itemLen put code remaining j) := by
  induction remaining generalizing j with
  | zero =>
      exact Agree.pure () fun both => both
  | succ remaining ih =>
      exact
        Agree.markField_seekCur small code
          (fun _ _ _ alike => (alike.change (changes j _)).copies)
          (fun _ alike => alike.change (changes j _)) (ih (j + 1))

theorem parseSubItems_agree
    {put : Nat → Ptr → Transaction → Transaction}
    {putSize : UInt8 → Transaction → Transaction} {i itemLen : Nat}
    (changes : ∀ j item, ChangesSigner i (put j item))
    (changesSize : ∀ length, ChangesSigner i (putSize length))
    (small : itemLen < sizeModulus)
    (lengthCode valueCode itemCode : ParserStatus) :
    AgreeOn same size (Alike same size accounts) (Alike same size accounts)
      (parseSubItems itemLen putSize put lengthCode valueCode itemCode) := by
  refine
    Agree.bind _ (Agree.readLocal readsBytes_varint lengthCode Alike.copies)
      fun length => ?_
  refine Agree.check _ valueCode Alike.copies fun _ => ?_
  refine
    Agree.bind _
      (Agree.assignField fun alike => alike.change (changesSize _))
      fun _ => ?_
  exact parseItems_agree changes small itemCode _ 0

private theorem any_congr_of_mem
    {α : Type} {items : List α} {first second : α → Bool}
    (equal : ∀ item ∈ items, first item = second item) :
    items.any first = items.any second := by
  rw [Bool.eq_iff_iff, List.any_eq_true, List.any_eq_true]
  constructor
  · rintro ⟨item, member, holds⟩
    exact ⟨item, member, equal item member ▸ holds⟩
  · rintro ⟨item, member, holds⟩
    exact ⟨item, member, (equal item member).symm ▸ holds⟩

/-- The accounts stored so far designate the same bytes. -/
theorem duplicateAccount_same
    (sdk : Sdk) {i : Nat} {first second : Scan Transaction}
    (both : Paired size (Alike same size (i + 1)) first second) :
    duplicateAccount sdk i first = duplicateAccount sdk i second := by
  have accountSame : ∀ s < i + 1, accountAt first s = accountAt second s := by
    intro s early
    obtain ⟨position, here, there, inside⟩ := both.2.account s early
    rw [accountAt, accountAt, here, there]
    exact both.1.deref inside
  unfold duplicateAccount
  rw [accountSame i (Nat.lt_succ_self i)]
  apply any_congr_of_mem
  intro s member
  have early := List.mem_range.mp member
  rw [accountSame s (by omega)]

theorem parseSigner_agree
    (sdk : Sdk) {i : Nat} (few : i < maxTxSigners) :
    AgreeOn same size (Alike same size i) (Alike same size (i + 1))
      (parseSigner sdk i) := by
  refine
    Agree.markField_seekCur (by decide) _
      (fun position _ _ alike =>
        (alike.modifyAccount i position))
      (fun inside alike => alike.setAccount inside few) ?_
  refine
    Agree.bind (fun _ => Paired size (Alike same size (i + 1)))
      (Agree.exitWhen _ ?_ ?_ ?_) fun _ => ?_
  · exact fun both => duplicateAccount_same sdk both
  · exact fun both => ⟨both.1, both.2.copies⟩
  · exact fun _ both => both
  refine
    Agree.bind _ (Agree.readLocal readsBytes_u8 _ Alike.copies)
      fun scope => ?_
  have setsScope : ChangesSigner i fun tx =>
      tx.modifySigner i fun signer => { signer with scope := scope } :=
    changesSigner i _ fun _ => rfl
  refine
    Agree.bind _ (Agree.assignField fun alike => alike.change setsScope)
      fun _ => ?_
  refine Agree.check _ _ Alike.copies fun accepted => ?_
  have contracts :
      AgreeOn same size (Alike same size (i + 1)) (Alike same size (i + 1))
        (parseAllowedContracts i) := by
    apply parseSubItems_agree
    · exact fun _ _ => changesSigner i _ fun _ => rfl
    · exact fun _ => changesSigner i _ fun _ => rfl
    · decide
  have groups :
      AgreeOn same size (Alike same size (i + 1)) (Alike same size (i + 1))
        (parseAllowedGroups i) := by
    apply parseSubItems_agree
    · exact fun _ _ => changesSigner i _ fun _ => rfl
    · exact fun _ => changesSigner i _ fun _ => rfl
    · decide
  refine Agree.bind _ (Agree.runIf _ contracts fun both => both) fun _ => ?_
  exact Agree.runIf _ groups fun both => both

theorem Alike.forget (alike : Alike same size accounts first second) :
    Alike same size 0 first second :=
  ⟨alike.equal, alike.high, fun s early => absurd early (Nat.not_lt_zero s)⟩

theorem parseSignersFrom_agree
    (sdk : Sdk) {remaining i : Nat} (few : i + remaining ≤ maxTxSigners) :
    AgreeOn same size (Alike same size i) (Alike same size 0)
      (parseSignersFrom sdk remaining i) := by
  induction remaining generalizing i with
  | zero =>
      exact Agree.pure () fun both => ⟨both.1, both.2.forget⟩
  | succ remaining ih =>
      exact
        Agree.bind _ (parseSigner_agree sdk (by omega))
          fun _ => ih (by omega)

theorem parseSigners_agree (sdk : Sdk) :
    AgreeOn same size (Alike same size 0) (Alike same size 0)
      (parseSigners sdk) := by
  refine
    Agree.bind _ (Agree.readLocal readsBytes_varint _ Alike.copies)
      fun length => ?_
  refine Agree.check _ _ Alike.copies fun accepted => ?_
  refine
    Agree.bind _
      (Agree.assignField fun alike =>
        alike.put (fun tx => { tx with signersSize := length.toUInt8 })
          fun _ => ⟨rfl, rfl⟩)
      fun _ => ?_
  apply parseSignersFrom_agree sdk
  have few : ¬ UInt64.ofNat maxTxSigners < length := fun many =>
    accepted (Or.inr many)
  rw [UInt64.not_lt, UInt64.le_iff_toNat_le] at few
  have small : length.toNat ≤ maxTxSigners := few
  rw [UInt64.toNat_toUInt8]
  omega

structure AlikeAttributes (same : Prop) (size : Nat) (length : UInt8)
    (first second : Transaction) : Prop where
  alike : Alike same size 0 first second
  firstLength : first.attributesSize = length
  secondLength : second.attributesSize = length

theorem Alike.setAttribute
    (alike : Alike same size accounts first second) (i : Nat)
    (type : UInt8) :
    Alike same size accounts
      { first with
        attributes := modifySlot first.attributes i fun _ => type }
      { second with
        attributes := modifySlot second.attributes i fun _ => type } where
  equal := fun isSame =>
    congrArg
      (fun tx : Transaction =>
        { tx with attributes := modifySlot tx.attributes i fun _ => type })
      (alike.equal isSame)
  high := by
    intro j
    by_cases here : j = i
    · subst here
      by_cases inside : j < maxAttributes
      · rw [slot_modifySlot_self _ _ inside, slot_modifySlot_self _ _ inside]
      · simp [slot, inside]
    · rw [slot_modifySlot_of_ne _ _ here, slot_modifySlot_of_ne _ _ here]
      exact alike.high j
  account := alike.account

theorem duplicateAttribute_same
    {length type : UInt8} (isHigh : type = highPriority)
    {first second : Scan Transaction}
    (both : Paired size (AlikeAttributes same size length) first second) :
    duplicateAttribute type first = duplicateAttribute type second := by
  unfold duplicateAttribute
  rw [both.2.firstLength, both.2.secondLength]
  apply any_congr_of_mem
  intro j _
  rw [isHigh, Bool.eq_iff_iff, beq_iff_eq, beq_iff_eq]
  exact both.2.alike.high j

theorem parseAttributesFrom_agree (length : UInt8) (remaining i : Nat) :
    AgreeOn same size (AlikeAttributes same size length)
      (Alike same size 0) (parseAttributesFrom remaining i) := by
  induction remaining generalizing i with
  | zero =>
      exact Agree.pure () fun both => ⟨both.1, both.2.alike⟩
  | succ remaining ih =>
      have copies {first second : Transaction}
          (sized : AlikeAttributes same size length first second) :
          Copies same first second :=
        sized.alike.copies
      refine
        Agree.bind _ (Agree.readLocal readsBytes_u8 _ copies)
          fun type => ?_
      refine Agree.check _ _ copies fun isHigh => ?_
      refine
        Agree.bind (fun _ => Paired size (AlikeAttributes same size length))
          (Agree.exitWhen _ ?_ ?_ ?_) fun _ => ?_
      · exact fun both => duplicateAttribute_same (not_ne_iff.mp isHigh) both
      · exact fun both => ⟨both.1, copies both.2⟩
      · exact fun _ both => both
      refine
        Agree.bind _ (Agree.assignField fun sized => ?_)
          fun _ => ih (i + 1)
      exact
        ⟨sized.alike.setAttribute i type, sized.firstLength,
          sized.secondLength⟩

theorem parseAttributes_agree :
    AgreeOn same size (Alike same size 0) (Alike same size 0)
      parseAttributes := by
  refine
    Agree.bind _ (Agree.readLocal readsBytes_varint _ Alike.copies)
      fun length => ?_
  refine Agree.check _ _ Alike.copies fun _ => ?_
  refine
    Agree.bind _ (Agree.assignField fun alike => ?_)
      fun _ => parseAttributesFrom_agree length.toUInt8 _ 0
  exact
    ⟨alike.put (fun tx => { tx with attributesSize := length.toUInt8 })
      fun _ => ⟨rfl, rfl⟩, rfl, rfl⟩

theorem parseScript_agree :
    AgreeOn same size (Alike same size 0) (Alike same size 0)
      parseScript := by
  refine
    Agree.bind _ (Agree.readLocal readsBytes_varint _ Alike.copies)
      fun length => ?_
  refine
    Agree.bind _
      (Agree.markField fun position {_ _} alike =>
        alike.put (fun tx => { tx with script := position })
          fun _ => ⟨rfl, rfl⟩)
      fun _ => ?_
  refine Agree.check _ _ Alike.copies fun _ => ?_
  refine
    Agree.bind _
      (Agree.seekCur (Nat.mod_lt _ (by decide)) _ Alike.copies)
      fun _ => ?_
  exact
    Agree.assignField fun alike =>
      alike.put (fun tx => { tx with scriptSize := length.toUInt16 })
        fun _ => ⟨rfl, rfl⟩

theorem parseFields_agree (sdk : Sdk) :
    AgreeOn same size (Alike same size 0) (Alike same size 0)
      (parseFields sdk) := by
  refine Agree.bind _ parseHeader_agree fun _ => ?_
  refine Agree.bind _ (parseSigners_agree sdk) fun _ => ?_
  exact Agree.bind _ parseAttributes_agree fun _ => parseScript_agree

/-! ## The whole parser -/

theorem SameInput.of_input
    {first second : Buffer} (firstInput : InputBuffer first)
    (secondInput : InputBuffer second) (same : first.rest = second.rest) :
    SameInput first.size first second where
  firstWf := firstInput.wf
  secondWf := secondInput.wf
  firstSize := rfl
  secondSize := by
    rw [← firstInput.length_rest, ← secondInput.length_rest, same]
  offset := firstInput.atStart.trans secondInput.atStart.symm
  bytes := by
    have sizes : second.size = first.size := by
      rw [← firstInput.length_rest, ← secondInput.length_rest, same]
    rw [Buffer.rest, Buffer.rest, firstInput.atStart,
      secondInput.atStart] at same
    rwa [sizes] at same

/-- The status depends on the bytes and on the attributes of the record that
have the type `HighPriority`. -/
theorem transactionDeserialize_status
    (sdk : Sdk) {buf : Buffer} (input : InputBuffer buf)
    {first second : Transaction}
    (high : ∀ j, slot first.attributes j = highPriority ↔
      slot second.attributes j = highPriority) :
    (transactionDeserialize sdk buf first).1 =
      (transactionDeserialize sdk buf second).1 := by
  have alike : Alike False buf.size 0 first second :=
    ⟨False.elim, high, fun s early => absurd early (Nat.not_lt_zero s)⟩
  have outcome :=
    (parseFields_agree sdk).run
      (show Paired buf.size (Alike False buf.size 0) ⟨buf, first⟩
        ⟨buf, second⟩ from ⟨.of_input input input rfl, alike⟩)
  rcases transactionDeserialize_cases sdk buf first with
    ⟨long, _⟩ | ⟨_, ⟨status, scan, failed, _, left⟩ |
      ⟨rest, filled, ran, left⟩⟩
  · exact absurd input.short (Nat.not_le.mpr long)
  · rcases transactionDeserialize_cases sdk buf second with
      ⟨long, _⟩ | ⟨_, ⟨status', scan', failed', _, left'⟩ |
        ⟨rest', filled', ran', left'⟩⟩
    · exact absurd input.short (Nat.not_le.mpr long)
    · rw [failed, failed'] at outcome
      cases outcome
      rw [left, left']
    · rw [failed, ran'] at outcome
      cases outcome
  · rcases transactionDeserialize_cases sdk buf second with
      ⟨long, _⟩ | ⟨_, ⟨status', scan', failed', _, left'⟩ |
        ⟨rest', filled', ran', left'⟩⟩
    · exact absurd input.short (Nat.not_le.mpr long)
    · rw [ran, failed'] at outcome
      cases outcome
    · rw [ran, ran'] at outcome
      cases outcome with
      | ok related =>
          have offsets : rest.offset = rest'.offset := related.1.offset
          have sizes : rest.size = rest'.size :=
            related.1.firstSize.trans related.1.secondSize.symm
          rw [left, left']
          simp only [offsets, sizes]

end Neo3App
