import Neo3App.Transaction.Checked
import Neo3App.Transaction.Locality

/-!
# The parser stays inside its buffer

No check of the parser with checks fails, for any bytes and any record: the
parser reads inside its buffers, indexes inside its arrays, keeps its offsets
inside and narrows no integer that is too large.  The slices of an accepted
transaction follow each other inside the bytes.
-/

namespace Neo3App

open Neo3App.Lib
open Neo3App.Lib.EarlyExit

variable {size : Nat}

/-- A buffer of `size` bytes, its offset inside it, and a record with a
property. -/
structure Inside (size : Nat) (holds : Transaction → Prop)
    (scan : Scan Transaction) : Prop where
  wf : scan.buf.Wf
  size_eq : scan.buf.size = size
  holds : holds scan.store

theorem Inside.advance
    {holds after : Transaction → Prop} {scan : Scan Transaction}
    (inside : Inside size holds scan) {count : Nat}
    (available : count ≤ scan.buf.rest.length) {tx : Transaction}
    (next : after tx) : Inside size after ⟨scan.buf.advance count, tx⟩ :=
  ⟨inside.wf.advance available, inside.size_eq, next⟩

section Steps

variable {ε α : Type} {holds after : Transaction → Prop}

theorem Inside.field
    {checked : Checked Transaction ε (Bool × α)} {read : Buffer → Read α}
    (fetches : Fetches checked read) {format : α → List UInt8 → Prop}
    {zero : α} (reads : ReadsBytes read format zero)
    {put : α → Transaction → Transaction} (code : ε)
    (stores : ∀ value {tx}, holds tx → after (put value tx)) :
    Guards (Inside size holds) (fun _ => Inside size after)
      (checkedField checked put code) (readField read put code) :=
  Guards.readField fetches reads put code (fun inside => inside.wf)
    fun value _ inside available =>
      inside.advance available (stores value inside.holds)

theorem Inside.local
    {checked : Checked Transaction ε (Bool × α)} {read : Buffer → Read α}
    (fetches : Fetches checked read) {format : α → List UInt8 → Prop}
    {zero : α} (reads : ReadsBytes read format zero) (code : ε) :
    Guards (Inside size holds) (fun _ => Inside size holds)
      (checkedLocal checked code) (readLocal read code) :=
  Inside.field fetches reads code fun _ {_} known => known

theorem Inside.seek
    {length : Nat} (small : length < sizeModulus) (code : ε) :
    Guards (Inside size holds) (fun _ => Inside size holds)
      (checkedSeek length code) (seekCur length code) :=
  Guards.seekCur small code (fun inside => inside.wf)
    fun inside available => inside.advance available inside.holds

theorem Inside.put
    {checkedPut : Transaction → Except Fault Transaction}
    {put : Transaction → Transaction}
    (fits : ∀ tx, checkedPut tx = .ok (put tx))
    (stores : ∀ {tx}, holds tx → after (put tx)) :
    Guards (Inside size holds) (fun _ => Inside size after)
      (checkedAssign checkedPut : Checked Transaction ε Unit)
      (assignField put) :=
  Guards.assignField (fun _ => fits _) fun inside =>
    ⟨inside.wf, inside.size_eq, stores inside.holds⟩

theorem Inside.mark
    {checkedPut : Ptr → Transaction → Except Fault Transaction}
    {put : Ptr → Transaction → Transaction}
    (fits : ∀ position tx, checkedPut position tx = .ok (put position tx))
    (stores : ∀ position {tx}, holds tx → after (put position tx)) :
    Guards (Inside size holds) (fun _ => Inside size after)
      (checkedMark checkedPut : Checked Transaction ε Unit)
      (markField put) :=
  Guards.markField (fun _ _ => fits _ _) fun inside =>
    ⟨inside.wf, inside.size_eq, stores _ inside.holds⟩

end Steps

abbrev InsideAny (size : Nat) : Scan Transaction → Prop :=
  Inside size fun _ => True

theorem checkedHeader_guards :
    Guards (InsideAny size) (fun _ => InsideAny size) checkedHeader
      parseHeader := by
  have field {α : Type}
      {checked : CheckedSection (Bool × α)} {read : Buffer → Read α}
      (fetches : Fetches checked read) {format : α → List UInt8 → Prop}
      {zero : α} (reads : ReadsBytes read format zero)
      (put : α → Transaction → Transaction) (code : ParserStatus) :
      Guards (InsideAny size) (fun _ => InsideAny size)
        (checkedField checked put code) (readField read put code) :=
    Inside.field fetches reads code fun _ {_} _ => trivial
  refine Guards.bind _ (field fetches_u8 readsBytes_u8 _ _) fun _ => ?_
  refine Guards.exitIf _ _ fun _ => ?_
  refine
    Guards.bind _ (field fetches_u32_le readsBytes_u32_le _ _) fun _ => ?_
  refine
    Guards.bind _ (field fetches_s64_le readsBytes_s64_le _ _) fun _ => ?_
  refine Guards.exitIf _ _ fun _ => ?_
  refine
    Guards.bind _ (field fetches_s64_le readsBytes_s64_le _ _) fun _ => ?_
  refine Guards.exitIf _ _ fun _ => ?_
  refine
    Guards.bind _ (field fetches_u32_le readsBytes_u32_le _ _) fun _ => ?_
  exact Guards.pure () fun inside => inside

/-! ## The signers -/

theorem setSigner_of_lt
    {i : Nat} (few : i < maxTxSigners)
    {checkedChange : Signer → Except Fault Signer} {change : Signer → Signer}
    (changes : ∀ signer, checkedChange signer = .ok (change signer))
    (tx : Transaction) :
    Transaction.setSigner i checkedChange tx = .ok (tx.modifySigner i change)
    := by
  unfold Transaction.setSigner
  rw [setCell_of_lt tx.signers few changes]
  rfl

def AccountsInside (size count : Nat) (tx : Transaction) : Prop :=
  ∀ s < count, ∃ position,
    (slot tx.signers s).account = some position ∧
      position + uint160Len ≤ size

/-- Fields of a signer other than the account. -/
theorem AccountsInside.modifySigner
    {count : Nat} {tx : Transaction} (accounts : AccountsInside size count tx)
    (i : Nat) {change : Signer → Signer}
    (keeps : ∀ signer, (change signer).account = signer.account) :
    AccountsInside size count (tx.modifySigner i change) := by
  intro s early
  rw [account_modifySigner tx i keeps s]
  exact accounts s early

theorem checkedItems_guards
    {checkedPut : Nat → Ptr → Transaction → Except Fault Transaction}
    {put : Nat → Ptr → Transaction → Transaction}
    {holds : Transaction → Prop} {itemLen : Nat}
    (small : itemLen < sizeModulus)
    (fits : ∀ {j}, j < maxSignerSubItems → ∀ item tx,
      checkedPut j item tx = .ok (put j item tx))
    (keeps : ∀ j item {tx}, holds tx → holds (put j item tx))
    (code : ParserStatus) {remaining j : Nat}
    (few : j + remaining ≤ maxSignerSubItems) :
    Guards (Inside size holds) (fun _ => Inside size holds)
      (checkedItems itemLen checkedPut code remaining j)
      (parseItems itemLen put code remaining j) := by
  induction remaining generalizing j with
  | zero =>
      exact Guards.pure () fun inside => inside
  | succ remaining ih =>
      refine
        Guards.bind _ (Inside.mark (fits (by omega)) (keeps j)) fun _ => ?_
      refine Guards.bind _ (Inside.seek small code) fun _ => ?_
      exact ih (by omega)

theorem checkedSubItems_guards
    {checkedPutSize : UInt8 → Transaction → Except Fault Transaction}
    {putSize : UInt8 → Transaction → Transaction}
    {checkedPut : Nat → Ptr → Transaction → Except Fault Transaction}
    {put : Nat → Ptr → Transaction → Transaction}
    {holds : Transaction → Prop} {itemLen : Nat}
    (small : itemLen < sizeModulus)
    (sizeFits : ∀ count tx,
      checkedPutSize count tx = .ok (putSize count tx))
    (sizeKeeps : ∀ count {tx}, holds tx → holds (putSize count tx))
    (fits : ∀ {j}, j < maxSignerSubItems → ∀ item tx,
      checkedPut j item tx = .ok (put j item tx))
    (keeps : ∀ j item {tx}, holds tx → holds (put j item tx))
    (lengthCode valueCode itemCode : ParserStatus) :
    Guards (Inside size holds) (fun _ => Inside size holds)
      (checkedSubItems itemLen checkedPutSize checkedPut lengthCode
        valueCode itemCode)
      (parseSubItems itemLen putSize put lengthCode valueCode itemCode) := by
  refine
    Guards.bind _ (Inside.local fetches_varint readsBytes_varint _)
      fun length => ?_
  refine Guards.exitIf _ _ fun bounded => ?_
  have few : length.toNat ≤ maxSignerSubItems := by
    rw [gt_iff_lt, UInt64.not_lt, UInt64.le_iff_toNat_le] at bounded
    exact bounded
  have two : maxSignerSubItems = 2 := rfl
  refine Guards.narrow (by omega) ?_
  rw [UInt8.ofNat_uInt64ToNat]
  refine Guards.bind _ (Inside.put (sizeFits _) (sizeKeeps _)) fun _ => ?_
  refine Guards.narrow (by unfold sizeModulus; omega) ?_
  exact checkedItems_guards small fits keeps itemCode (by omega)

theorem checkedAllowedContracts_guards
    {i count : Nat} (few : i < maxTxSigners) :
    Guards (Inside size (AccountsInside size count))
      (fun _ => Inside size (AccountsInside size count))
      (checkedAllowedContracts i) (parseAllowedContracts i) := by
  refine
    checkedSubItems_guards (by decide)
      (fun length => setSigner_of_lt few fun _ => rfl) ?_ ?_ ?_ _ _ _
  · exact fun length {_} accounts => accounts.modifySigner i fun _ => rfl
  · intro j inside item
    refine setSigner_of_lt few fun signer => ?_
    rw [setCell_pure_of_lt signer.allowedContracts inside]
    rfl
  · exact fun j item {_} accounts => accounts.modifySigner i fun _ => rfl

theorem checkedAllowedGroups_guards
    {i count : Nat} (few : i < maxTxSigners) :
    Guards (Inside size (AccountsInside size count))
      (fun _ => Inside size (AccountsInside size count))
      (checkedAllowedGroups i) (parseAllowedGroups i) := by
  refine
    checkedSubItems_guards (by decide)
      (fun length => setSigner_of_lt few fun _ => rfl) ?_ ?_ ?_ _ _ _
  · exact fun length {_} accounts => accounts.modifySigner i fun _ => rfl
  · intro j inside item
    refine setSigner_of_lt few fun signer => ?_
    rw [setCell_pure_of_lt signer.allowedGroups inside]
    rfl
  · exact fun j item {_} accounts => accounts.modifySigner i fun _ => rfl

/-- The bytes of an account that is inside the buffer. -/
theorem checkedAccount_eq
    {count s : Nat} (few : count ≤ maxTxSigners) (early : s < count)
    {scan : Scan Transaction}
    (inside : Inside size (AccountsInside size count) scan) :
    checkedAccount s scan = (.ok (accountAt scan s), scan) := by
  obtain ⟨position, stored, fits⟩ := inside.holds s early
  have found :
      (lookUp fun scan : Scan Transaction => cell scan.store.signers s :
          CheckedSection Signer) scan =
        (.ok (slot scan.store.signers s), scan) :=
    lookUp_of_ok (cell_of_lt scan.store.signers (by omega))
  unfold checkedAccount
  rw [bind_of_ok found, accountAt, stored]
  exact fetchBytes_eq (inside.size_eq ▸ fits) inside.wf.size_le

/-- The comparisons with the signers from `s` on. -/
theorem checkedDuplicates_eq
    (sdk : Sdk) {i : Nat} (few : i < maxTxSigners) {scan : Scan Transaction}
    (inside : Inside size (AccountsInside size (i + 1)) scan)
    {remaining s : Nat} (earlier : s + remaining ≤ i) :
    checkedDuplicates sdk i remaining s scan =
      if (List.range' s remaining).any fun k =>
          sdk.secureMemcmp (accountAt scan k) (accountAt scan i)
            uint160Len == 0
      then (.error (.inr .signerAccountDuplicateError), scan)
      else (.ok (), scan) := by
  induction remaining generalizing s with
  | zero =>
      rfl
  | succ remaining ih =>
      unfold checkedDuplicates
      rw [bind_of_ok (checkedAccount_eq few (by omega) inside),
        bind_of_ok (checkedAccount_eq few (by omega) inside), exitIf_bind,
        ih (by omega), List.range'_succ, List.any_cons]
      by_cases same :
          sdk.secureMemcmp (accountAt scan s) (accountAt scan i)
            uint160Len = 0
      · rw [if_pos same, if_pos (by simp [same])]
      · rw [if_neg same, beq_eq_false_iff_ne.mpr same, Bool.false_or]

theorem checkedDuplicates_guards
    (sdk : Sdk) {i : Nat} (few : i < maxTxSigners) :
    Guards (Inside size (AccountsInside size (i + 1)))
      (fun _ => Inside size (AccountsInside size (i + 1)))
      (checkedDuplicates sdk i i 0)
      (exitWhen (duplicateAccount sdk i) .signerAccountDuplicateError) := by
  apply Guards.of_eq
  · intro scan inside
    rw [checkedDuplicates_eq sdk few inside (by omega),
      ← List.range_eq_range', faultless_exitWhen]
    rfl
  · intro scan final value inside run
    obtain ⟨_, rfl⟩ := exitWhen_eq_ok_iff.mp run
    exact inside

/-- The account of signer `i` is stored and its bytes are skipped. -/
theorem checkedSlice_guards
    {i : Nat} (few : i < maxTxSigners)
    {checkedNext : Unit → CheckedSection Unit} {next : Unit → Section Unit}
    {after : Unit → Scan Transaction → Prop}
    (tail : Guards (Inside size (AccountsInside size (i + 1))) after
      (checkedNext ()) (next ())) :
    Guards (Inside size (AccountsInside size i)) after
      (checkedMark (fun position =>
          Transaction.setSigner i fun signer =>
            pure { signer with account := position }) >>= fun _ =>
        checkedSeek uint160Len .signerAccountParsingError >>= checkedNext)
      (markField (fun position tx =>
          tx.modifySigner i fun signer =>
            { signer with account := position }) >>= fun _ =>
        seekCur uint160Len .signerAccountParsingError >>= next) := by
  let marked (scan : Scan Transaction) : Prop :=
    Inside size (AccountsInside size i) scan ∧
      (slot scan.store.signers i).account = some scan.buf.offset
  refine
    Guards.bind (fun _ => marked)
      (Guards.markField
        (fun _ _ => setSigner_of_lt few (fun _ => rfl) _) ?_)
      fun _ => ?_
  · intro scan inside
    refine ⟨⟨inside.wf, inside.size_eq, ?_⟩, ?_⟩
    · intro s early
      obtain ⟨position, stored, fits⟩ := inside.holds s early
      refine ⟨position, ?_, fits⟩
      rw [← stored]
      exact
        congrArg Signer.account
          (slot_modifySlot_of_ne _ _ (Nat.ne_of_lt early))
    · exact congrArg Signer.account (slot_modifySlot_self _ _ few)
  · refine
      Guards.bind (fun _ => Inside size (AccountsInside size (i + 1)))
        (Guards.seekCur (by decide) _ (fun known => known.1.wf) ?_)
        fun _ => tail
    rintro scan ⟨inside, stored⟩ available
    refine inside.advance available ?_
    have rest := inside.wf.length_rest
    have offset := inside.wf.offset_le
    have sizeEq := inside.size_eq
    intro s early
    by_cases last : s = i
    · subst last
      exact ⟨scan.buf.offset, stored, by omega⟩
    · exact inside.holds s (by omega)

theorem checkedSigner_guards
    (sdk : Sdk) {i : Nat} (few : i < maxTxSigners) :
    Guards (Inside size (AccountsInside size i))
      (fun _ => Inside size (AccountsInside size (i + 1)))
      (checkedSigner sdk i) (parseSigner sdk i) := by
  refine checkedSlice_guards few ?_
  refine Guards.bind _ (checkedDuplicates_guards sdk few) fun _ => ?_
  refine
    Guards.bind _ (Inside.local fetches_u8 readsBytes_u8 _)
      fun value => ?_
  refine
    Guards.bind _
      (Inside.put (setSigner_of_lt few fun _ => rfl)
        fun accounts => accounts.modifySigner i fun _ => rfl)
      fun _ => ?_
  refine Guards.exitIf _ _ fun _ => ?_
  refine
    Guards.bind _
      (Guards.runIf _ (checkedAllowedContracts_guards few)
        fun inside => inside)
      fun _ => ?_
  exact
    Guards.runIf _ (checkedAllowedGroups_guards few) fun inside => inside

theorem checkedSignersFrom_guards
    (sdk : Sdk) {remaining i : Nat} (few : i + remaining ≤ maxTxSigners) :
    Guards (Inside size (AccountsInside size i)) (fun _ => InsideAny size)
      (checkedSignersFrom sdk remaining i)
      (parseSignersFrom sdk remaining i) := by
  induction remaining generalizing i with
  | zero =>
      exact Guards.pure () fun inside => ⟨inside.wf, inside.size_eq, trivial⟩
  | succ remaining ih =>
      exact
        Guards.bind _ (checkedSigner_guards sdk (by omega))
          fun _ => ih (by omega)

theorem checkedSigners_guards (sdk : Sdk) :
    Guards (InsideAny size) (fun _ => InsideAny size) (checkedSigners sdk)
      (parseSigners sdk) := by
  refine
    Guards.bind _ (Inside.local fetches_varint readsBytes_varint _)
      fun length => ?_
  refine Guards.exitIf _ _ fun bounded => ?_
  have few : length.toNat ≤ maxTxSigners := by
    have notMany : ¬ UInt64.ofNat maxTxSigners < length := fun many =>
      bounded (.inr many)
    rw [UInt64.not_lt, UInt64.le_iff_toNat_le] at notMany
    exact notMany
  have two : maxTxSigners = 2 := rfl
  refine Guards.narrow (by omega) ?_
  have kept : length.toUInt8.toNat = length.toNat := by
    rw [UInt64.toNat_toUInt8]
    omega
  rw [UInt8.ofNat_uInt64ToNat, kept]
  refine
    Guards.bind (fun _ => Inside size (AccountsInside size 0))
      (Inside.put (fun _ => rfl) ?_) fun _ => ?_
  · exact fun _ s early => absurd early (Nat.not_lt_zero s)
  · exact checkedSignersFrom_guards sdk (by omega)

def FewAttributes (tx : Transaction) : Prop :=
  tx.attributesSize.toNat ≤ maxAttributes

/-- The comparisons with the attributes from `j` on. -/
theorem checkedDuplicateTypes_eq
    (type : UInt8) (scan : Scan Transaction) {remaining j : Nat}
    (few : j + remaining ≤ maxAttributes) :
    checkedDuplicateTypes type remaining j scan =
      if (List.range' j remaining).any fun k =>
          slot scan.store.attributes k == type
      then (.error (.inr .attributesDuplicateType), scan)
      else (.ok (), scan) := by
  induction remaining generalizing j with
  | zero =>
      rfl
  | succ remaining ih =>
      have found :
          (lookUp fun scan : Scan Transaction =>
              cell scan.store.attributes j : CheckedSection UInt8) scan =
            (.ok (slot scan.store.attributes j), scan) :=
        lookUp_of_ok (cell_of_lt scan.store.attributes (by omega))
      unfold checkedDuplicateTypes
      rw [bind_of_ok found, exitIf_bind, ih (by omega), List.range'_succ,
        List.any_cons]
      by_cases same : slot scan.store.attributes j = type
      · rw [if_pos same, if_pos (by simp [same])]
      · rw [if_neg same, beq_eq_false_iff_ne.mpr same, Bool.false_or]

theorem checkedDuplicateAttribute_guards (type : UInt8) :
    Guards (Inside size FewAttributes) (fun _ => Inside size FewAttributes)
      (checkedDuplicateAttribute type)
      (exitWhen (duplicateAttribute type) .attributesDuplicateType) := by
  apply Guards.of_eq
  · intro scan inside
    have few : scan.store.attributesSize.toNat ≤ maxAttributes := inside.holds
    unfold checkedDuplicateAttribute
    rw [inspect_bind, checkedDuplicateTypes_eq type scan (by omega),
      ← List.range_eq_range', faultless_exitWhen]
    rfl
  · intro scan final value inside run
    obtain ⟨_, rfl⟩ := exitWhen_eq_ok_iff.mp run
    exact inside

theorem checkedAttributesFrom_guards
    {remaining i : Nat} (few : i + remaining ≤ maxAttributes) :
    Guards (Inside size FewAttributes) (fun _ => Inside size FewAttributes)
      (checkedAttributesFrom remaining i)
      (parseAttributesFrom remaining i) := by
  induction remaining generalizing i with
  | zero =>
      exact Guards.pure () fun inside => inside
  | succ remaining ih =>
      refine
        Guards.bind _ (Inside.local fetches_u8 readsBytes_u8 _)
          fun type => ?_
      refine Guards.exitIf _ _ fun _ => ?_
      refine
        Guards.bind _ (checkedDuplicateAttribute_guards type) fun _ => ?_
      refine
        Guards.bind (fun _ => Inside size FewAttributes)
          (Inside.put (fun tx => ?_) fun known => known)
          fun _ => ih (by omega)
      rw [setCell_pure_of_lt tx.attributes (by omega)]
      rfl

theorem checkedAttributes_guards :
    Guards (InsideAny size) (fun _ => Inside size FewAttributes)
      checkedAttributes parseAttributes := by
  refine
    Guards.bind _ (Inside.local fetches_varint readsBytes_varint _)
      fun length => ?_
  refine Guards.exitIf _ _ fun bounded => ?_
  have few : length.toNat ≤ maxAttributes := by
    have notMany : ¬ UInt64.ofNat maxAttributes < length := fun many =>
      bounded (.inl many)
    rw [UInt64.not_lt, UInt64.le_iff_toNat_le] at notMany
    exact notMany
  have two : maxAttributes = 2 := rfl
  refine Guards.narrow (by omega) ?_
  have kept : length.toUInt8.toNat = length.toNat := by
    rw [UInt64.toNat_toUInt8]
    omega
  rw [UInt8.ofNat_uInt64ToNat, kept]
  refine
    Guards.bind (fun _ => Inside size FewAttributes)
      (Inside.put (fun _ => rfl) fun _ => kept.trans_le few) fun _ => ?_
  exact checkedAttributesFrom_guards (by omega)

def ScriptInside (size : Nat) (tx : Transaction) : Prop :=
  ∃ position, tx.script = some position ∧
    position + tx.scriptSize.toNat ≤ size

theorem checkedScript_guards :
    Guards (Inside size FewAttributes)
      (fun _ => Inside size (ScriptInside size)) checkedScript
      parseScript := by
  let marked (scan : Scan Transaction) : Prop :=
    InsideAny size scan ∧ scan.store.script = some scan.buf.offset
  let skipped (count : Nat) (scan : Scan Transaction) : Prop :=
    InsideAny size scan ∧
      ∃ position, scan.store.script = some position ∧
        position + count ≤ size
  refine
    Guards.bind _ (Inside.local fetches_varint readsBytes_varint _)
      fun length => ?_
  refine
    Guards.bind (fun _ => marked)
      (Guards.markField (fun _ _ => rfl) fun inside =>
        ⟨⟨inside.wf, inside.size_eq, trivial⟩, rfl⟩)
      fun _ => ?_
  refine Guards.exitIf _ _ fun bounded => ?_
  have few : length.toNat ≤ 0xFFFF := by
    have notMany : ¬ 0xFFFF < length := fun many => bounded (.inl many)
    rw [UInt64.not_lt, UInt64.le_iff_toNat_le] at notMany
    exact notMany
  have small : length.toNat < sizeModulus := by
    unfold sizeModulus
    omega
  refine Guards.narrow small ?_
  rw [Nat.mod_eq_of_lt small]
  refine
    Guards.bind (fun _ => skipped length.toNat)
      (Guards.seekCur small _ (fun known => known.1.wf) ?_) fun _ => ?_
  · rintro scan ⟨inside, stored⟩ available
    have rest := inside.wf.length_rest
    have offset := inside.wf.offset_le
    have sizeEq := inside.size_eq
    exact
      ⟨inside.advance available trivial, scan.buf.offset, stored, by omega⟩
  · refine Guards.narrow (by omega) ?_
    rw [UInt16.ofNat_uInt64ToNat]
    refine Guards.assignField (fun _ => rfl) ?_
    rintro scan ⟨inside, position, stored, fits⟩
    refine ⟨inside.wf, inside.size_eq, position, stored, ?_⟩
    change position + length.toUInt16.toNat ≤ size
    rw [UInt64.toNat_toUInt16]
    omega

theorem checkedFields_guards (sdk : Sdk) :
    Guards (InsideAny size) (fun _ => Inside size (ScriptInside size))
      (checkedFields sdk) (parseFields sdk) := by
  refine Guards.bind _ checkedHeader_guards fun _ => ?_
  refine Guards.bind _ (checkedSigners_guards sdk) fun _ => ?_
  exact Guards.bind _ checkedAttributes_guards fun _ => checkedScript_guards

/-! ## The recogniser -/

theorem checkedPeek_of_le
    {scan : Scan Transaction} (wf : scan.buf.Wf) {length : Nat}
    (available : length ≤ scan.buf.rest.length) :
    checkedPeek length scan = (.ok (peek scan length), scan) := by
  have rest := wf.length_rest
  have offset := wf.offset_le
  unfold checkedPeek
  rw [bind_of_ok (unread_eq wf), exitIf_bind,
    if_neg (Nat.not_lt.mpr available), inspect_bind]
  exact fetchBytes_eq (by omega) wf.size_le

theorem checkedPeek_of_lt
    {scan : Scan Transaction} (wf : scan.buf.Wf) {length : Nat}
    (missing : scan.buf.rest.length < length) :
    checkedPeek length scan = (.error (.inr ()), scan) := by
  unfold checkedPeek
  rw [bind_of_ok (unread_eq wf), exitIf_bind, if_pos missing]

/-- The next bytes are looked at if they are there, and then skipped. -/
theorem checkedPeek_guards
    {α : Type} {length : Nat}
    {checkedNext : List UInt8 → CheckedRecogniser α}
    {next : Unit → Recogniser α} {after : α → Scan Transaction → Prop}
    (tail : ∀ {scan}, InsideAny size scan → length ≤ scan.buf.rest.length →
      checkedNext (peek scan length) scan = faultless (next ()) scan)
    (leaves : ∀ {scan final value}, InsideAny size scan →
      length ≤ scan.buf.rest.length → next () scan = (.ok value, final) →
        after value final) :
    Guards (InsideAny size) after (checkedPeek length >>= checkedNext)
      (exitWhen (fun scan => !bufferCanRead scan.buf length) () >>= next)
    := by
  have canRead {scan : Scan Transaction} (wf : scan.buf.Wf) :
      (!bufferCanRead scan.buf length) = true ↔
        scan.buf.rest.length < length := by
    rw [Bool.not_eq_true', ← Bool.not_eq_true, wf.canRead_iff, Nat.not_le]
  apply Guards.of_eq
  · intro scan inside
    rw [faultless_bind, faultless_exitWhen, exitWhen_bind]
    by_cases available : length ≤ scan.buf.rest.length
    · rw [bind_of_ok (checkedPeek_of_le inside.wf available),
        if_neg (by rwa [canRead inside.wf, Nat.not_lt])]
      exact tail inside available
    · have missing := Nat.lt_of_not_le available
      rw [bind_of_error (checkedPeek_of_lt inside.wf missing),
        if_pos ((canRead inside.wf).mpr missing)]
  · intro scan final value inside run
    rw [exitWhen_bind] at run
    split at run
    · cases run
    · rename_i held
      rw [canRead inside.wf, Nat.not_lt] at held
      exact leaves inside held run

/-- The bytes looked at are skipped. -/
theorem skip_eq_seek
    {scan : Scan Transaction} (inside : InsideAny size scan) {length : Nat}
    (available : length ≤ scan.buf.rest.length) :
    ((skip length >>= fun _ => pure ()) : CheckedRecogniser Unit) scan =
        (.ok (), ⟨scan.buf.advance length, scan.store⟩) ∧
      (bufferSeekCur scan.buf length).2 = scan.buf.advance length := by
  rw [bind_of_ok (skip_of_le inside.wf available),
    inside.wf.seekCur_of_le available]
  exact ⟨rfl, rfl⟩

theorem checkedBytes_guards (sdk : Sdk) (expected : List UInt8) :
    Guards (InsideAny size) (fun _ => InsideAny size)
      (checkedBytes sdk expected) (expectBytes sdk expected) := by
  refine checkedPeek_guards ?_ ?_
  · intro scan inside available
    obtain ⟨skipped, sought⟩ := skip_eq_seek inside available
    rw [exitIf_bind, skipped, faultless_bind, faultless_exitWhen,
      exitWhen_bind]
    by_cases same :
        sdk.secureMemcmp (peek scan expected.length) expected
          expected.length = 0
    · rw [if_neg (not_not.mpr same), if_neg (by simp [same])]
      rw [faultless, assign_apply, sought]
    · rw [if_pos same, if_pos (by simpa using same)]
  · intro scan final value inside available run
    rw [exitWhen_bind] at run
    split at run
    · cases run
    · rw [assign_apply, (skip_eq_seek inside available).2] at run
      cases run
      exact inside.advance available trivial

/-- A scan inside its buffer with `length` bytes left. -/
def Ready (size length : Nat) (scan : Scan Transaction) : Prop :=
  InsideAny size scan ∧ length ≤ scan.buf.rest.length

theorem checkedMatch_guards (sdk : Sdk) (hash : List UInt8) {length : Nat} :
    Guards (Ready size length) (fun _ => Ready size length)
      (checkedMatch sdk hash) (matchContract sdk hash) := by
  unfold checkedMatch matchContract
  split
  · refine Guards.assignField (fun _ => rfl) ?_
    rintro scan ⟨inside, available⟩
    exact ⟨⟨inside.wf, inside.size_eq, trivial⟩, available⟩
  · apply Guards.of_eq
    · intro scan _
      rw [faultless_exitIf]
    · intro scan final value ready run
      obtain ⟨_, rfl⟩ := exitIf_eq_ok_iff.mp run
      exact ready

theorem skip_guards {length : Nat} :
    Guards (Ready size length) (fun _ => InsideAny size)
      (skip length >>= fun _ => pure ())
      (EarlyExit.assign fun scan =>
        { scan with buf := (bufferSeekCur scan.buf length).2 } :
        Recogniser Unit) := by
  apply Guards.of_eq
  · rintro scan ⟨inside, available⟩
    obtain ⟨skipped, sought⟩ := skip_eq_seek inside available
    rw [skipped, faultless, assign_apply, sought]
  · rintro scan final value ⟨inside, available⟩ run
    rw [assign_apply, (skip_eq_seek inside available).2] at run
    cases run
    exact inside.advance available trivial

theorem checkedContract_guards (sdk : Sdk) :
    Guards (InsideAny size) (fun _ => InsideAny size) (checkedContract sdk)
      (parseContract sdk) := by
  have matched (hash : List UInt8) :
      Guards (Ready size uint160Len) (fun _ => InsideAny size)
        (checkedMatch sdk hash >>= fun _ =>
          skip uint160Len >>= fun _ => pure ())
        (matchContract sdk hash >>= fun _ =>
          EarlyExit.assign fun scan =>
            { scan with buf := (bufferSeekCur scan.buf uint160Len).2 }) :=
    Guards.bind _ (checkedMatch_guards sdk hash) fun _ => skip_guards
  refine checkedPeek_guards ?_ ?_
  · intro scan inside available
    rw [faultless_bind, bind_of_ok (faultless_of_ok (inspect_apply _ _))]
    exact (matched (peek scan uint160Len)).eq ⟨inside, available⟩
  · intro scan final value inside available run
    rw [inspect_bind] at run
    exact
      (matched (peek scan uint160Len)).leaves ⟨inside, available⟩ run

/-- An assignment to a field of the record. -/
theorem checkedStore_guards
    {ε : Type} (put : Transaction → Transaction) :
    Guards (InsideAny size) (fun _ => InsideAny size)
      (checkedAssign (fun tx => pure (put tx)) : Checked Transaction ε Unit)
      (assignField put) :=
  Inside.put (fun _ => rfl) fun _ => trivial

theorem checkedAmount_guards (op : UInt8) :
    Guards (InsideAny size) (fun _ => InsideAny size) (checkedAmount op)
      (parseAmount op) := by
  have operand {α : Type} {checked : CheckedRecogniser (Bool × α)}
      {read : Buffer → Read α} (fetches : Fetches checked read)
      {format : α → List UInt8 → Prop} {zero : α}
      (reads : ReadsBytes read format zero) (amount : α → Int64) :
      Guards (InsideAny size) (fun _ => InsideAny size)
        (checkedLocal checked () >>= fun value =>
          checkedAssign fun tx => pure { tx with amount := amount value })
        (readLocal read () >>= fun value =>
          assignField fun tx => { tx with amount := amount value }) :=
    Guards.bind _ (Inside.local fetches reads ()) fun _ =>
      checkedStore_guards _
  unfold checkedAmount parseAmount
  split
  · exact checkedStore_guards _
  split
  · exact operand fetches_s8 readsBytes_s8 _
  split
  · exact operand fetches_s16_le readsBytes_s16_le _
  split
  · exact operand fetches_s32_le readsBytes_s32_le _
  split
  · exact operand fetches_s64_le readsBytes_s64_le _
  · apply Guards.of_eq
    · intro scan _
      rw [faultless_exitIf]
    · intro scan final value _ run
      exact absurd trivial (exitIf_eq_ok_iff.mp run).1

theorem checkedPushData20_guards :
    Guards (InsideAny size) (fun _ => InsideAny size) checkedPushData20
      expectPushData20 := by
  refine
    Guards.bind _ (Inside.local fetches_u16_be readsBytes_u16_be _)
      fun word => ?_
  apply Guards.of_eq
  · intro scan _
    rw [faultless_exitIf]
  · intro scan final value inside run
    obtain ⟨_, rfl⟩ := exitIf_eq_ok_iff.mp run
    exact inside

theorem checkedTake_guards {length : Nat} (small : length < sizeModulus) :
    Guards (InsideAny size) (fun _ => InsideAny size) (checkedTake length)
      (takeBytes length ()) := by
  have looks (scan : Scan Transaction) :
      takeBytes length () scan =
        (seekCur length () >>= fun _ => pure (peek scan length) :
          Recogniser (List UInt8)) scan :=
    bind_of_ok (inspect_apply _ scan)
  have seek :
      Guards (InsideAny size) (fun _ => InsideAny size)
        (checkedSeek length () : CheckedRecogniser Unit)
        (seekCur length ()) :=
    Inside.seek small ()
  apply Guards.of_eq
  · rintro ⟨buffer, tx⟩ inside
    have wf : buffer.Wf := inside.wf
    unfold checkedTake
    rw [inspect_bind]
    by_cases available : length ≤ buffer.rest.length
    · have sought : (seekCur length () : Recogniser Unit) ⟨buffer, tx⟩ =
          (.ok (), ⟨buffer.advance length, tx⟩) :=
        seekCur_of_le wf available
      have rest := wf.length_rest
      have offset := wf.offset_le
      have bytes :
          (fetchBytes length buffer.offset :
              CheckedRecogniser (List UInt8))
              ⟨buffer.advance length, tx⟩ =
            (.ok ((buffer.ptr.drop buffer.offset).take length),
              ⟨buffer.advance length, tx⟩) :=
        fetchBytes_eq (by change buffer.offset + length ≤ buffer.size; omega)
          wf.size_le
      rw [bind_of_ok ((seek.eq inside).trans (faultless_of_ok sought)),
        faultless, looks, bind_of_ok sought, bytes]
      rfl
    · have sought : (seekCur length () : Recogniser Unit) ⟨buffer, tx⟩ =
          (.error (), ⟨buffer, tx⟩) :=
        seekCur_of_lt wf (Nat.lt_of_not_le available) small
      rw [bind_of_error ((seek.eq inside).trans (faultless_of_error sought)),
        faultless, looks, bind_of_error sought]
  · intro scan final value inside run
    rw [looks] at run
    obtain ⟨_, middle, sought, ended⟩ := bind_eq_ok_iff.mp run
    cases ended
    exact seek.leaves inside sought

theorem checkedCall_guards (sdk : Sdk) :
    Guards (InsideAny size) (fun _ => InsideAny size) (checkedCall sdk)
      (recogniseCall sdk) := by
  refine
    Guards.bind _ (Inside.local fetches_u8 readsBytes_u8 _) fun _ => ?_
  refine Guards.exitIf _ _ fun _ => ?_
  refine
    Guards.bind _
      (Guards.bind _ (Inside.local fetches_u8 readsBytes_u8 _)
        checkedAmount_guards)
      fun _ => ?_
  refine Guards.bind _ checkedPushData20_guards fun _ => ?_
  refine Guards.bind _ (checkedTake_guards (by decide)) fun _ => ?_
  refine Guards.bind _ (checkedStore_guards _) fun _ => ?_
  refine Guards.bind _ checkedPushData20_guards fun _ => ?_
  refine Guards.bind _ (Inside.seek (by decide) _) fun _ => ?_
  refine Guards.bind _ (checkedBytes_guards sdk _) fun _ => ?_
  refine Guards.bind _ (checkedContract_guards sdk) fun _ => ?_
  exact checkedBytes_guards sdk _

theorem checkedTransfer_guards (sdk : Sdk) :
    Guards (InsideAny size) (fun _ => InsideAny size) (checkedTransfer sdk)
      (recogniseTransfer sdk) := by
  refine Guards.bind _ (checkedCall_guards sdk) fun _ => ?_
  refine
    Guards.bind (fun _ => InsideAny size)
      (Guards.exitWhen _ _ fun _ inside => inside)
      fun _ => checkedStore_guards _

/-- No access of the recogniser goes wrong. -/
theorem checkedTransferScript_eq
    (sdk : Sdk) {script : Buffer} (wf : script.Wf) (tx : Transaction) :
    checkedTransferScript sdk script tx =
      .ok (tryParseTransferScript sdk script tx) := by
  have run :=
    (checkedTransfer_guards sdk).eq
      (show InsideAny script.size ⟨script, tx⟩ from ⟨wf, rfl, trivial⟩)
  unfold checkedTransferScript tryParseTransferScript
  rw [run, faultless]
  rcases recogniseTransfer sdk ⟨script, tx⟩ with ⟨code | value, final⟩
  · rfl
  · rfl

/-! ## The whole parser -/

theorem checkedBody_eq
    (sdk : Sdk) {scan : Scan Transaction} (inside : InsideAny size scan) :
    checkedBody sdk scan = faultless (deserialize sdk) scan := by
  have script {scan : Scan Transaction}
      (inside : Inside size (ScriptInside size) scan) :
      checkedScriptBuffer scan = .ok (scriptBuffer scan) ∧
        (scriptBuffer scan).Wf := by
    obtain ⟨position, stored, fits⟩ := inside.holds
    have held := inside.wf.size_le
    have small := inside.wf.size_lt
    have sizeEq := inside.size_eq
    unfold checkedScriptBuffer scriptBuffer
    rw [stored]
    refine ⟨if_pos (sizeEq ▸ fits), Nat.zero_le _, ?_, ?_⟩
    · change scan.store.scriptSize.toNat ≤ (scan.buf.ptr.drop position).length
      rw [List.length_drop]
      omega
    · change scan.store.scriptSize.toNat < sizeModulus
      omega
  have last (scan : Scan Transaction) :
      (exitWhen (fun scan => scan.buf.offset != scan.buf.size)
          (.inr .invalidLengthError) : CheckedSection Unit) scan =
        faultless
          (exitWhen (fun scan => scan.buf.offset != scan.buf.size)
            .invalidLengthError : Section Unit) scan := by
    rw [faultless_exitWhen]
  unfold checkedBody deserialize
  rw [faultless_bind, faultless_exitWhen, exitWhen_bind, exitWhen_bind]
  split
  · rfl
  rw [faultless_bind]
  have fields :
      Guards (InsideAny size) (fun _ => Inside size (ScriptInside size))
        (checkedFields sdk) (parseFields sdk) :=
    checkedFields_guards sdk
  rcases run : parseFields sdk scan with ⟨code | value, middle⟩
  · rw [bind_of_error ((fields.eq inside).trans (faultless_of_error run)),
      bind_of_error (faultless_of_error run)]
  · obtain ⟨found, wf⟩ := script (fields.leaves inside run)
    rw [bind_of_ok ((fields.eq inside).trans (faultless_of_ok run)),
      bind_of_ok (faultless_of_ok run), bind_of_ok (lookUp_of_ok found),
      bind_of_ok
        (checkedAssign_of_ok (checkedTransferScript_eq sdk wf middle.store)),
      faultless_bind, bind_of_ok (faultless_of_ok (assign_apply _ _))]
    exact last _

end Neo3App
