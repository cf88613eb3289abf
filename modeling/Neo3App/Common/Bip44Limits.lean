import Neo3App.Common.Bip44

/-!
# The documented key paths

The limits of `sw.h` and of the documentation against those of the
validator.
-/

namespace Neo3App

open Neo3App.Lib
open Neo3App.Lib.EarlyExit

/-- The status word of the first component that offends, with the last
account and the last address that are allowed. -/
def pathOffence (lastAccount lastAddress : UInt32) (path : Bip44Path) :
    Option UInt16 :=
  if slot path 0 ≠ 0x8000002C then some swBip44BadPurpose
  else if slot path 1 ≠ 0x80000378 then some swBip44BadCoinType
  else if slot path 2 < 0x80000000 then some swBip44AccountNotHardened
  else if lastAccount < slot path 2 then some swBip44BadAccount
  else if slot path 3 ≠ 0 ∧ slot path 3 ≠ 1 then some swBip44BadChange
  else if lastAddress < slot path 4 then some swBip44BadAddress
  else none

/-- The documented limits: account 10 and address 5000. -/
def documentedOffence (path : Bip44Path) : Option UInt16 :=
  pathOffence (0x80000000 + 10) 5000 path

/-- What the documentation says about the validation of a payload. -/
structure ValidatesAsDocumented (data : List UInt8) : Prop where
  accepts_iff : ∀ before : Bip44Path,
    (validatePath data before).1 = .ok () ↔
      20 ≤ data.length ∧ documentedOffence (pathWords data) = none
  stored : ∀ before : Bip44Path,
    (validatePath data before).1 = .ok () →
      (validatePath data before).2 = pathWords data
  short : ∀ before : Bip44Path, data.length < 20 →
    (validatePath data before).1 = .error swWrongDataLength
  offence : ∀ (before : Bip44Path) (code : UInt16), 20 ≤ data.length →
    documentedOffence (pathWords data) = some code →
      (validatePath data before).1 = .error code

/-- The paths for which the validator and the documentation differ: an
account from 11 to 16, or the address 5000. -/
def OtherLimit (path : Bip44Path) : Prop :=
  slot path 0 = 0x8000002C ∧ slot path 1 = 0x80000378 ∧
    0x80000000 ≤ slot path 2 ∧
      ((0x8000000A < slot path 2 ∧ slot path 2 ≤ 0x80000010) ∨
        (slot path 2 ≤ 0x8000000A ∧ (slot path 3 = 0 ∨ slot path 3 = 1) ∧
          slot path 4 = 5000))

def refusal : Option UInt16 → Except UInt16 Unit
  | none => .ok ()
  | some code => .error code

/-- A check that both sides make. -/
theorem fst_ite_eq_refusal
    {refused : Prop} [Decidable refused] {code : UInt16}
    {stop : Scan Bip44Path} {rest : Except UInt16 Unit × Scan Bip44Path}
    {other : Option UInt16} (continues : rest.1 = refusal other) :
    (if refused then (.error code, stop) else rest).1 =
      refusal (if refused then some code else other) := by
  by_cases stops : refused
  · rw [if_pos stops, if_pos stops]
    rfl
  · rw [if_neg stops, if_neg stops]
    exact continues

/-- The result of a validation. -/
theorem validatePath_fst
    {data : List UInt8} (small : data.length < sizeModulus)
    (before : Bip44Path) :
    (validatePath data before).1 =
      if data.length < 20 then .error swWrongDataLength
      else refusal (pathOffence 0x80000010 4999 (pathWords data)) := by
  unfold validatePath bufferReadAndValidateBip44 pathOffence
  dsimp only
  rw [exitWhen_bind]
  by_cases long : 20 ≤ data.length
  swap
  · have tooShort : data.length < bip44ByteLength := by
      change data.length < 20
      omega
    rw [if_pos (by simpa using tooShort), if_pos (by omega)]
  have enough : ¬ data.length < bip44ByteLength := by
    change ¬ data.length < 20
    omega
  rw [if_neg (by simpa using enough), if_neg (by omega),
    readBipLevel_bind small (by omega), exitIf_bind]
  apply fst_ite_eq_refusal
  rw [storeBipLevel_bind, readBipLevel_bind small (by omega), exitIf_bind]
  apply fst_ite_eq_refusal
  rw [storeBipLevel_bind, readBipLevel_bind small (by omega), exitIf_bind]
  apply fst_ite_eq_refusal
  rw [exitIf_bind]
  apply fst_ite_eq_refusal
  rw [storeBipLevel_bind, readBipLevel_bind small (by omega), exitIf_bind]
  apply fst_ite_eq_refusal
  rw [storeBipLevel_bind, readBipLevel_bind small (by omega), exitIf_bind]
  have last : 4999 < readU32Be data 16 ↔ readU32Be data 16 ≥ 5000 := by
    rw [UInt32.lt_iff_toNat_lt, ge_iff_le, UInt32.le_iff_toNat_le]
    rfl
  change _ = refusal (if 4999 < readU32Be data 16 then _ else _)
  rw [if_congr last rfl rfl]
  exact fst_ite_eq_refusal rfl

theorem refusal_injective {first second : Option UInt16}
    (equal : refusal first = refusal second) : first = second := by
  cases first with
  | none =>
      cases second with
      | none => rfl
      | some code => cases equal
  | some code =>
      cases second with
      | none => cases equal
      | some other =>
          cases equal
          rfl

/-- The two limits make a difference for the other limits only. -/
theorem pathOffence_eq_iff (path : Bip44Path) :
    pathOffence 0x80000010 4999 path = documentedOffence path ↔
      ¬ OtherLimit path := by
  have account : (0x80000000 + 10 : UInt32) = 0x8000000A := rfl
  unfold documentedOffence pathOffence OtherLimit
  rw [account]
  generalize slot path 0 = purpose
  generalize slot path 1 = coinType
  generalize slot path 2 = account
  generalize slot path 3 = change
  generalize slot path 4 = address
  by_cases isPurpose : purpose = 0x8000002C
  swap
  · simp [isPurpose]
  by_cases isCoinType : coinType = 0x80000378
  swap
  · simp [isPurpose, isCoinType]
  by_cases hardened : account < 0x80000000
  · simp [isPurpose, isCoinType, hardened]
  have isHardened := UInt32.not_lt.mp hardened
  by_cases beyond : 0x8000000A < account
  · have notWithin := UInt32.not_le.mpr beyond
    by_cases far : 0x80000010 < account
    · simp [isPurpose, isCoinType, hardened, beyond, far]
    · have within := UInt32.not_lt.mp far
      have changeDiffers : swBip44BadChange ≠ swBip44BadAccount := by decide
      have addressDiffers : swBip44BadAddress ≠ swBip44BadAccount := by decide
      simp only [isPurpose, isCoinType, hardened, beyond, far, within,
        isHardened, ne_eq, not_true_eq_false, if_false, if_true,
        and_self, true_or, iff_false]
      split
      · exact fun same => changeDiffers (Option.some.inj same)
      · split
        · exact fun same => addressDiffers (Option.some.inj same)
        · exact fun same => by cases same
  · have within := UInt32.not_lt.mp beyond
    have notFar : ¬ 0x80000010 < account := by
      rw [UInt32.not_lt]
      exact UInt32.le_trans within (by decide)
    by_cases changes : change = 0 ∨ change = 1
    · have allowed : ¬ (¬ change = 0 ∧ ¬ change = 1) := by
        rw [← not_or, not_not]
        exact changes
      simp only [isPurpose, isCoinType, hardened, beyond, notFar, within,
        isHardened, changes, allowed, ne_eq, not_true_eq_false, if_false,
        false_and, true_and, false_or]
      have lower : 4999 < address ↔ 4999 < address.toNat :=
        UInt32.lt_iff_toNat_lt
      have upper : 5000 < address ↔ 5000 < address.toNat :=
        UInt32.lt_iff_toNat_lt
      have boundary : address = 5000 ↔ address.toNat = 5000 :=
        UInt32.toNat_inj.symm
      rw [if_congr lower rfl rfl, if_congr upper rfl rfl, boundary]
      by_cases low : 4999 < address.toNat
      · by_cases high : 5000 < address.toNat
        · simp [low, high]
          omega
        · simp [low, high]
          omega
      · have notHigh : ¬ 5000 < address.toNat := by
          omega
        simp [low, notHigh]
        omega
    · have refused := not_or.mp changes
      simp [isPurpose, isCoinType, hardened, beyond, notFar, refused]

/-- **The documented paths are accepted** exactly by the payloads that do not
reach the two limits in which the validator differs. -/
theorem validatesAsDocumented_iff
    {data : List UInt8} (small : data.length < sizeModulus) :
    ValidatesAsDocumented data ↔
      data.length < 20 ∨ ¬ OtherLimit (pathWords data) := by
  have result := validatePath_fst small
  by_cases short : data.length < 20
  · simp only [if_pos short] at result
    refine ⟨fun _ => .inl short, fun _ => ?_⟩
    constructor
    · intro before
      rw [result]
      refine ⟨fun accepted => ?_, fun documented => ?_⟩
      · cases accepted
      · exact absurd documented.1 (Nat.not_le.mpr short)
    · intro before accepted
      rw [result] at accepted
      cases accepted
    · intro before _
      exact result before
    · intro before code long _
      omega
  simp only [if_neg short] at result
  rw [← pathOffence_eq_iff, or_iff_right short]
  constructor
  · intro documented
    cases offence : documentedOffence (pathWords data) with
    | none =>
        have accepted :=
          (documented.accepts_iff GlobalCtx.zero.bip44Path).mpr
            ⟨by omega, offence⟩
        exact refusal_injective ((result _).symm.trans accepted)
    | some code =>
        have refused :=
          documented.offence GlobalCtx.zero.bip44Path code (by omega) offence
        exact refusal_injective ((result _).symm.trans refused)
  · intro same
    simp only [same] at result
    constructor
    · intro before
      rw [result]
      refine ⟨fun accepted => ⟨by omega, refusal_injective accepted⟩, ?_⟩
      intro documented
      rw [documented.2]
      rfl
    · intro before accepted
      exact ((validatePath_eq_ok_iff small before _).mp
        (Prod.ext accepted rfl)).2.2
    · intro before isShort
      exact absurd isShort short
    · intro before code _ offence
      rw [result, offence]
      rfl

def accountPayload (account : UInt8) : List UInt8 :=
  [0x80, 0, 0, 0x2C, 0x80, 0, 3, 0x78, 0x80, 0, 0, account, 0, 0, 0, 0,
    0, 0, 0, 0]

/-- The first account. -/
theorem validatesAsDocumented_iff_first :
    ValidatesAsDocumented (accountPayload 0) ↔
      (accountPayload 0).length < 20 ∨
        ¬ OtherLimit (pathWords (accountPayload 0)) :=
  validatesAsDocumented_iff (by decide)

/-- The account 16 is accepted. -/
theorem not_validatesAsDocumented_sixteen :
    ¬ ValidatesAsDocumented (accountPayload 16) := by
  intro documented
  have accepted :
      (validatePath (accountPayload 16) GlobalCtx.zero.bip44Path).1 =
        .ok () := by
    rw [validatePath_fst (by decide)]
    decide +kernel
  have allowed := ((documented.accepts_iff _).mp accepted).2
  exact absurd allowed (by decide +kernel)

end Neo3App
