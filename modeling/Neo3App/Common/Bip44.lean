import Mathlib.Tactic.IntervalCases
import Neo3App.Common.Scan
import Neo3App.Globals

/-!
# Key paths

`buffer_read_and_validate_bip44` of `common/bip44.c`.  Each component is
stored as soon as it has passed its own check, so a refused path leaves the
components before the refused one behind.
-/

namespace Neo3App

open Neo3App.Lib
open Neo3App.Lib.EarlyExit

def bip44ByteLength : Nat := bip44PathLen * 4
def bip44CoinTypeNeo : UInt32 := 0x80000378
def bip44Purpose : UInt32 := 0x8000002C

/-- The validator reads a buffer, fills the path and exits with a status. -/
abbrev PathReader (α : Type) : Type :=
  Parser Bip44Path UInt16 α

/-- `buffer_read_u32(in, &bip_level, BE);` -/
def readBipLevel : PathReader UInt32 :=
  fun scan =>
    let result := bufferReadU32 scan.buf .be
    (.ok result.value, { scan with buf := result.buffer })

/-- `bip44path_out[i] = bip_level;` -/
def storeBipLevel (i : Nat) (level : UInt32) : PathReader Unit :=
  assignField fun path => modifySlot path i fun _ => level

def bufferReadAndValidateBip44 : PathReader Unit := do
  exitWhen (fun scan => scan.buf.size < bip44ByteLength) swWrongDataLength
  let purpose ← readBipLevel
  exitIf (purpose ≠ bip44Purpose) swBip44BadPurpose
  storeBipLevel 0 purpose
  let coinType ← readBipLevel
  exitIf (coinType ≠ bip44CoinTypeNeo) swBip44BadCoinType
  storeBipLevel 1 coinType
  let account ← readBipLevel
  exitIf (account < 0x80000000) swBip44AccountNotHardened
  exitIf (account > 0x80000010) swBip44BadAccount
  storeBipLevel 2 account
  let change ← readBipLevel
  exitIf (change ≠ 0 ∧ change ≠ 1) swBip44BadChange
  storeBipLevel 3 change
  let address ← readBipLevel
  exitIf (address ≥ 5000) swBip44BadAddress
  storeBipLevel 4 address

/-- What the validator makes of the bytes `data`: the path it leaves, and
the status word when it refuses. -/
def validatePath (data : List UInt8) (path : Bip44Path) :
    Except UInt16 Unit × Bip44Path :=
  let result :=
    bufferReadAndValidateBip44 ⟨⟨data, data.length, 0⟩, path⟩
  (result.1, result.2.store)

/-- The path that the first twenty bytes spell. -/
def pathWords (data : List UInt8) : Bip44Path :=
  #v[readU32Be data 0, readU32Be data 4, readU32Be data 8,
    readU32Be data 12, readU32Be data 16]

structure ValidPath (path : Bip44Path) : Prop where
  purpose : slot path 0 = 0x8000002C
  coinType : slot path 1 = 0x80000378
  hardened : 0x80000000 ≤ slot path 2
  account : slot path 2 ≤ 0x80000010
  change : slot path 3 = 0 ∨ slot path 3 = 1
  address : slot path 4 < 5000

theorem readBipLevel_eq
    {data : List UInt8} {offset : Nat} (path : Bip44Path)
    (small : data.length < sizeModulus) (inside : offset + 4 ≤ data.length) :
    readBipLevel ⟨⟨data, data.length, offset⟩, path⟩ =
      (.ok (readU32Be data offset),
        ⟨⟨data, data.length, offset + 4⟩, path⟩) := by
  have wf : Buffer.Wf ⟨data, data.length, offset⟩ :=
    ⟨by change offset ≤ data.length; omega, Nat.le_refl _, small⟩
  have available :
      4 ≤ (Buffer.rest ⟨data, data.length, offset⟩).length := by
    rw [wf.length_rest]
    change 4 ≤ data.length - offset
    omega
  rw [readBipLevel, bufferReadU32, wf.read_of_le _ _ available]
  rfl

theorem readBipLevel_bind
    {data : List UInt8} {offset : Nat} (small : data.length < sizeModulus)
    (inside : offset + 4 ≤ data.length)
    (next : UInt32 → PathReader Unit) (path : Bip44Path) :
    (readBipLevel >>= next) ⟨⟨data, data.length, offset⟩, path⟩ =
      next (readU32Be data offset)
        ⟨⟨data, data.length, offset + 4⟩, path⟩ :=
  bind_of_ok (readBipLevel_eq path small inside)

theorem validPath_pathWords_iff {data : List UInt8} :
    ValidPath (pathWords data) ↔
      readU32Be data 0 = bip44Purpose ∧
        readU32Be data 4 = bip44CoinTypeNeo ∧
          ¬ readU32Be data 8 < 0x80000000 ∧
            ¬ readU32Be data 8 > 0x80000010 ∧
              ¬ (readU32Be data 12 ≠ 0 ∧ readU32Be data 12 ≠ 1) ∧
                ¬ readU32Be data 16 ≥ 5000 := by
  simp only [gt_iff_lt, ge_iff_le, UInt32.not_lt, UInt32.not_le, not_and,
    not_not]
  constructor
  · rintro ⟨purpose, coinType, hardened, account, change, address⟩
    exact
      ⟨purpose, coinType, hardened, account,
        fun notZero => change.resolve_left notZero, address⟩
  · rintro ⟨purpose, coinType, hardened, account, change, address⟩
    exact
      ⟨purpose, coinType, hardened, account,
        Classical.or_iff_not_imp_left.mpr change, address⟩

/-- The path with its five components stored. -/
theorem storeBipLevels_eq (data : List UInt8) (before : Bip44Path) :
    (modifySlot
      (modifySlot
        (modifySlot
          (modifySlot
            (modifySlot before 0 fun _ => readU32Be data 0) 1
            fun _ => readU32Be data 4) 2
          fun _ => readU32Be data 8) 3
        fun _ => readU32Be data 12) 4
      fun _ => readU32Be data 16) = pathWords data := by
  ext i inside
  simp only [getElem_modifySlot]
  have small : i < 5 := inside
  interval_cases i <;> rfl

theorem storeBipLevel_bind
    (i : Nat) (level : UInt32) (next : Unit → PathReader Unit)
    (buffer : Buffer) (path : Bip44Path) :
    (storeBipLevel i level >>= next) ⟨buffer, path⟩ =
      next () ⟨buffer, modifySlot path i fun _ => level⟩ :=
  bind_of_ok rfl

/-- A component that is checked and stored before the rest is read. -/
theorem checkedLevel_eq_ok_iff
    (refused : Prop) [Decidable refused] (code : UInt16)
    (next : Unit → PathReader Unit) (scan final : Scan Bip44Path) :
    (exitIf refused code >>= next) scan = (.ok (), final) ↔
      ¬ refused ∧ next () scan = (.ok (), final) := by
  rw [exitIf_bind]
  by_cases refusal : refused
  · rw [if_pos refusal]
    simp [refusal]
  · rw [if_neg refusal]
    simp [refusal]

/-- A validation succeeds exactly on twenty bytes that spell a path of the
application. -/
theorem bufferReadAndValidateBip44_eq_ok_iff
    {data : List UInt8} (small : data.length < sizeModulus)
    (before : Bip44Path) (final : Scan Bip44Path) :
    bufferReadAndValidateBip44 ⟨⟨data, data.length, 0⟩, before⟩ =
        (.ok (), final) ↔
      20 ≤ data.length ∧ ValidPath (pathWords data) ∧
        final = ⟨⟨data, data.length, 20⟩, pathWords data⟩ := by
  unfold bufferReadAndValidateBip44
  rw [exitWhen_bind]
  by_cases long : 20 ≤ data.length
  swap
  · have tooShort : data.length < bip44ByteLength := by
      change data.length < 20
      omega
    rw [if_pos (by simpa using tooShort)]
    simp [long]
  have enough : ¬ data.length < bip44ByteLength := by
    change ¬ data.length < 20
    omega
  rw [validPath_pathWords_iff, ← storeBipLevels_eq data before]
  rw [if_neg (by simpa using enough),
    readBipLevel_bind small (by omega), checkedLevel_eq_ok_iff,
    storeBipLevel_bind, readBipLevel_bind small (by omega),
    checkedLevel_eq_ok_iff, storeBipLevel_bind,
    readBipLevel_bind small (by omega), checkedLevel_eq_ok_iff,
    checkedLevel_eq_ok_iff, storeBipLevel_bind,
    readBipLevel_bind small (by omega), checkedLevel_eq_ok_iff,
    storeBipLevel_bind, readBipLevel_bind small (by omega),
    checkedLevel_eq_ok_iff]
  simp only [Nat.zero_add, Nat.reduceAdd, not_ne_iff, and_assoc, long,
    true_and]
  refine and_congr_right' (and_congr_right' (and_congr_right'
    (and_congr_right' (and_congr_right' (and_congr_right' ?_)))))
  constructor
  · intro stored
    cases stored
    rfl
  · intro stored
    rw [stored]
    rfl

/-- **What is accepted.** A path is accepted exactly when twenty bytes are
there and spell a path of the application; then it is stored whole. -/
theorem validatePath_eq_ok_iff
    {data : List UInt8} (small : data.length < sizeModulus)
    (before after : Bip44Path) :
    validatePath data before = (.ok (), after) ↔
      20 ≤ data.length ∧ ValidPath (pathWords data) ∧
        after = pathWords data := by
  rw [validatePath, Prod.mk.injEq]
  have accepted := bufferReadAndValidateBip44_eq_ok_iff small before
  constructor
  · rintro ⟨good, stored⟩
    obtain ⟨long, isValid, isFinal⟩ := (accepted _).mp (Prod.ext good rfl)
    exact ⟨long, isValid, stored.symm.trans (congrArg Scan.store isFinal)⟩
  · rintro ⟨long, isValid, stored⟩
    rw [(accepted _).mpr ⟨long, isValid, rfl⟩]
    exact ⟨rfl, stored.symm⟩

end Neo3App
