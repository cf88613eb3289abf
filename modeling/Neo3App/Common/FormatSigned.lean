import Mathlib.Data.List.Induction
import Neo3App.Common.Format

/-!
# Printing signed numbers

`format_i64` of `common/format.c`, which takes the digits from the remainders
of a truncated division and a sign factor, and writes them through a scratch
array.
-/

namespace Neo3App

open Neo3App.Lib

def formatI64Sign (value : Int64) : Int64 :=
  if value < 0 then -1 else 1

/-- `temp`, `ptr - temp` and `num`. -/
structure I64Digits where
  temp : List Char
  ptr : Nat
  num : Int64

def formatI64Start (value : Int64) : I64Digits where
  temp := "-9223372036854775808\x00".toList
  ptr := 0
  num := value

/-- One turn of `while (num != 0)`. -/
def formatI64Turn (sign : Int64) (state : I64Digits) : I64Digits where
  temp :=
    state.temp.set state.ptr
      (Char.ofNat (48 + state.num % 10 * sign).toInt.toNat)
  ptr := state.ptr + 1
  num := state.num / 10

/-- `while (num != 0)`, with a bound on its turns. -/
def formatI64Loop (sign : Int64) : Nat → I64Digits → I64Digits
  | 0, state => state
  | turns + 1, state =>
      if state.num ≠ 0 then
        formatI64Loop sign turns (formatI64Turn sign state)
      else state

/-- `temp` and `ptr - temp` before the check of `dst_len`. -/
def formatI64Temp (value : Int64) : List Char × Nat :=
  let state := formatI64Loop (formatI64Sign value) 20 (formatI64Start value)
  if value < 0 then (state.temp.set state.ptr '-', state.ptr + 1)
  else if value = 0 then (state.temp.set state.ptr '0', state.ptr + 1)
  else (state.temp, state.ptr)

/-- `while (--ptr >= temp)`: `dst` and `index`. -/
def formatI64Copy (temp : List Char) :
    Nat → List Char → Nat → List Char × Nat
  | 0, dst, index => (dst, index)
  | ptr + 1, dst, index =>
      formatI64Copy temp ptr (dst.set index (temp.getD ptr '\x00'))
        (index + 1)

def formatI64 (dst : List Char) (dstLen : Nat) (value : Int64) :
    Bool × List Char :=
  let (temp, ptr) := formatI64Temp value
  let distance : Int := ptr + 1
  if sizeToInt dstLen < distance then (false, dst)
  else
    let (dst, index) := formatI64Copy temp ptr dst 0
    (true, dst.set index '\x00')

example :
    formatI64 (zeros 6) 6 (-120) = (true, "-120".toList ++ zeros 2) := by
  decide +kernel

theorem formatI64Sign_toInt (value : Int64) :
    (formatI64Sign value).toInt = if value.toInt < 0 then -1 else 1 := by
  unfold formatI64Sign
  by_cases negative : value < 0
  · have below : value.toInt < 0 := Int64.lt_iff_toInt_lt.mp negative
    rw [if_pos negative, if_pos below]
    rfl
  · have above : ¬ value.toInt < 0 :=
      fun below => negative (Int64.lt_iff_toInt_lt.mpr below)
    rw [if_neg negative, if_neg above]
    rfl

/-- What a turn computes: the arithmetic is exact on the integers, the
character is a digit and the index is inside `temp`. -/
structure ExactTurn (sign : Int64) (state : I64Digits) : Prop where
  index_lt : state.ptr < 19
  product : (state.num % 10 * sign).toInt =
    state.num.toInt.tmod 10 * sign.toInt
  sum : (48 + state.num % 10 * sign).toInt =
    48 + state.num.toInt.tmod 10 * sign.toInt
  digit : 48 ≤ (48 + state.num % 10 * sign).toInt ∧
    (48 + state.num % 10 * sign).toInt ≤ 57
  quotient : (state.num / 10).toInt = state.num.toInt.tdiv 10

/-- The digit that a turn takes from a number of the given sign. -/
theorem tmod_mul_sign {num sign : Int}
    (agrees : num.natAbs = sign * num) (unit : sign = 1 ∨ sign = -1) :
    num.tmod 10 * sign = (num.natAbs % 10 : Nat) := by
  rcases unit with rfl | rfl
  · rw [Int.tmod_eq_emod_of_nonneg (by omega)]
    omega
  · obtain ⟨magnitude, rfl⟩ : ∃ magnitude, num = -magnitude := ⟨-num, by omega⟩
    rw [Int.neg_tmod, Int.tmod_eq_emod_of_nonneg (by omega)]
    omega

theorem toInt_num_mod (num : Int64) :
    (num % 10).toInt = num.toInt.tmod 10 :=
  Int64.toInt_mod num 10

theorem toInt_num_div (num : Int64) :
    (num / 10).toInt = num.toInt.tdiv 10 :=
  Int64.toInt_div_of_ne_right num 10 (by decide)

theorem formatI64Sign_unit (value : Int64) :
    (formatI64Sign value).toInt = 1 ∨ (formatI64Sign value).toInt = -1 := by
  rw [formatI64Sign_toInt]
  split
  · exact .inr rfl
  · exact .inl rfl

theorem toInt_digit
    {num sign : Int64} (agrees : num.toInt.natAbs = sign.toInt * num.toInt)
    (unit : sign.toInt = 1 ∨ sign.toInt = -1) :
    (num % 10 * sign).toInt = (num.toInt.natAbs % 10 : Nat) ∧
      (48 + num % 10 * sign).toInt = 48 + (num.toInt.natAbs % 10 : Nat) := by
  have digit := tmod_mul_sign agrees unit
  have product :
      (num % 10 * sign).toInt = (num.toInt.natAbs % 10 : Nat) := by
    rw [Int64.toInt_mul, toInt_num_mod, digit,
      Int.bmod_eq_of_le (by omega) (by omega)]
  refine ⟨product, ?_⟩
  rw [Int64.toInt_add, product]
  exact Int.bmod_eq_of_le (by change _ ≤ (48 : Int) + _; omega)
    (by change (48 : Int) + _ < _; omega)

theorem digitChar_eq_ofNat {digit : Nat} (small : digit < 10) :
    Nat.digitChar digit = Char.ofNat (48 + digit) := by
  have table : ∀ d : Fin 10, Nat.digitChar d.val = Char.ofNat (48 + d.val) := by
    decide
  exact table ⟨digit, small⟩

/-! ## The loop -/

def formatI64State (value : Int64) : Nat → I64Digits
  | 0 => formatI64Start value
  | count + 1 =>
      formatI64Turn (formatI64Sign value) (formatI64State value count)

/-- After `count` turns the last `count` digits have been written, last digit
first, and the others are left in `num`. -/
structure DigitsWritten (value : Int64) (count : Nat) : Prop where
  magnitude :
    (formatI64State value count).num.toInt.natAbs =
      value.toInt.natAbs / 10 ^ count
  agrees :
    ((formatI64State value count).num.toInt.natAbs : Int) =
      (formatI64Sign value).toInt * (formatI64State value count).num.toInt
  index : (formatI64State value count).ptr = count
  cells :
    (formatI64State value count).temp =
      (lastDigits count value.toInt.natAbs).reverse ++
        (formatI64Start value).temp.drop count

theorem length_formatI64Start (value : Int64) :
    (formatI64Start value).temp.length = 21 :=
  rfl

theorem DigitsWritten.start (value : Int64) : DigitsWritten value 0 where
  magnitude := (Nat.div_one _).symm
  agrees := by
    change (value.toInt.natAbs : Int) = _ * value.toInt
    rw [formatI64Sign_toInt]
    split <;> omega
  index := rfl
  cells := rfl

theorem DigitsWritten.turn
    {value : Int64} {count : Nat} (written : DigitsWritten value count)
    (inside : count < 21) : DigitsWritten value (count + 1) := by
  have unit := formatI64Sign_unit value
  obtain ⟨_, sum⟩ := toInt_digit written.agrees unit
  have quotient := toInt_num_div (formatI64State value count).num
  have agrees := written.agrees
  constructor
  · change ((formatI64State value count).num / 10).toInt.natAbs = _
    rw [quotient, Int.natAbs_tdiv, written.magnitude, Nat.pow_succ,
      ← Nat.div_div_eq_div_mul]
    rfl
  · change (((formatI64State value count).num / 10).toInt.natAbs : Int) =
      _ * ((formatI64State value count).num / 10).toInt
    rw [quotient, Int.natAbs_tdiv]
    change ((_ / 10 : Nat) : Int) = _
    rcases unit with one | one
    · rw [one, Int.one_mul] at agrees ⊢
      rw [Int.tdiv_eq_ediv_of_nonneg (by omega)]
      omega
    · rw [one] at agrees ⊢
      obtain ⟨magnitude, equal⟩ :
          ∃ magnitude, (formatI64State value count).num.toInt = -magnitude :=
        ⟨-(formatI64State value count).num.toInt, by omega⟩
      rw [equal, Int.neg_tdiv, Int.tdiv_eq_ediv_of_nonneg (by omega)]
      omega
  · change (formatI64State value count).ptr + 1 = _
    rw [written.index]
  · change (formatI64State value count).temp.set
      (formatI64State value count).ptr (Char.ofNat _) = _
    have low : (lastDigits count value.toInt.natAbs).reverse.length =
        count := by
      rw [List.length_reverse, length_lastDigits]
    have rest := List.drop_eq_getElem_cons
      (show count < (formatI64Start value).temp.length by
        rwa [length_formatI64Start])
    rw [written.cells, written.index, sum, rest, lastDigits_succ,
      List.reverse_cons, digitChar_eq_ofNat (Nat.mod_lt _ (by omega)),
      ← written.magnitude]
    conv_lhs =>
      rw [List.set_append_right _ _ (by omega), low, Nat.sub_self]
    rw [List.append_assoc]
    rfl

theorem digitsWritten (value : Int64) {count : Nat} (inside : count ≤ 21) :
    DigitsWritten value count := by
  induction count with
  | zero => exact DigitsWritten.start value
  | succ count ih => exact (ih (by omega)).turn (by omega)

/-- A number that is not yet zero has been divided fewer than nineteen
times. -/
theorem DigitsWritten.exactTurn
    {value : Int64} {count : Nat} (written : DigitsWritten value count)
    (more : (formatI64State value count).num ≠ 0) :
    ExactTurn (formatI64Sign value) (formatI64State value count) := by
  have unit := formatI64Sign_unit value
  obtain ⟨product, sum⟩ := toInt_digit written.agrees unit
  have digit := tmod_mul_sign written.agrees unit
  have bounds := value.le_toInt
  have upper := value.toInt_lt
  constructor
  · rw [written.index]
    by_contra far
    have power : 10 ^ 19 ≤ 10 ^ count :=
      Nat.pow_le_pow_right (by omega) (Nat.not_lt.mp far)
    have none : value.toInt.natAbs / 10 ^ count = 0 :=
      Nat.div_eq_of_lt (by omega)
    rw [← written.magnitude, Int.natAbs_eq_zero] at none
    exact more (Int64.toInt_inj.mp none)
  · rw [product, digit]
  · rw [sum, digit]
  · rw [sum]
    omega
  · exact toInt_num_div _

theorem DigitsWritten.num_eq_zero_iff
    {value : Int64} {count : Nat} (written : DigitsWritten value count) :
    (formatI64State value count).num = 0 ↔
      value.toInt.natAbs < 10 ^ count := by
  have positive : 0 < 10 ^ count := Nat.pow_pos (by omega)
  rw [← Int64.toInt_inj]
  change (formatI64State value count).num.toInt = 0 ↔ _
  rw [← Int.natAbs_eq_zero, written.magnitude, Nat.div_eq_zero_iff]
  omega

theorem formatI64Loop_eq
    (value : Int64) {stop : Nat}
    (finished : (formatI64State value stop).num = 0)
    (running : ∀ count < stop, (formatI64State value count).num ≠ 0)
    (turns : Nat) :
    ∀ count ≤ stop, stop ≤ count + turns →
      formatI64Loop (formatI64Sign value) turns (formatI64State value count) =
        formatI64State value stop := by
  induction turns with
  | zero =>
      intro count before enough
      rw [formatI64Loop, Nat.le_antisymm before enough]
  | succ turns ih =>
      intro count before enough
      rw [formatI64Loop]
      by_cases last : count = stop
      · rw [last, if_neg (not_not.mpr finished)]
      · rw [if_pos (running count (by omega))]
        exact ih (count + 1) (by omega) (by omega)

def formatI64Turns (value : Int64) : Nat :=
  if value = 0 then 0 else (Nat.toDigits 10 value.toInt.natAbs).length

theorem natAbs_toInt_pos {value : Int64} (nonzero : value ≠ 0) :
    0 < value.toInt.natAbs := by
  rw [Int.natAbs_pos]
  exact fun zero => nonzero (Int64.toInt_inj.mp zero)

theorem formatI64Turns_le (value : Int64) : formatI64Turns value ≤ 19 := by
  have lower := value.le_toInt
  have upper := value.toInt_lt
  unfold formatI64Turns
  split
  · omega
  · exact (Nat.length_toDigits_le_iff (by omega) (by omega)).mpr (by omega)

theorem formatI64State_turns (value : Int64) :
    (formatI64State value (formatI64Turns value)).num = 0 ∧
      ∀ count < formatI64Turns value,
        (formatI64State value count).num ≠ 0 := by
  have few := formatI64Turns_le value
  have written {count : Nat} (inside : count ≤ 19) :=
    digitsWritten value (show count ≤ 21 by omega)
  constructor
  · rw [(written few).num_eq_zero_iff]
    unfold formatI64Turns
    split
    · rename_i zero
      rw [zero]
      decide
    · exact (Nat.length_toDigits_le_iff (by omega)
        Nat.length_toDigits_pos).mp (Nat.le_refl _)
  · intro count before zero
    rw [(written (by omega)).num_eq_zero_iff] at zero
    unfold formatI64Turns at before
    split at before
    · omega
    · rename_i nonzero
      have positive := natAbs_toInt_pos nonzero
      cases count with
      | zero => omega
      | succ count =>
          have short :=
            (Nat.length_toDigits_le_iff (by omega) (Nat.succ_pos count)).mpr
              zero
          omega

theorem formatI64Loop_start (value : Int64) :
    formatI64Loop (formatI64Sign value) 20 (formatI64Start value) =
      formatI64State value (formatI64Turns value) := by
  obtain ⟨finished, running⟩ := formatI64State_turns value
  have few := formatI64Turns_le value
  exact formatI64Loop_eq value finished running 20 0 (by omega) (by omega)

theorem set_length_append {α : Type} (before : List α) {rest : List α}
    {count : Nat} (inside : count < rest.length)
    (same : before.length = count) (shared : List α)
    (tail : shared = before ++ rest.drop count) (cell : α) :
    shared.set count cell = before ++ [cell] ++ rest.drop (count + 1) := by
  rw [tail, List.drop_eq_getElem_cons inside,
    List.set_append_right _ _ (by omega), same, Nat.sub_self,
    List.append_assoc]
  rfl

theorem formatI64Temp_eq (value : Int64) :
    formatI64Temp value =
      ((signedDecimal value.toInt).reverse ++
          (formatI64Start value).temp.drop
            (signedDecimal value.toInt).length,
        (signedDecimal value.toInt).length) := by
  have few := formatI64Turns_le value
  have written :=
    digitsWritten value (show formatI64Turns value ≤ 21 by omega)
  have inside : formatI64Turns value <
      (formatI64Start value).temp.length := by
    rw [length_formatI64Start]
    omega
  have stored :=
    set_length_append _ inside (by simp) _ written.cells
  have below : value < 0 ↔ value.toInt < 0 := Int64.lt_iff_toInt_lt
  rw [formatI64Temp, formatI64Loop_start, written.index, signedDecimal]
  by_cases zero : value = 0
  · subst zero
    rfl
  · have turns : formatI64Turns value =
        (Nat.toDigits 10 value.toInt.natAbs).length :=
      if_neg zero
    have digits : lastDigits (formatI64Turns value) value.toInt.natAbs =
        Nat.toDigits 10 value.toInt.natAbs := by
      rw [turns, lastDigits_of_length_le (Nat.le_refl _), Nat.sub_self]
      rfl
    by_cases negative : value < 0
    · rw [if_pos negative, if_pos (below.mp negative), stored, digits,
        List.reverse_cons, List.length_cons, ← turns]
    · rw [if_neg negative, if_neg zero,
        if_neg (fun less => negative (below.mpr less)), written.cells, digits,
        ← turns]

theorem length_signedDecimal_le (value : Int64) :
    (signedDecimal value.toInt).length ≤ 20 := by
  have lower := value.le_toInt
  have upper := value.toInt_lt
  have digits : (Nat.toDigits 10 value.toInt.natAbs).length ≤ 19 :=
    (Nat.length_toDigits_le_iff (by omega) (by omega)).mpr (by omega)
  unfold signedDecimal
  split
  · rw [List.length_cons]
    omega
  · omega

/-- The cells are copied in reverse. -/
theorem formatI64Copy_eq
    (low : List Char) :
    ∀ after before rest : List Char, low.length ≤ rest.length →
      formatI64Copy (low ++ after) low.length (before ++ rest)
          before.length =
        (before ++ low.reverse ++ rest.drop low.length,
          before.length + low.length) := by
  induction low using List.reverseRecOn with
  | nil =>
      intro after before rest _
      simp [formatI64Copy]
  | append_singleton top last ih =>
      intro after before rest room
      rw [List.length_append, List.length_singleton] at room ⊢
      cases rest with
      | nil =>
          rw [List.length_nil] at room
          omega
      | cons cell rest =>
          rw [List.length_cons] at room
          have later :=
            ih (last :: after) (before ++ [last]) rest (by omega)
          rw [List.length_append, List.length_singleton] at later
          have read : (top ++ [last] ++ after).getD top.length '\x00' =
              last := by
            simp
          have stored : (before ++ cell :: rest).set before.length last =
              before ++ [last] ++ rest := by
            simp
          rw [formatI64Copy, read, stored, List.append_assoc top]
          rw [List.singleton_append, later]
          simp
          omega

/-- `format_i64` prints exactly the numbers that its buffer has room for. -/
theorem formatI64_eq
    (value : Int64) {dst : List Char} {dstLen : Nat}
    (valid : dstLen < 2 ^ 31) (room : dstLen ≤ dst.length) :
    formatI64 dst dstLen value =
      if dstLen < (signedDecimal value.toInt).length + 1 then (false, dst)
      else
        (true,
          signedDecimal value.toInt ++ '\x00' ::
            dst.drop ((signedDecimal value.toInt).length + 1)) := by
  rw [formatI64, formatI64Temp_eq]
  dsimp only
  rw [sizeToInt, if_pos valid]
  by_cases full : dstLen < (signedDecimal value.toInt).length + 1
  · rw [if_pos (by omega), if_pos full]
  · have copied :=
      formatI64Copy_eq (signedDecimal value.toInt).reverse
        ((formatI64Start value).temp.drop
          (signedDecimal value.toInt).length) [] dst (by
            rw [List.length_reverse]
            omega)
    rw [List.length_reverse, List.reverse_reverse, List.length_nil,
      List.nil_append, List.nil_append, Nat.zero_add] at copied
    rw [if_neg (by omega), if_neg full, copied]
    dsimp only
    rw [set_length_append (signedDecimal value.toInt)
      (show _ < dst.length by omega) rfl _ rfl, List.append_assoc]
    rfl

/-- What is expected of `format_i64`: the turns of its loop are exact and end
with `num` at zero, its indices stay inside the scratch array, and it prints
the numbers that fit and leaves the memory alone otherwise. -/
structure PrintsI64 (value : Int64) (dst : List Char) (dstLen : Nat) :
    Prop where
  turns : ∀ count < formatI64Turns value,
    ExactTurn (formatI64Sign value) (formatI64State value count)
  loop :
    formatI64Loop (formatI64Sign value) 20 (formatI64Start value) =
      formatI64State value (formatI64Turns value)
  finished : (formatI64State value (formatI64Turns value)).num = 0
  scratch : (formatI64Temp value).1.length = 21 ∧ (formatI64Temp value).2 ≤ 20
  succeeds_iff :
    (formatI64 dst dstLen value).1 = true ↔
      (signedDecimal value.toInt).length + 1 ≤ dstLen
  printed : (formatI64 dst dstLen value).1 = true →
    (formatI64 dst dstLen value).2 =
      signedDecimal value.toInt ++ '\x00' ::
        dst.drop ((signedDecimal value.toInt).length + 1)
  reads_back : numberValue (signedDecimal value.toInt) = some (value.toInt : ℚ)
  unchanged : (formatI64 dst dstLen value).1 = false →
    (formatI64 dst dstLen value).2 = dst

/-- **`format_i64` is a faithful printer** for every number and every length
below 2^31. -/
theorem formatI64_faithful
    (value : Int64) {dstLen : Nat} (valid : dstLen < 2 ^ 31)
    (dst : List Char) (room : dstLen ≤ dst.length) :
    PrintsI64 value dst dstLen := by
  have few := formatI64Turns_le value
  have short := length_signedDecimal_le value
  have result := formatI64_eq value valid room
  obtain ⟨finished, running⟩ := formatI64State_turns value
  constructor
  · intro count before
    exact (digitsWritten value (by omega)).exactTurn (running count before)
  · exact formatI64Loop_start value
  · exact finished
  · rw [formatI64Temp_eq]
    refine ⟨?_, short⟩
    rw [List.length_append, List.length_reverse, List.length_drop,
      length_formatI64Start]
    omega
  · rw [result]
    split
    · rename_i full
      exact ⟨fun success => absurd success Bool.false_ne_true,
        fun fits => absurd fits (Nat.not_le.mpr full)⟩
    · rename_i fits
      exact ⟨fun _ => Nat.not_lt.mp fits, fun _ => rfl⟩
  · intro success
    rw [result] at success ⊢
    split at success
    · exact absurd success Bool.false_ne_true
    · rename_i fits
      rw [if_neg fits]
  · exact numberValue_signedDecimal _
  · intro failure
    rw [result] at failure ⊢
    split at failure
    · rename_i full
      rw [if_pos full]
    · exact absurd failure.symm Bool.false_ne_true

/-- The least number, in a buffer of 22 characters. -/
theorem formatI64_faithful_least :
    PrintsI64 Int64.minValue (zeros 22) 22 :=
  formatI64_faithful Int64.minValue (show 22 < 2 ^ 31 by omega) (zeros 22)
    (length_zeros 22).ge

end Neo3App
