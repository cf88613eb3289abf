import Mathlib.Data.List.TakeWhile
import Mathlib.Data.Rat.Defs
import Mathlib.Tactic.Ring
import Mathlib.Tactic.FieldSimp
import Mathlib.Algebra.Order.Field.Rat

/-!
# Decimal numerals

The number denoted by a text, and the two forms in which programs print
numbers: a signed integer and a fixed-point number with a given count of
decimals.
-/

namespace Neo3App.Lib

/-- The number denoted by digits, with an optional fraction after a point. -/
def unsignedValue (text : List Char) : Option ℚ :=
  let whole := text.takeWhile Char.isDigit
  match text.dropWhile Char.isDigit with
  | [] =>
      if whole = [] then none else some (Nat.ofDigitChars 10 whole 0 : ℚ)
  | '.' :: fraction =>
      if whole = [] ∨ fraction = [] ∨ !fraction.all Char.isDigit then none
      else
        some ((Nat.ofDigitChars 10 (whole ++ fraction) 0 : ℚ) /
          10 ^ fraction.length)
  | _ => none

/-- The number denoted by a decimal numeral. -/
def numberValue : List Char → Option ℚ
  | '-' :: text => (unsignedValue text).map Neg.neg
  | text => unsignedValue text

/-- `value` divided by ten to the power `decimals`, with at least one digit
before the point and one after it. -/
def fixedDecimal (decimals value : Nat) : List Char :=
  let digits := Nat.toDigits 10 value
  if digits.length ≤ decimals then
    '0' :: '.' ::
      (List.replicate (decimals - digits.length) '0' ++ digits)
  else
    digits.take (digits.length - decimals) ++ '.' ::
      if decimals = 0 then ['0']
      else digits.drop (digits.length - decimals)

def signedDecimal (value : Int) : List Char :=
  if value < 0 then '-' :: Nat.toDigits 10 value.natAbs
  else Nat.toDigits 10 value.natAbs

theorem isDigit_of_mem_decimal {value : Nat} {digit : Char}
    (member : digit ∈ Nat.toDigits 10 value) :
    digit.isDigit = true :=
  Nat.isDigit_of_mem_toDigits (by omega) (by omega) member

theorem isDigit_of_mem_zero {digit : Char} (member : digit ∈ ['0']) :
    digit.isDigit = true := by
  rw [List.mem_singleton.mp member]
  rfl

theorem toDigits_injective {first second : Nat}
    (equal : Nat.toDigits 10 first = Nat.toDigits 10 second) :
    first = second := by
  have parsed := congrArg (fun digits => Nat.ofDigitChars 10 digits 0) equal
  simpa using parsed

theorem head_toDigits_ne_minus (value : Nat) (rest : List Char) :
    Nat.toDigits 10 value ≠ '-' :: rest := by
  intro equal
  have digit : '-'.isDigit = true :=
    isDigit_of_mem_decimal
      (show '-' ∈ Nat.toDigits 10 value by simp [equal])
  exact absurd digit (by decide)

theorem signedDecimal_injective {first second : Int}
    (equal : signedDecimal first = signedDecimal second) :
    first = second := by
  unfold signedDecimal at equal
  split at equal <;> split at equal
  · have := toDigits_injective (List.cons.inj equal).2
    omega
  · exact absurd equal.symm (head_toDigits_ne_minus _ _)
  · exact absurd equal (head_toDigits_ne_minus _ _)
  · have := toDigits_injective equal
    omega

private theorem takeWhile_digits
    (whole rest : List Char)
    (digits : ∀ digit ∈ whole, digit.isDigit = true) :
    (whole ++ '.' :: rest).takeWhile Char.isDigit = whole := by
  rw [List.takeWhile_append_of_pos digits]
  simp [Char.isDigit]

private theorem dropWhile_digits
    (whole rest : List Char)
    (digits : ∀ digit ∈ whole, digit.isDigit = true) :
    (whole ++ '.' :: rest).dropWhile Char.isDigit = '.' :: rest := by
  rw [List.dropWhile_append_of_pos digits]
  simp [Char.isDigit]

theorem numberValue_of_digits
    {whole fraction : List Char}
    (wholeDigits : ∀ digit ∈ whole, digit.isDigit = true)
    (fractionDigits : ∀ digit ∈ fraction, digit.isDigit = true)
    (wholeNonempty : whole ≠ []) (fractionNonempty : fraction ≠ []) :
    numberValue (whole ++ '.' :: fraction) =
      some ((Nat.ofDigitChars 10 (whole ++ fraction) 0 : ℚ) /
        10 ^ fraction.length) := by
  have unsigned :
      numberValue (whole ++ '.' :: fraction) =
        unsignedValue (whole ++ '.' :: fraction) := by
    cases whole with
    | nil =>
        exact absurd rfl wholeNonempty
    | cons head tail =>
        have digit := wholeDigits head (by simp)
        unfold numberValue
        split
        · rename_i text equal
          rw [List.cons_append, List.cons.injEq] at equal
          rw [equal.1] at digit
          exact absurd digit (by decide)
        · rfl
  have allDigits : fraction.all Char.isDigit = true := by
    simpa using fractionDigits
  rw [unsigned]
  unfold unsignedValue
  rw [takeWhile_digits _ _ wholeDigits, dropWhile_digits _ _ wholeDigits]
  simp [wholeNonempty, fractionNonempty, allDigits]

/-- A printed fixed-point number denotes the value it was printed from. -/
theorem numberValue_fixedDecimal (decimals value : Nat) :
    numberValue (fixedDecimal decimals value) =
      some ((value : ℚ) / 10 ^ decimals) := by
  have digits : ∀ digit ∈ Nat.toDigits 10 value, digit.isDigit = true :=
    fun digit member => isDigit_of_mem_decimal member
  have nonempty : Nat.toDigits 10 value ≠ [] :=
    Nat.toDigits_ne_nil
  unfold fixedDecimal
  dsimp only
  split
  · rename_i short
    have padded :
        ∀ digit ∈
          List.replicate (decimals - (Nat.toDigits 10 value).length) '0' ++
            Nat.toDigits 10 value,
          digit.isDigit = true := by
      intro digit member
      rcases List.mem_append.mp member with zero | rest
      · rw [List.eq_of_mem_replicate zero]
        decide
      · exact digits digit rest
    have read :=
      numberValue_of_digits (fun _ => isDigit_of_mem_zero) padded (by decide)
        (by simp [nonempty])
    rw [List.singleton_append] at read
    rw [read, List.singleton_append, Nat.ofDigitChars_cons,
      Nat.ofDigitChars_append, Nat.ofDigitChars_replicate_zero]
    have length :
        (List.replicate (decimals - (Nat.toDigits 10 value).length) '0' ++
          Nat.toDigits 10 value).length = decimals := by
      rw [List.length_append, List.length_replicate]
      omega
    rw [length]
    simp
  · rename_i long
    have wholeNonempty :
        (Nat.toDigits 10 value).take
          ((Nat.toDigits 10 value).length - decimals) ≠ [] := by
      simp only [ne_eq, List.take_eq_nil_iff, not_or]
      exact ⟨by omega, nonempty⟩
    split
    · rename_i none
      subst none
      rw [numberValue_of_digits
        (fun digit member => digits digit (List.mem_of_mem_take member))
        (fun _ => isDigit_of_mem_zero) wholeNonempty (by decide)]
      simp [Nat.ofDigitChars_append, Nat.ofDigitChars_cons]
    · rename_i some
      rw [numberValue_of_digits
        (fun digit member => digits digit (List.mem_of_mem_take member))
        (fun digit member => digits digit (List.mem_of_mem_drop member))
        wholeNonempty (by
          intro empty
          have := congrArg List.length empty
          rw [List.length_drop, List.length_nil] at this
          omega)]
      rw [List.take_append_drop, List.length_drop,
        show (Nat.toDigits 10 value).length -
          ((Nat.toDigits 10 value).length - decimals) = decimals by omega]
      simp

/-- A printed integer denotes the value it was printed from. -/
theorem numberValue_signedDecimal (value : Int) :
    numberValue (signedDecimal value) = some (value : ℚ) := by
  have digits : ∀ digit ∈ Nat.toDigits 10 value.natAbs,
      digit.isDigit = true :=
    fun digit member => isDigit_of_mem_decimal member
  have unsigned :
      unsignedValue (Nat.toDigits 10 value.natAbs) =
        some (value.natAbs : ℚ) := by
    have whole := List.takeWhile_eq_self_iff.mpr digits
    have rest := List.dropWhile_eq_nil_iff.mpr digits
    rw [unsignedValue, whole, rest]
    simp
  unfold signedDecimal
  split
  · rename_i negative
    rw [numberValue, unsigned, Option.map_some]
    have magnitude : ((value.natAbs : ℤ) : ℚ) = -(value : ℚ) := by
      rw [Int.ofNat_natAbs_of_nonpos (by omega), Int.cast_neg]
    rw [← Int.cast_natCast, magnitude, neg_neg]
  · rename_i positive
    have plain : numberValue (Nat.toDigits 10 value.natAbs) =
        unsignedValue (Nat.toDigits 10 value.natAbs) := by
      unfold numberValue
      split
      · rename_i text equal
        exact absurd equal (head_toDigits_ne_minus _ _)
      · rfl
    have magnitude : ((value.natAbs : ℤ) : ℚ) = (value : ℚ) := by
      rw [Int.natAbs_of_nonneg (by omega)]
    rw [plain, unsigned, ← Int.cast_natCast, magnitude]

theorem fixedDecimal_injective {decimals first second : Nat}
    (equal : fixedDecimal decimals first = fixedDecimal decimals second) :
    first = second := by
  have read := congrArg numberValue equal
  rw [numberValue_fixedDecimal, numberValue_fixedDecimal,
    Option.some.injEq] at read
  have nonzero : (10 : ℚ) ^ decimals ≠ 0 :=
    pow_ne_zero _ (by norm_num)
  rw [div_left_inj' nonzero] at read
  exact_mod_cast read

/-- A printed fixed-point number has one character more than its digits. -/
theorem length_fixedDecimal_le {decimals value width : Nat}
    (bound : (Nat.toDigits 10 value).length ≤ width)
    (room : decimals + 1 ≤ width) :
    (fixedDecimal decimals value).length ≤ width + 2 := by
  unfold fixedDecimal
  dsimp only
  split
  · simp
    omega
  · split
    · simp
      omega
    · simp
      omega

theorem isPrint_of_mem_fixedDecimal {decimals value : Nat} {character : Char}
    (member : character ∈ fixedDecimal decimals value) :
    character = '.' ∨ character.isDigit = true := by
  unfold fixedDecimal at member
  dsimp only at member
  split at member
  · simp only [List.mem_cons, List.mem_append] at member
    rcases member with zero | point | padding | digit
    · exact Or.inr (zero ▸ by decide)
    · exact Or.inl point
    · exact Or.inr (List.eq_of_mem_replicate padding ▸ by decide)
    · exact Or.inr (isDigit_of_mem_decimal digit)
  · rw [List.mem_append, List.mem_cons] at member
    rcases member with whole | point | fraction
    · exact Or.inr (isDigit_of_mem_decimal (List.mem_of_mem_take whole))
    · exact Or.inl point
    · split at fraction
      · exact Or.inr (List.mem_singleton.mp fraction ▸ by decide)
      · exact Or.inr (isDigit_of_mem_decimal (List.mem_of_mem_drop fraction))

/-- The last `count` decimal digits of `value`. -/
def lastDigits : Nat → Nat → List Char
  | 0, _ => []
  | count + 1, value =>
      lastDigits count (value / 10) ++ [Nat.digitChar (value % 10)]

@[simp]
theorem length_lastDigits (count value : Nat) :
    (lastDigits count value).length = count := by
  induction count generalizing value with
  | zero => rfl
  | succ count ih =>
      rw [lastDigits, List.length_append, ih, List.length_singleton]

/-- Only the remainder matters. -/
theorem lastDigits_mod (count value : Nat) :
    lastDigits count (value % 10 ^ count) = lastDigits count value := by
  induction count generalizing value with
  | zero => rfl
  | succ count ih =>
      have high : value % 10 ^ (count + 1) / 10 = value / 10 % 10 ^ count := by
        rw [Nat.pow_succ', Nat.mod_mul_right_div_self]
      have low : value % 10 ^ (count + 1) % 10 = value % 10 := by
        rw [Nat.pow_succ', Nat.mod_mul_right_mod]
      rw [lastDigits, lastDigits, high, low, ih]

/-- The digits from the left. -/
theorem lastDigits_succ (count value : Nat) :
    lastDigits (count + 1) value =
      Nat.digitChar (value / 10 ^ count % 10) :: lastDigits count value := by
  induction count generalizing value with
  | zero => simp [lastDigits]
  | succ count ih =>
      rw [lastDigits, ih, lastDigits, Nat.div_div_eq_div_mul,
        ← Nat.pow_succ', List.cons_append]

theorem lastDigits_zero (count : Nat) :
    lastDigits count 0 = List.replicate count '0' := by
  induction count with
  | zero => rfl
  | succ count ih =>
      rw [lastDigits, Nat.zero_div, ih, List.replicate_succ']
      rfl

/-- A number with few digits is padded with zeros. -/
theorem lastDigits_of_length_le
    {count value : Nat}
    (few : (Nat.toDigits 10 value).length ≤ count) :
    lastDigits count value =
      List.replicate (count - (Nat.toDigits 10 value).length) '0' ++
        Nat.toDigits 10 value := by
  induction count generalizing value with
  | zero =>
      have some := Nat.length_toDigits_pos (b := 10) (n := value)
      omega
  | succ count ih =>
      rw [lastDigits]
      by_cases small : value < 10
      · rw [Nat.toDigits_of_lt_base small, Nat.div_eq_of_lt small,
          lastDigits_zero, Nat.mod_eq_of_lt small]
        rfl
      · have split := Nat.toDigits_of_base_le (b := 10) (n := value)
          (by omega) (by omega)
        rw [split, List.length_append, List.length_singleton] at few ⊢
        rw [ih (by omega), List.append_assoc,
          show count + 1 - ((Nat.toDigits 10 (value / 10)).length + 1) =
            count - (Nat.toDigits 10 (value / 10)).length by omega]

/-- A number with more digits splits into those of its quotient and the last
ones. -/
theorem toDigits_eq_quotient
    {count value : Nat} (large : 10 ^ count ≤ value) :
    Nat.toDigits 10 value =
      Nat.toDigits 10 (value / 10 ^ count) ++ lastDigits count value := by
  induction count generalizing value with
  | zero => simp [lastDigits]
  | succ count ih =>
      have positive : 0 < 10 ^ count := Nat.pow_pos (by omega)
      rw [Nat.pow_succ'] at large ⊢
      have quotient : 10 ^ count ≤ value / 10 := by
        rw [Nat.le_div_iff_mul_le (by omega), Nat.mul_comm]
        exact large
      rw [Nat.toDigits_of_base_le (by omega) (by omega), ih quotient,
        Nat.div_div_eq_div_mul, lastDigits, List.append_assoc]

/-- A fixed-point number is the quotient, a point and the digits of the
remainder. -/
theorem fixedDecimal_eq_quotient
    {decimals : Nat} (some : 0 < decimals) (value : Nat) :
    fixedDecimal decimals value =
      Nat.toDigits 10 (value / 10 ^ decimals) ++ '.' ::
        lastDigits decimals (value % 10 ^ decimals) := by
  rw [lastDigits_mod, fixedDecimal]
  split
  · rename_i few
    have small := (Nat.length_toDigits_le_iff (by omega) some).mp few
    rw [lastDigits_of_length_le few, Nat.div_eq_of_lt small]
    rfl
  · rename_i many
    have large : 10 ^ decimals ≤ value := by
      by_contra small
      exact many
        ((Nat.length_toDigits_le_iff (by omega) some).mpr (by omega))
    have whole :
        (Nat.toDigits 10 value).length - decimals =
          (Nat.toDigits 10 (value / 10 ^ decimals)).length := by
      rw [toDigits_eq_quotient large, List.length_append, length_lastDigits,
        Nat.add_sub_cancel]
    rw [if_neg (by omega), whole, toDigits_eq_quotient large, List.take_left,
      List.drop_left]

/-- The decimal expansion of `value` divided by ten to the power `decimals`:
the integer part, a point, and one digit for each decimal but at least
one. -/
def exactDecimal (decimals value : Nat) : List Char :=
  Nat.toDigits 10 (value / 10 ^ decimals) ++ '.' ::
    lastDigits (max decimals 1) (value % 10 ^ decimals)

theorem fixedDecimal_eq_exact (decimals value : Nat) :
    fixedDecimal decimals value = exactDecimal decimals value := by
  by_cases none : decimals = 0
  · subst none
    have some := Nat.length_toDigits_pos (b := 10) (n := value)
    have whole : (Nat.toDigits 10 value).take
        (Nat.toDigits 10 value).length = Nat.toDigits 10 value :=
      List.take_length
    rw [fixedDecimal, exactDecimal, if_neg (by omega), if_pos rfl,
      Nat.sub_zero, whole, Nat.pow_zero, Nat.div_one, Nat.mod_one]
    rfl
  · rw [fixedDecimal_eq_quotient (Nat.pos_of_ne_zero none), exactDecimal,
      Nat.max_eq_left (by omega)]

example : fixedDecimal 8 150000000 = "1.50000000".toList := by
  decide +kernel

end Neo3App.Lib
