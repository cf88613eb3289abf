import Neo3App.Common.Buffer
import Neo3App.Lib.Decimal

/-!
# Printing numbers

`format_u64` and `format_fpu64` of `common/format.c`, on the memory they
write, and the C strings they leave there.  Both print into buffers that hold
zeros, so that the string ends where the digits end.
-/

namespace Neo3App

open Neo3App.Lib

def zeros (count : Nat) : List Char :=
  List.replicate count '\x00'

@[simp]
theorem length_zeros (count : Nat) : (zeros count).length = count :=
  List.length_replicate

/-- The string that starts at `memory`. -/
def cString (memory : List Char) : List Char :=
  memory.takeWhile (· ≠ '\x00')

/-- `strncpy` to the cells of `memory` from `start` on. -/
def strncpy (memory : List Char) (start : Nat) (source : List Char)
    (count : Nat) : List Char :=
  let text := (cString source).take count
  memmove memory start
    (text ++ List.replicate (count - text.length) '\x00')

/-- The loop `while (in > 9)`: `none` where it returns false.  A 64-bit number
has at most twenty digits, which bounds the steps. -/
def formatU64Digits (outLen : Nat) :
    Nat → List Char → Nat → Nat → List Char × Option (Nat × Nat)
  | 0, out, _, _ => (out, none)
  | steps + 1, out, i, value =>
      if 9 < value then
        let out := out.set i (Nat.digitChar (value % 10))
        if outLen < i + 1 + 1 then (out, none)
        else formatU64Digits outLen steps out (i + 1) (value / 10)
      else
        (out, some (i, value))

/-- The loop `while (j < i)` that reverses the digits. -/
def formatU64Reverse : Nat → Nat → List Char → List Char
  | 0, _, out => out
  | i + 1, j, out =>
      if j < i + 1 then
        let tmp := out.getD j '\x00'
        let out := out.set j (out.getD (i + 1) '\x00')
        let out := out.set (i + 1) tmp
        formatU64Reverse i (j + 1) out
      else
        out

def formatU64 (out : List Char) (outLen : Nat) (value : UInt64) :
    Bool × List Char :=
  if outLen = 0 then (false, out)
  else
    match formatU64Digits (outLen - 1) 20 out 0 value.toNat with
    | (out, none) => (false, out)
    | (out, some (i, value)) =>
        let out := out.set i (Nat.digitChar value)
        let out := out.set (i + 1) '\x00'
        (true, formatU64Reverse i 0 out)

def formatFpu64 (dst : List Char) (dstLen : Nat) (value : UInt64)
    (decimals : Nat) : Bool × List Char :=
  match formatU64 (zeros 21) 21 value with
  | (false, _) => (false, dst)
  | (true, buffer) =>
      let digits := (cString buffer).length
      if digits ≤ decimals then
        if dstLen ≤ 2 + decimals - digits then (false, dst)
        else
          let dst :=
            memmove dst 0
              ('0' :: '.' :: List.replicate (decimals - digits) '0')
          (true,
            strncpy dst (2 + decimals - digits) buffer
              (dstLen - (2 + decimals - digits)))
      else if dstLen ≤ digits + 1 + decimals then (false, dst)
      else
        let shift := digits - decimals
        let dst := memmove dst 0 (buffer.take shift)
        let dst := dst.set shift '.'
        if decimals = 0 then (true, dst.set (shift + 1) '0')
        else (true, strncpy dst (shift + 1) (buffer.drop shift) decimals)

/-- The loop leaves the low digits of `value` behind the cells already
written, last digit first. -/
theorem formatU64Digits_eq (outLen : Nat) :
    ∀ (steps : Nat) (written rest : List Char) (value : Nat),
      value < 10 ^ (steps + 1) →
      written.length + (Nat.toDigits 10 value).length ≤ outLen →
      outLen ≤ written.length + rest.length →
      ∃ low last,
        (Nat.toDigits 10 value).reverse = low ++ [Nat.digitChar last] ∧
          formatU64Digits outLen (steps + 1) (written ++ rest)
            written.length value =
              (written ++ low ++ rest.drop low.length,
                some (written.length + low.length, last)) := by
  intro steps
  induction steps with
  | zero =>
      intro written rest value small _ _
      refine ⟨[], value, ?_, ?_⟩
      · rw [Nat.toDigits_of_lt_base (by omega)]
        rfl
      · rw [formatU64Digits, if_neg (by omega)]
        simp
  | succ steps ih =>
      intro written rest value bound room size
      by_cases small : value < 10
      · refine ⟨[], value, ?_, ?_⟩
        · rw [Nat.toDigits_of_lt_base small]
          rfl
        · rw [formatU64Digits, if_neg (by omega)]
          simp
      · have split := Nat.toDigits_of_base_le (b := 10) (n := value)
          (by omega) (by omega)
        rw [split, List.length_append, List.length_singleton] at room
        cases rest with
        | nil =>
            simp at size
            omega
        | cons cell rest =>
            rw [List.length_cons] at size
            have digitsPositive :=
              Nat.length_toDigits_pos (b := 10) (n := value / 10)
            rcases ih (written ++ [Nat.digitChar (value % 10)]) rest
                (value / 10) (by rw [Nat.pow_succ] at bound; omega)
                (by simp; omega) (by simp; omega) with
              ⟨low, last, digits, result⟩
            refine ⟨Nat.digitChar (value % 10) :: low, last, ?_, ?_⟩
            · rw [split, List.reverse_append, digits]
              rfl
            · have cellSet :
                  (written ++ cell :: rest).set written.length
                      (Nat.digitChar (value % 10)) =
                    written ++ [Nat.digitChar (value % 10)] ++ rest := by
                simp
              rw [formatU64Digits, if_pos (by omega), cellSet]
              dsimp only
              rw [if_neg (by omega)]
              rw [List.length_append, List.length_singleton] at result
              rw [result]
              simp
              omega

/-- The loop reverses the cells between its two indices. -/
theorem formatU64Reverse_eq :
    ∀ (i : Nat) (before middle after : List Char),
      i + 1 = before.length + middle.length →
      formatU64Reverse i before.length (before ++ middle ++ after) =
        before ++ middle.reverse ++ after := by
  intro i
  induction i with
  | zero =>
      intro before middle after bounds
      have short : middle.length ≤ 1 := by
        omega
      rw [formatU64Reverse]
      match middle, short with
      | [], _ =>
          rfl
      | [single], _ =>
          rfl
  | succ i ih =>
      intro before middle after bounds
      rw [formatU64Reverse]
      by_cases more : before.length < i + 1
      · rw [if_pos more]
        dsimp only
        cases middle with
        | nil =>
            rw [List.length_nil] at bounds
            omega
        | cons first middle =>
            rw [List.length_cons] at bounds
            rcases List.eq_nil_or_concat middle with
              empty | ⟨inner, last, shape⟩
            · subst empty
              rw [List.length_nil] at bounds
              omega
            · subst shape
              rw [List.concat_eq_append, List.length_append,
                List.length_singleton] at bounds
              have indexLast : i + 1 = before.length + (inner.length + 1) := by
                omega
              have swapped :=
                ih (before ++ [last]) inner (first :: after) (by
                  rw [List.length_append, List.length_singleton]
                  omega)
              rw [List.length_append, List.length_singleton] at swapped
              rw [indexLast]
              simp only [List.concat_eq_append, List.append_assoc,
                List.cons_append, List.nil_append, List.getD_append_right,
                Nat.le_add_right, Nat.add_sub_cancel_left,
                List.getD_cons_succ] at swapped ⊢
              simpa using swapped
      · rw [if_neg more]
        have short : middle.length ≤ 1 := by
          omega
        match middle, short with
        | [], _ =>
            rfl
        | [single], _ =>
            rfl

/-! ## The printed strings -/

theorem cString_append_zeros
    {text : List Char} (noZero : '\x00' ∉ text) (count : Nat) :
    cString (text ++ zeros count) = text := by
  have allowed : ∀ character ∈ text, decide (character ≠ '\x00') = true := by
    intro character member
    apply decide_eq_true
    intro zero
    exact noZero (zero ▸ member)
  unfold cString
  rw [List.takeWhile_append_of_pos allowed]
  cases count with
  | zero =>
      simp [zeros]
  | succ count =>
      simp [zeros, List.replicate_succ]

theorem memmove_zeros (before text : List Char) (count : Nat) :
    memmove (before ++ zeros count) before.length text =
      before ++ text ++ zeros (count - text.length) := by
  simp [memmove, zeros]

theorem set_zeros (before : List Char) (character : Char) {count : Nat}
    (room : 0 < count) :
    (before ++ zeros count).set before.length character =
      before ++ [character] ++ zeros (count - 1) := by
  cases count with
  | zero =>
      omega
  | succ count =>
      simp [zeros, List.replicate_succ]

theorem strncpy_zeros
    {source text : List Char} (string : cString source = text)
    (before : List Char) {count room : Nat} (inside : count ≤ room) :
    strncpy (before ++ zeros room) before.length source count =
      before ++ text.take count ++
        zeros (room - (text.take count).length) := by
  have short : (text.take count).length ≤ count := by
    rw [List.length_take]
    exact Nat.min_le_left _ _
  have padding :
      List.replicate (count - (text.take count).length) '\x00' ++
          zeros (room - count) =
        zeros (room - (text.take count).length) := by
    rw [zeros, List.replicate_append_replicate]
    congr 1
    omega
  unfold strncpy
  rw [string]
  dsimp only
  rw [memmove_zeros]
  simp only [List.length_append, List.length_replicate, List.append_assoc]
  rw [show room - ((text.take count).length +
      (count - (text.take count).length)) = room - count by
    omega, padding]

theorem zero_not_mem_toDigits (value : Nat) :
    '\x00' ∉ Nat.toDigits 10 value := by
  intro member
  exact absurd (isDigit_of_mem_decimal member) (by decide)

theorem zero_not_mem_fixedDecimal (decimals value : Nat) :
    '\x00' ∉ fixedDecimal decimals value := by
  intro member
  rcases isPrint_of_mem_fixedDecimal member with point | digit
  · exact absurd point (by decide)
  · exact absurd digit (by decide)

theorem toDigits_length_le (value : UInt64) :
    (Nat.toDigits 10 value.toNat).length ≤ 20 := by
  have bound := value.toNat_lt
  exact (Nat.length_toDigits_le_iff (by omega) (by omega)).mpr (by omega)

/-- `format_u64` prints every number that its buffer has room for. -/
theorem formatU64_eq
    {out : List Char} {outLen : Nat} (value : UInt64)
    (room : (Nat.toDigits 10 value.toNat).length < outLen)
    (size : outLen ≤ out.length) :
    formatU64 out outLen value =
      (true,
        Nat.toDigits 10 value.toNat ++ '\x00' ::
          out.drop ((Nat.toDigits 10 value.toNat).length + 1)) := by
  have bound := value.toNat_lt
  rcases formatU64Digits_eq (outLen - 1) 19 [] out value.toNat
      (by omega) (by rw [List.length_nil]; omega)
      (by rw [List.length_nil]; omega) with
    ⟨low, last, digits, loop⟩
  have length := congrArg List.length digits
  rw [List.length_reverse, List.length_append, List.length_singleton]
    at length
  have written :
      ((low ++ out.drop low.length).set low.length (Nat.digitChar last)).set
          (low.length + 1) '\x00' =
        [] ++ (low ++ [Nat.digitChar last]) ++ '\x00' ::
          out.drop (low.length + 2) := by
    have cells :
        ∃ first second,
          out.drop low.length =
            first :: second :: out.drop (low.length + 2) :=
      ⟨out[low.length], out[low.length + 1], by
        rw [List.drop_eq_getElem_cons (by omega),
          List.drop_eq_getElem_cons (by omega)]⟩
    rcases cells with ⟨first, second, cells⟩
    rw [cells]
    simp
  have reversed :=
    formatU64Reverse_eq low.length [] (low ++ [Nat.digitChar last])
      ('\x00' :: out.drop (low.length + 2)) (by simp)
  rw [← digits, List.reverse_reverse, List.length_nil] at reversed
  rw [List.nil_append, List.nil_append, List.length_nil, Nat.zero_add]
    at loop
  unfold formatU64
  rw [if_neg (by omega), loop]
  dsimp only
  rw [written, ← digits, reversed, length]
  rfl

/-- What `format_u64` leaves in a zeroed buffer. -/
theorem formatU64_zeros (value : UInt64) :
    formatU64 (zeros 21) 21 value =
      (true,
        Nat.toDigits 10 value.toNat ++
          zeros (21 - (Nat.toDigits 10 value.toNat).length)) := by
  have short := toDigits_length_le value
  rw [formatU64_eq value (by omega) (by rw [length_zeros])]
  congr 2
  rw [zeros, List.drop_replicate, ← List.replicate_succ, zeros]
  congr 1
  omega

/-- The two checks of `dst_len` in `format_fpu64`. -/
def Fpu64Refuses (digits decimals dstLen : Nat) : Prop :=
  (digits ≤ decimals ∧ dstLen ≤ 2 + decimals - digits) ∨
    (decimals < digits ∧ dstLen ≤ digits + 1 + decimals)

instance (digits decimals dstLen : Nat) :
    Decidable (Fpu64Refuses digits decimals dstLen) :=
  inferInstanceAs (Decidable (_ ∨ _))

/-- A number with at most `decimals` digits: zeros are put in front, and the
digits are cut where the buffer ends. -/
theorem formatFpu64_padded
    (value : UInt64) {dstLen decimals : Nat}
    (padded : (Nat.toDigits 10 value.toNat).length ≤ decimals)
    (room :
      2 + decimals - (Nat.toDigits 10 value.toNat).length < dstLen) :
    formatFpu64 (zeros dstLen) dstLen value decimals =
      (true,
        (fixedDecimal decimals value.toNat).take dstLen ++
          zeros (dstLen -
            (fixedDecimal decimals value.toNat).length)) := by
  have buffer :=
    cString_append_zeros (zero_not_mem_toDigits value.toNat)
      (21 - (Nat.toDigits 10 value.toNat).length)
  have start (text : List Char) :=
    memmove_zeros [] text dstLen
  simp only [List.nil_append, List.length_nil] at start
  have startLength :
      ('0' :: '.' :: List.replicate
          (decimals - (Nat.toDigits 10 value.toNat).length) '0').length =
        2 + decimals - (Nat.toDigits 10 value.toNat).length := by
    rw [List.length_cons, List.length_cons, List.length_replicate]
    omega
  have copied :=
    strncpy_zeros buffer
      ('0' :: '.' :: List.replicate
        (decimals - (Nat.toDigits 10 value.toNat).length) '0')
      (Nat.le_refl
        (dstLen -
          (2 + decimals - (Nat.toDigits 10 value.toNat).length)))
  rw [startLength] at copied
  have text : fixedDecimal decimals value.toNat =
      ('0' :: '.' :: List.replicate
        (decimals - (Nat.toDigits 10 value.toNat).length) '0') ++
          Nat.toDigits 10 value.toNat := by
    rw [fixedDecimal, if_pos padded]
    rfl
  have front := @List.take_of_length_le _ dstLen
    ('0' :: '.' :: List.replicate
      (decimals - (Nat.toDigits 10 value.toNat).length) '0')
    (by rw [startLength]; omega)
  unfold formatFpu64
  rw [formatU64_zeros]
  dsimp only
  rw [buffer, if_pos padded, if_neg (by omega), start, startLength, copied,
    text, List.take_append, startLength, front, List.length_append,
    startLength, List.length_take]
  congr 3
  omega

/-- A number with more digits: the point is put among them. -/
theorem formatFpu64_split
    (value : UInt64) {dstLen decimals : Nat}
    (long : ¬ (Nat.toDigits 10 value.toNat).length ≤ decimals)
    (room :
      (Nat.toDigits 10 value.toNat).length + 1 + decimals < dstLen) :
    formatFpu64 (zeros dstLen) dstLen value decimals =
      (true,
        fixedDecimal decimals value.toNat ++
          zeros (dstLen -
            (fixedDecimal decimals value.toNat).length)) := by
  have short := toDigits_length_le value
  have noZero := zero_not_mem_toDigits value.toNat
  have buffer :=
    cString_append_zeros noZero
      (21 - (Nat.toDigits 10 value.toNat).length)
  have start (text : List Char) :=
    memmove_zeros [] text dstLen
  simp only [List.nil_append, List.length_nil] at start
  unfold formatFpu64
  rw [formatU64_zeros]
  dsimp only
  rw [buffer, if_neg long, if_neg (by omega), start, fixedDecimal,
    if_neg long]
  have parts :
      ∃ whole fraction,
        Nat.toDigits 10 value.toNat = whole ++ fraction ∧
          fraction.length = decimals :=
    ⟨_, _, (List.take_append_drop
      ((Nat.toDigits 10 value.toNat).length - decimals) _).symm, by
        rw [List.length_drop]
        omega⟩
  rcases parts with ⟨whole, fraction, digits, fractionLength⟩
  have shift :
      (Nat.toDigits 10 value.toNat).length - decimals = whole.length := by
    rw [digits, List.length_append]
    omega
  rw [shift]
  rw [digits] at noZero short room ⊢
  rw [List.append_assoc, List.take_left, List.drop_left, List.take_left]
  rw [List.length_append] at short room
  have pointed :
      (whole ++ zeros (dstLen - whole.length)).set whole.length '.' =
        whole ++ ['.'] ++ zeros (dstLen - whole.length - 1) :=
    set_zeros whole '.' (by omega)
  rw [pointed]
  by_cases none : decimals = 0
  · rw [if_pos none, if_pos none]
    have zeroed :=
      set_zeros (whole ++ ['.']) '0'
        (show 0 < dstLen - whole.length - 1 by omega)
    rw [List.length_append, List.length_singleton] at zeroed
    rw [zeroed]
    simp [Nat.sub_sub]
  · rw [if_neg none, if_neg none]
    have fractionString :
        cString (fraction ++
          zeros (21 - (whole.length + fraction.length))) = fraction :=
      cString_append_zeros (by
        intro member
        exact noZero (List.mem_append_right _ member)) _
    have copied :=
      strncpy_zeros fractionString (whole ++ ['.'])
        (show decimals ≤ dstLen - whole.length - 1 by omega)
    rw [List.length_append, List.length_singleton,
      List.take_of_length_le fractionLength.le] at copied
    have left : dstLen - whole.length - 1 - fraction.length =
        dstLen - (whole.length + (fraction.length + 1)) := by
      omega
    rw [List.length_append, copied, left]
    simp

theorem length_fixedDecimal (decimals value : Nat) :
    (fixedDecimal decimals value).length =
      if (Nat.toDigits 10 value).length ≤ decimals then 2 + decimals
      else (Nat.toDigits 10 value).length + if decimals = 0 then 2 else 1 := by
  rw [fixedDecimal]
  split
  · rw [List.length_cons, List.length_cons, List.length_append,
      List.length_replicate]
    omega
  · rw [List.length_append, List.length_take, List.length_cons]
    split
    · rw [List.length_singleton]
      omega
    · rw [List.length_drop]
      omega

/-- What `format_fpu64` leaves in a zeroed buffer: unless it refuses, the
fixed-point numeral as far as the buffer reaches. -/
theorem formatFpu64_zeros (value : UInt64) (dstLen decimals : Nat) :
    formatFpu64 (zeros dstLen) dstLen value decimals =
      if Fpu64Refuses (Nat.toDigits 10 value.toNat).length decimals dstLen then
        (false, zeros dstLen)
      else
        (true,
          (fixedDecimal decimals value.toNat).take dstLen ++
            zeros (dstLen -
              (fixedDecimal decimals value.toNat).length)) := by
  have buffer :=
    cString_append_zeros (zero_not_mem_toDigits value.toNat)
      (21 - (Nat.toDigits 10 value.toNat).length)
  by_cases padded : (Nat.toDigits 10 value.toNat).length ≤ decimals
  · split
    · rename_i refused
      rcases refused with ⟨_, full⟩ | ⟨long, _⟩
      · unfold formatFpu64
        rw [formatU64_zeros]
        dsimp only
        rw [buffer, if_pos padded, if_pos full]
      · omega
    · rename_i accepted
      apply formatFpu64_padded value padded
      by_contra full
      exact accepted (.inl ⟨padded, Nat.not_lt.mp full⟩)
  · split
    · rename_i refused
      rcases refused with ⟨short, _⟩ | ⟨_, full⟩
      · exact absurd short padded
      · unfold formatFpu64
        rw [formatU64_zeros]
        dsimp only
        rw [buffer, if_neg padded, if_pos full]
    · rename_i accepted
      have room :
          (Nat.toDigits 10 value.toNat).length + 1 + decimals < dstLen := by
        by_contra full
        exact accepted
          (.inr ⟨Nat.not_le.mp padded, Nat.not_lt.mp full⟩)
      rw [formatFpu64_split value padded room, List.take_of_length_le]
      rw [length_fixedDecimal, if_neg padded]
      split <;> omega

/-- `format_fpu64` into a zeroed buffer that is large enough leaves the
fixed-point numeral there. -/
theorem formatFpu64_eq
    (value : UInt64) {dstLen decimals : Nat}
    (room : 22 + decimals ≤ dstLen) :
    (formatFpu64 (zeros dstLen) dstLen value decimals).1 = true ∧
      cString (formatFpu64 (zeros dstLen) dstLen value decimals).2 =
        fixedDecimal decimals value.toNat := by
  have short := toDigits_length_le value
  have length := length_fixedDecimal decimals value.toNat
  have accepted :
      ¬ Fpu64Refuses (Nat.toDigits 10 value.toNat).length decimals dstLen := by
    unfold Fpu64Refuses
    omega
  have fits : (fixedDecimal decimals value.toNat).length ≤ dstLen := by
    rw [length]
    split
    · omega
    · split <;> omega
  rw [formatFpu64_zeros, if_neg accepted, List.take_of_length_le fits]
  exact ⟨rfl, cString_append_zeros (zero_not_mem_fixedDecimal _ _) _⟩

end Neo3App
