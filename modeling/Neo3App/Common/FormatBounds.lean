import Neo3App.Common.Format

/-!
# Printing within a buffer

What `format_u64` and `format_fpu64` do for every length of their buffer, and
the lengths for which that is what is expected of them.
-/

namespace Neo3App

open Neo3App.Lib

/-- What is expected of `format_u64` for a number and a buffer length: it
stays inside the buffer, succeeds when the digits and the NUL fit, and then
leaves them there. -/
structure PrintsU64 (value : UInt64) (outLen : Nat) : Prop where
  inside : ∀ out : List Char, outLen ≤ out.length →
    (formatU64 out outLen value).2.length = out.length ∧
      (formatU64 out outLen value).2.drop outLen = out.drop outLen
  succeeds_iff : ∀ out : List Char, outLen ≤ out.length →
    ((formatU64 out outLen value).1 = true ↔
      (Nat.toDigits 10 value.toNat).length + 1 ≤ outLen)
  printed : ∀ out : List Char, outLen ≤ out.length →
    (formatU64 out outLen value).1 = true →
    (formatU64 out outLen value).2.take
        ((Nat.toDigits 10 value.toNat).length + 1) =
      Nat.toDigits 10 value.toNat ++ ['\x00']

/-- A number of several digits that has no room is noticed in the loop, and
the loop has stayed inside the buffer. -/
theorem formatU64Digits_refuses {outLen : Nat} (steps : Nat) :
    ∀ (out : List Char) (i value : Nat),
      value < 10 ^ (steps + 1) → 9 < value → i ≤ outLen →
      outLen < i + (Nat.toDigits 10 value).length →
      ∃ written,
        formatU64Digits outLen (steps + 1) out i value = (written, none) ∧
          written.length = out.length ∧
          written.drop (outLen + 1) = out.drop (outLen + 1) := by
  induction steps with
  | zero =>
      intro out i value small several
      omega
  | succ steps ih =>
      intro out i value small several inside full
      have digits := Nat.toDigits_of_base_le (b := 10) (n := value)
        (by omega) (by omega)
      rw [digits, List.length_append, List.length_singleton] at full
      rw [formatU64Digits, if_pos several]
      dsimp only
      by_cases last : outLen < i + 1 + 1
      · rw [if_pos last]
        refine ⟨_, rfl, List.length_set, ?_⟩
        rw [List.drop_set, if_pos (by omega)]
      · rw [if_neg last]
        have more : 9 < value / 10 := by
          by_contra single
          rw [Nat.toDigits_of_lt_base (show value / 10 < 10 by omega),
            List.length_singleton] at full
          omega
        obtain ⟨written, run, length, beyond⟩ :=
          ih (out.set i (Nat.digitChar (value % 10))) (i + 1) (value / 10)
            (by rw [Nat.pow_succ] at small; omega) more (by omega) (by omega)
        refine ⟨written, run, ?_, ?_⟩
        · rw [length, List.length_set]
        · rw [beyond, List.drop_set, if_pos (by omega)]

/-- `format_u64` refuses every number of several digits that its buffer has
no room for, and every number when there is no buffer. -/
theorem formatU64_refuses
    (value : UInt64) {outLen : Nat} (out : List Char)
    (full : outLen < (Nat.toDigits 10 value.toNat).length + 1)
    (checked : outLen ≠ 1 ∨ 10 ≤ value.toNat) :
    ∃ written,
      formatU64 out outLen value = (false, written) ∧
        written.length = out.length ∧
        written.drop outLen = out.drop outLen := by
  by_cases none : outLen = 0
  · refine ⟨out, ?_, rfl, rfl⟩
    rw [formatU64, if_pos none]
  · have several : 9 < value.toNat := by
      by_contra single
      rw [Nat.toDigits_of_lt_base (show value.toNat < 10 by omega),
        List.length_singleton] at full
      omega
    have bound := value.toNat_lt
    obtain ⟨written, run, length, beyond⟩ :=
      @formatU64Digits_refuses (outLen - 1) 19 out 0 value.toNat (by omega)
        several (by omega) (by omega)
    rw [Nat.sub_add_cancel (by omega)] at beyond
    refine ⟨written, ?_, length, beyond⟩
    rw [formatU64, if_neg none, run]

/-- A buffer of one character and a number of one digit: the NUL is written
behind the buffer. -/
theorem formatU64_overruns
    {value : UInt64} (single : value.toNat < 10) (cell : Char) :
    (formatU64 [cell] 1 value).1 = true := by
  rw [formatU64, if_neg (by omega), formatU64Digits, if_neg (by omega)]

/-- **`format_u64` prints within its buffer** except for one digit in a
buffer of one character. -/
theorem printsU64_iff (value : UInt64) (outLen : Nat) :
    PrintsU64 value outLen ↔ outLen ≠ 1 ∨ 10 ≤ value.toNat := by
  constructor
  · intro prints
    by_contra overruns
    rw [not_or, not_not] at overruns
    obtain ⟨one, small⟩ := overruns
    subst one
    have room := (prints.succeeds_iff ['\x00'] (Nat.le_refl _)).mp
      (formatU64_overruns (Nat.not_le.mp small) _)
    have some := Nat.length_toDigits_pos (b := 10) (n := value.toNat)
    omega
  · intro checked
    by_cases room : (Nat.toDigits 10 value.toNat).length + 1 ≤ outLen
    · have result {out : List Char} (size : outLen ≤ out.length) :=
        formatU64_eq value room size
      constructor
      · intro out size
        rw [result size]
        constructor
        · rw [List.length_append, List.length_cons, List.length_drop]
          omega
        · rw [List.append_cons, List.drop_append, List.length_append,
            List.length_singleton, List.drop_drop,
            List.drop_of_length_le (by simpa using room),
            List.nil_append, Nat.add_sub_cancel' room]
      · intro out size
        rw [result size]
        exact ⟨fun _ => room, fun _ => rfl⟩
      · intro out size _
        rw [result size, List.append_cons, List.take_left' (by simp)]
    · have result (out : List Char) :=
        formatU64_refuses value out (Nat.not_le.mp room) checked
      constructor
      · intro out _
        obtain ⟨written, run, length, beyond⟩ := result out
        rw [run]
        exact ⟨length, beyond⟩
      · intro out _
        obtain ⟨written, run, _, _⟩ := result out
        rw [run]
        exact ⟨fun success => absurd success Bool.false_ne_true,
          fun fits => absurd fits room⟩
      · intro out _ success
        obtain ⟨written, run, _, _⟩ := result out
        rw [run] at success
        exact absurd success Bool.false_ne_true

/-- The NUL of the text "7" is written at index 1 of a buffer of length 1. -/
theorem not_printsU64_seven : ¬ PrintsU64 7 1 := by
  intro prints
  have outside := (prints.inside ['a', 'b'] (by decide)).2
  exact absurd outside (by decide +kernel)

/-- What is expected of `format_fpu64` for a number, its decimals and a
buffer length: on success the buffer holds the exact decimal expansion with
its NUL, nothing behind the buffer is written, and a text that does not fit
is refused. -/
structure PrintsFpu64 (value : UInt64) (decimals : UInt8) (dstLen : Nat) :
    Prop where
  inside : ∀ beyond : List Char,
    (formatFpu64 (zeros dstLen ++ beyond) dstLen value decimals.toNat).1 =
        true →
      (formatFpu64 (zeros dstLen ++ beyond) dstLen value decimals.toNat).2.drop
          dstLen =
        beyond
  printed : ∀ beyond : List Char,
    (formatFpu64 (zeros dstLen ++ beyond) dstLen value decimals.toNat).1 =
        true →
      ∃ count,
        (formatFpu64 (zeros dstLen ++ beyond) dstLen value
            decimals.toNat).2.take dstLen =
          exactDecimal decimals.toNat value.toNat ++ zeros (count + 1)
  refuses : ∀ beyond : List Char,
    dstLen ≤ (exactDecimal decimals.toNat value.toNat).length →
      (formatFpu64 (zeros dstLen ++ beyond) dstLen value decimals.toNat).1 =
        false

theorem strncpy_append {memory : List Char} {start count : Nat}
    (source : List Char) (fits : start + count ≤ memory.length)
    (beyond : List Char) :
    strncpy (memory ++ beyond) start source count =
      strncpy memory start source count ++ beyond := by
  have short : ((cString source).take count).length ≤ count := by
    rw [List.length_take]
    exact Nat.min_le_left _ _
  rw [strncpy, strncpy]
  apply memmove_append
  rw [List.length_append, List.length_replicate]
  omega

/-- `format_fpu64` leaves what is behind its buffer alone. -/
theorem formatFpu64_append
    (value : UInt64) (decimals : Nat) (dst beyond : List Char) :
    formatFpu64 (dst ++ beyond) dst.length value decimals =
      ((formatFpu64 dst dst.length value decimals).1,
        (formatFpu64 dst dst.length value decimals).2 ++ beyond) := by
  unfold formatFpu64
  rw [formatU64_zeros]
  dsimp only
  generalize Nat.toDigits 10 value.toNat ++
    zeros (21 - (Nat.toDigits 10 value.toNat).length) = buffer
  generalize (cString buffer).length = digits
  split
  · split
    · rfl
    · rename_i padded room
      have front : 0 + ('0' :: '.' ::
          List.replicate (decimals - digits) '0').length ≤ dst.length := by
        rw [List.length_cons, List.length_cons, List.length_replicate]
        omega
      rw [memmove_append front, strncpy_append]
      rw [length_memmove front]
      omega
  · split
    · rfl
    · rename_i long room
      have whole : 0 + (buffer.take (digits - decimals)).length ≤
          dst.length := by
        rw [List.length_take]
        omega
      rw [memmove_append whole, List.set_append_left _ _ (by
        rw [length_memmove whole]
        omega)]
      split
      · rw [List.set_append_left _ _ (by
          rw [List.length_set, length_memmove whole]
          omega)]
      · rw [strncpy_append]
        rw [List.length_set, length_memmove whole]
        omega

/-- The result of `format_fpu64` in a zeroed buffer in front of other
cells. -/
theorem formatFpu64_zeros_append
    (value : UInt64) (decimals dstLen : Nat) (beyond : List Char) :
    formatFpu64 (zeros dstLen ++ beyond) dstLen value decimals =
      if Fpu64Refuses (Nat.toDigits 10 value.toNat).length decimals dstLen then
        (false, zeros dstLen ++ beyond)
      else
        (true,
          (exactDecimal decimals value.toNat).take dstLen ++
              zeros (dstLen - (exactDecimal decimals value.toNat).length) ++
            beyond) := by
  have inside := formatFpu64_append value decimals (zeros dstLen) beyond
  rw [length_zeros, formatFpu64_zeros, fixedDecimal_eq_exact] at inside
  rw [inside]
  split <;> rfl

/-- The lengths of the buffer between the check and the end of the text: with
all digits behind the point, or without decimals. -/
def Fpu64Overlooked (digits decimals dstLen : Nat) : Prop :=
  (digits ≤ decimals ∧ 2 + decimals - digits < dstLen ∧
      dstLen ≤ 2 + decimals) ∨
    (decimals = 0 ∧ dstLen = digits + 2)

theorem fpu64Overlooked_iff (value : UInt64) (decimals dstLen : Nat) :
    Fpu64Overlooked (Nat.toDigits 10 value.toNat).length decimals dstLen ↔
      ¬ Fpu64Refuses (Nat.toDigits 10 value.toNat).length decimals dstLen ∧
        dstLen ≤ (exactDecimal decimals value.toNat).length := by
  have some := Nat.length_toDigits_pos (b := 10) (n := value.toNat)
  rw [← fixedDecimal_eq_exact, length_fixedDecimal]
  unfold Fpu64Overlooked Fpu64Refuses
  split
  · omega
  · split <;> omega

/-- **`format_fpu64` reports success for the exact number only**, unless its
check overlooks that the text does not fit. -/
theorem printsFpu64_iff (value : UInt64) (decimals : UInt8) (dstLen : Nat) :
    PrintsFpu64 value decimals dstLen ↔
      ¬ Fpu64Overlooked (Nat.toDigits 10 value.toNat).length decimals.toNat
        dstLen := by
  have result := formatFpu64_zeros_append value decimals.toNat dstLen
  rw [fpu64Overlooked_iff]
  constructor
  · intro prints
    rintro ⟨accepted, full⟩
    have refused := prints.refuses [] full
    rw [result, if_neg accepted] at refused
    exact absurd refused.symm Bool.false_ne_true
  · intro fits
    by_cases refused : Fpu64Refuses
        (Nat.toDigits 10 value.toNat).length decimals.toNat dstLen
    · constructor
      · intro beyond success
        rw [result, if_pos refused] at success
        exact absurd success Bool.false_ne_true
      · intro beyond success
        rw [result, if_pos refused] at success
        exact absurd success Bool.false_ne_true
      · intro beyond _
        rw [result, if_pos refused]
    · have room : (exactDecimal decimals.toNat value.toNat).length <
          dstLen := by
        by_contra full
        exact fits ⟨refused, Nat.not_lt.mp full⟩
      have whole :=
        List.take_of_length_le (Nat.le_of_lt room)
      have memory : (exactDecimal decimals.toNat value.toNat ++
          zeros (dstLen -
            (exactDecimal decimals.toNat value.toNat).length)).length =
              dstLen := by
        rw [List.length_append, length_zeros]
        omega
      constructor
      · intro beyond _
        rw [result, if_neg refused, whole, List.drop_left' memory]
      · intro beyond _
        refine ⟨dstLen -
          (exactDecimal decimals.toNat value.toNat).length - 1, ?_⟩
        rw [result, if_neg refused, whole, List.take_left' memory,
          Nat.sub_add_cancel (by omega)]
      · intro beyond full
        omega

/-- 0.00000123 in a buffer of ten characters: the NUL does not fit, and the
call succeeds. -/
theorem not_printsFpu64_cut : ¬ PrintsFpu64 123 8 10 := by
  intro prints
  have refused := prints.refuses [] (by decide +kernel)
  exact absurd refused (by decide +kernel)

end Neo3App
