import Neo3App.Common.Buffer
import Neo3App.Lib.Numeral

/-!
# Base 58

`base58_encode` of `base58.c`, with its work buffer of base-58 digits and the
early exit of its inner loop.
-/

namespace Neo3App

open Neo3App.Lib

def maxEncInputSize : Nat := 120

def base58Alphabet : List Char :=
  "123456789ABCDEFGHJKLMNPQRSTUVWXYZabcdefghijkmnopqrstuvwxyz".toList

/-- The loop `for (j = output_size - 1; (int) j >= 0; j--)`.  The second
argument is `j + 1`; leaving the loop at `(int) j = -1` gives the wrapped
value of `j`. -/
def base58EncodeDigits (stopAt : Nat) :
    Nat → Nat → List Nat → List Nat × Nat
  | 0, _, buffer => (buffer, sizeModulus - 1)
  | j + 1, carry, buffer =>
      let sum := carry + 256 * buffer.getD j 0
      let buffer := buffer.set j (sum % 58)
      if j ≤ sizeSub stopAt 1 ∧ sum / 58 = 0 then
        (buffer, j)
      else
        base58EncodeDigits stopAt j (sum / 58) buffer

def base58EncodeBytes (outputSize : Nat) :
    List UInt8 → List Nat → Nat → List Nat
  | [], buffer, _ => buffer
  | byte :: rest, buffer, stopAt =>
      let (buffer, j) :=
        base58EncodeDigits stopAt outputSize byte.toNat buffer
      base58EncodeBytes outputSize rest buffer j

/-- `base58_encode`: the returned length, or -1, and the memory `out`. -/
def base58Encode (input : List UInt8) (out : List Char) (outLen : Nat) :
    Int × List Char :=
  if maxEncInputSize < input.length then
    (-1, out)
  else
    let zeroCount := (input.takeWhile (· = 0)).length
    let outputSize := (input.length - zeroCount) * 138 / 100 + 1
    let buffer :=
      base58EncodeBytes outputSize (input.drop zeroCount)
        (List.replicate (maxEncInputSize * 138 / 100 + 1) 0)
        (outputSize - 1)
    let j := ((buffer.take outputSize).takeWhile (· = 0)).length
    if outLen < zeroCount + outputSize - j then
      (-1, out)
    else
      let digits := (buffer.take outputSize).drop j
      let text :=
        List.replicate zeroCount (base58Alphabet.getD 0 '1') ++
          digits.map fun digit => base58Alphabet.getD digit '1'
      (text.length, memmove out 0 text)

theorem memmove_memmove_self {α : Type} (memory text : List α) :
    memmove (memmove memory 0 text) 0 text = memmove memory 0 text := by
  simp [memmove]

/-- Encoding over a former result of the same input changes nothing. -/
theorem base58Encode_idempotent
    (input : List UInt8) (out : List Char) (outLen : Nat) :
    (base58Encode input (base58Encode input out outLen).2 outLen).2 =
      (base58Encode input out outLen).2 := by
  unfold base58Encode
  split
  · rfl
  · dsimp only
    split
    · rfl
    · exact memmove_memmove_self _ _

example :
    base58Encode [0, 0, 1, 2, 3] (List.replicate 8 ' ') 8 =
      (5, "11Ldp   ".toList) := by
  decide +kernel

/-- The digits on the left of an index are zero. -/
def ZeroBelow (index : Nat) (digits : List Nat) : Prop :=
  ∀ digit ∈ digits.take index, digit = 0

private theorem ZeroBelow.of_append {index : Nat} {top rest : List Nat}
    (zero : ZeroBelow index (top ++ rest)) : ZeroBelow index top := by
  intro digit member
  apply zero digit
  rw [List.take_append]
  exact List.mem_append_left _ member

private theorem ZeroBelow.append {index : Nat} {top : List Nat}
    (zero : ZeroBelow index top) (inside : index ≤ top.length)
    (rest : List Nat) : ZeroBelow index (top ++ rest) := by
  intro digit member
  rw [List.take_append_of_le_length inside] at member
  exact zero digit member

private theorem ZeroBelow.all {index : Nat} {top : List Nat}
    (zero : ZeroBelow index top) (whole : top.length ≤ index) :
    ∀ digit ∈ top, digit = 0 := by
  intro digit member
  apply zero digit
  rwa [List.take_of_length_le whole]

/-- The inner loop multiplies by 256 and adds the carry.  It stops on the
left of its former stop, and not before the index `first`, which the value
does not outgrow. -/
theorem base58EncodeDigits_eq
    {stopAt first : Nat} (wraps : stopAt < sizeModulus)
    (ordered : first < stopAt) (low : List Nat) (high : List Nat) :
    ∀ carry : Nat, first < high.length →
      (∀ digit ∈ high, digit < 58) → ZeroBelow stopAt high →
      carry + 256 * numeral 58 high < 58 ^ (high.length - first) →
      ∃ written stop,
        base58EncodeDigits stopAt high.length carry (high ++ low) =
            (written ++ low, stop) ∧
          written.length = high.length ∧ first ≤ stop ∧ stop < stopAt ∧
          stop < written.length ∧
          (∀ digit ∈ written, digit < 58) ∧ ZeroBelow stop written ∧
          numeral 58 written = carry + 256 * numeral 58 high := by
  induction high using List.reverseRecOn generalizing low with
  | nil =>
      intro carry inside
      simp at inside
  | append_singleton top digit ih =>
      intro carry inside small zero bound
      rw [List.length_append, List.length_singleton] at inside bound
      rw [numeral_append_singleton] at bound
      have topSmall : ∀ other ∈ top, other < 58 := fun other member =>
        small other (List.mem_append_left _ member)
      have decrement : sizeSub stopAt 1 = stopAt - 1 :=
        sizeSub_of_le (by omega) wraps
      have sum :
          (top ++ [digit] ++ low).getD top.length 0 = digit := by
        simp
      have stored (value : Nat) :
          (top ++ [digit] ++ low).set top.length value =
            top ++ value :: low := by
        simp
      rw [List.length_append, List.length_singleton, base58EncodeDigits]
      rw [sum, stored, decrement]
      split
      · rename_i stops
        have topZero := (zero.of_append).all (by omega)
        have valueTop : numeral 58 top = 0 :=
          numeral_of_zero topZero
        refine ⟨top ++ [(carry + 256 * digit) % 58], top.length, ?_, ?_,
          by omega, by omega, ?_, ?_, ?_, ?_⟩
        · simp
        · simp
        · simp
        · intro other member
          rcases List.mem_append.mp member with inTop | last
          · exact topSmall other inTop
          · rw [List.mem_singleton.mp last]
            exact Nat.mod_lt _ (by omega)
        · intro other member
          rw [List.take_left] at member
          exact topZero other member
        · rw [numeral_append_singleton, numeral_append_singleton, valueTop]
          omega
      · rename_i continues
        have further : first < top.length := by
          by_contra reached
          have here : top.length + 1 - first = 1 := by omega
          rw [here, Nat.pow_one] at bound
          exact continues ⟨by omega, by omega⟩
        have topBound :
            (carry + 256 * digit) / 58 + 256 * numeral 58 top <
              58 ^ (top.length - first) := by
          rw [Nat.succ_sub (by omega), Nat.pow_succ] at bound
          generalize 58 ^ (top.length - first) = limit at bound ⊢
          omega
        rcases ih ((carry + 256 * digit) % 58 :: low)
            ((carry + 256 * digit) / 58) further topSmall zero.of_append
            topBound with
          ⟨written, stop, run, length, low', stopBound, stopInside,
            writtenSmall, writtenZero, value⟩
        refine ⟨written ++ [(carry + 256 * digit) % 58], stop, ?_, ?_,
          low', stopBound, ?_, ?_, ?_, ?_⟩
        · rw [run]
          simp
        · simp [length]
        · rw [List.length_append]
          omega
        · intro other member
          rcases List.mem_append.mp member with inTop | last
          · exact writtenSmall other inTop
          · rw [List.mem_singleton.mp last]
            exact Nat.mod_lt _ (by omega)
        · exact writtenZero.append (by omega) _
        · rw [numeral_append_singleton, numeral_append_singleton, value]
          omega

/-- A number of `count` bytes has at most `count * 138 / 100 + 1` digits. -/
theorem pow_256_le (count : Nat) :
    256 ^ count ≤ 58 ^ (count * 138 / 100 + 1) := by
  have powers : (256 ^ count) ^ 100 ≤ (58 ^ (count * 138 / 100 + 1)) ^ 100 :=
    calc
      (256 ^ count) ^ 100 = (256 ^ 100) ^ count := by
        rw [← Nat.pow_mul, ← Nat.pow_mul, Nat.mul_comm]
      _ ≤ (58 ^ 138) ^ count := Nat.pow_le_pow_left (by decide +kernel) _
      _ = 58 ^ (138 * count) := by
        rw [← Nat.pow_mul]
      _ ≤ 58 ^ ((count * 138 / 100 + 1) * 100) :=
        Nat.pow_le_pow_right (by omega) (by omega)
      _ = (58 ^ (count * 138 / 100 + 1)) ^ 100 := by
        rw [← Nat.pow_mul]
  exact (Nat.pow_le_pow_iff_left (by omega)).mp powers

/-- The work buffer after `count` bytes with the value `value`. -/
structure WorkBuffer (outputSize count value stopAt : Nat)
    (digits : List Nat) : Prop where
  length : digits.length = outputSize
  small : ∀ digit ∈ digits, digit < 58
  zeroBelow : ZeroBelow stopAt digits
  value_eq : numeral 58 digits = value
  value_lt : value < 256 ^ count
  stop_ge : outputSize ≤ stopAt + count * 138 / 100 + 1
  stop_lt : stopAt < outputSize

/-- One more byte. -/
theorem WorkBuffer.step
    {outputSize count value stopAt : Nat} {digits : List Nat}
    (work : WorkBuffer outputSize count value stopAt digits)
    (byte : UInt8) (low : List Nat)
    (room : (count + 1) * 138 / 100 + 1 ≤ outputSize)
    (fits : outputSize < sizeModulus) :
    ∃ written stop,
      base58EncodeDigits stopAt outputSize byte.toNat (digits ++ low) =
          (written ++ low, stop) ∧
        WorkBuffer outputSize (count + 1) (256 * value + byte.toNat) stop
          written := by
  have byteBound := byte.toNat_lt
  have valueBound := work.value_lt
  have next : 256 * value + byte.toNat < 256 ^ (count + 1) := by
    rw [Nat.pow_succ]
    omega
  have stopGe := work.stop_ge
  have stopLt := work.stop_lt
  have inside :
      outputSize - ((count + 1) * 138 / 100 + 1) < digits.length := by
    rw [work.length]
    omega
  have bound :
      byte.toNat + 256 * numeral 58 digits <
        58 ^ (digits.length -
          (outputSize - ((count + 1) * 138 / 100 + 1))) := by
    have exponent :
        digits.length - (outputSize - ((count + 1) * 138 / 100 + 1)) =
          (count + 1) * 138 / 100 + 1 := by
      rw [work.length]
      omega
    rw [exponent, work.value_eq, Nat.add_comm]
    exact next.trans_le (pow_256_le (count + 1))
  have wraps : stopAt < sizeModulus := by
    omega
  rcases base58EncodeDigits_eq wraps (by omega) low
      digits byte.toNat inside work.small work.zeroBelow bound with
    ⟨written, stop, run, length, stopLow, _, stopInside, small, zero, value⟩
  rw [work.length] at run length
  refine ⟨written, stop, run, length, small, zero, ?_, next, by omega,
    by omega⟩
  rw [value, work.value_eq, Nat.add_comm]

/-- The remaining bytes. -/
theorem WorkBuffer.run
    {outputSize : Nat} (bytes : List UInt8) (low : List Nat)
    (fits : outputSize < sizeModulus) :
    ∀ {count value stopAt : Nat} {digits : List Nat},
      WorkBuffer outputSize count value stopAt digits →
      (count + bytes.length) * 138 / 100 + 1 ≤ outputSize →
      ∃ written stop,
        base58EncodeBytes outputSize bytes (digits ++ low) stopAt =
            written ++ low ∧
          WorkBuffer outputSize (count + bytes.length)
            (value * 256 ^ bytes.length + beNat bytes) stop written := by
  induction bytes with
  | nil =>
      intro count value stopAt digits work _
      refine ⟨digits, stopAt, rfl, ?_⟩
      simpa [beNat, leNat] using work
  | cons byte rest ih =>
      intro count value stopAt digits work room
      rw [List.length_cons] at room
      rcases work.step byte low (by omega) fits with
        ⟨middle, stop, run, next⟩
      rcases ih next (by omega) with ⟨written, last, runRest, done⟩
      refine ⟨written, last, ?_, ?_⟩
      · rw [base58EncodeBytes, run]
        exact runRest
      · have count_eq :
            count + 1 + rest.length = count + (byte :: rest).length := by
          rw [List.length_cons]
          omega
        have value_eq :
            (256 * value + byte.toNat) * 256 ^ rest.length + beNat rest =
              value * 256 ^ (byte :: rest).length + beNat (byte :: rest) := by
          rw [beNat_cons, List.length_cons, Nat.pow_succ]
          ring
        rwa [count_eq, value_eq] at done

/-- One `1` for each leading zero byte, then the digits of the number that
the other bytes write, without leading zeros. -/
def base58Text (input : List UInt8) : List Char :=
  let zeroCount := (input.takeWhile (· = 0)).length
  List.replicate zeroCount '1' ++
    (Nat.digits 58 (beNat (input.drop zeroCount))).reverse.map fun digit =>
      base58Alphabet.getD digit '1'

theorem drop_length_takeWhile {α : Type} (test : α → Bool)
    (items : List α) :
    items.drop (items.takeWhile test).length = items.dropWhile test :=
  calc
    items.drop (items.takeWhile test).length =
        (items.takeWhile test ++ items.dropWhile test).drop
          (items.takeWhile test).length := by
      rw [List.takeWhile_append_dropWhile]
    _ = items.dropWhile test := List.drop_left

/-- The work buffer before the first byte. -/
theorem WorkBuffer.start {outputSize : Nat} (some : 0 < outputSize) :
    WorkBuffer outputSize 0 0 (outputSize - 1)
      (List.replicate outputSize 0) where
  length := List.length_replicate
  small digit member := by
    rw [List.eq_of_mem_replicate member]
    omega
  zeroBelow digit member :=
    List.eq_of_mem_replicate (List.mem_of_mem_take member)
  value_eq :=
    numeral_of_zero fun _ member => List.eq_of_mem_replicate member
  value_lt := by
    omega
  stop_ge := by
    omega
  stop_lt := by
    omega

/-- `base58_encode` writes the standard encoding when there is room for
it. -/
theorem base58Encode_eq
    {input : List UInt8} (short : input.length ≤ 120)
    (out : List Char) (outLen : Nat) :
    base58Encode input out outLen =
      if outLen < (base58Text input).length then (-1, out)
      else
        (((base58Text input).length : Int),
          memmove out 0 (base58Text input)) := by
  unfold base58Encode base58Text
  rw [if_neg (by unfold maxEncInputSize; omega)]
  dsimp only
  generalize zeroEq : (input.takeWhile (· = 0)).length = zeroCount
  have zeroLe : zeroCount ≤ input.length := by
    rw [← zeroEq]
    exact (List.takeWhile_prefix _).length_le
  have restLength : (input.drop zeroCount).length =
      input.length - zeroCount :=
    List.length_drop
  generalize sizeEq : (input.length - zeroCount) * 138 / 100 + 1 = outputSize
  have initial :
      List.replicate (maxEncInputSize * 138 / 100 + 1) 0 =
        List.replicate outputSize 0 ++
          List.replicate
            (maxEncInputSize * 138 / 100 + 1 - outputSize) 0 := by
    rw [List.replicate_append_replicate]
    congr 1
    unfold maxEncInputSize
    omega
  rcases (WorkBuffer.start (show 0 < outputSize by omega)).run
      (input.drop zeroCount)
      (List.replicate (maxEncInputSize * 138 / 100 + 1 - outputSize) 0)
      (by unfold sizeModulus; omega)
      (by rw [restLength]; omega) with
    ⟨written, stop, run, work⟩
  simp only [Nat.zero_mul, Nat.zero_add] at work
  have digits := digits_numeral (show 1 < 58 by omega) work.small
  rw [work.value_eq, ← drop_length_takeWhile] at digits
  have zeroDigits :
      (written.takeWhile (· = 0)).length ≤ outputSize := by
    rw [← work.length]
    exact (List.takeWhile_prefix _).length_le
  have textLength :
      zeroCount + outputSize - (written.takeWhile (· = 0)).length =
        (List.replicate zeroCount '1' ++
          (Nat.digits 58 (beNat (input.drop zeroCount))).reverse.map
            fun digit => base58Alphabet.getD digit '1').length := by
    rw [digits, List.length_append, List.length_replicate, List.length_map,
      List.length_drop, work.length]
    omega
  rw [initial, run, List.take_left' work.length, ← digits, textLength]
  rfl

theorem base58Alphabet_injective {first second : Nat}
    (firstSmall : first < 58) (secondSmall : second < 58)
    (equal :
      base58Alphabet.getD first '1' = base58Alphabet.getD second '1') :
    first = second := by
  have table :
      ∀ (a b : Fin 58),
        base58Alphabet.getD a.val '1' = base58Alphabet.getD b.val '1' →
          a = b := by
    decide +kernel
  exact congrArg Fin.val (table ⟨first, firstSmall⟩ ⟨second, secondSmall⟩ equal)

theorem zero_not_mem_base58Text (input : List UInt8) :
    '\x00' ∉ base58Text input := by
  intro member
  rcases List.mem_append.mp member with one | digit
  · exact absurd (List.eq_of_mem_replicate one) (by decide)
  · rcases List.mem_map.mp digit with ⟨value, isDigit, character⟩
    rw [List.mem_reverse] at isDigit
    have small := Nat.digits_lt_base (by omega) isDigit
    have table :
        ∀ a : Fin 58, base58Alphabet.getD a.val '1' ≠ '\x00' := by
      decide +kernel
    exact table ⟨value, small⟩ character

theorem map_base58Alphabet_injective
    {first second : List Nat}
    (firstSmall : ∀ digit ∈ first, digit < 58)
    (secondSmall : ∀ digit ∈ second, digit < 58)
    (equal :
      (first.map fun digit => base58Alphabet.getD digit '1') =
        second.map fun digit => base58Alphabet.getD digit '1') :
    first = second := by
  induction first generalizing second with
  | nil =>
      rw [List.map_nil, eq_comm, List.map_eq_nil_iff] at equal
      exact equal.symm
  | cons digit rest ih =>
      cases second with
      | nil =>
          simp at equal
      | cons other others =>
          rw [List.map_cons, List.map_cons, List.cons.injEq] at equal
          have head :=
            base58Alphabet_injective (firstSmall digit List.mem_cons_self)
              (secondSmall other List.mem_cons_self) equal.1
          have tail :=
            ih (fun d member => firstSmall d (List.mem_cons_of_mem _ member))
              (fun d member => secondSmall d (List.mem_cons_of_mem _ member))
              equal.2
          rw [head, tail]

/-- Without leading zeros the encoding determines the number. -/
theorem base58Text_cons_of_ne_zero
    {byte : UInt8} (nonzero : byte ≠ 0) (rest : List UInt8) :
    base58Text (byte :: rest) =
      (Nat.digits 58 (beNat (byte :: rest))).reverse.map fun digit =>
        base58Alphabet.getD digit '1' := by
  unfold base58Text
  rw [List.takeWhile_cons_of_neg (by simpa using nonzero)]
  simp

theorem base58Text_injective
    {first second : UInt8} {firstRest secondRest : List UInt8}
    (firstNonzero : first ≠ 0) (secondNonzero : second ≠ 0)
    (length : firstRest.length = secondRest.length)
    (equal :
      base58Text (first :: firstRest) = base58Text (second :: secondRest)) :
    first :: firstRest = second :: secondRest := by
  rw [base58Text_cons_of_ne_zero firstNonzero,
    base58Text_cons_of_ne_zero secondNonzero] at equal
  have small (value : Nat) :
      ∀ digit ∈ (Nat.digits 58 value).reverse, digit < 58 := by
    intro digit member
    exact Nat.digits_lt_base (by omega) (List.mem_reverse.mp member)
  have digits :=
    List.reverse_injective
      (map_base58Alphabet_injective (small _) (small _) equal)
  exact beNat_injective (by simpa using length) (Nat.digits.injective 58 digits)

end Neo3App
