import Mathlib.Data.List.TakeWhile
import Neo3App.Common.Base58

/-!
# Decoding base 58

`base58_decode` of `base58.c`: a repeated division of the base-58 digits by
256, in place.
-/

namespace Neo3App

open Neo3App.Lib

def maxDecInputSize : Nat := 164

def base58Table : List UInt8 :=
  [0xFF, 0xFF, 0xFF, 0xFF, 0xFF, 0xFF, 0xFF, 0xFF, 0xFF, 0xFF, 0xFF, 0xFF,
    0xFF, 0xFF, 0xFF, 0xFF, 0xFF, 0xFF, 0xFF, 0xFF, 0xFF, 0xFF, 0xFF, 0xFF,
    0xFF, 0xFF, 0xFF, 0xFF, 0xFF, 0xFF, 0xFF, 0xFF, 0xFF, 0xFF, 0xFF, 0xFF,
    0xFF, 0xFF, 0xFF, 0xFF, 0xFF, 0xFF, 0xFF, 0xFF, 0xFF, 0xFF, 0xFF, 0xFF,
    0xFF, 0x00, 0x01, 0x02, 0x03, 0x04, 0x05, 0x06, 0x07, 0x08, 0xFF, 0xFF,
    0xFF, 0xFF, 0xFF, 0xFF, 0xFF, 0x09, 0x0A, 0x0B, 0x0C, 0x0D, 0x0E, 0x0F,
    0x10, 0xFF, 0x11, 0x12, 0x13, 0x14, 0x15, 0xFF, 0x16, 0x17, 0x18, 0x19,
    0x1A, 0x1B, 0x1C, 0x1D, 0x1E, 0x1F, 0x20, 0xFF, 0xFF, 0xFF, 0xFF, 0xFF,
    0xFF, 0x21, 0x22, 0x23, 0x24, 0x25, 0x26, 0x27, 0x28, 0x29, 0x2A, 0x2B,
    0xFF, 0x2C, 0x2D, 0x2E, 0x2F, 0x30, 0x31, 0x32, 0x33, 0x34, 0x35, 0x36,
    0x37, 0x38, 0x39, 0xFF, 0xFF, 0xFF, 0xFF, 0xFF]

/-- The loop that looks the characters up: `none` where it returns -1.  A
negative `char` is beyond the table as well, once it is compared as a
`size_t`. -/
def base58Lookup : List Char → Option (List Nat)
  | [] => some []
  | character :: rest =>
      if base58Table.length ≤ character.toNat then none
      else
        let digit := base58Table.getD character.toNat 0xFF
        if digit = 0xFF then none
        else (base58Lookup rest).map (digit.toNat :: ·)

/-- The loop over `div_loop`, on the cells of `tmp` from `start_at` on: the
cells and the remainder. -/
def base58DecodeDivide : List Nat → Nat → List Nat × Nat
  | [], remainder => ([], remainder)
  | digit256 :: rest, remainder =>
      let tmpDiv := (remainder * 58 + digit256) % 2 ^ 16
      let (rest, remainder) := base58DecodeDivide rest (tmpDiv % 256)
      (tmpDiv / 256 :: rest, remainder)

/-- The loop `while (start_at < in_len)`, with a bound on its turns: `buffer`
and `j`. -/
def base58DecodeBytes (inLen : Nat) :
    Nat → List Nat → Nat → List Nat → Nat → Option (List Nat × Nat)
  | 0, _, _, _, _ => none
  | turns + 1, tmp, startAt, buffer, j =>
      if startAt < inLen then
        let (cells, remainder) := base58DecodeDivide (tmp.drop startAt) 0
        let tmp := tmp.take startAt ++ cells
        let startAt :=
          if tmp.getD startAt 0 = 0 then (startAt + 1) % 2 ^ 8 else startAt
        let j := (j + 2 ^ 8 - 1) % 2 ^ 8
        base58DecodeBytes inLen turns tmp startAt (buffer.set j remainder) j
      else
        some (buffer, j)

/-- `base58_decode`: the returned length, or -1, and the memory `out`. -/
def base58Decode (input : List Char) (out : List UInt8) (outLen : Nat) :
    Int × List UInt8 :=
  if maxDecInputSize < input.length ∨ input.length < 2 then
    (-1, out)
  else
    match base58Lookup input with
    | none => (-1, out)
    | some tmp =>
        let inLen := input.length
        let zeroCount := (tmp.takeWhile (· = 0)).length
        match
          base58DecodeBytes inLen 256 tmp zeroCount
            (List.replicate maxDecInputSize 0) inLen with
        | none => (-1, out)
        | some (buffer, start) =>
            let j :=
              start +
                (((buffer.take inLen).drop start).takeWhile (· = 0)).length
            let length := inLen - (j - zeroCount)
            if sizeToInt outLen < length then
              (-1, out)
            else
              (length,
                memmove out 0
                  (((buffer.drop (j - zeroCount)).take length).map
                    UInt8.ofNat))

example :
    base58Decode "11Ldp".toList (List.replicate 5 0xAA) 5 =
      (5, [0, 0, 1, 2, 3]) := by
  decide +kernel

/-- A division of base-58 digits by 256. -/
structure Divided (digits : List Nat) (remainder : Nat)
    (result : List Nat × Nat) : Prop where
  length : result.1.length = digits.length
  small : ∀ digit ∈ result.1, digit < 58
  remainder_lt : result.2 < 256
  value_eq :
    256 * numeral 58 result.1 + result.2 =
      remainder * 58 ^ digits.length + numeral 58 digits

theorem base58DecodeDivide_divided
    (digits : List Nat) {remainder : Nat} (valid : remainder < 256)
    (small : ∀ digit ∈ digits, digit < 58) :
    Divided digits remainder (base58DecodeDivide digits remainder) := by
  induction digits generalizing remainder with
  | nil =>
      exact ⟨rfl, fun _ member => absurd member List.not_mem_nil, valid, by
        simp [base58DecodeDivide]⟩
  | cons digit rest ih =>
      have digitSmall := small digit List.mem_cons_self
      have fits : (remainder * 58 + digit) % 2 ^ 16 =
          remainder * 58 + digit :=
        Nat.mod_eq_of_lt (by omega)
      have later :=
        ih (show (remainder * 58 + digit) % 256 < 256 by omega)
          fun other member => small other (List.mem_cons_of_mem _ member)
      rw [base58DecodeDivide, fits]
      generalize
        base58DecodeDivide rest ((remainder * 58 + digit) % 256) = result
          at later ⊢
      obtain ⟨cells, last⟩ := result
      have value := later.value_eq
      refine ⟨?_, ?_, later.remainder_lt, ?_⟩
      · change (_ :: cells).length = _
        rw [List.length_cons, List.length_cons, later.length]
      · intro other member
        rcases List.mem_cons.mp member with rfl | inRest
        · omega
        · exact later.small other inRest
      · change 256 * numeral 58 (_ :: cells) + last = _
        have length : cells.length = rest.length := later.length
        change 256 * numeral 58 cells + last = _ at value
        rw [numeral_cons, numeral_cons, length, List.length_cons,
          Nat.mul_add, Nat.add_assoc, value, ← Nat.add_assoc,
          ← Nat.mul_assoc, ← Nat.add_mul, Nat.div_add_mod, Nat.pow_succ]
        ring

/-- The leading digit is always divided away. -/
theorem head_base58DecodeDivide
    {digit : Nat} (small : digit < 58) (rest : List Nat) :
    (base58DecodeDivide (digit :: rest) 0).1.head? = some 0 := by
  have quotient : (0 * 58 + digit) % 2 ^ 16 / 256 = 0 := by
    omega
  rw [base58DecodeDivide, quotient]
  rfl

/-- The loop takes one turn for each digit after the leading zeros. -/
theorem base58DecodeBytes_eq
    {inLen zeroCount : Nat} (short : inLen ≤ maxDecInputSize)
    (after : List Nat) {count : Nat} :
    ∀ {turns : Nat} {tmp low : List Nat}, tmp.length = inLen →
      zeroCount + count ≤ inLen → count < turns →
      (∀ digit ∈ tmp.drop (inLen - count), digit < 58) →
      ∃ bytes,
        base58DecodeBytes inLen turns tmp (inLen - count)
            (List.replicate (zeroCount + count) 0 ++ (low ++ after))
            (zeroCount + count) =
          some (List.replicate zeroCount 0 ++ (bytes ++ (low ++ after)),
            zeroCount) ∧
        bytes.length = count ∧ (∀ byte ∈ bytes, byte < 256) ∧
        numeral 256 bytes = numeral 58 (tmp.drop (inLen - count)) := by
  unfold maxDecInputSize at short
  induction count with
  | zero =>
      intro turns tmp low length _ more _
      obtain ⟨turns, rfl⟩ :=
        Nat.exists_eq_succ_of_ne_zero (by omega : turns ≠ 0)
      refine ⟨[], ?_, rfl, fun _ member => absurd member List.not_mem_nil, ?_⟩
      · rw [base58DecodeBytes, if_neg (by omega)]
        rfl
      · rw [Nat.sub_zero, ← length, List.drop_length]
        rfl
  | succ count ih =>
      intro turns tmp low length inside more small
      obtain ⟨turns, rfl⟩ :=
        Nat.exists_eq_succ_of_ne_zero (by omega : turns ≠ 0)
      have here : inLen - (count + 1) < tmp.length := by
        omega
      have split := List.drop_eq_getElem_cons here
      have divided :=
        base58DecodeDivide_divided (tmp.drop (inLen - (count + 1)))
          (by omega : 0 < 256) small
      have leading : tmp[inLen - (count + 1)] < 58 :=
        small _ (split ▸ List.mem_cons_self)
      have first :=
        head_base58DecodeDivide leading (tmp.drop (inLen - (count + 1) + 1))
      rw [← split] at first
      rw [base58DecodeBytes, if_pos (by omega)]
      generalize base58DecodeDivide (tmp.drop (inLen - (count + 1))) 0 =
        result at divided first
      obtain ⟨cells, remainder⟩ := result
      obtain ⟨rest, rfl⟩ := List.head?_eq_some_iff.mp first
      have cellsLength : (0 :: rest).length = count + 1 := by
        have same : (0 :: rest).length = _ := divided.length
        rw [List.length_drop, length] at same
        omega
      have front : (tmp.take (inLen - (count + 1))).length =
          inLen - (count + 1) := by
        rw [List.length_take]
        omega
      have leadingZero :
          (tmp.take (inLen - (count + 1)) ++ 0 :: rest).getD
            (inLen - (count + 1)) 0 = 0 := by
        rw [List.getD_append_right _ _ _ _ (by omega), front, Nat.sub_self]
        rfl
      have nextStart : (inLen - (count + 1) + 1) % 2 ^ 8 = inLen - count := by
        omega
      have nextIndex :
          (zeroCount + (count + 1) + 2 ^ 8 - 1) % 2 ^ 8 =
            zeroCount + count := by
        omega
      have stored :
          (List.replicate (zeroCount + (count + 1)) 0 ++ (low ++ after)).set
              (zeroCount + count) remainder =
            List.replicate (zeroCount + count) 0 ++
              (remainder :: low ++ after) := by
        rw [← Nat.add_assoc, List.replicate_succ', List.append_assoc]
        simp
      have nextDrop :
          (tmp.take (inLen - (count + 1)) ++ 0 :: rest).drop
            (inLen - count) = rest := by
        rw [show inLen - count = (inLen - (count + 1)) + 1 by omega,
          ← List.drop_drop, List.drop_left' front]
        rfl
      have nextLength :
          (tmp.take (inLen - (count + 1)) ++ 0 :: rest).length = inLen := by
        rw [List.length_append, front, cellsLength]
        omega
      have nextSmall :
          ∀ digit ∈ (tmp.take (inLen - (count + 1)) ++ 0 :: rest).drop
            (inLen - count), digit < 58 := by
        rw [nextDrop]
        exact fun digit member =>
          divided.small digit (List.mem_cons_of_mem _ member)
      obtain ⟨bytes, run, bytesLength, bytesSmall, value⟩ :=
        @ih turns _ (remainder :: low) nextLength (by omega) (by omega)
          nextSmall
      rw [nextDrop] at value
      dsimp only
      rw [leadingZero, if_pos rfl, nextStart, nextIndex, stored]
      refine ⟨bytes ++ [remainder], ?_, ?_, ?_, ?_⟩
      · rw [run]
        simp
      · rw [List.length_append, bytesLength, List.length_singleton]
      · intro byte member
        rcases List.mem_append.mp member with inBytes | last
        · exact bytesSmall byte inBytes
        · rw [List.mem_singleton.mp last]
          exact divided.remainder_lt
      · have quotient := divided.value_eq
        rw [numeral_cons] at quotient
        rw [numeral_append_singleton, value]
        simpa using quotient

theorem base58Table_of_digit {digit : Nat} (small : digit < 58) :
    (base58Alphabet.getD digit '1').toNat < base58Table.length ∧
      base58Table.getD (base58Alphabet.getD digit '1').toNat 0xFF ≠ 0xFF ∧
        (base58Table.getD (base58Alphabet.getD digit '1').toNat
          0xFF).toNat = digit := by
  have table : ∀ a : Fin 58,
      (base58Alphabet.getD a.val '1').toNat < base58Table.length ∧
        base58Table.getD (base58Alphabet.getD a.val '1').toNat 0xFF ≠ 0xFF ∧
          (base58Table.getD (base58Alphabet.getD a.val '1').toNat
            0xFF).toNat = a.val := by
    decide +kernel
  exact table ⟨digit, small⟩

theorem base58Alphabet_of_code
    {character : Char} (inside : character.toNat < base58Table.length)
    (known : base58Table.getD character.toNat 0xFF ≠ 0xFF) :
    (base58Table.getD character.toNat 0xFF).toNat < 58 ∧
      base58Alphabet.getD (base58Table.getD character.toNat 0xFF).toNat '1' =
        character := by
  have table : ∀ code : Fin 128,
      base58Table.getD code.val 0xFF ≠ 0xFF →
        (base58Table.getD code.val 0xFF).toNat < 58 ∧
          base58Alphabet.getD (base58Table.getD code.val 0xFF).toNat '1' =
            Char.ofNat code.val := by
    decide +kernel
  have row := table ⟨character.toNat, inside⟩ known
  rw [Char.ofNat_toNat] at row
  exact row

def base58Characters (digits : List Nat) : List Char :=
  digits.map fun digit => base58Alphabet.getD digit '1'

theorem base58Lookup_characters
    {digits : List Nat} (small : ∀ digit ∈ digits, digit < 58) :
    base58Lookup (base58Characters digits) = some digits := by
  induction digits with
  | nil => rfl
  | cons digit rest ih =>
      obtain ⟨inside, known, value⟩ :=
        base58Table_of_digit (small digit List.mem_cons_self)
      change base58Lookup (_ :: base58Characters rest) = _
      rw [base58Lookup, if_neg (Nat.not_le.mpr inside)]
      dsimp only
      rw [if_neg known,
        ih fun other member => small other (List.mem_cons_of_mem _ member),
        value]
      rfl

theorem base58Lookup_eq_some
    {input : List Char} {digits : List Nat}
    (found : base58Lookup input = some digits) :
    (∀ digit ∈ digits, digit < 58) ∧ input = base58Characters digits := by
  induction input generalizing digits with
  | nil =>
      cases found
      exact ⟨fun _ member => absurd member List.not_mem_nil, rfl⟩
  | cons character rest ih =>
      rw [base58Lookup] at found
      split at found
      · cases found
      rename_i inside
      dsimp only at found
      split at found
      · cases found
      rename_i known
      obtain ⟨others, foundRest, rfl⟩ := Option.map_eq_some_iff.mp found
      obtain ⟨small, same⟩ := ih foundRest
      obtain ⟨digitSmall, back⟩ :=
        base58Alphabet_of_code (Nat.not_le.mp inside) known
      constructor
      · intro digit member
        rcases List.mem_cons.mp member with rfl | inRest
        · exact digitSmall
        · exact small digit inRest
      · rw [base58Characters, List.map_cons, back]
        exact congrArg (character :: ·) same

/-- A string with a character outside the alphabet is not looked up. -/
theorem base58Lookup_eq_none
    {input : List Char} {character : Char} (member : character ∈ input)
    (foreign : character ∉ base58Alphabet) : base58Lookup input = none := by
  cases found : base58Lookup input with
  | none => rfl
  | some digits =>
      obtain ⟨small, same⟩ := base58Lookup_eq_some found
      rw [same] at member
      obtain ⟨digit, inDigits, rfl⟩ := List.mem_map.mp member
      have inside : digit < base58Alphabet.length := small digit inDigits
      rw [List.getD_eq_getElem _ _ inside] at foreign
      exact absurd (List.getElem_mem inside) foreign

/-- One zero byte for each leading zero digit, then the bytes of the number
that the digits write, without leading zeros. -/
def base58Bytes (digits : List Nat) : List UInt8 :=
  List.replicate (digits.takeWhile (· = 0)).length 0 ++
    (Nat.digits 256 (numeral 58 digits)).reverse.map UInt8.ofNat

/-- Zeros in front and leading zeros are interchangeable. -/
theorem take_drop_zeros (count : Nat) (bytes after : List Nat) :
    ((List.replicate count 0 ++ (bytes ++ after)).drop
        (bytes.takeWhile (· = 0)).length).take
          (count + (bytes.dropWhile (· = 0)).length) =
      List.replicate count 0 ++ bytes.dropWhile (· = 0) := by
  have split : List.replicate count 0 ++ (bytes ++ after) =
      List.replicate (bytes.takeWhile (· = 0)).length 0 ++
        ((List.replicate count 0 ++ bytes.dropWhile (· = 0)) ++ after) := by
    conv_lhs => rw [← @List.takeWhile_append_dropWhile _ (· = 0) bytes]
    conv_lhs => rw [takeWhile_zero bytes]
    rw [← List.append_assoc, ← List.append_assoc,
      List.replicate_append_replicate, Nat.add_comm,
      ← List.replicate_append_replicate]
    simp only [List.append_assoc]
  rw [split, List.drop_left' List.length_replicate, List.take_left']
  rw [List.length_append, List.length_replicate]

/-- `base58_decode` writes the standard decoding when there is room for it. -/
theorem base58Decode_eq
    {input : List Char} {digits : List Nat}
    (found : base58Lookup input = some digits) (some : 2 ≤ input.length)
    (short : input.length ≤ 164) (out : List UInt8) (outLen : Nat) :
    base58Decode input out outLen =
      if sizeToInt outLen < (base58Bytes digits).length then (-1, out)
      else
        (((base58Bytes digits).length : Int),
          memmove out 0 (base58Bytes digits)) := by
  obtain ⟨small, same⟩ := base58Lookup_eq_some found
  have length : digits.length = input.length := by
    rw [same, base58Characters, List.length_map]
  unfold base58Decode
  rw [if_neg (by unfold maxDecInputSize; omega), found]
  dsimp only
  generalize zeroEq : (digits.takeWhile (· = 0)).length = zeroCount
  have zeroLe : zeroCount ≤ digits.length := by
    rw [← zeroEq]
    exact (List.takeWhile_prefix _).length_le
  have start : input.length - (input.length - zeroCount) = zeroCount := by
    omega
  have initial : List.replicate maxDecInputSize 0 =
      List.replicate (zeroCount + (input.length - zeroCount)) 0 ++
        ([] ++ List.replicate (164 - input.length) 0) := by
    rw [List.nil_append, List.replicate_append_replicate]
    congr 1
    unfold maxDecInputSize
    omega
  obtain ⟨bytes, run, bytesLength, bytesSmall, value⟩ :=
    @base58DecodeBytes_eq input.length zeroCount short
      (List.replicate (164 - input.length) 0) (input.length - zeroCount) 256
      digits [] length (by omega) (by omega)
      (fun digit member => small digit (List.mem_of_mem_drop member))
  have whole : zeroCount + (input.length - zeroCount) = input.length := by
    omega
  rw [← initial, start, whole] at run
  rw [start, ← zeroEq, drop_length_takeWhile, numeral_dropWhile] at value
  rw [run]
  have trimmed :=
    take_drop_zeros zeroCount bytes (List.replicate (164 - input.length) 0)
  have parts := congrArg List.length
    (@List.takeWhile_append_dropWhile _ (· = 0) bytes)
  rw [List.length_append, bytesLength] at parts
  have inside :
      ((List.replicate zeroCount 0 ++
        (bytes ++ ([] ++ List.replicate (164 - input.length) 0))).take
          input.length).drop zeroCount = bytes := by
    rw [← List.append_assoc,
      List.take_left' (by
        rw [List.length_append, List.length_replicate, bytesLength, whole]),
      List.drop_left' List.length_replicate]
  have shift : zeroCount + (bytes.takeWhile (· = 0)).length - zeroCount =
      (bytes.takeWhile (· = 0)).length := by
    omega
  have rest : input.length - (bytes.takeWhile (· = 0)).length =
      zeroCount + (bytes.dropWhile (· = 0)).length := by
    omega
  have digits256 := digits_numeral (show 1 < 256 by omega) bytesSmall
  rw [value] at digits256
  have decoded :
      (List.replicate zeroCount 0 ++ bytes.dropWhile (· = 0)).map
          UInt8.ofNat = base58Bytes digits := by
    rw [base58Bytes, zeroEq, digits256, List.map_append, List.map_replicate]
    rfl
  dsimp only
  rw [inside, shift, rest, List.nil_append, trimmed, decoded, ← decoded,
    List.length_map, List.length_append, List.length_replicate]

end Neo3App
