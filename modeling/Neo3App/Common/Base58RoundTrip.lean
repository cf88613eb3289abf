import Neo3App.Common.Base58Decode

/-!
# Encoding and decoding

The encoder writes the standard encoding, and the decoder undoes it.
-/

namespace Neo3App

open Neo3App.Lib

def base58ZeroCount (input : List UInt8) : Nat :=
  (input.takeWhile (· = 0)).length

def base58OutputSize (input : List UInt8) : Nat :=
  (input.length - base58ZeroCount input) * 138 / 100 + 1

/-- `buffer` and `stop_at` after the first `count` bytes that follow the
leading zeros. -/
def base58EncodeTurn (input : List UInt8) (count : Nat) : List Nat × Nat :=
  ((input.drop (base58ZeroCount input)).take count).foldl
    (fun state byte =>
      base58EncodeDigits state.2 (base58OutputSize input) byte.toNat state.1)
    (List.replicate (maxEncInputSize * 138 / 100 + 1) 0,
      base58OutputSize input - 1)

theorem base58EncodeBytes_eq_foldl
    (outputSize : Nat) (bytes : List UInt8) (buffer : List Nat)
    (stopAt : Nat) :
    base58EncodeBytes outputSize bytes buffer stopAt =
      (bytes.foldl
        (fun state byte =>
          base58EncodeDigits state.2 outputSize byte.toNat state.1)
        (buffer, stopAt)).1 := by
  induction bytes generalizing buffer stopAt with
  | nil => rfl
  | cons byte rest ih =>
      rw [base58EncodeBytes, List.foldl_cons]
      exact ih _ _

/-- What holds of the work buffer after `count` bytes, with `more` to come:
its digits write the number read so far, and the next turn of the inner loop
stays in range, does not wrap `stop_at - 1` and leaves no carry behind. -/
structure EncodeTurn (input : List UInt8) (count : Nat) : Prop where
  inside : base58OutputSize input ≤ (base58EncodeTurn input count).1.length
  small : ∀ digit ∈ (base58EncodeTurn input count).1, digit < 58
  value :
    numeral 58
        ((base58EncodeTurn input count).1.take (base58OutputSize input)) =
      beNat ((input.drop (base58ZeroCount input)).take count)
  beyond : ∀ digit ∈
    (base58EncodeTurn input count).1.drop (base58OutputSize input), digit = 0
  stop_lt : (base58EncodeTurn input count).2 < base58OutputSize input
  stop_pos : count < (input.drop (base58ZeroCount input)).length →
    0 < (base58EncodeTurn input count).2

theorem base58EncodeTurn_succ
    {input : List UInt8} {count : Nat}
    (more : count < (input.drop (base58ZeroCount input)).length) :
    base58EncodeTurn input (count + 1) =
      base58EncodeDigits (base58EncodeTurn input count).2
        (base58OutputSize input)
        (input.drop (base58ZeroCount input))[count].toNat
        (base58EncodeTurn input count).1 := by
  rw [base58EncodeTurn, List.take_succ_eq_append_getElem more,
    List.foldl_append]
  rfl

/-- The work buffer in front of its unused cells. -/
theorem base58EncodeTurn_workBuffer
    {input : List UInt8} (short : input.length ≤ 120) {count : Nat}
    (inside : count ≤ (input.drop (base58ZeroCount input)).length) :
    ∃ digits stop,
      base58EncodeTurn input count =
          (digits ++ List.replicate (166 - base58OutputSize input) 0, stop) ∧
        WorkBuffer (base58OutputSize input) count
          (beNat ((input.drop (base58ZeroCount input)).take count)) stop
          digits := by
  have size : base58OutputSize input =
      (input.length - base58ZeroCount input) * 138 / 100 + 1 := rfl
  have restLength : (input.drop (base58ZeroCount input)).length =
      input.length - base58ZeroCount input :=
    List.length_drop
  induction count with
  | zero =>
      refine ⟨List.replicate (base58OutputSize input) 0,
        base58OutputSize input - 1, ?_, ?_⟩
      · rw [List.replicate_append_replicate,
          show base58OutputSize input + (166 - base58OutputSize input) = 166
            by omega]
        rfl
      · exact WorkBuffer.start (by omega)
  | succ count ih =>
      obtain ⟨digits, stop, here, work⟩ := ih (by omega)
      obtain ⟨written, next, run, workNext⟩ :=
        work.step (input.drop (base58ZeroCount input))[count]
          (List.replicate (166 - base58OutputSize input) 0) (by omega)
          (by unfold sizeModulus; omega)
      refine ⟨written, next, ?_, ?_⟩
      · rw [base58EncodeTurn_succ inside, here]
        exact run
      · rw [List.take_succ_eq_append_getElem inside, beNat_append_singleton]
        exact workNext

theorem encodeTurn
    {input : List UInt8} (short : input.length ≤ 120) {count : Nat}
    (inside : count ≤ (input.drop (base58ZeroCount input)).length) :
    EncodeTurn input count := by
  obtain ⟨digits, stop, here, work⟩ :=
    base58EncodeTurn_workBuffer short inside
  have size : base58OutputSize input =
      (input.length - base58ZeroCount input) * 138 / 100 + 1 := rfl
  have restLength : (input.drop (base58ZeroCount input)).length =
      input.length - base58ZeroCount input :=
    List.length_drop
  have stopGe := work.stop_ge
  constructor
  · rw [here, List.length_append, work.length]
    exact Nat.le_add_right _ _
  · rw [here]
    intro digit member
    rcases List.mem_append.mp member with used | unused
    · exact work.small digit used
    · rw [List.eq_of_mem_replicate unused]
      omega
  · rw [here, List.take_left' work.length, work.value_eq]
  · rw [here, List.drop_left' work.length]
    exact fun digit member => List.eq_of_mem_replicate member
  · rw [here]
    exact work.stop_lt
  · intro more
    rw [here]
    dsimp only
    omega

/-- **The encoder writes the standard encoding**, and refuses exactly the
inputs that are too long or find no room. -/
theorem base58Encode_standard
    (input : List UInt8) (out : List Char) (outLen : Nat) :
    base58Encode input out outLen =
        (if 120 < input.length ∨ outLen < (base58Text input).length then
          (-1, out)
        else
          (((base58Text input).length : Int),
            memmove out 0 (base58Text input))) ∧
      base58EncodeBytes (base58OutputSize input)
          (input.drop (base58ZeroCount input))
          (List.replicate (maxEncInputSize * 138 / 100 + 1) 0)
          (base58OutputSize input - 1) =
        (base58EncodeTurn input
          (input.drop (base58ZeroCount input)).length).1 ∧
      (input.length ≤ 120 →
        ∀ count ≤ (input.drop (base58ZeroCount input)).length,
          EncodeTurn input count) := by
  refine ⟨?_, ?_, fun short count inside => encodeTurn short inside⟩
  · by_cases short : input.length ≤ 120
    · rw [base58Encode_eq short]
      by_cases room : outLen < (base58Text input).length
      · rw [if_pos room, if_pos (.inr room)]
      · rw [if_neg room,
          if_neg (not_or.mpr ⟨Nat.not_lt.mpr short, room⟩)]
    · rw [base58Encode, if_pos (by unfold maxEncInputSize; omega),
        if_pos (.inl (Nat.not_le.mp short))]
  · rw [base58EncodeBytes_eq_foldl, base58EncodeTurn, List.take_length]

theorem numeral_map_toNat (bytes : List UInt8) :
    numeral 256 (bytes.map UInt8.toNat) = beNat bytes := by
  induction bytes using List.reverseRecOn with
  | nil => rfl
  | append_singleton bytes byte ih =>
      rw [List.map_append, List.map_singleton, numeral_append_singleton, ih,
        beNat_append_singleton]

theorem takeWhile_zero_map_toNat (bytes : List UInt8) :
    ((bytes.map UInt8.toNat).takeWhile (· = 0)).length =
      (bytes.takeWhile (· = 0)).length := by
  have same : ((fun digit : Nat => decide (digit = 0)) ∘ UInt8.toNat) =
      fun byte : UInt8 => decide (byte = 0) := by
    funext byte
    simp [← UInt8.toNat_inj]
  rw [List.takeWhile_map, List.length_map, same]

theorem map_ofNat_map_toNat (bytes : List UInt8) :
    (bytes.map UInt8.toNat).map UInt8.ofNat = bytes := by
  rw [List.map_map]
  exact List.map_id'' (fun byte => UInt8.ofNat_toNat) bytes

theorem map_toNat_map_ofNat {digits : List Nat}
    (small : ∀ digit ∈ digits, digit < 256) :
    (digits.map UInt8.ofNat).map UInt8.toNat = digits := by
  have same : ∀ digit ∈ digits, (UInt8.toNat ∘ UInt8.ofNat) digit = digit :=
    fun digit member => UInt8.toNat_ofNat_of_lt' (small digit member)
  rw [List.map_map, List.map_congr_left same, List.map_id']

theorem beNat_drop_zeros (input : List UInt8) :
    beNat (input.drop (base58ZeroCount input)) = beNat input := by
  have same : input.drop (base58ZeroCount input) =
      input.dropWhile (· = 0) :=
    drop_length_takeWhile _ _
  have value := @numeral_dropWhile 256 (input.map UInt8.toNat)
  have test : ((fun digit : Nat => decide (digit = 0)) ∘ UInt8.toNat) =
      fun byte : UInt8 => decide (byte = 0) := by
    funext byte
    simp [← UInt8.toNat_inj]
  rw [List.dropWhile_map, test, numeral_map_toNat, numeral_map_toNat]
    at value
  rw [same, value]

/-- The standard encoding rewrites the bytes in base 58. -/
theorem base58Text_eq_rebase (input : List UInt8) :
    base58Text input =
      base58Characters (rebase 256 58 (input.map UInt8.toNat)) := by
  have value := beNat_drop_zeros input
  unfold base58ZeroCount at value
  rw [base58Characters, rebase, List.map_append, List.map_replicate,
    takeWhile_zero_map_toNat, numeral_map_toNat, base58Text, value]
  rfl

/-- The standard decoding rewrites the digits in base 256. -/
theorem base58Bytes_eq_rebase (digits : List Nat) :
    base58Bytes digits = (rebase 58 256 digits).map UInt8.ofNat := by
  rw [base58Bytes, rebase, List.map_append, List.map_replicate]
  rfl

theorem rebase_map_toNat_lt
    (input : List UInt8) :
    ∀ digit ∈ rebase 256 58 (input.map UInt8.toNat), digit < 58 :=
  fun _ member => lt_of_mem_rebase (by omega) member

theorem base58Bytes_rebase (input : List UInt8) :
    base58Bytes (rebase 256 58 (input.map UInt8.toNat)) = input := by
  rw [base58Bytes_eq_rebase, rebase_rebase (by omega), map_ofNat_map_toNat]
  intro digit member
  obtain ⟨byte, _, rfl⟩ := List.mem_map.mp member
  exact byte.toNat_lt

theorem base58Text_base58Bytes
    {digits : List Nat} (small : ∀ digit ∈ digits, digit < 58) :
    base58Text (base58Bytes digits) = base58Characters digits := by
  rw [base58Text_eq_rebase, base58Bytes_eq_rebase,
    map_toNat_map_ofNat fun digit member =>
      lt_of_mem_rebase (by omega) member,
    rebase_rebase (by omega) small]

/-- The two size limits match: 120 bytes have at most 164 characters. -/
theorem length_base58Text_le
    {input : List UInt8} (short : input.length ≤ 120) :
    (base58Text input).length ≤ maxDecInputSize := by
  have zeroLe : base58ZeroCount input ≤ input.length :=
    (List.takeWhile_prefix _).length_le
  have rest :
      beNat (input.drop (base58ZeroCount input)) <
        256 ^ (input.length - base58ZeroCount input) := by
    have small := leNat_lt (input.drop (base58ZeroCount input)).reverse
    rwa [List.length_reverse, List.length_drop] at small
  have shifted :
      256 ^ (input.length - base58ZeroCount input) *
          58 ^ base58ZeroCount input ≤
        58 ^ (164 - base58ZeroCount input) * 58 ^ base58ZeroCount input :=
    calc
      256 ^ (input.length - base58ZeroCount input) *
            58 ^ base58ZeroCount input ≤
          256 ^ (input.length - base58ZeroCount input) *
            256 ^ base58ZeroCount input :=
        Nat.mul_le_mul_left _ (Nat.pow_le_pow_left (by omega) _)
      _ = 256 ^ input.length := by
        rw [← Nat.pow_add, Nat.sub_add_cancel zeroLe]
      _ ≤ 256 ^ 120 := Nat.pow_le_pow_right (by omega) short
      _ ≤ 58 ^ 164 := by
        decide +kernel
      _ = 58 ^ (164 - base58ZeroCount input) *
            58 ^ base58ZeroCount input := by
        rw [← Nat.pow_add, Nat.sub_add_cancel (by omega)]
  have bound := Nat.le_of_mul_le_mul_right shifted
    (Nat.pow_pos (by omega))
  have digits :
      (Nat.digits 58
          (beNat (input.drop (base58ZeroCount input)))).length ≤
        164 - base58ZeroCount input :=
    (Nat.digits_length_le_iff (by omega) _).mpr (rest.trans_le bound)
  rw [base58Text, List.length_append, List.length_replicate,
    List.length_map, List.length_reverse]
  unfold base58ZeroCount at digits zeroLe
  unfold maxDecInputSize
  omega

/-! ## The round trips -/

/-- What encoding and decoding owe each other when the decoder is told that
there is room for `outLen` bytes. -/
structure Base58Inverse (outLen : Nat) : Prop where
  decode_encode :
    ∀ (input : List UInt8) (text written : List Char) (textLen : Nat)
      (length : Int) (out : List UInt8),
      input.length ≤ maxEncInputSize →
      base58Encode input text textLen = (length, written) →
      2 ≤ length → input.length ≤ outLen → outLen ≤ out.length →
      base58Decode (written.take length.toNat) out outLen =
        ((input.length : Int), memmove out 0 input)
  encode_decode :
    ∀ (text out : List Char) (bytes written : List UInt8) (textLen : Nat)
      (length : Int),
      base58Decode text bytes outLen = (length, written) →
      length ≠ -1 → length ≤ maxEncInputSize → text.length ≤ textLen →
      base58Encode (written.take length.toNat) out textLen =
        ((text.length : Int), memmove out 0 text)
  rejects :
    ∀ (text : List Char) (out : List UInt8) (character : Char),
      character ∈ text → character ∉ base58Alphabet →
      base58Decode text out outLen = (-1, out)

theorem take_memmove {α : Type} (memory text : List α) :
    (memmove memory 0 text).take text.length = text := by
  simp [memmove]

theorem base58Decode_base58Encode
    {input : List UInt8} {text written : List Char} {textLen outLen : Nat}
    {length : Int} (valid : outLen < 2 ^ 31)
    (short : input.length ≤ maxEncInputSize)
    (encoded : base58Encode input text textLen = (length, written))
    (enough : 2 ≤ length) (room : input.length ≤ outLen)
    (out : List UInt8) :
    base58Decode (written.take length.toNat) out outLen =
      ((input.length : Int), memmove out 0 input) := by
  rw [base58Encode_eq short] at encoded
  split at encoded
  · cases encoded
    omega
  · cases encoded
    rw [Int.toNat_natCast, take_memmove, base58Text_eq_rebase]
    have found := base58Lookup_characters (rebase_map_toNat_lt input)
    have limit := length_base58Text_le short
    rw [base58Text_eq_rebase] at limit enough
    rw [base58Decode_eq found (by omega) limit, base58Bytes_rebase,
      if_neg (by rw [sizeToInt, if_pos valid]; omega)]

theorem base58Encode_base58Decode
    {text : List Char} {bytes written : List UInt8} {textLen outLen : Nat}
    {length : Int}
    (decoded : base58Decode text bytes outLen = (length, written))
    (accepted : length ≠ -1) (short : length ≤ maxEncInputSize)
    (room : text.length ≤ textLen) (out : List Char) :
    base58Encode (written.take length.toNat) out textLen =
      ((text.length : Int), memmove out 0 text) := by
  by_cases sizes : maxDecInputSize < text.length ∨ text.length < 2
  · rw [base58Decode, if_pos sizes] at decoded
    cases decoded
    exact absurd rfl accepted
  · cases found : base58Lookup text with
    | none =>
        rw [base58Decode, if_neg sizes, found] at decoded
        cases decoded
        exact absurd rfl accepted
    | some digits =>
        unfold maxDecInputSize at sizes
        rw [base58Decode_eq found (by omega) (by omega)] at decoded
        obtain ⟨small, same⟩ := base58Lookup_eq_some found
        split at decoded
        · cases decoded
          exact absurd rfl accepted
        · cases decoded
          rw [Int.toNat_natCast, take_memmove, base58Encode_eq (by
              unfold maxEncInputSize at short
              omega),
            base58Text_base58Bytes small, ← same, if_neg (by omega)]

theorem base58Decode_foreign
    {text : List Char} {character : Char} (member : character ∈ text)
    (foreign : character ∉ base58Alphabet) (out : List UInt8)
    (outLen : Nat) :
    base58Decode text out outLen = (-1, out) := by
  rw [base58Decode]
  split
  · rfl
  · rw [base58Lookup_eq_none member foreign]

/-- Two characters, for which the decoder finds no room when its `out_len` is
negative as an `int`. -/
theorem base58Decode_negative
    {outLen : Nat} (negative : sizeToInt outLen < 0) (out : List UInt8) :
    base58Decode ['1', '1'] out outLen = (-1, out) := by
  have found : base58Lookup ['1', '1'] = some [0, 0] := by
    decide +kernel
  rw [base58Decode_eq found (by decide) (by decide), if_pos (by omega)]

/-- **Encoding and decoding are inverse** exactly when the room that the
decoder is given is not negative as an `int`. -/
theorem base58Inverse_iff (outLen : UInt32) :
    Base58Inverse outLen.toNat ↔ outLen.toNat < 2 ^ 31 := by
  constructor
  · intro inverse
    by_contra large
    have room : ([0, 0] : List UInt8).length ≤ outLen.toNat := by
      change 2 ≤ outLen.toNat
      omega
    have zeros :=
      inverse.decode_encode [0, 0] ['1', '1'] ['1', '1'] 2 2
        (List.replicate outLen.toNat 0) (by decide) (by decide +kernel)
        (by omega) room List.length_replicate.ge
    have negative : sizeToInt outLen.toNat < 0 := by
      have bound := outLen.toNat_lt
      rw [sizeToInt, if_neg large]
      unfold sizeModulus
      omega
    have lengths :=
      congrArg Prod.fst (zeros.symm.trans (base58Decode_negative negative _))
    cases lengths
  · intro valid
    constructor
    · intro input text written textLen length out short encoded enough room _
      exact base58Decode_base58Encode valid short encoded enough room out
    · intro text out bytes written textLen length decoded accepted short room
      exact base58Encode_base58Decode decoded accepted short room out
    · intro text out character member foreign
      exact base58Decode_foreign member foreign out outLen.toNat

/-- With room for 2^31 bytes the decoder refuses two characters. -/
theorem not_base58Inverse_large : ¬ Base58Inverse 0x80000000 := by
  intro inverse
  have room : ([0, 0] : List UInt8).length ≤ 0x80000000 := by
    change 2 ≤ 2147483648
    omega
  have zeros :=
    inverse.decode_encode [0, 0] ['1', '1'] ['1', '1'] 2 2
      (List.replicate 0x80000000 0) (by decide) (by decide +kernel)
      (by omega) room List.length_replicate.ge
  have refused :=
    base58Decode_negative (show sizeToInt 0x80000000 < 0 by decide)
      (List.replicate 0x80000000 0)
  have lengths := congrArg Prod.fst (zeros.symm.trans refused)
  cases lengths

end Neo3App
