import Neo3App.Common.Buffer

/-!
# Variable-length integers

The writing half of `varint.c`, with the little-endian functions of
`write.c`, and its round trip with the reader.
-/

namespace Neo3App

open Neo3App.Lib

def writeU16Le (ptr : List UInt8) (offset : Nat) (value : UInt16) :
    List UInt8 :=
  let ptr := ptr.set (offset + 0) (value >>> 0).toUInt8
  ptr.set (offset + 1) (value >>> 8).toUInt8

def writeU32Le (ptr : List UInt8) (offset : Nat) (value : UInt32) :
    List UInt8 :=
  let ptr := ptr.set (offset + 0) (value >>> 0).toUInt8
  let ptr := ptr.set (offset + 1) (value >>> 8).toUInt8
  let ptr := ptr.set (offset + 2) (value >>> 16).toUInt8
  ptr.set (offset + 3) (value >>> 24).toUInt8

def writeU64Le (ptr : List UInt8) (offset : Nat) (value : UInt64) :
    List UInt8 :=
  let ptr := ptr.set (offset + 0) (value >>> 0).toUInt8
  let ptr := ptr.set (offset + 1) (value >>> 8).toUInt8
  let ptr := ptr.set (offset + 2) (value >>> 16).toUInt8
  let ptr := ptr.set (offset + 3) (value >>> 24).toUInt8
  let ptr := ptr.set (offset + 4) (value >>> 32).toUInt8
  let ptr := ptr.set (offset + 5) (value >>> 40).toUInt8
  let ptr := ptr.set (offset + 6) (value >>> 48).toUInt8
  ptr.set (offset + 7) (value >>> 56).toUInt8

def varintSize (value : UInt64) : UInt8 :=
  if value ≤ 0xFC then 1
  else if value ≤ 0xFFFF then 3
  else if value ≤ 0xFFFFFFFF then 5
  else 9

/-- `varint_write`: the returned length, or -1, and the memory `out`. -/
def varintWrite (out : List UInt8) (offset : Nat) (value : UInt64) :
    Int × List UInt8 :=
  let varintLen := varintSize value
  if varintLen = 1 then
    (varintLen.toNat, out.set offset value.toUInt8)
  else if varintLen = 3 then
    (varintLen.toNat,
      writeU16Le (out.set offset 0xFD) (offset + 1) value.toUInt16)
  else if varintLen = 5 then
    (varintLen.toNat,
      writeU32Le (out.set offset 0xFE) (offset + 1) value.toUInt32)
  else if varintLen = 9 then
    (varintLen.toNat,
      writeU64Le (out.set offset 0xFF) (offset + 1) value)
  else
    (-1, out)

example :
    varintWrite [1, 2, 3, 4, 5] 1 0x1234 = (3, [1, 0xFD, 0x34, 0x12, 5]) := by
  decide +kernel

/-- One more cell behind the cells already written. -/
theorem set_memmove {memory bytes : List UInt8} {start index : Nat}
    (inside : start + bytes.length < memory.length)
    (next : index = start + bytes.length) (byte : UInt8) :
    (memmove memory start bytes).set index byte =
      memmove memory start (bytes ++ [byte]) := by
  have front : (memory.take start ++ bytes).length = index := by
    rw [List.length_append, List.length_take]
    omega
  rw [memmove, memmove, List.drop_eq_getElem_cons inside,
    List.set_append_right _ _ front.le, front, Nat.sub_self,
    List.set_cons_zero, List.length_append, List.length_singleton,
    ← Nat.add_assoc]
  simp only [List.append_assoc, List.singleton_append]

theorem set_eq_memmove {memory : List UInt8} {start : Nat}
    (inside : start < memory.length) (byte : UInt8) :
    memory.set start byte = memmove memory start [byte] := by
  have written :=
    @set_memmove memory [] start start (by simpa using inside) rfl byte
  rw [List.nil_append] at written
  rw [← written]
  simp [memmove]

/-- The byte that a shift brings to the front. -/
theorem shiftRight_byte (value : Nat) {width count : Nat}
    (inside : 8 * count < width) :
    value >>> (8 * count % width) % 2 ^ 8 = value / 256 ^ count % 2 ^ 8 := by
  rw [Nat.mod_eq_of_lt inside, Nat.shiftRight_eq_div_pow, Nat.pow_mul]

theorem toUInt8_shiftRight_u16
    (value : UInt16) {shift : UInt16} {count : Nat}
    (small : shift.toNat = 8 * count) (bound : count < 2) :
    (value >>> shift).toUInt8 =
      UInt8.ofNat (value.toNat / 256 ^ count) := by
  apply UInt8.toNat_inj.mp
  rw [UInt16.toNat_toUInt8, UInt16.toNat_shiftRight, small,
    shiftRight_byte _ (by omega), UInt8.toNat_ofNat']

theorem toUInt8_shiftRight_u32
    (value : UInt32) {shift : UInt32} {count : Nat}
    (small : shift.toNat = 8 * count) (bound : count < 4) :
    (value >>> shift).toUInt8 =
      UInt8.ofNat (value.toNat / 256 ^ count) := by
  apply UInt8.toNat_inj.mp
  rw [UInt32.toNat_toUInt8, UInt32.toNat_shiftRight, small,
    shiftRight_byte _ (by omega), UInt8.toNat_ofNat']

theorem toUInt8_shiftRight_u64
    (value : UInt64) {shift : UInt64} {count : Nat}
    (small : shift.toNat = 8 * count) (bound : count < 8) :
    (value >>> shift).toUInt8 =
      UInt8.ofNat (value.toNat / 256 ^ count) := by
  apply UInt8.toNat_inj.mp
  rw [UInt64.toNat_toUInt8, UInt64.toNat_shiftRight, small,
    shiftRight_byte _ (by omega), UInt8.toNat_ofNat']

/-- One more low byte of a number. -/
theorem leBytes_succ (count value : Nat) :
    leBytes (count + 1) value =
      leBytes count value ++ [UInt8.ofNat (value / 256 ^ count)] := by
  induction count generalizing value with
  | zero => simp [leBytes]
  | succ count ih =>
      rw [leBytes, ih, leBytes, Nat.div_div_eq_div_mul, ← Nat.pow_succ',
        List.cons_append]

/-- The next byte of a number behind those already written. -/
theorem set_leBytes
    {memory before : List UInt8} {start index count value : Nat}
    (inside : start + before.length + count < memory.length)
    (next : index = start + before.length + count) {byte : UInt8}
    (same : byte = UInt8.ofNat (value / 256 ^ count)) :
    (memmove memory start (before ++ leBytes count value)).set index byte =
      memmove memory start (before ++ leBytes (count + 1) value) := by
  have length : (before ++ leBytes count value).length =
      before.length + count := by
    rw [List.length_append, length_leBytes]
  rw [set_memmove (by omega) (by omega), same, leBytes_succ,
    List.append_assoc]

theorem writeU16Le_eq
    {memory before : List UInt8} {start offset : Nat} (value : UInt16)
    (inside : start + before.length + 2 ≤ memory.length)
    (here : offset = start + before.length) :
    writeU16Le (memmove memory start before) offset value =
      memmove memory start (before ++ leBytes 2 value.toNat) := by
  have byte {shift : UInt16} {count : Nat} (small : shift.toNat = 8 * count)
      (bound : count < 2) :=
    @set_leBytes memory before start (offset + count) count value.toNat
      (by omega) (by omega) _ (toUInt8_shiftRight_u16 value small bound)
  have first := @byte 0 0 rfl (by omega)
  rw [show before ++ leBytes 0 value.toNat = before from List.append_nil _]
    at first
  rw [writeU16Le, first, @byte 8 1 rfl (by omega)]

theorem writeU32Le_eq
    {memory before : List UInt8} {start offset : Nat} (value : UInt32)
    (inside : start + before.length + 4 ≤ memory.length)
    (here : offset = start + before.length) :
    writeU32Le (memmove memory start before) offset value =
      memmove memory start (before ++ leBytes 4 value.toNat) := by
  have byte {shift : UInt32} {count : Nat} (small : shift.toNat = 8 * count)
      (bound : count < 4) :=
    @set_leBytes memory before start (offset + count) count value.toNat
      (by omega) (by omega) _ (toUInt8_shiftRight_u32 value small bound)
  have first := @byte 0 0 rfl (by omega)
  rw [show before ++ leBytes 0 value.toNat = before from List.append_nil _]
    at first
  rw [writeU32Le, first, @byte 8 1 rfl (by omega), @byte 16 2 rfl (by omega),
    @byte 24 3 rfl (by omega)]

theorem writeU64Le_eq
    {memory before : List UInt8} {start offset : Nat} (value : UInt64)
    (inside : start + before.length + 8 ≤ memory.length)
    (here : offset = start + before.length) :
    writeU64Le (memmove memory start before) offset value =
      memmove memory start (before ++ leBytes 8 value.toNat) := by
  have byte {shift : UInt64} {count : Nat} (small : shift.toNat = 8 * count)
      (bound : count < 8) :=
    @set_leBytes memory before start (offset + count) count value.toNat
      (by omega) (by omega) _ (toUInt8_shiftRight_u64 value small bound)
  have first := @byte 0 0 rfl (by omega)
  rw [show before ++ leBytes 0 value.toNat = before from List.append_nil _]
    at first
  rw [writeU64Le, first, @byte 8 1 rfl (by omega), @byte 16 2 rfl (by omega),
    @byte 24 3 rfl (by omega), @byte 32 4 rfl (by omega),
    @byte 40 5 rfl (by omega), @byte 48 6 rfl (by omega),
    @byte 56 7 rfl (by omega)]

/-- The shortest encoding of a number. -/
def varintBytes (value : UInt64) : List UInt8 :=
  if value ≤ 0xFC then [value.toUInt8]
  else if value ≤ 0xFFFF then 0xFD :: leBytes 2 value.toNat
  else if value ≤ 0xFFFFFFFF then 0xFE :: leBytes 4 value.toNat
  else 0xFF :: leBytes 8 value.toNat

theorem length_varintBytes (value : UInt64) :
    (varintBytes value).length = (varintSize value).toNat := by
  unfold varintBytes varintSize
  split
  · rfl
  · split
    · rfl
    · split <;> rfl

theorem varintWrite_eq
    {out : List UInt8} {offset : Nat} (value : UInt64)
    (room : offset + (varintSize value).toNat ≤ out.length) :
    varintWrite out offset value =
      (((varintSize value).toNat : Int),
        memmove out offset (varintBytes value)) := by
  have some : 0 < (varintSize value).toNat := by
    unfold varintSize
    split
    · decide
    · split
      · decide
      · split <;> decide
  have marker (byte : UInt8) : out.set offset byte =
      memmove out offset [byte] :=
    set_eq_memmove (by omega) byte
  unfold varintWrite varintBytes
  dsimp only
  rw [marker, marker, marker, marker]
  unfold varintSize at room ⊢
  by_cases one : value ≤ 0xFC
  · rw [if_pos one, if_pos one, if_pos rfl]
  rw [if_neg one] at room ⊢
  rw [if_neg one]
  by_cases three : value ≤ 0xFFFF
  · rw [if_pos three] at room ⊢
    have fits : value.toUInt16.toNat = value.toNat := by
      rw [UInt64.le_iff_toNat_le] at three
      rw [UInt64.toNat_toUInt16, Nat.mod_eq_of_lt]
      exact Nat.lt_succ_of_le three
    have payload :=
      @writeU16Le_eq out [0xFD] offset (offset + 1) value.toUInt16 room rfl
    rw [if_pos three, if_neg (by decide), if_pos rfl,
      payload, fits]
    rfl
  rw [if_neg three] at room ⊢
  rw [if_neg three]
  by_cases five : value ≤ 0xFFFFFFFF
  · rw [if_pos five] at room ⊢
    have fits : value.toUInt32.toNat = value.toNat := by
      rw [UInt64.le_iff_toNat_le] at five
      rw [UInt64.toNat_toUInt32, Nat.mod_eq_of_lt]
      exact Nat.lt_succ_of_le five
    have payload :=
      @writeU32Le_eq out [0xFE] offset (offset + 1) value.toUInt32 room rfl
    rw [if_pos five, if_neg (by decide), if_neg (by decide), if_pos rfl,
      payload, fits]
    rfl
  · rw [if_neg five] at room ⊢
    have payload :=
      @writeU64Le_eq out [0xFF] offset (offset + 1) value room rfl
    rw [if_neg five, if_neg (by decide), if_neg (by decide),
      if_neg (by decide), if_pos rfl,
      payload]
    rfl

/-! ## Reading back -/

theorem varintFormat_varintBytes (value : UInt64) :
    VarintFormat value.toNat (varintBytes value) := by
  unfold varintBytes
  by_cases one : value ≤ 0xFC
  · rw [if_pos one]
    rw [UInt64.le_iff_toNat_le] at one
    change value.toNat ≤ 0xFC at one
    have fits : value.toUInt8.toNat = value.toNat := by
      rw [UInt64.toNat_toUInt8, Nat.mod_eq_of_lt (by omega)]
    have small : value.toUInt8 < 0xFD := by
      rw [UInt8.lt_iff_toNat_lt, fits]
      exact Nat.lt_succ_of_le one
    have format := VarintFormat.one value.toUInt8 small
    rwa [fits] at format
  rw [if_neg one]
  by_cases three : value ≤ 0xFFFF
  · rw [if_pos three]
    rw [UInt64.le_iff_toNat_le] at three
    change value.toNat ≤ 0xFFFF at three
    have format := VarintFormat.three _ (length_leBytes 2 value.toNat)
    rwa [leNat_leBytes (by omega)] at format
  rw [if_neg three]
  by_cases five : value ≤ 0xFFFFFFFF
  · rw [if_pos five]
    rw [UInt64.le_iff_toNat_le] at five
    change value.toNat ≤ 0xFFFFFFFF at five
    have format := VarintFormat.five _ (length_leBytes 4 value.toNat)
    rwa [leNat_leBytes (by omega)] at format
  · rw [if_neg five]
    have bound := value.toNat_lt
    have format := VarintFormat.nine _ (length_leBytes 8 value.toNat)
    rwa [leNat_leBytes (by omega)] at format

/-- No form of a number is shorter than the one that is written. -/
theorem VarintFormat.varintSize_le
    {value : UInt64} {encoding : List UInt8}
    (format : VarintFormat value.toNat encoding) :
    (varintSize value).toNat ≤ encoding.length := by
  have one : value ≤ 0xFC ↔ value.toNat ≤ 0xFC := UInt64.le_iff_toNat_le
  have three : value ≤ 0xFFFF ↔ value.toNat ≤ 0xFFFF := UInt64.le_iff_toNat_le
  have five : value ≤ 0xFFFFFFFF ↔ value.toNat ≤ 0xFFFFFFFF :=
    UInt64.le_iff_toNat_le
  unfold varintSize
  generalize value.toNat = number at format one three five
  cases format with
  | one byte small =>
      rw [UInt8.lt_iff_toNat_lt] at small
      change byte.toNat < 0xFD at small
      rw [if_pos (one.mpr (by omega))]
      exact Nat.le_refl _
  | three payload length =>
      have bound := leNat_lt payload
      rw [length] at bound
      rw [List.length_cons, length]
      split
      · decide
      · rw [if_pos (three.mpr (by omega))]
        decide
  | five payload length =>
      have bound := leNat_lt payload
      rw [length] at bound
      rw [List.length_cons, length]
      split
      · decide
      · split
        · decide
        · rw [if_pos (five.mpr (by omega))]
          decide
  | nine payload length =>
      rw [List.length_cons, length]
      split
      · decide
      · split
        · decide
        · split <;> decide

/-- An encoding that is cut is refused. -/
theorem varintRead_of_lt
    {value : Nat} {encoding beyond : List UInt8} {inputLen : Nat}
    (format : VarintFormat value encoding)
    (cut : inputLen < encoding.length) :
    varintRead (encoding ++ beyond) inputLen = none := by
  rw [varintRead]
  by_cases empty : inputLen < 1
  · rw [if_pos empty]
  rw [if_neg empty]
  cases format with
  | one byte small =>
      rw [List.length_singleton] at cut
      exact absurd cut empty
  | three payload length =>
      rw [List.length_cons, length] at cut
      rw [List.cons_append, byteAt_cons_zero, if_pos rfl, if_pos cut]
  | five payload length =>
      rw [List.length_cons, length] at cut
      rw [List.cons_append, byteAt_cons_zero, if_neg (by decide), if_pos rfl,
        if_pos cut]
  | nine payload length =>
      rw [List.length_cons, length] at cut
      rw [List.cons_append, byteAt_cons_zero, if_neg (by decide),
        if_neg (by decide), if_pos rfl, if_pos cut]

/-- What is expected of writing `value` at `offset` and of reading it
back. -/
structure VarintRoundTrip (value : UInt64) (out : List UInt8)
    (offset : Nat) : Prop where
  returned : (varintWrite out offset value).1 = (varintSize value).toNat
  unchanged :
    (varintWrite out offset value).2.length = out.length ∧
      (varintWrite out offset value).2.take offset = out.take offset ∧
      (varintWrite out offset value).2.drop
          (offset + (varintSize value).toNat) =
        out.drop (offset + (varintSize value).toNat)
  read_back : ∀ (beyond : List UInt8) (inputLen : Nat),
    (varintSize value).toNat ≤ inputLen →
      varintRead
          (((varintWrite out offset value).2.drop offset).take
            (varintSize value).toNat ++ beyond) inputLen =
        some ((varintSize value).toNat, value)
  prefix_refused : ∀ (beyond : List UInt8) (inputLen : Nat),
    inputLen < (varintSize value).toNat →
      varintRead
          (((varintWrite out offset value).2.drop offset).take
            (varintSize value).toNat ++ beyond) inputLen =
        none
  shortest : ∀ (input : List UInt8) (inputLen length : Nat),
    inputLen ≤ input.length →
      varintRead input inputLen = some (length, value) →
        (varintSize value).toNat ≤ length

/-- **Reading undoes writing**, at every offset with enough room. -/
theorem varint_roundTrip
    (value : UInt64) {out : List UInt8} {offset : Nat}
    (room : offset + (varintSize value).toNat ≤ out.length) :
    VarintRoundTrip value out offset := by
  have length := length_varintBytes value
  have format := varintFormat_varintBytes value
  have inside : offset + (varintBytes value).length ≤ out.length := by
    omega
  have front : (out.take offset).length = offset := by
    rw [List.length_take]
    omega
  have written :
      ((memmove out offset (varintBytes value)).drop offset).take
          (varintSize value).toNat =
        varintBytes value := by
    rw [memmove, List.append_assoc, List.drop_left' front, ← length,
      List.take_left]
  constructor
  · rw [varintWrite_eq value room]
  · rw [varintWrite_eq value room]
    refine ⟨length_memmove inside, ?_, ?_⟩
    · rw [memmove, List.append_assoc, List.take_left' front]
    · rw [memmove, length, List.drop_left' (by
        rw [List.length_append, front, length])]
  · intro beyond inputLen enough
    rw [varintWrite_eq value room, written,
      varintRead_of_format format (by omega), length, UInt64.ofNat_toNat]
  · intro beyond inputLen cut
    rw [varintWrite_eq value room, written, varintRead_of_lt format (by omega)]
  · intro input inputLen size available accepted
    obtain ⟨encoding, encoded, _, same, _⟩ :=
      varintRead_some available accepted
    rw [← same]
    exact encoded.varintSize_le

/-- The least number that takes three bytes, in the middle of a memory. -/
theorem varint_roundTrip_three :
    VarintRoundTrip 0xFD (List.replicate 8 0xAA) 2 :=
  varint_roundTrip 0xFD (by decide)

inductive VarintForm where
  | one
  | three
  | five
  | nine
  deriving DecidableEq, Repr

def VarintForm.encode : VarintForm → Nat → List UInt8
  | .one, value => [UInt8.ofNat value]
  | .three, value => 0xFD :: leBytes 2 value
  | .five, value => 0xFE :: leBytes 4 value
  | .nine, value => 0xFF :: leBytes 8 value

def VarintForm.shortest (value : Nat) : VarintForm :=
  if value ≤ 0xFC then .one
  else if value ≤ 0xFFFF then .three
  else if value ≤ 0xFFFFFFFF then .five
  else .nine

theorem VarintFormat.exists_form
    {value : Nat} {encoding : List UInt8}
    (format : VarintFormat value encoding) :
    ∃ form : VarintForm, encoding = form.encode value := by
  cases format with
  | one byte small =>
      exact ⟨.one, by rw [VarintForm.encode, UInt8.ofNat_toNat]⟩
  | three payload length =>
      exact ⟨.three, by rw [VarintForm.encode, ← length, leBytes_leNat]⟩
  | five payload length =>
      exact ⟨.five, by rw [VarintForm.encode, ← length, leBytes_leNat]⟩
  | nine payload length =>
      exact ⟨.nine, by rw [VarintForm.encode, ← length, leBytes_leNat]⟩

theorem VarintForm.eq_of_length
    {form other : VarintForm} {value : Nat}
    (equal : (form.encode value).length = (other.encode value).length) :
    form = other := by
  cases form <;> cases other <;> first | rfl | simp [encode] at equal

/-- What `varint_write` writes is the shortest form. -/
theorem VarintForm.encode_shortest (value : UInt64) :
    (shortest value.toNat).encode value.toNat = varintBytes value := by
  have one : value ≤ 0xFC ↔ value.toNat ≤ 0xFC := UInt64.le_iff_toNat_le
  have three : value ≤ 0xFFFF ↔ value.toNat ≤ 0xFFFF := UInt64.le_iff_toNat_le
  have five : value ≤ 0xFFFFFFFF ↔ value.toNat ≤ 0xFFFFFFFF :=
    UInt64.le_iff_toNat_le
  unfold shortest varintBytes
  simp only [one, three, five]
  split
  · rw [encode, UInt8.ofNat_uInt64ToNat]
  · split
    · rfl
    · split <;> rfl

/-- Two numbers in front of two texts. -/
theorem VarintForm.append_inj
    {form other : VarintForm} {value number : Nat}
    {rest otherRest : List UInt8}
    (format : VarintFormat value (form.encode value))
    (otherFormat : VarintFormat number (other.encode number))
    (equal : form.encode value ++ rest = other.encode number ++ otherRest) :
    form = other ∧ value = number ∧ rest = otherRest := by
  have comparable :
      form.encode value <+: other.encode number ∨
        other.encode number <+: form.encode value :=
    List.prefix_or_prefix_of_prefix (List.prefix_append _ rest)
      (equal ▸ List.prefix_append _ otherRest)
  have same : value = number ∧ form.encode value = other.encode number := by
    rcases comparable with forward | backward
    · exact format.unique otherFormat forward
    · obtain ⟨values, texts⟩ := otherFormat.unique format backward
      exact ⟨values.symm, texts.symm⟩
  obtain ⟨rfl, texts⟩ := same
  rw [texts] at equal
  exact ⟨eq_of_length (congrArg List.length texts), rfl,
    List.append_cancel_left equal⟩

end Neo3App
