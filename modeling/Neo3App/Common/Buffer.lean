import Neo3App.Common.Read

/-!
# Bounded buffers

`buffer.c` and the reading half of `varint.c`.  A `buffer_t` is the memory
its pointer designates, a size and an offset; the unread bytes of a
well-formed buffer are `rest`.  Every reading function is described once, in
terms of `rest`: it succeeds exactly when enough bytes are left, and then
advances past them.
-/

namespace Neo3App

open Neo3App.Lib

/-- One more than the largest `size_t` of the device. -/
def sizeModulus : Nat := 2 ^ 32

/-- `a + b` on `size_t`. -/
def sizeAdd (a b : Nat) : Nat :=
  (a + b) % sizeModulus

/-- `a - b` on `size_t`. -/
def sizeSub (a b : Nat) : Nat :=
  (a + (sizeModulus - b % sizeModulus)) % sizeModulus

/-- `(int) size`. -/
def sizeToInt (size : Nat) : Int :=
  if size < 2 ^ 31 then size else (size : Int) - sizeModulus

theorem sizeAdd_of_lt {a b : Nat} (fits : a + b < sizeModulus) :
    sizeAdd a b = a + b :=
  Nat.mod_eq_of_lt fits

theorem sizeSub_of_le
    {a b : Nat} (ordered : b ≤ a) (fits : a < sizeModulus) :
    sizeSub a b = a - b := by
  unfold sizeSub sizeModulus at *
  omega

inductive Endianness where
  | be
  | le
  deriving DecidableEq, Repr

structure Buffer where
  ptr : List UInt8
  size : Nat
  offset : Nat
  deriving DecidableEq, Repr

/-- A pointer into the memory of a buffer: the position it designates, or
`none` for the null pointer. -/
abbrev Ptr : Type :=
  Option Nat

/-- The `length` bytes a pointer designates in `memory`. -/
def deref (memory : List UInt8) (length : Nat) : Ptr → List UInt8
  | none => []
  | some position => (memory.drop position).take length

/-- What a reading function leaves: its result, `*value` and the buffer. -/
structure Read (α : Type) where
  ok : Bool
  value : α
  buffer : Buffer
  deriving DecidableEq, Repr

def bufferCanRead (buffer : Buffer) (n : Nat) : Bool :=
  decide (n ≤ sizeSub buffer.size buffer.offset)

def bufferSeekCur (buffer : Buffer) (offset : Nat) : Bool × Buffer :=
  if sizeAdd buffer.offset offset < buffer.offset ∨
      buffer.size < sizeAdd buffer.offset offset then
    (false, buffer)
  else
    (true, { buffer with offset := sizeAdd buffer.offset offset })

/-- The common body of the `buffer_read_*` functions: `width` bytes are
required, a refused read stores zero and leaves the buffer alone. -/
def bufferRead {α : Type} (width : Nat) (read : List UInt8 → Nat → α)
    (zero : α) (buffer : Buffer) : Read α :=
  if bufferCanRead buffer width then
    ⟨true, read buffer.ptr buffer.offset, (bufferSeekCur buffer width).2⟩
  else
    ⟨false, zero, buffer⟩

def bufferReadU8 (buffer : Buffer) : Read UInt8 :=
  bufferRead 1 byteAt 0 buffer

def bufferReadS8 (buffer : Buffer) : Read Int8 :=
  bufferRead 1 (fun ptr offset => (byteAt ptr offset).toInt8) 0 buffer

def bufferReadU16 (buffer : Buffer) (endianness : Endianness) : Read UInt16 :=
  bufferRead 2 (if endianness = .be then readU16Be else readU16Le) 0 buffer

def bufferReadS16 (buffer : Buffer) (endianness : Endianness) : Read Int16 :=
  bufferRead 2 (if endianness = .be then readS16Be else readS16Le) 0 buffer

def bufferReadU32 (buffer : Buffer) (endianness : Endianness) : Read UInt32 :=
  bufferRead 4 (if endianness = .be then readU32Be else readU32Le) 0 buffer

def bufferReadS32 (buffer : Buffer) (endianness : Endianness) : Read Int32 :=
  bufferRead 4 (if endianness = .be then readS32Be else readS32Le) 0 buffer

def bufferReadU64 (buffer : Buffer) (endianness : Endianness) : Read UInt64 :=
  bufferRead 8 (if endianness = .be then readU64Be else readU64Le) 0 buffer

def bufferReadS64 (buffer : Buffer) (endianness : Endianness) : Read Int64 :=
  bufferRead 8 (if endianness = .be then readS64Be else readS64Le) 0 buffer

/-- `varint_read`: the number of bytes consumed and the value, or `none`
where the source returns -1. -/
def varintRead (input : List UInt8) (inputLen : Nat) :
    Option (Nat × UInt64) :=
  if inputLen < 1 then
    none
  else if byteAt input 0 = 0xFD then
    if inputLen < 3 then none
    else some (3, (readU16Le input 1).toUInt64)
  else if byteAt input 0 = 0xFE then
    if inputLen < 5 then none
    else some (5, (readU32Le input 1).toUInt64)
  else if byteAt input 0 = 0xFF then
    if inputLen < 9 then none
    else some (9, readU64Le input 1)
  else
    some (1, (byteAt input 0).toUInt64)

def bufferReadVarint (buffer : Buffer) : Read UInt64 :=
  match varintRead (buffer.ptr.drop buffer.offset)
      (sizeSub buffer.size buffer.offset) with
  | none => ⟨false, 0, buffer⟩
  | some (length, value) => ⟨true, value, (bufferSeekCur buffer length).2⟩

/-- Overwrite the cells of `memory` from `start` on with `bytes`. -/
def memmove {α : Type} (memory : List α) (start : Nat) (bytes : List α) :
    List α :=
  memory.take start ++ bytes ++ memory.drop (start + bytes.length)

theorem memmove_append {α : Type} {memory text : List α} {start : Nat}
    (fits : start + text.length ≤ memory.length) (beyond : List α) :
    memmove (memory ++ beyond) start text =
      memmove memory start text ++ beyond := by
  rw [memmove, memmove, List.take_append_of_le_length (by omega),
    List.drop_append_of_le_length fits]
  simp only [List.append_assoc]

theorem length_memmove {α : Type} {memory text : List α} {start : Nat}
    (fits : start + text.length ≤ memory.length) :
    (memmove memory start text).length = memory.length := by
  rw [memmove, List.length_append, List.length_append, List.length_take,
    List.length_drop]
  omega

/-- `buffer_copy` into the memory `out`, at `start`. -/
def bufferCopy (buffer : Buffer) (out : List UInt8) (start outLen : Nat) :
    Bool × List UInt8 :=
  if outLen < sizeSub buffer.size buffer.offset then
    (false, out)
  else
    (true, memmove out start
      ((buffer.ptr.drop buffer.offset).take
        (sizeSub buffer.size buffer.offset)))

/-- `buffer_move` into the memory `out`, at `start`. -/
def bufferMove (buffer : Buffer) (out : List UInt8) (start outLen : Nat) :
    Bool × List UInt8 × Buffer :=
  match bufferCopy buffer out start outLen with
  | (false, out) => (false, out, buffer)
  | (true, out) => (true, out, (bufferSeekCur buffer outLen).2)

/-! ## Well-formed buffers and their unread bytes -/

/-- The offset is inside the buffer and the buffer inside its memory. -/
structure Buffer.Wf (buffer : Buffer) : Prop where
  offset_le : buffer.offset ≤ buffer.size
  size_le : buffer.size ≤ buffer.ptr.length
  size_lt : buffer.size < sizeModulus

/-- The bytes from the offset to the size. -/
def Buffer.rest (buffer : Buffer) : List UInt8 :=
  (buffer.ptr.take buffer.size).drop buffer.offset

def Buffer.advance (buffer : Buffer) (count : Nat) : Buffer :=
  { buffer with offset := buffer.offset + count }

@[simp]
theorem Buffer.advance_ptr (buffer : Buffer) (count : Nat) :
    (buffer.advance count).ptr = buffer.ptr :=
  rfl

@[simp]
theorem Buffer.advance_size (buffer : Buffer) (count : Nat) :
    (buffer.advance count).size = buffer.size :=
  rfl

@[simp]
theorem Buffer.advance_offset (buffer : Buffer) (count : Nat) :
    (buffer.advance count).offset = buffer.offset + count :=
  rfl

@[simp]
theorem Buffer.advance_zero (buffer : Buffer) :
    buffer.advance 0 = buffer :=
  rfl

theorem Buffer.advance_advance (buffer : Buffer) (first second : Nat) :
    (buffer.advance first).advance second =
      buffer.advance (first + second) := by
  simp [Buffer.advance, Nat.add_assoc]

theorem Buffer.Wf.length_rest {buffer : Buffer} (wf : buffer.Wf) :
    buffer.rest.length = buffer.size - buffer.offset := by
  have bound := wf.size_le
  simp only [Buffer.rest, List.length_drop, List.length_take]
  omega

@[simp]
theorem Buffer.rest_advance (buffer : Buffer) (count : Nat) :
    (buffer.advance count).rest = buffer.rest.drop count := by
  simp [Buffer.rest]

theorem Buffer.Wf.advance
    {buffer : Buffer} (wf : buffer.Wf) {count : Nat}
    (available : count ≤ buffer.rest.length) :
    (buffer.advance count).Wf := by
  have length := wf.length_rest
  have offset := wf.offset_le
  exact
    { offset_le := by simp only [Buffer.advance]; omega
      size_le := wf.size_le
      size_lt := wf.size_lt }

/-- The memory at the offset starts with the unread bytes. -/
theorem Buffer.rest_prefix (buffer : Buffer) :
    buffer.rest <+: buffer.ptr.drop buffer.offset := by
  rw [Buffer.rest, List.drop_take]
  exact List.take_prefix _ _

theorem Buffer.Wf.sizeSub_eq {buffer : Buffer} (wf : buffer.Wf) :
    sizeSub buffer.size buffer.offset = buffer.rest.length := by
  rw [wf.length_rest]
  exact sizeSub_of_le wf.offset_le wf.size_lt

theorem Buffer.Wf.canRead_iff
    {buffer : Buffer} (wf : buffer.Wf) (count : Nat) :
    bufferCanRead buffer count = true ↔ count ≤ buffer.rest.length := by
  simp [bufferCanRead, wf.sizeSub_eq]

theorem Buffer.Wf.seekCur_of_le
    {buffer : Buffer} (wf : buffer.Wf) {count : Nat}
    (available : count ≤ buffer.rest.length) :
    bufferSeekCur buffer count = (true, buffer.advance count) := by
  have length := wf.length_rest
  have offset := wf.offset_le
  have size := wf.size_lt
  have sum : sizeAdd buffer.offset count = buffer.offset + count :=
    sizeAdd_of_lt (by omega)
  rw [bufferSeekCur, sum, if_neg (by omega)]
  rfl

theorem Buffer.Wf.seekCur_of_lt
    {buffer : Buffer} (wf : buffer.Wf) {count : Nat}
    (missing : buffer.rest.length < count) (fits : count < sizeModulus) :
    bufferSeekCur buffer count = (false, buffer) := by
  have length := wf.length_rest
  have offset := wf.offset_le
  have size := wf.size_lt
  rw [bufferSeekCur, if_pos]
  unfold sizeAdd sizeModulus at *
  omega

/-- A fixed-width read of a buffer that holds enough bytes. -/
theorem Buffer.Wf.read_of_le
    {α : Type} {buffer : Buffer} (wf : buffer.Wf) {width : Nat}
    (read : List UInt8 → Nat → α) (zero : α)
    (available : width ≤ buffer.rest.length) :
    bufferRead width read zero buffer =
      ⟨true, read buffer.ptr buffer.offset, buffer.advance width⟩ := by
  rw [bufferRead, if_pos ((wf.canRead_iff width).mpr available),
    wf.seekCur_of_le available]

/-- A fixed-width read of a buffer that holds too few bytes. -/
theorem Buffer.Wf.read_of_lt
    {α : Type} {buffer : Buffer} (wf : buffer.Wf) {width : Nat}
    (read : List UInt8 → Nat → α) (zero : α)
    (missing : buffer.rest.length < width) :
    bufferRead width read zero buffer = ⟨false, zero, buffer⟩ := by
  rw [bufferRead, if_neg]
  rw [wf.canRead_iff]
  omega

/-- The memory at the offset of a buffer whose unread bytes are split. -/
theorem Buffer.drop_ptr_of_rest
    {buffer : Buffer} {encoding tail : List UInt8}
    (split : buffer.rest = encoding ++ tail) :
    ∃ beyond, buffer.ptr.drop buffer.offset = encoding ++ beyond := by
  obtain ⟨suffix, equality⟩ := buffer.rest_prefix
  exact ⟨tail ++ suffix, by rw [← equality, split, List.append_assoc]⟩

/-! ## What the reading functions read -/

/-- `read` consumes an encoding of a value in `format` when one stands at the
offset, and fails otherwise. -/
structure Reads {α : Type} (read : Buffer → Read α)
    (format : α → List UInt8 → Prop) : Prop where
  complete :
    ∀ {buffer : Buffer} {value : α} {encoding : List UInt8},
      buffer.Wf → format value encoding → encoding <+: buffer.rest →
        read buffer = ⟨true, value, buffer.advance encoding.length⟩
  sound :
    ∀ {buffer : Buffer}, buffer.Wf → (read buffer).ok = true →
      ∃ encoding, format (read buffer).value encoding ∧
        encoding <+: buffer.rest ∧
        (read buffer).buffer = buffer.advance encoding.length
  unique :
    ∀ {value other : α} {first second : List UInt8},
      format value first → format other second →
      first <+: second → value = other ∧ first = second

/-- The fixed-width functions.  `order` is the identity for little-endian and
the reversal for big-endian integers. -/
theorem Reads.fixed
    {α : Type} (width : Nat) (read : List UInt8 → Nat → α) (zero : α)
    (toNat : α → Nat) (order : List UInt8 → List UInt8)
    (injective : ∀ {value other}, toNat value = toNat other → value = other)
    (bounded : ∀ value, toNat value < 256 ^ width)
    (involutive : ∀ bytes, order (order bytes) = bytes)
    (length_order : ∀ bytes, (order bytes).length = bytes.length)
    (toNat_read : ∀ {ptr encoding rest : List UInt8} {offset : Nat},
      ptr.drop offset = encoding ++ rest → encoding.length = width →
        toNat (read ptr offset) = leNat (order encoding)) :
    Reads (bufferRead width read zero)
      (fun value encoding => encoding = order (leBytes width (toNat value)))
    where
  complete := by
    rintro buffer value _ wf rfl isPrefix
    have length : (order (leBytes width (toNat value))).length = width := by
      rw [length_order, length_leBytes]
    have available := isPrefix.length_le
    rw [length] at available ⊢
    obtain ⟨rest, split⟩ := isPrefix
    obtain ⟨beyond, memory⟩ := Buffer.drop_ptr_of_rest split.symm
    have sameNat := toNat_read memory length
    rw [involutive, leNat_leBytes (bounded value)] at sameNat
    rw [wf.read_of_le _ _ available, injective sameNat]
  sound := by
    intro buffer wf ok
    by_cases available : width ≤ buffer.rest.length
    · rw [wf.read_of_le _ _ available]
      have length : (buffer.rest.take width).length = width := by
        simp [available]
      obtain ⟨beyond, memory⟩ :=
        Buffer.drop_ptr_of_rest
          (buffer.rest.take_append_drop width).symm
      refine ⟨buffer.rest.take width, ?_, List.take_prefix _ _, ?_⟩
      · have whole := leBytes_leNat (order (buffer.rest.take width))
        rw [length_order, length] at whole
        rw [toNat_read memory length, whole, involutive]
      · rw [length]
    · rw [wf.read_of_lt _ _ (by omega)] at ok
      cases ok
  unique := by
    rintro value other _ _ rfl rfl isPrefix
    have same :=
      List.IsPrefix.eq_of_length isPrefix (by simp [length_order])
    have sameNat := congrArg (fun bytes => leNat (order bytes)) same
    simp only [involutive, leNat_leBytes (bounded _)] at sameNat
    exact ⟨injective sameNat, same⟩

theorem reads_u8 :
    Reads bufferReadU8 (fun value encoding => encoding = [value]) := by
  have fixed :=
    Reads.fixed 1 byteAt 0 UInt8.toNat id
      UInt8.toNat_inj.mp (fun value => value.toNat_lt)
      (fun _ => rfl) (fun _ => rfl)
      (by
        intro ptr encoding rest offset memory length
        match encoding, length with
        | [byte], _ =>
            have head : byteAt ptr (offset + 0) = byte := by
              rw [← byteAt_drop, memory]
              rfl
            rw [Nat.add_zero] at head
            simp [head, leNat])
  simp only [leBytes, UInt8.ofNat_toNat, id_eq] at fixed
  exact fixed

theorem reads_u16_be :
    Reads (bufferReadU16 · .be)
      (fun value encoding => encoding = (leBytes 2 value.toNat).reverse) :=
  Reads.fixed 2 readU16Be 0 UInt16.toNat List.reverse
    UInt16.toNat_inj.mp (fun value => value.toNat_lt)
    List.reverse_reverse (fun _ => List.length_reverse)
    toNat_readU16Be

theorem reads_u16_le :
    Reads (bufferReadU16 · .le)
      (fun value encoding => encoding = leBytes 2 value.toNat) :=
  Reads.fixed 2 readU16Le 0 UInt16.toNat id
    UInt16.toNat_inj.mp (fun value => value.toNat_lt)
    (fun _ => rfl) (fun _ => rfl) toNat_readU16Le

theorem reads_u32_be :
    Reads (bufferReadU32 · .be)
      (fun value encoding => encoding = (leBytes 4 value.toNat).reverse) :=
  Reads.fixed 4 readU32Be 0 UInt32.toNat List.reverse
    UInt32.toNat_inj.mp (fun value => value.toNat_lt)
    List.reverse_reverse (fun _ => List.length_reverse)
    toNat_readU32Be

theorem reads_u32_le :
    Reads (bufferReadU32 · .le)
      (fun value encoding => encoding = leBytes 4 value.toNat) :=
  Reads.fixed 4 readU32Le 0 UInt32.toNat id
    UInt32.toNat_inj.mp (fun value => value.toNat_lt)
    (fun _ => rfl) (fun _ => rfl) toNat_readU32Le

theorem reads_u64_be :
    Reads (bufferReadU64 · .be)
      (fun value encoding => encoding = (leBytes 8 value.toNat).reverse) :=
  Reads.fixed 8 readU64Be 0 UInt64.toNat List.reverse
    UInt64.toNat_inj.mp (fun value => value.toNat_lt)
    List.reverse_reverse (fun _ => List.length_reverse)
    toNat_readU64Be

theorem reads_u64_le :
    Reads (bufferReadU64 · .le)
      (fun value encoding => encoding = leBytes 8 value.toNat) :=
  Reads.fixed 8 readU64Le 0 UInt64.toNat id
    UInt64.toNat_inj.mp (fun value => value.toNat_lt)
    (fun _ => rfl) (fun _ => rfl) toNat_readU64Le

theorem reads_s8 :
    Reads bufferReadS8
      (fun value encoding => encoding = [value.toUInt8]) := by
  have fixed :=
    Reads.fixed 1 (fun ptr offset => (byteAt ptr offset).toInt8)
      0 (fun value => value.toUInt8.toNat) id
      (fun same => by
        simpa using congrArg UInt8.toInt8 (UInt8.toNat_inj.mp same))
      (fun value => value.toUInt8.toNat_lt)
      (fun _ => rfl) (fun _ => rfl)
      (by
        intro ptr encoding rest offset memory length
        match encoding, length with
        | [byte], _ =>
            have head : byteAt ptr (offset + 0) = byte := by
              rw [← byteAt_drop, memory]
              rfl
            rw [Nat.add_zero] at head
            simp [head, leNat])
  simp only [leBytes, UInt8.ofNat_toNat, id_eq] at fixed
  exact fixed

theorem reads_s16_be :
    Reads (bufferReadS16 · .be)
      (fun value encoding =>
        encoding = (leBytes 2 value.toUInt16.toNat).reverse) :=
  Reads.fixed 2 readS16Be 0 (fun value => value.toUInt16.toNat) List.reverse
    (fun same => by
      simpa using congrArg UInt16.toInt16 (UInt16.toNat_inj.mp same))
    (fun value => value.toUInt16.toNat_lt)
    List.reverse_reverse (fun _ => List.length_reverse) toNat_readU16Be

theorem reads_s32_be :
    Reads (bufferReadS32 · .be)
      (fun value encoding =>
        encoding = (leBytes 4 value.toUInt32.toNat).reverse) :=
  Reads.fixed 4 readS32Be 0 (fun value => value.toUInt32.toNat) List.reverse
    (fun same => by
      simpa using congrArg UInt32.toInt32 (UInt32.toNat_inj.mp same))
    (fun value => value.toUInt32.toNat_lt)
    List.reverse_reverse (fun _ => List.length_reverse) toNat_readU32Be

theorem reads_s64_be :
    Reads (bufferReadS64 · .be)
      (fun value encoding =>
        encoding = (leBytes 8 value.toUInt64.toNat).reverse) :=
  Reads.fixed 8 readS64Be 0 (fun value => value.toUInt64.toNat) List.reverse
    (fun same => by
      simpa using congrArg UInt64.toInt64 (UInt64.toNat_inj.mp same))
    (fun value => value.toUInt64.toNat_lt)
    List.reverse_reverse (fun _ => List.length_reverse) toNat_readU64Be

theorem reads_s16_le :
    Reads (bufferReadS16 · .le)
      (fun value encoding => encoding = leBytes 2 value.toUInt16.toNat) :=
  Reads.fixed 2 readS16Le 0 (fun value => value.toUInt16.toNat) id
    (fun same => by
      simpa using congrArg UInt16.toInt16 (UInt16.toNat_inj.mp same))
    (fun value => value.toUInt16.toNat_lt)
    (fun _ => rfl) (fun _ => rfl) toNat_readU16Le

theorem reads_s32_le :
    Reads (bufferReadS32 · .le)
      (fun value encoding => encoding = leBytes 4 value.toUInt32.toNat) :=
  Reads.fixed 4 readS32Le 0 (fun value => value.toUInt32.toNat) id
    (fun same => by
      simpa using congrArg UInt32.toInt32 (UInt32.toNat_inj.mp same))
    (fun value => value.toUInt32.toNat_lt)
    (fun _ => rfl) (fun _ => rfl) toNat_readU32Le

theorem reads_s64_le :
    Reads (bufferReadS64 · .le)
      (fun value encoding => encoding = leBytes 8 value.toUInt64.toNat) :=
  Reads.fixed 8 readS64Le 0 (fun value => value.toUInt64.toNat) id
    (fun same => by
      simpa using congrArg UInt64.toInt64 (UInt64.toNat_inj.mp same))
    (fun value => value.toUInt64.toNat_lt)
    (fun _ => rfl) (fun _ => rfl) toNat_readU64Le

inductive VarintFormat : Nat → List UInt8 → Prop where
  | one (byte : UInt8) (small : byte < 0xFD) :
      VarintFormat byte.toNat [byte]
  | three (payload : List UInt8) (length : payload.length = 2) :
      VarintFormat (leNat payload) (0xFD :: payload)
  | five (payload : List UInt8) (length : payload.length = 4) :
      VarintFormat (leNat payload) (0xFE :: payload)
  | nine (payload : List UInt8) (length : payload.length = 8) :
      VarintFormat (leNat payload) (0xFF :: payload)

theorem VarintFormat.lt
    {value : Nat} {encoding : List UInt8}
    (format : VarintFormat value encoding) :
    value < 2 ^ 64 := by
  cases format with
  | one byte small =>
      have bound := byte.toNat_lt
      omega
  | three payload length =>
      have bound := leNat_lt payload
      rw [length] at bound
      omega
  | five payload length =>
      have bound := leNat_lt payload
      rw [length] at bound
      omega
  | nine payload length =>
      have bound := leNat_lt payload
      rw [length] at bound
      omega

/-- The first byte of an encoding fixes its form. -/
theorem VarintFormat.unique
    {value other : Nat} {first second : List UInt8}
    (firstFormat : VarintFormat value first)
    (secondFormat : VarintFormat other second)
    (isPrefix : first <+: second) :
    value = other ∧ first = second := by
  have sameHead : first.head? = second.head? := by
    obtain ⟨rest, rfl⟩ := isPrefix
    cases firstFormat <;> rfl
  have sameLength : first.length = second.length := by
    cases firstFormat <;> cases secondFormat <;>
      simp_all [UInt8.lt_irrefl]
  have same : first = second := isPrefix.eq_of_length sameLength
  refine ⟨?_, same⟩
  subst same
  cases firstFormat <;> cases secondFormat <;>
    simp_all [UInt8.lt_irrefl]

theorem varintRead_of_format
    {value : Nat} {encoding beyond : List UInt8} {inputLen : Nat}
    (format : VarintFormat value encoding)
    (available : encoding.length ≤ inputLen) :
    varintRead (encoding ++ beyond) inputLen =
      some (encoding.length, UInt64.ofNat value) := by
  cases format with
  | one byte small =>
      have notThree : byte ≠ 0xFD := by
        rintro rfl
        exact UInt8.lt_irrefl _ small
      have notFive : byte ≠ 0xFE := by
        rintro rfl
        exact absurd small (by decide)
      have notNine : byte ≠ 0xFF := by
        rintro rfl
        exact absurd small (by decide)
      simp only [List.length_cons, List.length_nil] at available
      rw [varintRead, if_neg (by omega)]
      simp only [List.cons_append, byteAt_cons_zero, if_neg notThree,
        if_neg notFive, if_neg notNine]
      simp
  | three payload length =>
      simp only [List.length_cons, length] at available
      have memory :
          (0xFD :: payload ++ beyond).drop 1 = payload ++ beyond := rfl
      have read := toNat_readU16Le memory length
      rw [varintRead, if_neg (by omega)]
      simp only [List.cons_append, byteAt_cons_zero]
      rw [if_pos trivial, if_neg (by omega), ← read]
      simp [length]
  | five payload length =>
      simp only [List.length_cons, length] at available
      have memory :
          (0xFE :: payload ++ beyond).drop 1 = payload ++ beyond := rfl
      have read := toNat_readU32Le memory length
      rw [varintRead, if_neg (by omega)]
      simp only [List.cons_append, byteAt_cons_zero]
      rw [if_neg (by decide), if_pos trivial, if_neg (by omega), ← read]
      simp [length]
  | nine payload length =>
      simp only [List.length_cons, length] at available
      have memory :
          (0xFF :: payload ++ beyond).drop 1 = payload ++ beyond := rfl
      have read := toNat_readU64Le memory length
      rw [varintRead, if_neg (by omega)]
      simp only [List.cons_append, byteAt_cons_zero]
      rw [if_neg (by decide), if_neg (by decide), if_pos trivial,
        if_neg (by omega), ← read]
      simp [length]

theorem varintRead_some
    {input : List UInt8} {inputLen length : Nat} {value : UInt64}
    (inside : inputLen ≤ input.length)
    (read : varintRead input inputLen = some (length, value)) :
    ∃ encoding, VarintFormat value.toNat encoding ∧
      encoding <+: input ∧ encoding.length = length ∧
      length ≤ inputLen := by
  cases input with
  | nil =>
      simp only [List.length_nil, Nat.le_zero] at inside
      simp [varintRead, inside] at read
  | cons first payload =>
      simp only [List.length_cons] at inside
      have split : ∀ count,
          (first :: payload).drop 1 =
            payload.take count ++ payload.drop count :=
        fun count => (payload.take_append_drop count).symm
      have isPrefix : ∀ count,
          first :: payload.take count <+: first :: payload :=
        fun count =>
          List.cons_prefix_cons.mpr ⟨rfl, List.take_prefix count payload⟩
      have notEmpty : ¬ inputLen < 1 := by
        intro empty
        simp [varintRead, empty] at read
      rw [varintRead, if_neg notEmpty, byteAt_cons_zero] at read
      by_cases three : first = 0xFD
      · subst three
        rw [if_pos rfl, Option.ite_none_left_eq_some] at read
        obtain ⟨longEnough, equality⟩ := read
        cases equality
        have long : (payload.take 2).length = 2 := by
          simp only [List.length_take]
          omega
        refine ⟨0xFD :: payload.take 2, ?_, isPrefix 2, by simp [long],
          by omega⟩
        rw [UInt16.toNat_toUInt64, toNat_readU16Le (split 2) long]
        exact .three _ long
      rw [if_neg three] at read
      by_cases five : first = 0xFE
      · subst five
        rw [if_pos rfl, Option.ite_none_left_eq_some] at read
        obtain ⟨longEnough, equality⟩ := read
        cases equality
        have long : (payload.take 4).length = 4 := by
          simp only [List.length_take]
          omega
        refine ⟨0xFE :: payload.take 4, ?_, isPrefix 4, by simp [long],
          by omega⟩
        rw [UInt32.toNat_toUInt64, toNat_readU32Le (split 4) long]
        exact .five _ long
      rw [if_neg five] at read
      by_cases nine : first = 0xFF
      · subst nine
        rw [if_pos rfl, Option.ite_none_left_eq_some] at read
        obtain ⟨longEnough, equality⟩ := read
        cases equality
        have long : (payload.take 8).length = 8 := by
          simp only [List.length_take]
          omega
        refine ⟨0xFF :: payload.take 8, ?_, isPrefix 8, by simp [long],
          by omega⟩
        rw [toNat_readU64Le (split 8) long]
        exact .nine _ long
      rw [if_neg nine] at read
      cases read
      have small : first < 0xFD := by
        have bound := first.toNat_lt
        simp only [← UInt8.toNat_inj, UInt8.reduceToNat] at three five nine
        simp only [UInt8.lt_iff_toNat_lt, UInt8.reduceToNat]
        omega
      refine ⟨[first], ?_, isPrefix 0, rfl, by omega⟩
      rw [UInt8.toNat_toUInt64]
      exact .one first small

theorem reads_varint :
    Reads bufferReadVarint
      (fun value encoding => VarintFormat value.toNat encoding) where
  complete := by
    intro buffer value encoding wf format isPrefix
    obtain ⟨rest, split⟩ := isPrefix
    obtain ⟨beyond, memory⟩ := Buffer.drop_ptr_of_rest split.symm
    have available : encoding.length ≤ buffer.rest.length := by
      simp [← split]
    rw [bufferReadVarint, wf.sizeSub_eq, memory,
      varintRead_of_format format available]
    simp only [wf.seekCur_of_le available, UInt64.ofNat_toNat]
  sound := by
    intro buffer wf ok
    unfold bufferReadVarint at ok ⊢
    rw [wf.sizeSub_eq] at ok ⊢
    have inside :
        buffer.rest.length ≤ (buffer.ptr.drop buffer.offset).length :=
      buffer.rest_prefix.length_le
    rcases read :
        varintRead (buffer.ptr.drop buffer.offset) buffer.rest.length with
      _ | ⟨length, value⟩
    · rw [read] at ok
      cases ok
    · obtain ⟨encoding, format, isPrefix, rfl, available⟩ :=
        varintRead_some inside read
      exact ⟨encoding, format,
        List.prefix_of_prefix_length_le isPrefix buffer.rest_prefix
          available,
        by simp only [wf.seekCur_of_le available]⟩
  unique := by
    intro value other first second firstFormat secondFormat isPrefix
    obtain ⟨same, sameText⟩ := firstFormat.unique secondFormat isPrefix
    exact ⟨UInt64.toNat_inj.mp same, sameText⟩

end Neo3App
