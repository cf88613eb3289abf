import Neo3App.Common.Varint
import Neo3App.Common.BufferCalls
import Neo3App.Lib.Store

/-!
# Integers written and read

The functions of `write.c`, next to those of `read.c`: a memory that they
write is a store of integers, whichever widths and byte orders are mixed.
-/

namespace Neo3App

open Neo3App.Lib

def writeU16Be (ptr : List UInt8) (offset : Nat) (value : UInt16) :
    List UInt8 :=
  let ptr := ptr.set (offset + 0) (value >>> 8).toUInt8
  ptr.set (offset + 1) (value >>> 0).toUInt8

def writeU32Be (ptr : List UInt8) (offset : Nat) (value : UInt32) :
    List UInt8 :=
  let ptr := ptr.set (offset + 0) (value >>> 24).toUInt8
  let ptr := ptr.set (offset + 1) (value >>> 16).toUInt8
  let ptr := ptr.set (offset + 2) (value >>> 8).toUInt8
  ptr.set (offset + 3) (value >>> 0).toUInt8

def writeU64Be (ptr : List UInt8) (offset : Nat) (value : UInt64) :
    List UInt8 :=
  let ptr := ptr.set (offset + 0) (value >>> 56).toUInt8
  let ptr := ptr.set (offset + 1) (value >>> 48).toUInt8
  let ptr := ptr.set (offset + 2) (value >>> 40).toUInt8
  let ptr := ptr.set (offset + 3) (value >>> 32).toUInt8
  let ptr := ptr.set (offset + 4) (value >>> 24).toUInt8
  let ptr := ptr.set (offset + 5) (value >>> 16).toUInt8
  let ptr := ptr.set (offset + 6) (value >>> 8).toUInt8
  ptr.set (offset + 7) (value >>> 0).toUInt8

def setBytes (memory : List UInt8) (offset : Nat) :
    List UInt8 → List UInt8
  | [] => memory
  | byte :: bytes => setBytes (memory.set offset byte) (offset + 1) bytes

theorem setBytes_memmove
    {memory before : List UInt8} {start offset : Nat} {bytes : List UInt8}
    (inside : start + before.length + bytes.length ≤ memory.length)
    (here : offset = start + before.length) :
    setBytes (memmove memory start before) offset bytes =
      memmove memory start (before ++ bytes) := by
  induction bytes generalizing before offset with
  | nil => rw [setBytes, List.append_nil]
  | cons byte bytes ih =>
      rw [List.length_cons] at inside
      rw [setBytes, set_memmove (by omega) here,
        ih (by rw [List.length_append, List.length_singleton]; omega)
          (by rw [List.length_append, List.length_singleton]; omega),
        List.append_assoc, List.singleton_append]

theorem setBytes_eq
    {memory : List UInt8} {offset : Nat} {bytes : List UInt8}
    (inside : offset + bytes.length ≤ memory.length) :
    setBytes memory offset bytes = memmove memory offset bytes := by
  have written :=
    @setBytes_memmove memory [] offset offset bytes (by simpa using inside) rfl
  have same : memmove memory offset [] = memory := by
    simp [memmove]
  rwa [same, List.nil_append] at written

theorem writeU16Be_eq
    {memory : List UInt8} {offset : Nat} (value : UInt16)
    (inside : offset + 2 ≤ memory.length) :
    writeU16Be memory offset value =
      memmove memory offset (leBytes 2 value.toNat).reverse := by
  have byte {shift : UInt16} {count : Nat} :=
    @toUInt8_shiftRight_u16 value shift count
  have bytes : (leBytes 2 value.toNat).reverse =
      [(value >>> 8).toUInt8, (value >>> 0).toUInt8] := by
    rw [@byte 8 1 rfl (by omega), @byte 0 0 rfl (by omega)]
    simp [leBytes]
  rw [bytes]
  exact @setBytes_eq memory offset [_, _] inside

theorem writeU32Be_eq
    {memory : List UInt8} {offset : Nat} (value : UInt32)
    (inside : offset + 4 ≤ memory.length) :
    writeU32Be memory offset value =
      memmove memory offset (leBytes 4 value.toNat).reverse := by
  have byte {shift : UInt32} {count : Nat} :=
    @toUInt8_shiftRight_u32 value shift count
  have bytes : (leBytes 4 value.toNat).reverse =
      [(value >>> 24).toUInt8, (value >>> 16).toUInt8,
        (value >>> 8).toUInt8, (value >>> 0).toUInt8] := by
    rw [@byte 24 3 rfl (by omega), @byte 16 2 rfl (by omega),
      @byte 8 1 rfl (by omega), @byte 0 0 rfl (by omega)]
    simp [leBytes, Nat.div_div_eq_div_mul]
  rw [bytes]
  exact @setBytes_eq memory offset [_, _, _, _] inside

theorem writeU64Be_eq
    {memory : List UInt8} {offset : Nat} (value : UInt64)
    (inside : offset + 8 ≤ memory.length) :
    writeU64Be memory offset value =
      memmove memory offset (leBytes 8 value.toNat).reverse := by
  have byte {shift : UInt64} {count : Nat} :=
    @toUInt8_shiftRight_u64 value shift count
  have bytes : (leBytes 8 value.toNat).reverse =
      [(value >>> 56).toUInt8, (value >>> 48).toUInt8,
        (value >>> 40).toUInt8, (value >>> 32).toUInt8,
        (value >>> 24).toUInt8, (value >>> 16).toUInt8,
        (value >>> 8).toUInt8, (value >>> 0).toUInt8] := by
    rw [@byte 56 7 rfl (by omega), @byte 48 6 rfl (by omega),
      @byte 40 5 rfl (by omega), @byte 32 4 rfl (by omega),
      @byte 24 3 rfl (by omega), @byte 16 2 rfl (by omega),
      @byte 8 1 rfl (by omega), @byte 0 0 rfl (by omega)]
    simp [leBytes, Nat.div_div_eq_div_mul]
  rw [bytes]
  exact @setBytes_eq memory offset [_, _, _, _, _, _, _, _] inside

theorem memmove_nil {α : Type} (memory : List α) (start : Nat) :
    memmove memory start [] = memory := by
  simp [memmove]

/-- An integer in a memory: its width, its byte order and its address. -/
inductive IntegerPlace where
  | u16 (endianness : Endianness) (offset : Nat)
  | u32 (endianness : Endianness) (offset : Nat)
  | u64 (endianness : Endianness) (offset : Nat)

def IntegerPlace.offset : IntegerPlace → Nat
  | .u16 _ offset => offset
  | .u32 _ offset => offset
  | .u64 _ offset => offset

def IntegerPlace.width : IntegerPlace → Nat
  | .u16 _ _ => 2
  | .u32 _ _ => 4
  | .u64 _ _ => 8

/-- The functions of `read.c`. -/
def IntegerPlace.read (memory : List UInt8) : IntegerPlace → Nat
  | .u16 .be offset => (readU16Be memory offset).toNat
  | .u16 .le offset => (readU16Le memory offset).toNat
  | .u32 .be offset => (readU32Be memory offset).toNat
  | .u32 .le offset => (readU32Le memory offset).toNat
  | .u64 .be offset => (readU64Be memory offset).toNat
  | .u64 .le offset => (readU64Le memory offset).toNat

def IntegerPlace.Apart (first second : IntegerPlace) : Prop :=
  first.offset + first.width ≤ second.offset ∨
    second.offset + second.width ≤ first.offset

inductive IntegerWrite where
  | u16 (endianness : Endianness) (offset : Nat) (value : UInt16)
  | u32 (endianness : Endianness) (offset : Nat) (value : UInt32)
  | u64 (endianness : Endianness) (offset : Nat) (value : UInt64)

def IntegerWrite.place : IntegerWrite → IntegerPlace
  | .u16 endianness offset _ => .u16 endianness offset
  | .u32 endianness offset _ => .u32 endianness offset
  | .u64 endianness offset _ => .u64 endianness offset

def IntegerWrite.value : IntegerWrite → Nat
  | .u16 _ _ value => value.toNat
  | .u32 _ _ value => value.toNat
  | .u64 _ _ value => value.toNat

def IntegerWrite.perform (memory : List UInt8) : IntegerWrite → List UInt8
  | .u16 .be offset value => writeU16Be memory offset value
  | .u16 .le offset value => writeU16Le memory offset value
  | .u32 .be offset value => writeU32Be memory offset value
  | .u32 .le offset value => writeU32Le memory offset value
  | .u64 .be offset value => writeU64Be memory offset value
  | .u64 .le offset value => writeU64Le memory offset value

def IntegerWrite.Fits (write : IntegerWrite) (memory : List UInt8) : Prop :=
  write.place.offset + write.place.width ≤ memory.length

def IntegerWrite.bytes : IntegerWrite → List UInt8
  | .u16 endianness _ value => integerBytes endianness 2 value.toNat
  | .u32 endianness _ value => integerBytes endianness 4 value.toNat
  | .u64 endianness _ value => integerBytes endianness 8 value.toNat

theorem length_integerBytes (endianness : Endianness) (width value : Nat) :
    (integerBytes endianness width value).length = width := by
  rw [integerBytes]
  split
  · rw [List.length_reverse, length_leBytes]
  · rw [length_leBytes]

theorem IntegerWrite.length_bytes (write : IntegerWrite) :
    write.bytes.length = write.place.width := by
  cases write <;> exact length_integerBytes _ _ _

/-- A write stores its bytes at its address. -/
theorem IntegerWrite.perform_eq
    {write : IntegerWrite} {memory : List UInt8} (fits : write.Fits memory) :
    write.perform memory = memmove memory write.place.offset write.bytes := by
  cases write with
  | u16 endianness offset value =>
      cases endianness with
      | be => exact writeU16Be_eq value fits
      | le =>
          have written := @writeU16Le_eq memory [] offset offset value fits rfl
          rwa [memmove_nil, List.nil_append] at written
  | u32 endianness offset value =>
      cases endianness with
      | be => exact writeU32Be_eq value fits
      | le =>
          have written := @writeU32Le_eq memory [] offset offset value fits rfl
          rwa [memmove_nil, List.nil_append] at written
  | u64 endianness offset value =>
      cases endianness with
      | be => exact writeU64Be_eq value fits
      | le =>
          have written := @writeU64Le_eq memory [] offset offset value fits rfl
          rwa [memmove_nil, List.nil_append] at written

/-! ## The laws of one write -/

theorem beNat_reverse_leBytes {width value : Nat} (bound : value < 256 ^ width) :
    beNat (leBytes width value).reverse = value := by
  rw [beNat, List.reverse_reverse, leNat_leBytes bound]

/-- The bytes of a write in front of others are read as its value. -/
theorem IntegerWrite.read_of_drop
    {write : IntegerWrite} {memory rest : List UInt8}
    (stored : memory.drop write.place.offset = write.bytes ++ rest) :
    write.place.read memory = write.value := by
  have length := write.length_bytes
  cases write with
  | u16 endianness offset value =>
      have bound : value.toNat < 256 ^ 2 := value.toNat_lt
      cases endianness with
      | be =>
          exact (toNat_readU16Be stored length).trans
            (beNat_reverse_leBytes bound)
      | le => exact (toNat_readU16Le stored length).trans (leNat_leBytes bound)
  | u32 endianness offset value =>
      have bound : value.toNat < 256 ^ 4 := value.toNat_lt
      cases endianness with
      | be =>
          exact (toNat_readU32Be stored length).trans
            (beNat_reverse_leBytes bound)
      | le => exact (toNat_readU32Le stored length).trans (leNat_leBytes bound)
  | u64 endianness offset value =>
      have bound : value.toNat < 256 ^ 8 := value.toNat_lt
      cases endianness with
      | be =>
          exact (toNat_readU64Be stored length).trans
            (beNat_reverse_leBytes bound)
      | le => exact (toNat_readU64Le stored length).trans (leNat_leBytes bound)

theorem drop_memmove
    {memory bytes : List UInt8} {start : Nat}
    (inside : start + bytes.length ≤ memory.length) :
    (memmove memory start bytes).drop start =
      bytes ++ memory.drop (start + bytes.length) := by
  have front : (memory.take start).length = start := by
    rw [List.length_take]
    omega
  rw [memmove, List.append_assoc, List.drop_left' front]

/-- A cell outside the stored bytes. -/
theorem byteAt_memmove
    {memory bytes : List UInt8} {start index : Nat}
    (inside : start + bytes.length ≤ memory.length)
    (outside : index < start ∨ start + bytes.length ≤ index) :
    byteAt (memmove memory start bytes) index = byteAt memory index := by
  have front : (memory.take start).length = start := by
    rw [List.length_take]
    omega
  simp only [byteAt, List.getD_eq_getElem?_getD, memmove, List.append_assoc]
  rcases outside with before | behind
  · rw [List.getElem?_append_left (by omega), List.getElem?_take_of_lt before]
  · rw [List.getElem?_append_right (by omega), front,
      List.getElem?_append_right (by omega), List.getElem?_drop]
    congr 2
    omega

/-- A read looks at the cells of its place only. -/
theorem IntegerPlace.read_congr
    {memory other : List UInt8} {place : IntegerPlace}
    (same : ∀ index, index < place.width →
      byteAt memory (place.offset + index) =
        byteAt other (place.offset + index)) :
    place.read memory = place.read other := by
  cases place with
  | u16 endianness start =>
      have byte (index : Nat) (below : index < 2) :
          byteAt memory (start + index) = byteAt other (start + index) :=
        same index below
      cases endianness <;>
        simp only [read, readU16Be, readU16Le, byte 0 (by omega),
          byte 1 (by omega)]
  | u32 endianness start =>
      have byte (index : Nat) (below : index < 4) :
          byteAt memory (start + index) = byteAt other (start + index) :=
        same index below
      cases endianness <;>
        simp only [read, readU32Be, readU32Le, byte 0 (by omega),
          byte 1 (by omega), byte 2 (by omega), byte 3 (by omega)]
  | u64 endianness start =>
      have byte (index : Nat) (below : index < 8) :
          byteAt memory (start + index) = byteAt other (start + index) :=
        same index below
      cases endianness <;>
        simp only [read, readU64Be, readU64Le, byte 0 (by omega),
          byte 1 (by omega), byte 2 (by omega), byte 3 (by omega),
          byte 4 (by omega), byte 5 (by omega), byte 6 (by omega),
          byte 7 (by omega)]

theorem IntegerWrite.length_perform
    {write : IntegerWrite} {memory : List UInt8} (fits : write.Fits memory) :
    (write.perform memory).length = memory.length := by
  rw [write.perform_eq fits, length_memmove]
  rwa [write.length_bytes]

/-- A memory is a store of integers. -/
theorem integerStore :
    Store (fun memory write => IntegerWrite.perform memory write)
      IntegerPlace.read IntegerWrite.place IntegerWrite.value
      (fun write place => write.place.Apart place) IntegerWrite.Fits where
  fits_write := by
    intro memory first second firstFits secondFits
    rwa [IntegerWrite.Fits, first.length_perform firstFits]
  same := by
    intro memory write fits
    rw [write.perform_eq fits]
    apply write.read_of_drop
    apply drop_memmove
    rwa [write.length_bytes]
  other := by
    intro memory write elsewhere fits apart
    have length := write.length_bytes
    rw [write.perform_eq fits]
    apply IntegerPlace.read_congr
    intro index below
    apply byteAt_memmove
    · rwa [length]
    · rw [length]
      rcases apart with before | behind <;> omega

/-- What is expected of a memory after some writes: the last write that
touches its place is read back, a place that none touches reads as before,
and the memory keeps its size. -/
structure Coherent (memory : List UInt8) (writes : List IntegerWrite) :
    Prop where
  latest : ∀ (before after : List IntegerWrite) (write : IntegerWrite),
    writes = before ++ write :: after →
      (∀ later ∈ after, later.place.Apart write.place) →
      write.place.read (writes.foldl IntegerWrite.perform memory) = write.value
  untouched : ∀ place : IntegerPlace,
    (∀ write ∈ writes, write.place.Apart place) →
      place.read (writes.foldl IntegerWrite.perform memory) =
        place.read memory
  length : (writes.foldl IntegerWrite.perform memory).length = memory.length

/-- **Integers are read as they were written**, in any order of writes of any
width and byte order that stay inside the memory. -/
theorem coherent
    {memory : List UInt8} {writes : List IntegerWrite}
    (inside : ∀ write ∈ writes, write.Fits memory) :
    Coherent memory writes := by
  constructor
  · rintro before after write rfl clear
    exact integerStore.latest inside clear
  · intro place clear
    exact integerStore.untouched inside clear
  · induction writes generalizing memory with
    | nil => rfl
    | cons write writes ih =>
        obtain ⟨first, later⟩ := List.forall_mem_cons.mp inside
        rw [List.foldl_cons, ih fun other member =>
          integerStore.fits_write first (later other member)]
        exact write.length_perform first

/-- A number of each byte order, the second over a half of the first. -/
theorem coherent_overlapping :
    Coherent (List.replicate 6 0)
      [.u32 .be 0 0x01020304, .u16 .le 2 0x0506] :=
  coherent (by
    intro write member
    rcases List.mem_pair.mp member with rfl | rfl
    · exact (by decide : (0 + 4 ≤ 6))
    · exact (by decide : (2 + 2 ≤ 6)))

end Neo3App
