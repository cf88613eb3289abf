import Neo3App.Lib.Bytes
import Mathlib.Data.Nat.Bitwise

/-!
# Fixed-width integers in memory

The functions of `read.c`, on a memory given as the list of its bytes from
some address on.  A byte past the end of the list reads as zero; the reads
of the parser never get there.  The signed readers of the source or together
the same shifted bytes as the unsigned ones, and keep the bit pattern.
-/

namespace Neo3App

open Neo3App.Lib

/-- `ptr[index]`. -/
def byteAt (ptr : List UInt8) (index : Nat) : UInt8 :=
  ptr.getD index 0

def readU16Be (ptr : List UInt8) (offset : Nat) : UInt16 :=
  (byteAt ptr (offset + 0)).toUInt16 <<< 8 |||
    (byteAt ptr (offset + 1)).toUInt16

def readU32Be (ptr : List UInt8) (offset : Nat) : UInt32 :=
  (byteAt ptr (offset + 0)).toUInt32 <<< 24 |||
    (byteAt ptr (offset + 1)).toUInt32 <<< 16 |||
    (byteAt ptr (offset + 2)).toUInt32 <<< 8 |||
    (byteAt ptr (offset + 3)).toUInt32

def readU64Be (ptr : List UInt8) (offset : Nat) : UInt64 :=
  (byteAt ptr (offset + 0)).toUInt64 <<< 56 |||
    (byteAt ptr (offset + 1)).toUInt64 <<< 48 |||
    (byteAt ptr (offset + 2)).toUInt64 <<< 40 |||
    (byteAt ptr (offset + 3)).toUInt64 <<< 32 |||
    (byteAt ptr (offset + 4)).toUInt64 <<< 24 |||
    (byteAt ptr (offset + 5)).toUInt64 <<< 16 |||
    (byteAt ptr (offset + 6)).toUInt64 <<< 8 |||
    (byteAt ptr (offset + 7)).toUInt64

def readU16Le (ptr : List UInt8) (offset : Nat) : UInt16 :=
  (byteAt ptr (offset + 0)).toUInt16 |||
    (byteAt ptr (offset + 1)).toUInt16 <<< 8

def readU32Le (ptr : List UInt8) (offset : Nat) : UInt32 :=
  (byteAt ptr (offset + 0)).toUInt32 |||
    (byteAt ptr (offset + 1)).toUInt32 <<< 8 |||
    (byteAt ptr (offset + 2)).toUInt32 <<< 16 |||
    (byteAt ptr (offset + 3)).toUInt32 <<< 24

def readU64Le (ptr : List UInt8) (offset : Nat) : UInt64 :=
  (byteAt ptr (offset + 0)).toUInt64 |||
    (byteAt ptr (offset + 1)).toUInt64 <<< 8 |||
    (byteAt ptr (offset + 2)).toUInt64 <<< 16 |||
    (byteAt ptr (offset + 3)).toUInt64 <<< 24 |||
    (byteAt ptr (offset + 4)).toUInt64 <<< 32 |||
    (byteAt ptr (offset + 5)).toUInt64 <<< 40 |||
    (byteAt ptr (offset + 6)).toUInt64 <<< 48 |||
    (byteAt ptr (offset + 7)).toUInt64 <<< 56

def readS16Be (ptr : List UInt8) (offset : Nat) : Int16 :=
  (readU16Be ptr offset).toInt16

def readS32Be (ptr : List UInt8) (offset : Nat) : Int32 :=
  (readU32Be ptr offset).toInt32

def readS64Be (ptr : List UInt8) (offset : Nat) : Int64 :=
  (readU64Be ptr offset).toInt64

def readS16Le (ptr : List UInt8) (offset : Nat) : Int16 :=
  (readU16Le ptr offset).toInt16

def readS32Le (ptr : List UInt8) (offset : Nat) : Int32 :=
  (readU32Le ptr offset).toInt32

def readS64Le (ptr : List UInt8) (offset : Nat) : Int64 :=
  (readU64Le ptr offset).toInt64

/-- Two disjoint groups of bits: or is addition. -/
private theorem lor_shiftLeft_eq_add
    {low : Nat} (width high : Nat) (bound : low < 2 ^ width) :
    low ||| high <<< width = low + 2 ^ width * high := by
  rw [Nat.shiftLeft_eq, Nat.mul_comm high, Nat.or_comm,
    ← Nat.two_pow_add_eq_or_of_lt bound, Nat.add_comm]

private theorem toNat_shiftLeft_of_lt
    {byte shift width : Nat}
    (byteBound : byte < 256) (fits : shift + 8 ≤ width) :
    byte <<< shift % 2 ^ width = byte <<< shift := by
  apply Nat.mod_eq_of_lt
  rw [Nat.shiftLeft_eq]
  calc
    byte * 2 ^ shift < 2 ^ 8 * 2 ^ shift :=
      Nat.mul_lt_mul_of_pos_right byteBound (Nat.two_pow_pos shift)
    _ = 2 ^ (shift + 8) := by
      rw [Nat.pow_add, Nat.mul_comm]
    _ ≤ 2 ^ width :=
      Nat.pow_le_pow_right (by omega) fits

@[simp]
theorem byteAt_drop (ptr : List UInt8) (offset index : Nat) :
    byteAt (ptr.drop offset) index = byteAt ptr (offset + index) := by
  simp [byteAt, List.getD_eq_getElem?_getD]

/-- Reading at an offset sees the bytes that stand there. -/
private theorem byteAt_of_drop
    {ptr text : List UInt8} {offset : Nat}
    (bytes : ptr.drop offset = text) (index : Nat) :
    byteAt ptr (offset + index) = byteAt text index := by
  rw [← bytes, byteAt_drop]

@[simp]
theorem byteAt_cons_zero (byte : UInt8) (rest : List UInt8) :
    byteAt (byte :: rest) 0 = byte :=
  rfl

@[simp]
theorem byteAt_cons_succ (byte : UInt8) (rest : List UInt8) (index : Nat) :
    byteAt (byte :: rest) (index + 1) = byteAt rest index :=
  rfl

theorem toNat_readU16Le
    {ptr encoding rest : List UInt8} {offset : Nat}
    (bytes : ptr.drop offset = encoding ++ rest)
    (length : encoding.length = 2) :
    (readU16Le ptr offset).toNat = leNat encoding := by
  match encoding, length with
  | [first, second], _ =>
      have firstBound := first.toNat_lt
      have secondBound := second.toNat_lt
      simp only [readU16Le, byteAt_of_drop bytes, List.cons_append,
        byteAt_cons_zero, byteAt_cons_succ, UInt16.toNat_or,
        UInt16.toNat_shiftLeft, UInt8.toNat_toUInt16,
        UInt16.reduceToNat, Nat.reduceMod, leNat,
        toNat_shiftLeft_of_lt secondBound (show 8 + 8 ≤ 16 by omega)]
      rw [lor_shiftLeft_eq_add 8 _ (by omega)]
      omega

theorem toNat_readU32Le
    {ptr encoding rest : List UInt8} {offset : Nat}
    (bytes : ptr.drop offset = encoding ++ rest)
    (length : encoding.length = 4) :
    (readU32Le ptr offset).toNat = leNat encoding := by
  match encoding, length with
  | [b0, b1, b2, b3], _ =>
      have bound0 := b0.toNat_lt
      have bound1 := b1.toNat_lt
      have bound2 := b2.toNat_lt
      have bound3 := b3.toNat_lt
      simp only [readU32Le, byteAt_of_drop bytes, List.cons_append,
        byteAt_cons_zero, byteAt_cons_succ, UInt32.toNat_or,
        UInt32.toNat_shiftLeft, UInt8.toNat_toUInt32,
        UInt32.reduceToNat, Nat.reduceMod, leNat,
        toNat_shiftLeft_of_lt bound1 (show 8 + 8 ≤ 32 by omega),
        toNat_shiftLeft_of_lt bound2 (show 16 + 8 ≤ 32 by omega),
        toNat_shiftLeft_of_lt bound3 (show 24 + 8 ≤ 32 by omega)]
      rw [lor_shiftLeft_eq_add 8 _ (by omega),
        lor_shiftLeft_eq_add 16 _ (by omega),
        lor_shiftLeft_eq_add 24 _ (by omega)]
      omega

theorem toNat_readU64Le
    {ptr encoding rest : List UInt8} {offset : Nat}
    (bytes : ptr.drop offset = encoding ++ rest)
    (length : encoding.length = 8) :
    (readU64Le ptr offset).toNat = leNat encoding := by
  match encoding, length with
  | [b0, b1, b2, b3, b4, b5, b6, b7], _ =>
      have bound0 := b0.toNat_lt
      have bound1 := b1.toNat_lt
      have bound2 := b2.toNat_lt
      have bound3 := b3.toNat_lt
      have bound4 := b4.toNat_lt
      have bound5 := b5.toNat_lt
      have bound6 := b6.toNat_lt
      have bound7 := b7.toNat_lt
      simp only [readU64Le, byteAt_of_drop bytes, List.cons_append,
        byteAt_cons_zero, byteAt_cons_succ, UInt64.toNat_or,
        UInt64.toNat_shiftLeft, UInt8.toNat_toUInt64,
        UInt64.reduceToNat, Nat.reduceMod, leNat,
        toNat_shiftLeft_of_lt bound1 (show 8 + 8 ≤ 64 by omega),
        toNat_shiftLeft_of_lt bound2 (show 16 + 8 ≤ 64 by omega),
        toNat_shiftLeft_of_lt bound3 (show 24 + 8 ≤ 64 by omega),
        toNat_shiftLeft_of_lt bound4 (show 32 + 8 ≤ 64 by omega),
        toNat_shiftLeft_of_lt bound5 (show 40 + 8 ≤ 64 by omega),
        toNat_shiftLeft_of_lt bound6 (show 48 + 8 ≤ 64 by omega),
        toNat_shiftLeft_of_lt bound7 (show 56 + 8 ≤ 64 by omega)]
      rw [lor_shiftLeft_eq_add 8 _ (by omega),
        lor_shiftLeft_eq_add 16 _ (by omega),
        lor_shiftLeft_eq_add 24 _ (by omega),
        lor_shiftLeft_eq_add 32 _ (by omega),
        lor_shiftLeft_eq_add 40 _ (by omega),
        lor_shiftLeft_eq_add 48 _ (by omega),
        lor_shiftLeft_eq_add 56 _ (by omega)]
      omega

/-- A big-endian reader is the little-endian reader of the reversed bytes. -/
theorem toNat_readU16Be
    {ptr encoding rest : List UInt8} {offset : Nat}
    (bytes : ptr.drop offset = encoding ++ rest)
    (length : encoding.length = 2) :
    (readU16Be ptr offset).toNat = beNat encoding := by
  match encoding, length with
  | [first, second], _ =>
      have reversed : [second, first].drop 0 = [second, first] ++ [] := rfl
      change _ = leNat [second, first]
      rw [← toNat_readU16Le reversed rfl]
      simp only [readU16Be, byteAt_of_drop bytes, readU16Le, Nat.zero_add,
        List.cons_append, byteAt_cons_zero, byteAt_cons_succ]
      rw [UInt16.or_comm]

theorem toNat_readU32Be
    {ptr encoding rest : List UInt8} {offset : Nat}
    (bytes : ptr.drop offset = encoding ++ rest)
    (length : encoding.length = 4) :
    (readU32Be ptr offset).toNat = beNat encoding := by
  match encoding, length with
  | [b0, b1, b2, b3], _ =>
      have reversed :
          [b3, b2, b1, b0].drop 0 = [b3, b2, b1, b0] ++ [] := rfl
      change _ = leNat [b3, b2, b1, b0]
      rw [← toNat_readU32Le reversed rfl]
      simp only [readU32Be, byteAt_of_drop bytes, readU32Le, Nat.zero_add,
        List.cons_append, byteAt_cons_zero, byteAt_cons_succ]
      rw [UInt32.or_comm, UInt32.or_comm _ (b2.toUInt32 <<< 8),
        UInt32.or_comm _ (b1.toUInt32 <<< 16)]
      simp only [UInt32.or_assoc]

theorem toNat_readU64Be
    {ptr encoding rest : List UInt8} {offset : Nat}
    (bytes : ptr.drop offset = encoding ++ rest)
    (length : encoding.length = 8) :
    (readU64Be ptr offset).toNat = beNat encoding := by
  match encoding, length with
  | [b0, b1, b2, b3, b4, b5, b6, b7], _ =>
      have reversed :
          [b7, b6, b5, b4, b3, b2, b1, b0].drop 0 =
            [b7, b6, b5, b4, b3, b2, b1, b0] ++ [] := rfl
      change _ = leNat [b7, b6, b5, b4, b3, b2, b1, b0]
      rw [← toNat_readU64Le reversed rfl]
      simp only [readU64Be, byteAt_of_drop bytes, readU64Le, Nat.zero_add,
        List.cons_append, byteAt_cons_zero, byteAt_cons_succ]
      rw [UInt64.or_comm, UInt64.or_comm _ (b6.toUInt64 <<< 8),
        UInt64.or_comm _ (b5.toUInt64 <<< 16),
        UInt64.or_comm _ (b4.toUInt64 <<< 24),
        UInt64.or_comm _ (b3.toUInt64 <<< 32),
        UInt64.or_comm _ (b2.toUInt64 <<< 40),
        UInt64.or_comm _ (b1.toUInt64 <<< 48)]
      simp only [UInt64.or_assoc]

end Neo3App
