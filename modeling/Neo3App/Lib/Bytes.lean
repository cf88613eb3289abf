import Mathlib.Data.List.Basic
import Mathlib.Tactic.Ring

/-!
# Byte strings as integers

Little-endian and big-endian readings of byte strings, their inverses, and
the prefix facts that reading a string piece by piece needs.  Nothing here
depends on the program.
-/

namespace Neo3App.Lib

/-- The natural number whose little-endian bytes are the given ones. -/
def leNat : List UInt8 → Nat
  | [] => 0
  | byte :: rest => byte.toNat + 256 * leNat rest

/-- The natural number whose big-endian bytes are the given ones. -/
def beNat (bytes : List UInt8) : Nat :=
  leNat bytes.reverse

/-- The `count` low bytes of a number, least significant byte first. -/
def leBytes : Nat → Nat → List UInt8
  | 0, _ => []
  | count + 1, value => UInt8.ofNat value :: leBytes count (value / 256)

@[simp]
theorem length_leBytes (count value : Nat) :
    (leBytes count value).length = count := by
  induction count generalizing value with
  | zero =>
      rfl
  | succ count inductionHypothesis =>
      simp [leBytes, inductionHypothesis]

theorem leNat_lt (bytes : List UInt8) :
    leNat bytes < 256 ^ bytes.length := by
  induction bytes with
  | nil =>
      simp [leNat]
  | cons byte rest inductionHypothesis =>
      have byteBound : byte.toNat < 256 := byte.toNat_lt
      simp only [leNat, List.length_cons, Nat.pow_succ]
      omega

theorem leNat_leBytes
    {count value : Nat} (bound : value < 256 ^ count) :
    leNat (leBytes count value) = value := by
  induction count generalizing value with
  | zero =>
      simp only [Nat.pow_zero] at bound
      simp only [leBytes, leNat]
      omega
  | succ count inductionHypothesis =>
      have quotientBound : value / 256 < 256 ^ count := by
        rw [Nat.pow_succ] at bound
        omega
      simp only [leBytes, leNat, inductionHypothesis quotientBound,
        UInt8.toNat_ofNat']
      omega

theorem leBytes_leNat (bytes : List UInt8) :
    leBytes bytes.length (leNat bytes) = bytes := by
  induction bytes with
  | nil =>
      rfl
  | cons byte rest inductionHypothesis =>
      have byteBound : byte.toNat < 256 := byte.toNat_lt
      have quotient :
          (byte.toNat + 256 * leNat rest) / 256 = leNat rest := by
        omega
      have head :
          UInt8.ofNat (byte.toNat + 256 * leNat rest) = byte := by
        apply UInt8.toNat_inj.mp
        rw [UInt8.toNat_ofNat']
        omega
      simp only [List.length_cons, leNat, leBytes, quotient, head,
        inductionHypothesis]

/-- Little-endian bytes of a fixed width determine the number. -/
theorem leNat_injective
    {left right : List UInt8}
    (sameLength : left.length = right.length)
    (sameValue : leNat left = leNat right) :
    left = right := by
  rw [← leBytes_leNat left, ← leBytes_leNat right, sameLength, sameValue]

theorem eq_of_leBytes
    {count value other : Nat} (bound : value < 256 ^ count)
    (otherBound : other < 256 ^ count)
    (equal : leBytes count value = leBytes count other) : value = other := by
  rw [← leNat_leBytes bound, ← leNat_leBytes otherBound, equal]

theorem leNat_append (low high : List UInt8) :
    leNat (low ++ high) =
      leNat low + 256 ^ low.length * leNat high := by
  induction low with
  | nil =>
      simp [leNat]
  | cons byte rest inductionHypothesis =>
      simp only [List.cons_append, leNat, inductionHypothesis,
        List.length_cons, Nat.pow_succ]
      ring

theorem beNat_cons (byte : UInt8) (rest : List UInt8) :
    beNat (byte :: rest) = byte.toNat * 256 ^ rest.length + beNat rest := by
  rw [beNat, List.reverse_cons, leNat_append, List.length_reverse, beNat]
  simp only [leNat]
  ring

theorem beNat_append_singleton (bytes : List UInt8) (byte : UInt8) :
    beNat (bytes ++ [byte]) = 256 * beNat bytes + byte.toNat := by
  rw [beNat, List.reverse_append, List.reverse_singleton,
    List.singleton_append, leNat, beNat]
  exact Nat.add_comm _ _

theorem beNat_injective
    {first second : List UInt8} (length : first.length = second.length)
    (equal : beNat first = beNat second) : first = second := by
  have reversed :=
    leNat_injective (by simpa using length) equal
  exact List.reverse_injective reversed

end Neo3App.Lib
