import Mathlib.Data.List.Basic

/-!
# Tapes with a head

A finite sequence of cells that is only read, and a head that stays on it or
just behind its last cell.  A request moves the head and delivers cells, or
is refused and changes nothing.
-/

namespace Neo3App.Lib

variable {α : Type}

/-- Some cells and a position between them. -/
@[ext]
structure Tape (α : Type) where
  cells : List α
  head : Nat
  head_le : head ≤ cells.length

namespace Tape

/-- The cells that the head has not passed. -/
def ahead (tape : Tape α) : List α :=
  tape.cells.drop tape.head

def seek (tape : Tape α) (position : Nat) : Option (Tape α) :=
  if inside : position ≤ tape.cells.length then
    some ⟨tape.cells, position, inside⟩
  else
    none

def next (tape : Tape α) (count : Nat) : Option (Tape α × List α) :=
  (tape.seek (tape.head + count)).map fun moved =>
    (moved, tape.ahead.take count)

/-- A refused request leaves the tape as it is. -/
def attempt (tape : Tape α) :
    Option (Tape α × List α) → Tape α × Option (List α)
  | none => (tape, none)
  | some (moved, delivered) => (moved, some delivered)

theorem length_ahead (tape : Tape α) :
    tape.ahead.length = tape.cells.length - tape.head :=
  List.length_drop

theorem seek_of_le
    {tape : Tape α} {position : Nat}
    (inside : position ≤ tape.cells.length) :
    tape.seek position = some ⟨tape.cells, position, inside⟩ :=
  dif_pos inside

theorem seek_of_lt
    {tape : Tape α} {position : Nat}
    (outside : tape.cells.length < position) :
    tape.seek position = none :=
  dif_neg (Nat.not_le.mpr outside)

theorem next_of_le
    {tape : Tape α} {count : Nat} (enough : count ≤ tape.ahead.length) :
    ∃ inside,
      tape.next count =
        some (⟨tape.cells, tape.head + count, inside⟩,
          tape.ahead.take count) := by
  have length := tape.length_ahead
  have inside := tape.head_le
  refine ⟨by omega, ?_⟩
  rw [next, seek_of_le (by omega)]
  rfl

theorem next_of_lt
    {tape : Tape α} {count : Nat} (short : tape.ahead.length < count) :
    tape.next count = none := by
  have length := tape.length_ahead
  have inside := tape.head_le
  rw [next, seek_of_lt (by omega)]
  rfl

end Tape

end Neo3App.Lib
