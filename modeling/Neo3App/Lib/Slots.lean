import Mathlib.Tactic.Common

/-!
# Fixed arrays read and written by index

A C array with a constant number of cells.  Reading a cell outside the array
gives a default value and writing one does nothing.
-/

namespace Neo3App.Lib

variable {α : Type} [Inhabited α] {count : Nat}

/-- `array[index]`. -/
def slot (array : Vector α count) (index : Nat) : α :=
  array[index]?.getD default

def modifySlot (array : Vector α count) (index : Nat) (change : α → α) :
    Vector α count :=
  array.mapIdx fun position value =>
    if position = index then change value else value

omit [Inhabited α] in
theorem getElem_modifySlot
    (array : Vector α count) (index : Nat) (change : α → α)
    {position : Nat} (inside : position < count) :
    (modifySlot array index change)[position] =
      if position = index then change array[position] else array[position] := by
  simp [modifySlot]

theorem slot_of_lt
    (array : Vector α count) {index : Nat} (inside : index < count) :
    slot array index = array[index] := by
  simp [slot, inside]

@[simp]
theorem slot_modifySlot_self
    (array : Vector α count) {index : Nat} (change : α → α)
    (inside : index < count) :
    slot (modifySlot array index change) index =
      change (slot array index) := by
  rw [slot_of_lt _ inside, slot_of_lt _ inside, getElem_modifySlot, if_pos rfl]

theorem slot_modifySlot_of_ne
    (array : Vector α count) {index other : Nat} (change : α → α)
    (different : other ≠ index) :
    slot (modifySlot array index change) other = slot array other := by
  by_cases inside : other < count
  · rw [slot_of_lt _ inside, slot_of_lt _ inside, getElem_modifySlot,
      if_neg different]
  · simp [slot, inside]

omit [Inhabited α] in
theorem modifySlot_modifySlot
    (array : Vector α count) (index : Nat) (first second : α → α) :
    modifySlot (modifySlot array index first) index second =
      modifySlot array index (second ∘ first) := by
  ext position inside
  rw [getElem_modifySlot _ _ _ inside, getElem_modifySlot _ _ _ inside,
    getElem_modifySlot _ _ _ inside]
  split <;> rfl

omit [Inhabited α] in
theorem modifySlot_comm
    (array : Vector α count) {left right : Nat} (first second : α → α)
    (different : left ≠ right) :
    modifySlot (modifySlot array left first) right second =
      modifySlot (modifySlot array right second) left first := by
  ext position inside
  simp only [getElem_modifySlot _ _ _ inside]
  by_cases atLeft : position = left
  · have notRight : position ≠ right := by
      rintro rfl
      exact different atLeft.symm
    simp [atLeft, different]
  · simp [atLeft]

omit [Inhabited α] in
theorem modifySlot_id (array : Vector α count) (index : Nat) :
    modifySlot array index id = array := by
  ext position inside
  rw [getElem_modifySlot _ _ _ inside]
  split <;> rfl

end Neo3App.Lib
