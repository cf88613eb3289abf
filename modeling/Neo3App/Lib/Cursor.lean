import Mathlib.Data.List.Chain

/-!
# Linear cursors

A device with two buttons that walks along a list of items: a press moves a
cursor by one position, and not beyond the ends.  A system follows the cursor
when each press takes it from one item to the neighbouring one.
-/

namespace Neo3App.Lib

/-- The two buttons. -/
inductive Press where
  | left
  | right
  deriving DecidableEq, Repr

/-- The cursor over `count` items after one press. -/
def Press.move (count : Nat) : Press → Nat → Nat
  | .left, cursor => cursor - 1
  | .right, cursor => if cursor + 1 < count then cursor + 1 else cursor

/-- The cursor after some presses, from the first item. -/
def cursorAfter (count : Nat) (presses : List Press) : Nat :=
  presses.foldl (fun cursor press => press.move count cursor) 0

def cursorFrom (count cursor : Nat) (presses : List Press) : Nat :=
  presses.foldl (fun cursor press => press.move count cursor) cursor

variable {σ α : Type}

def pressAll (press : Press → σ → σ) (start : σ) (presses : List Press) : σ :=
  presses.foldl (fun state button => press button state) start

/-- Where neighbours in the list are related by `adjacent`, a press takes a
state from an item to its neighbour. -/
structure FollowsCursor (press : Press → σ → σ) (shows : σ → α → Prop)
    (adjacent : α → α → Prop) (first last : α) : Prop where
  right : ∀ {state item next},
    shows state item → adjacent item next → shows (press .right state) next
  left : ∀ {state item next},
    shows state next → adjacent item next → shows (press .left state) item
  stays_first : ∀ {state},
    shows state first → shows (press .left state) first
  stays_last : ∀ {state},
    shows state last → shows (press .right state) last

theorem cursorAfter_append_singleton
    (count : Nat) (presses : List Press) (button : Press) :
    cursorAfter count (presses ++ [button]) =
      button.move count (cursorAfter count presses) := by
  simp [cursorAfter]

/-- The cursor stays on the list. -/
theorem cursorAfter_lt
    {count : Nat} (positive : 0 < count) (presses : List Press) :
    cursorAfter count presses < count := by
  induction presses using List.reverseRecOn with
  | nil => exact positive
  | append_singleton presses button ih =>
      rw [cursorAfter_append_singleton]
      cases button with
      | left => exact lt_of_le_of_lt (Nat.sub_le _ _) ih
      | right =>
          rw [Press.move]
          split
          next inside => exact inside
          next => exact ih

theorem cursorFrom_append_singleton
    (count cursor : Nat) (presses : List Press) (button : Press) :
    cursorFrom count cursor (presses ++ [button]) =
      button.move count (cursorFrom count cursor presses) := by
  simp [cursorFrom]

/-- Enough presses to the right lead to the last item. -/
theorem cursorFrom_replicate_right
    {count cursor : Nat} (inside : cursor < count) {presses : Nat}
    (enough : count ≤ cursor + presses + 1) :
    cursorFrom count cursor (List.replicate presses .right) = count - 1 := by
  induction presses generalizing cursor with
  | zero =>
      change cursor = count - 1
      omega
  | succ presses ih =>
      rw [List.replicate_succ]
      change cursorFrom count (Press.right.move count cursor)
        (List.replicate presses .right) = count - 1
      rw [Press.move]
      split
      next more => exact ih more (by omega)
      next => exact ih inside (by omega)

theorem pressAll_append_singleton
    (press : Press → σ → σ) (start : σ) (presses : List Press)
    (button : Press) :
    pressAll press start (presses ++ [button]) =
      press button (pressAll press start presses) := by
  simp [pressAll]

/-- A press takes the state to the item under the moved cursor. -/
theorem FollowsCursor.step
    {press : Press → σ → σ} {shows : σ → α → Prop}
    {adjacent : α → α → Prop} {items : List α} {first last : α}
    (follows : FollowsCursor press shows adjacent first last)
    (chain : items.IsChain adjacent)
    (isFirst : items.head? = some first)
    (isLast : items.getLast? = some last)
    {state : σ} {item : α} {cursor : Nat}
    (here : items[cursor]? = some item) (shown : shows state item)
    (button : Press) :
    ∃ next, items[button.move items.length cursor]? = some next ∧
      shows (press button state) next := by
  rcases List.getElem?_eq_some_iff.mp here with ⟨inside, rfl⟩
  cases button with
  | left =>
      cases cursor with
      | zero =>
          refine ⟨items[0], here, ?_⟩
          rw [List.head?_eq_getElem?, here, Option.some.injEq] at isFirst
          rw [isFirst] at shown ⊢
          exact follows.stays_first shown
      | succ cursor =>
          have next := List.isChain_iff_getElem.mp chain cursor inside
          exact
            ⟨items[cursor], List.getElem?_eq_getElem _,
              follows.left shown next⟩
  | right =>
      rw [Press.move]
      split
      · rename_i more
        have next := List.isChain_iff_getElem.mp chain cursor more
        exact
          ⟨items[cursor + 1], List.getElem?_eq_getElem more,
            follows.right shown next⟩
      · rename_i atEnd
        refine ⟨items[cursor], here, ?_⟩
        have position : items.length - 1 = cursor := by
          omega
        rw [List.getLast?_eq_getElem?, position, here,
          Option.some.injEq] at isLast
        rw [isLast] at shown ⊢
        exact follows.stays_last shown

/-- The state follows the cursor from any item. -/
theorem FollowsCursor.runFrom
    {press : Press → σ → σ} {shows : σ → α → Prop}
    {adjacent : α → α → Prop} {items : List α} {first last : α}
    (follows : FollowsCursor press shows adjacent first last)
    (chain : items.IsChain adjacent)
    (isFirst : items.head? = some first)
    (isLast : items.getLast? = some last)
    {start : σ} {item : α} {cursor : Nat} (here : items[cursor]? = some item)
    (shown : shows start item) (presses : List Press) :
    ∃ next, items[cursorFrom items.length cursor presses]? = some next ∧
      shows (pressAll press start presses) next := by
  induction presses using List.reverseRecOn with
  | nil => exact ⟨item, here, shown⟩
  | append_singleton presses button ih =>
      rcases ih with ⟨next, there, showsNext⟩
      rw [cursorFrom_append_singleton, pressAll_append_singleton]
      exact follows.step chain isFirst isLast there showsNext button

/-- The state follows the cursor. -/
theorem FollowsCursor.run
    {press : Press → σ → σ} {shows : σ → α → Prop}
    {adjacent : α → α → Prop} {items : List α} {first last : α}
    (follows : FollowsCursor press shows adjacent first last)
    (chain : items.IsChain adjacent)
    (isFirst : items.head? = some first)
    (isLast : items.getLast? = some last)
    {start : σ} (shown : shows start first) (presses : List Press) :
    ∃ item, items[cursorAfter items.length presses]? = some item ∧
      shows (pressAll press start presses) item := by
  induction presses using List.reverseRecOn with
  | nil =>
      refine ⟨first, ?_, shown⟩
      rw [← isFirst, List.head?_eq_getElem?]
      rfl
  | append_singleton presses button ih =>
      rcases ih with ⟨item, here, showsItem⟩
      rw [cursorAfter_append_singleton, pressAll_append_singleton]
      exact follows.step chain isFirst isLast here showsItem button

/-- The cursor passes every position on its way. -/
theorem cursorAfter_visits
    (count : Nat) (presses : List Press) {position : Nat}
    (passed : position ≤ cursorAfter count presses) :
    ∃ before, before <+: presses ∧ cursorAfter count before = position := by
  induction presses using List.reverseRecOn with
  | nil =>
      refine ⟨[], List.prefix_refl _, ?_⟩
      change position ≤ 0 at passed
      change 0 = position
      omega
  | append_singleton presses button ih =>
      by_cases already : position ≤ cursorAfter count presses
      · rcases ih already with ⟨before, isPrefix, here⟩
        exact ⟨before, isPrefix.trans (List.prefix_append _ _), here⟩
      · refine ⟨presses ++ [button], List.prefix_refl _, ?_⟩
        rw [cursorAfter_append_singleton] at passed ⊢
        cases button with
        | left =>
            rw [Press.move] at passed
            omega
        | right =>
            rw [Press.move] at passed ⊢
            split at passed
            · rename_i more
              rw [if_pos more]
              omega
            · omega

end Neo3App.Lib
