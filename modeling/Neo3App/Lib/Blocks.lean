import Mathlib.Data.List.Basic

/-!
# Sequences of marked blocks

A block is a marked item followed by unmarked ones.  A sequence of blocks can
be recovered from the items of all of them.
-/

namespace Neo3App.Lib

variable {α : Type} (marked : α → Prop)

/-- A marked item, then unmarked ones. -/
def IsBlock (block : List α) : Prop :=
  ∃ head tail, block = head :: tail ∧ marked head ∧
    ∀ item ∈ tail, ¬ marked item

variable {marked}

/-- Unmarked items in front of a marked one, or of nothing, can be told
apart. -/
theorem append_inj_of_marked
    {first second : List α} {firstRest secondRest : List α}
    (firstUnmarked : ∀ item ∈ first, ¬ marked item)
    (secondUnmarked : ∀ item ∈ second, ¬ marked item)
    (firstMarked : ∀ item ∈ firstRest.head?, marked item)
    (secondMarked : ∀ item ∈ secondRest.head?, marked item)
    (equal : first ++ firstRest = second ++ secondRest) :
    first = second ∧ firstRest = secondRest := by
  induction first generalizing second with
  | nil =>
      cases second with
      | nil =>
          exact ⟨rfl, equal⟩
      | cons item second =>
          rw [List.nil_append] at equal
          refine absurd (firstMarked item ?_)
            (secondUnmarked item (List.mem_cons_self ..))
          rw [equal]
          rfl
  | cons item first ih =>
      cases second with
      | nil =>
          rw [List.nil_append] at equal
          refine absurd (secondMarked item ?_)
            (firstUnmarked item (List.mem_cons_self ..))
          rw [← equal]
          rfl
      | cons other second =>
          obtain ⟨rfl, tails⟩ := List.cons.inj equal
          obtain ⟨rfl, rests⟩ :=
            ih
              (fun item member =>
                firstUnmarked item (List.mem_cons_of_mem _ member))
              (fun item member =>
                secondUnmarked item (List.mem_cons_of_mem _ member))
              tails
          exact ⟨rfl, rests⟩

theorem marked_of_head?_flatten
    {blocks : List (List α)} (each : ∀ block ∈ blocks, IsBlock marked block) :
    ∀ item ∈ blocks.flatten.head?, marked item := by
  intro item isHead
  cases blocks with
  | nil =>
      cases isHead
  | cons block blocks =>
      obtain ⟨head, tail, rfl, isMarked, _⟩ :=
        each block (List.mem_cons_self ..)
      cases isHead
      exact isMarked

/-- The blocks are determined by the items of all of them. -/
theorem flatten_blocks_injective
    {first second : List (List α)}
    (firstBlocks : ∀ block ∈ first, IsBlock marked block)
    (secondBlocks : ∀ block ∈ second, IsBlock marked block)
    (equal : first.flatten = second.flatten) : first = second := by
  induction first generalizing second with
  | nil =>
      cases second with
      | nil =>
          rfl
      | cons block second =>
          obtain ⟨head, tail, rfl, _⟩ :=
            secondBlocks block (List.mem_cons_self ..)
          cases equal
  | cons block first ih =>
      obtain ⟨head, tail, rfl, _, unmarked⟩ :=
        firstBlocks block (List.mem_cons_self ..)
      have firstRest (block : List α) (member : block ∈ first) :=
        firstBlocks block (List.mem_cons_of_mem _ member)
      cases second with
      | nil =>
          cases equal
      | cons other second =>
          obtain ⟨otherHead, otherTail, rfl, _, otherUnmarked⟩ :=
            secondBlocks other (List.mem_cons_self ..)
          have secondRest (block : List α) (member : block ∈ second) :=
            secondBlocks block (List.mem_cons_of_mem _ member)
          obtain ⟨rfl, tails⟩ := List.cons.inj equal
          obtain ⟨rfl, rests⟩ :=
            append_inj_of_marked unmarked otherUnmarked
              (marked_of_head?_flatten firstRest)
              (marked_of_head?_flatten secondRest) tails
          rw [ih firstRest secondRest rests]

end Neo3App.Lib
