import Mathlib.Data.List.Basic

/-!
# Stores

A store is written and read at places.  Where one write is read back at its
place and not seen at the places apart from it, a run of writes is seen as
the last of them at each place.
-/

namespace Neo3App.Lib

variable {σ ω π ν : Type}

/-- The laws of one write: `fits` says that it is inside the store. -/
structure Store (write : σ → ω → σ) (read : σ → π → ν) (place : ω → π)
    (value : ω → ν) (apart : ω → π → Prop) (fits : ω → σ → Prop) :
    Prop where
  fits_write : ∀ {state : σ} {first second : ω},
    fits first state → fits second state → fits second (write state first)
  same : ∀ {state : σ} {entry : ω},
    fits entry state → read (write state entry) (place entry) = value entry
  other : ∀ {state : σ} {entry : ω} {elsewhere : π},
    fits entry state → apart entry elsewhere →
      read (write state entry) elsewhere = read state elsewhere

namespace Store

variable {write : σ → ω → σ} {read : σ → π → ν} {place : ω → π}
  {value : ω → ν} {apart : ω → π → Prop} {fits : ω → σ → Prop}

theorem fits_foldl
    (store : Store write read place value apart fits) {state : σ}
    {entries : List ω} (inside : ∀ entry ∈ entries, fits entry state)
    {more : ω} (fitting : fits more state) :
    fits more (entries.foldl write state) := by
  induction entries generalizing state with
  | nil => exact fitting
  | cons entry entries ih =>
      obtain ⟨first, later⟩ := List.forall_mem_cons.mp inside
      exact ih (fun other member => store.fits_write first (later other member))
        (store.fits_write first fitting)

/-- A place that no write of a run touches. -/
theorem untouched
    (store : Store write read place value apart fits) {state : σ}
    {entries : List ω} (inside : ∀ entry ∈ entries, fits entry state)
    {elsewhere : π} (clear : ∀ entry ∈ entries, apart entry elsewhere) :
    read (entries.foldl write state) elsewhere = read state elsewhere := by
  induction entries generalizing state with
  | nil => rfl
  | cons entry entries ih =>
      obtain ⟨first, later⟩ := List.forall_mem_cons.mp inside
      obtain ⟨here, after⟩ := List.forall_mem_cons.mp clear
      rw [List.foldl_cons,
        ih (fun other member => store.fits_write first (later other member))
          after,
        store.other first here]

/-- The last write of a run that touches its place. -/
theorem latest
    (store : Store write read place value apart fits) {state : σ}
    {before after : List ω} {entry : ω}
    (inside : ∀ other ∈ before ++ entry :: after, fits other state)
    (clear : ∀ other ∈ after, apart other (place entry)) :
    read ((before ++ entry :: after).foldl write state) (place entry) =
      value entry := by
  obtain ⟨first, rest⟩ := List.forall_mem_append.mp inside
  obtain ⟨here, later⟩ := List.forall_mem_cons.mp rest
  have fitting {other : ω} := @fits_foldl _ _ _ _ _ _ _ _ _ _ store _ _ first other
  rw [List.foldl_append, List.foldl_cons,
    store.untouched
      (fun other member =>
        store.fits_write (fitting here) (fitting (later other member)))
      clear,
    store.same (fitting here)]

end Store

end Neo3App.Lib
