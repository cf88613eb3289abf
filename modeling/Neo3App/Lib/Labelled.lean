import Mathlib.Data.List.Basic

/-!
# Labelled texts

A text whose items carry the name of the part they belong to.
-/

namespace Neo3App.Lib

variable {κ α β : Type}

def label (name : κ) (items : List α) : List (κ × α) :=
  items.map fun item => (name, item)

def plain (text : List (κ × α)) : List α :=
  text.map Prod.snd

@[simp]
theorem plain_nil : plain ([] : List (κ × α)) = [] :=
  rfl

@[simp]
theorem plain_append (first second : List (κ × α)) :
    plain (first ++ second) = plain first ++ plain second :=
  List.map_append

@[simp]
theorem plain_label (name : κ) (items : List α) :
    plain (label name items) = items := by
  simp [plain, label, Function.comp_def]

@[simp]
theorem plain_flatMap (parts : List β) (text : β → List (κ × α)) :
    plain (parts.flatMap text) = parts.flatMap fun part => plain (text part) :=
  List.map_flatMap ..

@[simp]
theorem length_plain (text : List (κ × α)) :
    (plain text).length = text.length :=
  List.length_map _

@[simp]
theorem length_label (name : κ) (items : List α) :
    (label name items).length = items.length :=
  List.length_map _

@[simp]
theorem getElem_label
    (name : κ) (items : List α) {n : Nat}
    (inside : n < (label name items).length) :
    (label name items)[n].1 = name := by
  simp [label]

/-- Parts of one length are determined by their items. -/
theorem flatten_append_inj
    {length : Nat} {first second : List (List α)} {rest other : List α}
    (firstLength : ∀ part ∈ first, part.length = length)
    (secondLength : ∀ part ∈ second, part.length = length)
    (number : first.length = second.length)
    (equal : first.flatten ++ rest = second.flatten ++ other) :
    first = second ∧ rest = other := by
  induction first generalizing second with
  | nil =>
      cases second with
      | nil =>
          exact ⟨rfl, equal⟩
      | cons part second =>
          cases number
  | cons part first ih =>
      cases second with
      | nil =>
          cases number
      | cons otherPart second =>
          have sameLength : part.length = otherPart.length := by
            rw [firstLength part (List.mem_cons_self ..),
              secondLength otherPart (List.mem_cons_self ..)]
          rw [List.flatten_cons, List.flatten_cons, List.append_assoc,
            List.append_assoc] at equal
          obtain ⟨rfl, tails⟩ := List.append_inj equal sameLength
          obtain ⟨rfl, rests⟩ :=
            ih
              (fun other member =>
                firstLength other (List.mem_cons_of_mem _ member))
              (fun other member =>
                secondLength other (List.mem_cons_of_mem _ member))
              (Nat.succ.inj number) tails
          exact ⟨rfl, rests⟩

end Neo3App.Lib
