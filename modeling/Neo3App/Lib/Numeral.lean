import Mathlib.Data.List.TakeWhile
import Mathlib.Data.Nat.Digits.Lemmas
import Mathlib.Tactic.Ring

/-!
# Positional numerals

Numerals in any base, most significant digit first, and how they relate to
`Nat.digits`.
-/

namespace Neo3App.Lib

variable {base : Nat}

/-- The number written by `digits`, most significant digit first. -/
def numeral (base : Nat) (digits : List Nat) : Nat :=
  Nat.ofDigits base digits.reverse

@[simp]
theorem numeral_nil : numeral base [] = 0 :=
  rfl

theorem numeral_append_singleton (top : List Nat) (digit : Nat) :
    numeral base (top ++ [digit]) = base * numeral base top + digit := by
  rw [numeral, List.reverse_append, List.reverse_singleton,
    List.singleton_append, Nat.ofDigits_cons, numeral]
  exact Nat.add_comm _ _

theorem numeral_cons (digit : Nat) (rest : List Nat) :
    numeral base (digit :: rest) =
      digit * base ^ rest.length + numeral base rest := by
  rw [numeral, List.reverse_cons, Nat.ofDigits_append, Nat.ofDigits_singleton,
    List.length_reverse, numeral]
  ring

/-- Leading zeros do not count. -/
theorem numeral_replicate_zero (count : Nat) (digits : List Nat) :
    numeral base (List.replicate count 0 ++ digits) = numeral base digits := by
  induction count with
  | zero => rfl
  | succ count ih =>
      rw [List.replicate_succ, List.cons_append, numeral_cons, ih]
      simp

/-- A numeral is below the power that its length allows. -/
theorem numeral_lt (valid : 1 < base) {digits : List Nat}
    (small : ∀ digit ∈ digits, digit < base) :
    numeral base digits < base ^ digits.length := by
  have bound := Nat.ofDigits_lt_base_pow_length valid
    fun digit member => small digit (List.mem_reverse.mp member)
  rwa [List.length_reverse] at bound

theorem numeral_of_zero {digits : List Nat}
    (zero : ∀ digit ∈ digits, digit = 0) :
    numeral base digits = 0 := by
  induction digits using List.reverseRecOn with
  | nil =>
      rfl
  | append_singleton top digit ih =>
      have topZero :=
        ih fun other member => zero other (List.mem_append_left _ member)
      rw [numeral_append_singleton, topZero,
        zero digit (List.mem_append_right _ (List.mem_singleton_self _))]
      simp

theorem numeral_dropWhile (digits : List Nat) :
    numeral base (digits.dropWhile (· = 0)) = numeral base digits := by
  induction digits with
  | nil =>
      rfl
  | cons head tail ih =>
      by_cases zero : head = 0
      · rw [List.dropWhile_cons_of_pos (by simpa using zero), ih, numeral,
          numeral, zero, List.reverse_cons, Nat.ofDigits_append]
        simp [Nat.ofDigits]
      · rw [List.dropWhile_cons_of_neg (by simpa using zero)]

/-- A numeral without its leading zeros is determined by its value. -/
theorem digits_numeral (valid : 1 < base) {digits : List Nat}
    (small : ∀ digit ∈ digits, digit < base) :
    (Nat.digits base (numeral base digits)).reverse =
      digits.dropWhile (· = 0) := by
  rw [← numeral_dropWhile, numeral,
    Nat.digits_ofDigits base valid, List.reverse_reverse]
  · intro digit member
    rw [List.mem_reverse] at member
    exact small digit ((List.dropWhile_suffix _).subset member)
  · intro nonempty
    have remain : digits.dropWhile (· = 0) ≠ [] := by
      simpa using nonempty
    rw [List.getLast_reverse]
    simpa using List.head_dropWhile_not _ remain

/-- The same number in another base, with as many zeros in front of it. -/
def rebase (source target : Nat) (digits : List Nat) : List Nat :=
  List.replicate (digits.takeWhile (· = 0)).length 0 ++
    (Nat.digits target (numeral source digits)).reverse

theorem takeWhile_zero (items : List Nat) :
    items.takeWhile (· = 0) =
      List.replicate (items.takeWhile (· = 0)).length 0 := by
  rw [List.eq_replicate_iff]
  exact ⟨rfl, fun item member => by simpa using List.mem_takeWhile_imp member⟩

theorem replicate_zero_append_dropWhile (digits : List Nat) :
    List.replicate (digits.takeWhile (· = 0)).length 0 ++
        digits.dropWhile (· = 0) =
      digits := by
  rw [← takeWhile_zero, List.takeWhile_append_dropWhile]

/-- `Nat.digits` has no leading zero. -/
theorem takeWhile_zero_digits (base value : Nat) :
    (Nat.digits base value).reverse.takeWhile (· = 0) = [] := by
  cases shape : (Nat.digits base value).reverse with
  | nil => rfl
  | cons head tail =>
      have some : Nat.digits base value ≠ [] := by
        intro empty
        rw [empty] at shape
        cases shape
      have leading := Nat.getLast_digit_ne_zero base
        (Nat.digits_ne_nil_iff_ne_zero.mp some)
      have last : (Nat.digits base value).getLast some = head := by
        rw [← List.head_reverse (by simpa using some)]
        simp only [shape, List.head_cons]
      rw [last] at leading
      rw [List.takeWhile_cons_of_neg (by simpa using leading)]

theorem takeWhile_zero_rebase (source target : Nat) (digits : List Nat) :
    (rebase source target digits).takeWhile (· = 0) =
      List.replicate (digits.takeWhile (· = 0)).length 0 := by
  rw [rebase, List.takeWhile_append_of_pos
    (by intro digit member; simpa using List.eq_of_mem_replicate member),
    takeWhile_zero_digits, List.append_nil]

theorem numeral_rebase
    {source target : Nat} (digits : List Nat) :
    numeral target (rebase source target digits) = numeral source digits := by
  rw [rebase, numeral_replicate_zero, numeral, List.reverse_reverse,
    Nat.ofDigits_digits]

theorem lt_of_mem_rebase
    {source target : Nat} (valid : 1 < target) {digits : List Nat}
    {digit : Nat} (member : digit ∈ rebase source target digits) :
    digit < target := by
  rcases List.mem_append.mp member with zero | inDigits
  · rw [List.eq_of_mem_replicate zero]
    omega
  · exact Nat.digits_lt_base valid (List.mem_reverse.mp inDigits)

/-- Changing the base and back gives the same digits. -/
theorem rebase_rebase
    {source target : Nat} (valid : 1 < source) {digits : List Nat}
    (small : ∀ digit ∈ digits, digit < source) :
    rebase target source (rebase source target digits) = digits := by
  rw [rebase, takeWhile_zero_rebase, List.length_replicate, numeral_rebase,
    digits_numeral valid small, replicate_zero_append_dropWhile]

end Neo3App.Lib
