import Neo3App.Common.Format

/-!
# Printing bytes

`format_hex` of `common/format.c`.  What it prints is read back, and it
prints everything or nothing.
-/

namespace Neo3App

open Neo3App.Lib

def hexAlphabet : List Char :=
  "0123456789ABCDEF".toList

/-- The loop of `format_hex`: the number of bytes printed and the memory. -/
def formatHexBytes (outLen : Nat) :
    List UInt8 → Nat → List Char → Nat × List Char
  | [], i, out => (i, out)
  | byte :: input, i, out =>
      if sizeAdd (i * 2 % sizeModulus) (2 + 1) ≤ outLen then
        let highNibble := (byte &&& 0xF0) >>> 4
        let out := out.set (2 * i) (hexAlphabet.getD highNibble.toNat '0')
        let lowNibble := byte &&& 0x0F
        let out := out.set (2 * i + 1) (hexAlphabet.getD lowNibble.toNat '0')
        formatHexBytes outLen input (i + 1) out
      else
        (i, out)

/-- `format_hex`: the returned number and the memory. -/
def formatHex (input : List UInt8) (out : List Char) (outLen : Nat) :
    Int × List Char :=
  if outLen < sizeAdd (2 * input.length % sizeModulus) 1 then
    (-1, out)
  else
    match formatHexBytes outLen input 0 out with
    | (printed, out) => (2 * printed + 1, out.set (2 * printed) '\x00')

example :
    formatHex [0xDE, 0x0F] ['?', '?', '?', '?', '?', '?'] 5 =
      (5, ['D', 'E', '0', 'F', '\x00', '?']) := by
  decide +kernel

def hexPair (byte : UInt8) : List Char :=
  [hexAlphabet.getD ((byte &&& 0xF0) >>> 4).toNat '0',
    hexAlphabet.getD (byte &&& 0x0F).toNat '0']

/-- The bytes that pairs of digits stand for. -/
def readHex : List Char → Option (List UInt8)
  | [] => some []
  | [_] => none
  | high :: low :: text =>
      match hexAlphabet.idxOf? high, hexAlphabet.idxOf? low with
      | some first, some second =>
          (readHex text).map (UInt8.ofNat (16 * first + second) :: ·)
      | _, _ => none

/-- Each byte has two digits, which are characters of a string, and stand for
it. -/
theorem readHex_hexPair (byte : UInt8) (text : List Char) :
    '\x00' ∉ hexPair byte ∧
      readHex (hexPair byte ++ text) = (readHex text).map (byte :: ·) := by
  have table : ∀ code : Fin 256,
      hexAlphabet.idxOf? (hexAlphabet.getD
          ((UInt8.ofNat code.val &&& 0xF0) >>> 4).toNat '0') =
            some (code.val / 16) ∧
        hexAlphabet.idxOf? (hexAlphabet.getD
          (UInt8.ofNat code.val &&& 0x0F).toNat '0') =
            some (code.val % 16) ∧
        '\x00' ∉ hexPair (UInt8.ofNat code.val) := by
    decide +kernel
  obtain ⟨high, low, visible⟩ := table ⟨byte.toNat, byte.toNat_lt⟩
  simp only [UInt8.ofNat_toNat] at high low visible
  refine ⟨visible, ?_⟩
  rw [hexPair, List.cons_append, List.cons_append, List.nil_append, readHex,
    high, low]
  dsimp only
  rw [Nat.div_add_mod, UInt8.ofNat_toNat]

theorem readHex_flatMap (input : List UInt8) :
    '\x00' ∉ input.flatMap hexPair ∧
      readHex (input.flatMap hexPair) = some input := by
  induction input with
  | nil => exact ⟨List.not_mem_nil, rfl⟩
  | cons byte input ih =>
      obtain ⟨visible, pair⟩ :=
        readHex_hexPair byte (input.flatMap hexPair)
      rw [List.flatMap_cons, pair, ih.2]
      exact ⟨by simp [visible, ih.1], rfl⟩

theorem length_flatMap_hexPair (input : List UInt8) :
    (input.flatMap hexPair).length = 2 * input.length := by
  induction input with
  | nil => rfl
  | cons byte input ih =>
      rw [List.flatMap_cons, List.length_append, ih, List.length_cons]
      change 2 + _ = _
      omega

/-- The loop prints the digits behind the cells already written. -/
theorem formatHexBytes_eq
    {outLen : Nat} (device : outLen < sizeModulus) (input : List UInt8) :
    ∀ {before rest : List Char} {i : Nat}, before.length = 2 * i →
      2 * (i + input.length) + 1 ≤ outLen →
      2 * input.length ≤ rest.length →
      formatHexBytes outLen input i (before ++ rest) =
        (i + input.length,
          before ++ input.flatMap hexPair ++ rest.drop (2 * input.length)) := by
  induction input with
  | nil =>
      intro before rest i _ _ _
      simp [formatHexBytes]
  | cons byte input ih =>
      intro before rest i here enough room
      rw [List.length_cons] at enough room
      obtain ⟨first, second, rest, rfl⟩ :
          ∃ first second tail, rest = first :: second :: tail := by
        match rest, room with
        | first :: second :: tail, _ => exact ⟨first, second, tail, rfl⟩
      have index : sizeAdd (i * 2 % sizeModulus) (2 + 1) = 2 * i + 3 := by
        unfold sizeAdd sizeModulus at *
        omega
      have stored :
          ((before ++ first :: second :: rest).set (2 * i)
              (hexAlphabet.getD ((byte &&& 0xF0) >>> 4).toNat '0')).set
            (2 * i + 1) (hexAlphabet.getD (byte &&& 0x0F).toNat '0') =
          (before ++ hexPair byte) ++ rest := by
        rw [← here, List.set_append_right _ _ (Nat.le_refl _), Nat.sub_self,
          List.set_cons_zero, List.set_append_right _ _ (Nat.le_add_right _ 1),
          Nat.add_sub_cancel_left, List.set_cons_succ, List.set_cons_zero,
          hexPair]
        simp
      have front : (before ++ hexPair byte).length = 2 * (i + 1) := by
        rw [List.length_append, here]
        rfl
      rw [List.length_cons, List.length_cons] at room
      rw [formatHexBytes, index, if_pos (by omega)]
      dsimp only
      have after : (first :: second :: rest).drop (2 * (input.length + 1)) =
          rest.drop (2 * input.length) :=
        rfl
      rw [stored, ih front (by omega) (by omega), List.length_cons, after,
        List.flatMap_cons, Nat.add_assoc, Nat.add_comm 1,
        List.append_assoc before (hexPair byte)]

theorem cString_append_zero
    {text : List Char} (noZero : '\x00' ∉ text) (rest : List Char) :
    cString (text ++ '\x00' :: rest) = text := by
  have string := cString_append_zeros noZero 0
  rw [zeros, List.replicate_zero, List.append_nil] at string
  unfold cString at string ⊢
  rw [List.takeWhile_append, string, if_pos rfl,
    List.takeWhile_cons_of_neg (by decide), List.append_nil]

/-- What is expected of `format_hex`: it refuses exactly when the digits and
the final zero do not fit, and then writes nothing; otherwise it returns the
number of characters written, touches no others, and the string is read back
as the bytes. -/
structure PrintsHex (input : List UInt8) (out : List Char) (outLen : Nat) :
    Prop where
  refused : outLen < 2 * input.length + 1 →
    formatHex input out outLen = (-1, out)
  printed : 2 * input.length + 1 ≤ outLen →
    (formatHex input out outLen).1 = 2 * input.length + 1 ∧
      (formatHex input out outLen).2.length = out.length ∧
      (formatHex input out outLen).2.drop (2 * input.length + 1) =
        out.drop (2 * input.length + 1)
  read : (formatHex input out outLen).1 ≠ -1 →
    readHex (cString (formatHex input out outLen).2) = some input

/-- **`format_hex` is read back**, for every input whose printed length is an
`int`. -/
theorem formatHex_prints
    {input : List UInt8} {out : List Char} {outLen : Nat}
    (short : input.length < 2 ^ 30) (device : outLen < sizeModulus)
    (room : outLen ≤ out.length) :
    PrintsHex input out outLen := by
  have size : sizeAdd (2 * input.length % sizeModulus) 1 =
      2 * input.length + 1 := by
    unfold sizeAdd sizeModulus at *
    omega
  have refused (small : outLen < 2 * input.length + 1) :
      formatHex input out outLen = (-1, out) := by
    rw [formatHex, size, if_pos small]
  have text := length_flatMap_hexPair input
  have printed (enough : 2 * input.length + 1 ≤ outLen) :
      formatHex input out outLen =
        ((2 * input.length + 1 : Int),
          input.flatMap hexPair ++
            '\x00' :: out.drop (2 * input.length + 1)) := by
    have loop :=
      @formatHexBytes_eq outLen device input [] out 0 rfl (by omega) (by omega)
    rw [List.nil_append, List.nil_append, Nat.zero_add] at loop
    rw [formatHex, size, if_neg (by omega), loop,
      List.drop_eq_getElem_cons (by omega)]
    dsimp only
    rw [List.set_append_right _ _ text.le, text, Nat.sub_self,
      List.set_cons_zero]
  constructor
  · exact refused
  · intro enough
    rw [printed enough]
    refine ⟨rfl, ?_, ?_⟩
    · rw [List.length_append, text, List.length_cons, List.length_drop]
      omega
    · rw [List.drop_append, text, List.drop_eq_nil_of_le (by omega),
        Nat.add_sub_cancel_left]
      rfl
  · intro accepted
    by_cases enough : 2 * input.length + 1 ≤ outLen
    · obtain ⟨visible, back⟩ := readHex_flatMap input
      have string : cString (input.flatMap hexPair ++
          '\x00' :: out.drop (2 * input.length + 1)) =
            input.flatMap hexPair :=
        cString_append_zero visible _
      rw [printed enough, string, back]
    · rw [refused (by omega)] at accepted
      exact absurd rfl accepted

/-- Two bytes, in a memory with room for them and one more character. -/
theorem formatHex_prints_twoBytes :
    PrintsHex [0xDE, 0x0F] (zeros 6) 5 :=
  formatHex_prints (by decide) (by decide) (by decide)

end Neo3App
