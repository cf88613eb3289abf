import Neo3App.Host.Client
import Neo3App.Lib.Decimal

/-!
# The texts of key paths

`bip44_path_from_string` of `boilerplate_client/utils.py` and the commands
that are built from its result.  Of the `int` of Python it is used that it
reads a decimal numeral as its number.
-/

namespace Neo3App.Host

open Neo3App.Lib

/-- `int(text)`; `none` where it raises `ValueError`. -/
structure PythonInt where
  read : List Char → Option Int
  read_decimal : ∀ value : Nat, read (Nat.toDigits 10 value) = some value

/-- An `int` that takes nothing but digits. -/
instance : Inhabited PythonInt where
  default :=
    { read := fun text =>
        if text.all Char.isDigit then
          some (Int.ofNat (Nat.ofDigitChars 10 text 0))
        else none
      read_decimal := fun value => by
        rw [if_pos (List.all_eq_true.mpr fun _ =>
          isDigit_of_mem_decimal), Nat.ofDigitChars_ten_toDigits]
        rfl }

/-- What the functions on paths raise. -/
inductive PathError where
  | valueError
  | overflowError
  deriving DecidableEq, Repr

/-- `'`, which marks a hardened level. -/
def apostrophe : Char := '\x27'

def PythonInt.parse (int : PythonInt) (text : List Char) :
    Except PathError Int :=
  match int.read text with
  | none => .error .valueError
  | some value => .ok value

/-- `value.to_bytes(4, byteorder="big")`. -/
def toBytesBig (value : Int) : Except PathError (List UInt8) :=
  if 0 ≤ value ∧ value < 2 ^ 32 then
    .ok (leBytes 4 value.toNat).reverse
  else .error .overflowError

/-- `0x80000000 | value`; a negative number stays negative. -/
def harden : Int → Int
  | .ofNat value => ((0x80000000 ||| value : Nat) : Int)
  | .negSucc value => .negSucc value

def levelBytes (int : PythonInt) (p : List Char) :
    Except PathError (List UInt8) :=
  if apostrophe ∉ p then
    int.parse p >>= toBytesBig
  else
    int.parse p.dropLast >>= fun value => toBytesBig (harden value)

def bip44PathFromString (int : PythonInt) (path : List Char) :
    Except PathError (List (List UInt8)) :=
  let splittedPath := path.splitOn '/'
  if splittedPath.length ≠ 6 then .error .valueError
  else
    (if splittedPath.head? = some ['m'] then splittedPath.tail
      else splittedPath).mapM (levelBytes int)

/-- `BoilerplateCommand.get_public_key`, from the text of the path on. -/
def getPublicKeyAt (int : PythonInt) (sdk : Sdk) (path : List Char)
    (io : IoApp) : Except PathError (IoApp × Reply (List UInt8)) :=
  (bip44PathFromString int path).map fun bip44Paths =>
    let (io, reply) :=
      exchangeRaw sdk (serialize 0x80 0x04 0x00 0x00 bip44Paths.flatten) io
    (io, asserting (fun response => response.length = 65) reply)

def signTxAt (int : PythonInt) (path : List Char) (tx : List UInt8)
    (networkMagic : UInt32) : Except PathError (List (Bool × List UInt8)) :=
  (bip44PathFromString int path).map fun bip44Paths =>
    (false, serialize 0x80 0x02 0x00 0x80 bip44Paths.flatten) ::
      (false, serialize 0x80 0x02 0x01 0x80
        (leBytes 4 networkMagic.toNat)) ::
      signTxChunks 0 (chunkify tx maxApduLen)

def clientSignTxAt (int : PythonInt) (sdk : Sdk) (presses : List Press)
    (path : List Char) (tx : List UInt8) (networkMagic : UInt32)
    (io : IoApp) : Except PathError (IoApp × Reply (List UInt8)) :=
  (signTxAt int path tx networkMagic).map
    (signTxLoop sdk (presses.map Event.press ++ [.confirm])
      io.transmitted.length io [])

def levelText (level : UInt32) : List Char :=
  if level.toNat < 0x80000000 then Nat.toDigits 10 level.toNat
  else Nat.toDigits 10 (level.toNat - 0x80000000) ++ [apostrophe]

def pathText (path : Bip44Path) : List Char :=
  ['/'].intercalate (['m'] :: path.toList.map levelText)

example : pathText #v[0x8000002C, 0x80000378, 0x80000000, 0, 7] =
    "m/44'/888'/0'/0/7".toList := by
  decide +kernel

theorem not_mem_of_isDigit
    {character : Char} (strange : character.isDigit = false) (value : Nat) :
    character ∉ Nat.toDigits 10 value := by
  intro member
  rw [isDigit_of_mem_decimal member] at strange
  cases strange

theorem toBytesBig_of_lt {value : Nat} (fits : value < 2 ^ 32) :
    toBytesBig value = .ok (leBytes 4 value).reverse := by
  rw [toBytesBig, if_pos (by omega), Int.toNat_natCast]

/-- The mark of a hardened level is its highest bit. -/
theorem harden_of_lt {value : Nat} (small : value < 2 ^ 31) :
    harden value = ((value + 0x80000000 : Nat) : Int) := by
  have disjoint := Nat.two_pow_add_eq_or_of_lt small 1
  rw [Nat.mul_one, Nat.add_comm] at disjoint
  exact (congrArg Int.ofNat disjoint).symm

theorem levelBytes_plain
    {int : PythonInt} {text : List Char} {value : Int}
    (unmarked : apostrophe ∉ text) (read : int.read text = some value) :
    levelBytes int text = toBytesBig value := by
  rw [levelBytes, if_pos unmarked, PythonInt.parse, read]
  rfl

theorem levelBytes_marked
    {int : PythonInt} {text : List Char} {value : Int}
    (read : int.read text = some value) :
    levelBytes int (text ++ [apostrophe]) = toBytesBig (harden value) := by
  have marked : apostrophe ∈ text ++ [apostrophe] :=
    List.mem_append_right _ (List.mem_singleton_self _)
  rw [levelBytes, if_neg (not_not_intro marked), List.dropLast_concat,
    PythonInt.parse, read]
  rfl

/-- A level is read as it is written. -/
theorem levelBytes_levelText (int : PythonInt) (level : UInt32) :
    levelBytes int (levelText level) =
      .ok (leBytes 4 level.toNat).reverse := by
  have bound := level.toNat_lt
  rw [levelText]
  generalize level.toNat = number at bound ⊢
  by_cases plain : number < 0x80000000
  · rw [if_pos plain,
      levelBytes_plain (not_mem_of_isDigit (by decide) _)
        (int.read_decimal number),
      toBytesBig_of_lt bound]
  · rw [if_neg plain, levelBytes_marked (int.read_decimal _),
      harden_of_lt (by omega), Nat.sub_add_cancel (Nat.not_lt.mp plain),
      toBytesBig_of_lt bound]

theorem slash_not_mem_levelText (level : UInt32) :
    '/' ∉ levelText level := by
  have digits (value : Nat) : '/' ∉ Nat.toDigits 10 value :=
    not_mem_of_isDigit (by decide) value
  rw [levelText]
  split
  · exact digits _
  · intro member
    rcases List.mem_append.mp member with digit | mark
    · exact digits _ digit
    · exact absurd (List.mem_singleton.mp mark) (by decide)

theorem splitOn_pathText (path : Bip44Path) :
    (pathText path).splitOn '/' = ['m'] :: path.toList.map levelText := by
  apply List.splitOn_intercalate
  · intro part member
    rcases List.mem_cons.mp member with rfl | written
    · decide
    · obtain ⟨level, _, rfl⟩ := List.mem_map.mp written
      exact slash_not_mem_levelText level
  · exact List.cons_ne_nil _ _

theorem mapM_levelBytes (int : PythonInt) (levels : List UInt32) :
    (levels.map levelText).mapM (levelBytes int) =
      .ok (levels.map fun level => (leBytes 4 level.toNat).reverse) := by
  induction levels with
  | nil => rfl
  | cons level levels ih =>
      rw [List.map_cons, List.mapM_cons, levelBytes_levelText, ih]
      rfl

/-- The builder reads a path as it is written. -/
theorem bip44PathFromString_pathText (int : PythonInt) (path : Bip44Path) :
    bip44PathFromString int (pathText path) =
      .ok (path.toList.map fun level =>
        (leBytes 4 level.toNat).reverse) := by
  have count : (['m'] :: path.toList.map levelText).length = 6 := by
    rw [List.length_cons, List.length_map, Vector.length_toList]
    rfl
  rw [bip44PathFromString, splitOn_pathText, if_neg (not_not_intro count),
    List.head?_cons, if_pos rfl, List.tail_cons, mapM_levelBytes]

end Neo3App.Host
