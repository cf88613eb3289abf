import Neo3App.Common.Buffer

/-!
# Commands

`apdu/parser.c` with the constants of `offsets.h`, `constants.h` and
`dispatcher.h`.  The length byte of a command is that of its data, so the
record carries this.
-/

namespace Neo3App

def offsetCla : Nat := 0
def offsetIns : Nat := 1
def offsetP1 : Nat := 2
def offsetP2 : Nat := 3
def offsetLc : Nat := 4
def offsetCdata : Nat := 5

def claNeo : UInt8 := 0x80

def insGetAppName : UInt8 := 0x00
def insGetVersion : UInt8 := 0x01
def insSignTx : UInt8 := 0x02
def insGetPublicKey : UInt8 := 0x04

def p1Start : UInt8 := 0x00
def p1Max : UInt8 := 0x06
def p2Last : UInt8 := 0x00
def p2More : UInt8 := 0x80

structure Command where
  cla : UInt8
  ins : UInt8
  p1 : UInt8
  p2 : UInt8
  lc : UInt8
  data : Option (List UInt8)
  length_data : (data.getD []).length = lc.toNat
  deriving DecidableEq

/-- The data after the header, or a null pointer when there is none. -/
def commandData (buf : List UInt8) : Option (List UInt8) :=
  if byteAt buf offsetLc > 0 then some (buf.drop offsetCdata) else none

/-- `apdu_parser`: no command when the length byte is not that of the data. -/
def apduParser (buf : List UInt8) : Option Command :=
  if refused : buf.length < offsetCdata ∨
      buf.length - offsetCdata ≠ (byteAt buf offsetLc).toNat then
    none
  else
    some
      { cla := byteAt buf offsetCla
        ins := byteAt buf offsetIns
        p1 := byteAt buf offsetP1
        p2 := byteAt buf offsetP2
        lc := byteAt buf offsetLc
        data := commandData buf
        length_data := by
          have exact :
              buf.length - offsetCdata = (byteAt buf offsetLc).toNat := by
            by_contra different
            exact refused (Or.inr different)
          unfold commandData
          split
          · simpa using exact
          · rename_i notPositive
            have isZero : byteAt buf offsetLc = 0 :=
              UInt8.le_antisymm (UInt8.not_lt.mp notPositive)
                (UInt8.zero_le)
            rw [isZero]
            rfl }

/-- The buffer that the dispatcher makes of the data. -/
def Command.buffer (cmd : Command) (data : List UInt8) : Buffer where
  ptr := data
  size := cmd.lc.toNat
  offset := 0

theorem Command.buffer_eq
    {cmd : Command} {data : List UInt8} (present : cmd.data = some data) :
    cmd.buffer data = ⟨data, data.length, 0⟩ := by
  have length := cmd.length_data
  rw [present] at length
  rw [Command.buffer, ← length]
  rfl

theorem Command.length_le
    {cmd : Command} {data : List UInt8} (present : cmd.data = some data) :
    data.length ≤ 255 := by
  have length := cmd.length_data
  rw [present] at length
  have small := cmd.lc.toNat_lt
  change data.length = _ at length
  omega

/-- A command in the form the host sends it. -/
def Command.bytes (cmd : Command) : List UInt8 :=
  cmd.cla :: cmd.ins :: cmd.p1 :: cmd.p2 :: cmd.lc :: cmd.data.getD []

end Neo3App
