import Neo3App.Apdu.Command
import Neo3App.Lib.Bytes
import Neo3App.Globals

/-!
# The command builder of the host

`boilerplate_client/boilerplate_cmd_builder.py`, the client side of SIGN_TX.
The transaction enters in its serialized form, the key path as the five
numbers that its text spells.
-/

namespace Neo3App.Host

open Neo3App.Lib

def maxApduLen : Nat := 255

/-- The loop of `chunkify`: `chunks` whole chunks are left from `offset` on,
then the rest, if there is one. -/
def chunkifyFrom (data : List UInt8) (chunkLen : Nat) :
    (chunks offset : Nat) → List (Bool × List UInt8)
  | 0, offset =>
      if data.length % chunkLen ≠ 0 then [(true, data.drop offset)] else []
  | chunks + 1, offset =>
      (false, (data.drop offset).take chunkLen) ::
        chunkifyFrom data chunkLen chunks (offset + chunkLen)

/-- `chunkify`: the chunks, each with whether it is the last. -/
def chunkify (data : List UInt8) (chunkLen : Nat) :
    List (Bool × List UInt8) :=
  if data.length ≤ chunkLen then [(true, data)]
  else chunkifyFrom data chunkLen (data.length / chunkLen) 0

def serialize (cla ins p1 p2 : UInt8) (cdata : List UInt8) : List UInt8 :=
  [cla, ins, p1, p2, UInt8.ofNat cdata.length] ++ cdata

/-- `bip44_path_from_string`, joined: the numbers in big-endian order. -/
def pathBytes (path : Bip44Path) : List UInt8 :=
  path.toList.flatMap fun level => (leBytes 4 level.toNat).reverse

/-- The loop of `sign_tx` over the chunks: `i` is the next one.  The number of
a chunk fits into its byte for every size that the device takes. -/
def signTxChunks : (i : Nat) → List (Bool × List UInt8) →
    List (Bool × List UInt8)
  | _, [] => []
  | i, (isLast, chunk) :: rest =>
      if isLast then
        [(true, serialize 0x80 0x02 (UInt8.ofNat (i + 2)) 0x00 chunk)]
      else
        (false, serialize 0x80 0x02 (UInt8.ofNat (i + 2)) 0x80 chunk) ::
          signTxChunks (i + 1) rest

/-- `BoilerplateCommandBuilder.sign_tx`: the commands that it yields, each
with whether it is the last. -/
def signTx (path : Bip44Path) (tx : List UInt8) (networkMagic : UInt32) :
    List (Bool × List UInt8) :=
  (false, serialize 0x80 0x02 0x00 0x80 (pathBytes path)) ::
    (false, serialize 0x80 0x02 0x01 0x80
      (leBytes 4 networkMagic.toNat)) ::
    signTxChunks 0 (chunkify tx maxApduLen)

end Neo3App.Host
