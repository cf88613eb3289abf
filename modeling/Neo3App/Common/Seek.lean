import Neo3App.Common.BufferCalls
import Neo3App.Lib.Lockstep
import Neo3App.Lib.Tape

/-!
# A buffer as a tape

The operations of `buffer.c` that set the offset, next to those that read.
Whatever is requested of a buffer, it answers as a tape that holds its bytes:
what a request delivers depends on the offset and the bytes only.
-/

namespace Neo3App

open Neo3App.Lib

def bufferSeekSet (buffer : Buffer) (offset : Nat) : Bool × Buffer :=
  if buffer.size < offset then
    (false, buffer)
  else
    (true, { buffer with offset := offset })

def bufferSeekEnd (buffer : Buffer) (offset : Nat) : Bool × Buffer :=
  if buffer.size < offset then
    (false, buffer)
  else
    (true, { buffer with offset := sizeSub buffer.size offset })

/-- A call of any function of `buffer.c`. -/
inductive BufferRequest where
  | call (read : BufferCall)
  | canRead (n : UInt32)
  | seekSet (offset : UInt32)
  | seekCur (offset : UInt32)
  | seekEnd (offset : UInt32)
  | copy (out : List UInt8) (outLen : UInt32)

/-- What is seen of a call: the bytes that it delivers, unless it fails. -/
def Performed.answer (performed : Performed) : Option (List UInt8) :=
  if performed.ok then some performed.bytes else none

def BufferRequest.perform (buffer : Buffer) : BufferRequest → Performed
  | .call read => read.perform buffer
  | .canRead n => ⟨bufferCanRead buffer n.toNat, buffer, []⟩
  | .seekSet offset =>
      match bufferSeekSet buffer offset.toNat with
      | (ok, moved) => ⟨ok, moved, []⟩
  | .seekCur offset =>
      match bufferSeekCur buffer offset.toNat with
      | (ok, moved) => ⟨ok, moved, []⟩
  | .seekEnd offset =>
      match bufferSeekEnd buffer offset.toNat with
      | (ok, moved) => ⟨ok, moved, []⟩
  | .copy out outLen =>
      match bufferCopy buffer out 0 outLen.toNat with
      | (ok, out) =>
          ⟨ok, buffer,
            if ok then out.take (sizeSub buffer.size buffer.offset) else []⟩

def bufferServer (buffer : Buffer) :
    Transition Buffer BufferRequest (Option (List UInt8)) where
  start := buffer
  step := fun buffer request =>
    ((request.perform buffer).buffer, (request.perform buffer).answer)

/-- The number of bytes that a read takes; that of a variable-length integer
is told by the first of the bytes ahead. -/
def varintWidth : List UInt8 → Nat
  | [] => 1
  | first :: _ =>
      if first = 0xFD then 3
      else if first = 0xFE then 5
      else if first = 0xFF then 9
      else 1

/-- What a request is for.  A move into more room than there are bytes ahead
delivers them and leaves the head where it is. -/
def BufferRequest.onTape (tape : Tape UInt8) :
    BufferRequest → Option (Tape UInt8 × List UInt8)
  | .call .readU8 => tape.next 1
  | .call .readS8 => tape.next 1
  | .call (.readU16 _) => tape.next 2
  | .call (.readS16 _) => tape.next 2
  | .call (.readU32 _) => tape.next 4
  | .call (.readS32 _) => tape.next 4
  | .call (.readU64 _) => tape.next 8
  | .call (.readS64 _) => tape.next 8
  | .call .readVarint => tape.next (varintWidth tape.ahead)
  | .call (.move _ outLen) =>
      if outLen.toNat < tape.ahead.length then none
      else
        some ((tape.seek (tape.head + outLen.toNat)).getD tape, tape.ahead)
  | .canRead n =>
      if n.toNat ≤ tape.ahead.length then some (tape, []) else none
  | .seekSet offset => (tape.seek offset.toNat).map (·, [])
  | .seekCur offset => (tape.seek (tape.head + offset.toNat)).map (·, [])
  | .seekEnd offset =>
      if offset.toNat ≤ tape.cells.length then
        (tape.seek (tape.cells.length - offset.toNat)).map (·, [])
      else none
  | .copy _ outLen =>
      if outLen.toNat < tape.ahead.length then none
      else some (tape, tape.ahead)

def tapeServer (tape : Tape UInt8) :
    Transition (Tape UInt8) BufferRequest (Option (List UInt8)) where
  start := tape
  step := fun tape request => tape.attempt (request.onTape tape)

def Buffer.tape (buffer : Buffer) (wf : buffer.Wf) : Tape UInt8 where
  cells := buffer.ptr.take buffer.size
  head := buffer.offset
  head_le := by
    rw [List.length_take, Nat.min_eq_left wf.size_le]
    exact wf.offset_le

/-- The buffer holds the cells of the tape, with its offset at the head. -/
structure Buffer.Follows (origin current : Buffer) (tape : Tape UInt8) :
    Prop where
  current_eq : current = { origin with offset := tape.head }
  cells_eq : tape.cells = origin.ptr.take origin.size
  wf : current.Wf

section Requests

variable {origin current : Buffer} {tape : Tape UInt8}

theorem Buffer.follows_tape {buffer : Buffer} (wf : buffer.Wf) :
    buffer.Follows buffer (buffer.tape wf) :=
  ⟨rfl, rfl, wf⟩

theorem Buffer.Follows.rest_eq (follows : origin.Follows current tape) :
    current.rest = tape.ahead := by
  rw [follows.current_eq, Tape.ahead, follows.cells_eq]
  rfl

theorem Buffer.Follows.length_cells
    (follows : origin.Follows current tape) :
    tape.cells.length = current.size := by
  have size := follows.wf.size_le
  rw [follows.current_eq] at size ⊢
  rw [follows.cells_eq, List.length_take, Nat.min_eq_left size]

/-- The same bytes, with the offset where the head is now. -/
theorem Buffer.Follows.moved
    (follows : origin.Follows current tape) {position : Nat}
    (inside : position ≤ tape.cells.length) :
    origin.Follows { current with offset := position }
      ⟨tape.cells, position, inside⟩ := by
  have length := follows.length_cells
  refine ⟨?_, follows.cells_eq, ?_⟩
  · rw [follows.current_eq]
  · exact ⟨length ▸ inside, follows.wf.size_le, follows.wf.size_lt⟩

/-- A call and a request with the same answer, after which the buffer still
follows the tape. -/
structure Serves (origin : Buffer) (tape : Tape UInt8)
    (performed : Performed) (served : Option (Tape UInt8 × List UInt8)) :
    Prop where
  follows : origin.Follows performed.buffer (tape.attempt served).1
  answer : performed.answer = (tape.attempt served).2

theorem Buffer.Follows.refused
    (follows : origin.Follows current tape) (bytes : List UInt8) :
    Serves origin tape ⟨false, current, bytes⟩ none :=
  ⟨follows, rfl⟩

theorem Buffer.Follows.served
    (follows : origin.Follows current tape) {position : Nat}
    (inside : position ≤ tape.cells.length) (bytes : List UInt8) :
    Serves origin tape ⟨true, { current with offset := position }, bytes⟩
      (some (⟨tape.cells, position, inside⟩, bytes)) :=
  ⟨follows.moved inside, rfl⟩

/-- A call that takes `width` bytes if there are so many. -/
theorem Buffer.Follows.takes
    (follows : origin.Follows current tape) {performed : Performed}
    {width : Nat}
    (delivers : ∃ count, Delivers current performed count count)
    (enough : width ≤ current.rest.length →
      performed.ok = true ∧ performed.buffer = current.advance width)
    (short : current.rest.length < width →
      performed.ok = false ∧ performed.buffer = current) :
    Serves origin tape performed (tape.next width) := by
  have rest := follows.rest_eq
  obtain ⟨count, delivers⟩ := delivers
  obtain ⟨ok, buffer, bytes⟩ := performed
  by_cases available : width ≤ current.rest.length
  · obtain ⟨accepted, moved⟩ := enough available
    have offsets := congrArg Buffer.offset (moved.symm.trans delivers.buffer_eq)
    have same : count = width := by
      simp only [Buffer.advance_offset] at offsets
      omega
    have read := delivers.bytes_eq
    obtain ⟨inside, next⟩ := Tape.next_of_le (rest ▸ available)
    have served :=
      follows.served inside (tape.ahead.take width)
    rw [next]
    dsimp only at accepted moved read
    rw [accepted, moved, read, same, rest]
    have head : current.offset = tape.head := by
      rw [follows.current_eq]
    rw [Buffer.advance, head]
    exact served
  · obtain ⟨failed, stays⟩ := short (by omega)
    rw [Tape.next_of_lt (rest ▸ Nat.not_le.mp available)]
    dsimp only at failed stays
    rw [failed, stays]
    exact follows.refused bytes

/-- A call that is no move is exact. -/
theorem BufferCall.delivers_exact
    {buffer : Buffer} (wf : buffer.Wf) (read : BufferCall)
    (exactly : read.Exact buffer) :
    ∃ count, Delivers buffer (read.perform buffer) count count := by
  obtain ⟨moved, count, delivers, same⟩ := read.delivers wf
  exact ⟨count, same.mp exactly ▸ delivers⟩

theorem Buffer.Follows.reads
    (follows : origin.Follows current tape) (call : BufferCall)
    (exactly : call.Exact current) {α : Type} {width : Nat}
    {read : List UInt8 → Nat → α} {zero : α} {bytes : α → List UInt8}
    (fixed : call.perform current =
      (bufferRead width read zero current).performed bytes) :
    Serves origin tape (call.perform current) (tape.next width) := by
  apply follows.takes (call.delivers_exact follows.wf exactly)
  · intro enough
    rw [fixed, follows.wf.read_of_le read zero enough]
    exact ⟨rfl, rfl⟩
  · intro short
    rw [fixed, follows.wf.read_of_lt read zero short]
    exact ⟨rfl, rfl⟩

theorem varintRead_eq_none
    {rest : List UInt8} (short : rest.length < varintWidth rest)
    (beyond : List UInt8) :
    varintRead (rest ++ beyond) rest.length = none := by
  cases rest with
  | nil => rfl
  | cons first rest =>
      rw [List.length_cons] at short
      rw [varintRead, List.length_cons, List.cons_append, byteAt_cons_zero,
        if_neg (by omega)]
      rw [varintWidth] at short
      split at short
      · rename_i two
        rw [if_pos two, if_pos short]
      · rename_i notTwo
        rw [if_neg notTwo]
        split at short
        · rename_i four
          rw [if_pos four, if_pos short]
        · rename_i notFour
          rw [if_neg notFour]
          split at short
          · rename_i eight
            rw [if_pos eight, if_pos short]
          · omega

theorem varintRead_eq_some
    {rest : List UInt8} (enough : varintWidth rest ≤ rest.length)
    (beyond : List UInt8) :
    ∃ value,
      varintRead (rest ++ beyond) rest.length =
        some (varintWidth rest, value) := by
  cases rest with
  | nil => cases enough
  | cons first rest =>
      rw [List.length_cons] at enough
      rw [varintRead, List.length_cons, List.cons_append, byteAt_cons_zero,
        if_neg (by omega)]
      rw [varintWidth] at enough ⊢
      split at enough
      · rename_i two
        rw [if_pos two, if_neg (by omega), if_pos two]
        exact ⟨_, rfl⟩
      · rename_i notTwo
        rw [if_neg notTwo, if_neg notTwo]
        split at enough
        · rename_i four
          rw [if_pos four, if_neg (by omega), if_pos four]
          exact ⟨_, rfl⟩
        · rename_i notFour
          rw [if_neg notFour, if_neg notFour]
          split at enough
          · rename_i eight
            rw [if_pos eight, if_neg (by omega), if_pos eight]
            exact ⟨_, rfl⟩
          · rename_i notEight
            rw [if_neg notEight, if_neg notEight]
            exact ⟨_, rfl⟩

theorem Buffer.Follows.reads_varint
    (follows : origin.Follows current tape) :
    Serves origin tape (BufferCall.readVarint.perform current)
      (tape.next (varintWidth tape.ahead)) := by
  obtain ⟨beyond, memory⟩ := current.rest_prefix
  have size := follows.wf.sizeSub_eq
  rw [← follows.rest_eq]
  apply follows.takes (readVarint_delivers follows.wf)
  · intro enough
    obtain ⟨value, read⟩ := varintRead_eq_some enough beyond
    change (bufferReadVarint current).ok = true ∧
      (bufferReadVarint current).buffer = _
    rw [bufferReadVarint, size, ← memory, read]
    exact ⟨rfl, congrArg Prod.snd (follows.wf.seekCur_of_le enough)⟩
  · intro short
    change (bufferReadVarint current).ok = false ∧
      (bufferReadVarint current).buffer = _
    rw [bufferReadVarint, size, ← memory, varintRead_eq_none short]
    exact ⟨rfl, rfl⟩

/-- What is ahead, copied out. -/
theorem Buffer.Follows.copied
    (follows : origin.Follows current tape) (out : List UInt8)
    (outLen : Nat) :
    bufferCopy current out 0 outLen =
      if outLen < tape.ahead.length then (false, out)
      else (true, memmove out 0 tape.ahead) := by
  have whole := List.prefix_iff_eq_take.mp current.rest_prefix
  rw [bufferCopy, follows.wf.sizeSub_eq, ← whole, follows.rest_eq]

theorem Buffer.Follows.taken
    (follows : origin.Follows current tape) (out : List UInt8) :
    (memmove out 0 tape.ahead).take (sizeSub current.size current.offset) =
      tape.ahead := by
  rw [follows.wf.sizeSub_eq, follows.rest_eq]
  simp [memmove]

theorem Buffer.Follows.head_eq (follows : origin.Follows current tape) :
    current.offset = tape.head := by
  rw [follows.current_eq]

/-- A seek from the offset lands where the head does, or nowhere. -/
theorem Buffer.Follows.seeks
    (follows : origin.Follows current tape) (distance : UInt32) :
    bufferSeekCur current distance.toNat =
      match tape.seek (tape.head + distance.toNat) with
      | none => (false, current)
      | some moved => (true, { current with offset := moved.head }) := by
  have rest := follows.wf.length_rest
  have inside := follows.wf.offset_le
  have length := follows.length_cells
  have head := follows.head_eq
  by_cases available : distance.toNat ≤ current.rest.length
  · rw [follows.wf.seekCur_of_le available, Tape.seek_of_le (by omega),
      Buffer.advance, head]
  · rw [follows.wf.seekCur_of_lt (by omega) distance.toNat_lt,
      Tape.seek_of_lt (by omega)]

theorem Buffer.Follows.moves
    (follows : origin.Follows current tape) (out : List UInt8)
    (outLen : UInt32) :
    Serves origin tape ((BufferCall.move out outLen).perform current)
      (BufferRequest.onTape tape (.call (.move out outLen))) := by
  rw [BufferCall.perform, bufferMove, follows.copied, BufferRequest.onTape]
  by_cases short : outLen.toNat < tape.ahead.length
  · rw [if_pos short, if_pos short]
    exact follows.refused []
  · rw [if_neg short, if_neg short]
    dsimp only
    rw [if_pos rfl, follows.taken, follows.seeks]
    by_cases inside : tape.head + outLen.toNat ≤ tape.cells.length
    · rw [Tape.seek_of_le inside]
      exact follows.served inside tape.ahead
    · rw [Tape.seek_of_lt (Nat.not_le.mp inside)]
      exact ⟨follows, rfl⟩

/-- A seek to a position that is checked in both. -/
theorem Buffer.Follows.sought
    (follows : origin.Follows current tape) (position : Nat) :
    Serves origin tape
      (if position ≤ tape.cells.length then
        ⟨true, { current with offset := position }, []⟩
      else ⟨false, current, []⟩)
      ((tape.seek position).map (·, [])) := by
  by_cases inside : position ≤ tape.cells.length
  · rw [if_pos inside, Tape.seek_of_le inside]
    exact follows.served inside []
  · rw [if_neg inside, Tape.seek_of_lt (Nat.not_le.mp inside)]
    exact follows.refused []

/-- Every request is served as by the tape. -/
theorem Buffer.Follows.serves
    (follows : origin.Follows current tape) (request : BufferRequest) :
    Serves origin tape (request.perform current) (request.onTape tape) := by
  have length := follows.length_cells
  cases request with
  | call read =>
      cases read with
      | readU8 =>
          exact follows.reads .readU8 trivial (by
            rw [BufferCall.perform, bufferReadU8])
      | readS8 =>
          exact follows.reads .readS8 trivial (by
            rw [BufferCall.perform, bufferReadS8])
      | readU16 endianness =>
          exact follows.reads (.readU16 endianness) trivial (by
            rw [BufferCall.perform, bufferReadU16])
      | readS16 endianness =>
          exact follows.reads (.readS16 endianness) trivial (by
            rw [BufferCall.perform, bufferReadS16])
      | readU32 endianness =>
          exact follows.reads (.readU32 endianness) trivial (by
            rw [BufferCall.perform, bufferReadU32])
      | readS32 endianness =>
          exact follows.reads (.readS32 endianness) trivial (by
            rw [BufferCall.perform, bufferReadS32])
      | readU64 endianness =>
          exact follows.reads (.readU64 endianness) trivial (by
            rw [BufferCall.perform, bufferReadU64])
      | readS64 endianness =>
          exact follows.reads (.readS64 endianness) trivial (by
            rw [BufferCall.perform, bufferReadS64])
      | readVarint => exact follows.reads_varint
      | move out outLen => exact follows.moves out outLen
  | canRead n =>
      rw [BufferRequest.perform, BufferRequest.onTape, bufferCanRead,
        follows.wf.sizeSub_eq, follows.rest_eq]
      by_cases available : n.toNat ≤ tape.ahead.length
      · rw [if_pos available, decide_eq_true available]
        exact ⟨follows, rfl⟩
      · rw [if_neg available, decide_eq_false available]
        exact follows.refused []
  | seekSet offset =>
      have sought := follows.sought offset.toNat
      rw [BufferRequest.perform, BufferRequest.onTape, bufferSeekSet]
      by_cases inside : offset.toNat ≤ tape.cells.length
      · rw [if_pos inside] at sought
        rwa [if_neg (by omega)]
      · rw [if_neg inside] at sought
        rwa [if_pos (by omega)]
  | seekCur distance =>
      rw [BufferRequest.perform, BufferRequest.onTape, follows.seeks]
      by_cases inside : tape.head + distance.toNat ≤ tape.cells.length
      · rw [Tape.seek_of_le inside]
        exact follows.served inside []
      · rw [Tape.seek_of_lt (Nat.not_le.mp inside)]
        exact follows.refused []
  | seekEnd distance =>
      have sought := follows.sought (tape.cells.length - distance.toNat)
      rw [if_pos (Nat.sub_le _ _)] at sought
      rw [BufferRequest.perform, BufferRequest.onTape, bufferSeekEnd]
      by_cases inside : distance.toNat ≤ tape.cells.length
      · have back : sizeSub current.size distance.toNat =
            tape.cells.length - distance.toNat := by
          rw [sizeSub_of_le (by omega) follows.wf.size_lt, length]
        rw [if_pos inside, if_neg (by omega), back]
        exact sought
      · rw [if_neg inside, if_pos (by omega)]
        exact follows.refused []
  | copy out outLen =>
      rw [BufferRequest.perform, BufferRequest.onTape, follows.copied]
      by_cases short : outLen.toNat < tape.ahead.length
      · rw [if_pos short, if_pos short]
        exact follows.refused []
      · rw [if_neg short, if_neg short]
        dsimp only
        rw [if_pos rfl, follows.taken]
        exact ⟨follows, rfl⟩

end Requests

/-! ## Any requests -/

theorem bufferServer_lockstep {buffer : Buffer} (wf : buffer.Wf) :
    Lockstep (bufferServer buffer) (tapeServer (buffer.tape wf))
      (fun _ => True) buffer.Follows id id where
  states := fun follows _ => (follows.serves _).follows
  answers := fun follows _ => (follows.serves _).answer

/-- What is expected of a buffer, whatever is requested of it: it answers as
the tape of its bytes, only its offset changes, and that follows the head.
Set back to a position, it answers as it did there before. -/
structure ActsAsTape (buffer : Buffer) (wf : buffer.Wf) : Prop where
  answers : ∀ requests : List BufferRequest,
    ((bufferServer buffer).runFrom buffer requests).2 =
      ((tapeServer (buffer.tape wf)).runFrom (buffer.tape wf) requests).2
  offset : ∀ requests : List BufferRequest,
    (bufferServer buffer).after requests =
      { buffer with
        offset := ((tapeServer (buffer.tape wf)).after requests).head }
  replays : ∀ (before requests : List BufferRequest) (position : UInt32),
    position.toNat ≤ buffer.size →
      ((bufferServer buffer).runFrom
          ((bufferServer buffer).after (before ++ [.seekSet position]))
          requests).2 =
        ((bufferServer buffer).runFrom
          { buffer with offset := position.toNat } requests).2

/-- **A buffer acts as a tape**: the functions of `buffer.c`, called in any
order, read a sequence of bytes at a position that never leaves it. -/
theorem buffer_actsAsTape {buffer : Buffer} (wf : buffer.Wf) :
    ActsAsTape buffer wf := by
  have lockstep := bufferServer_lockstep wf
  have follows (requests : List BufferRequest) :
      buffer.Follows ((bufferServer buffer).after requests)
          ((tapeServer (buffer.tape wf)).after requests) ∧
        ((bufferServer buffer).runFrom buffer requests).2.map id =
          ((tapeServer (buffer.tape wf)).runFrom (buffer.tape wf)
            requests).2.map id :=
    lockstep.run (Buffer.follows_tape wf) fun _ _ => trivial
  constructor
  · intro requests
    have same := (follows requests).2
    rwa [List.map_id, List.map_id] at same
  · intro requests
    exact (follows requests).1.current_eq
  · intro before requests position inside
    have set : (bufferServer buffer).after (before ++ [.seekSet position]) =
        { buffer with offset := position.toNat } := by
      have last := (follows before).1.current_eq
      rw [Transition.after_append_singleton, last]
      change (BufferRequest.perform _ (.seekSet position)).buffer = _
      rw [BufferRequest.perform, bufferSeekSet, if_neg (Nat.not_lt.mpr inside)]
    rw [set]

/-- Three bytes, the last of them ahead. -/
theorem buffer_actsAsTape_threeBytes :
    ActsAsTape ⟨[1, 2, 3], 3, 2⟩ ⟨by decide, by decide, by decide⟩ :=
  buffer_actsAsTape ⟨by decide, by decide, by decide⟩

end Neo3App
