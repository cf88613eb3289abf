import Neo3App.Common.Buffer

/-!
# Sequences of buffer operations

The bytes that a sequence of reads and moves delivers, and when they are the
bytes that the offset passes.
-/

namespace Neo3App

open Neo3App.Lib

inductive BufferCall where
  | readU8
  | readS8
  | readU16 (endianness : Endianness)
  | readS16 (endianness : Endianness)
  | readU32 (endianness : Endianness)
  | readS32 (endianness : Endianness)
  | readU64 (endianness : Endianness)
  | readS64 (endianness : Endianness)
  | readVarint
  | move (out : List UInt8) (outLen : UInt32)

def integerBytes (endianness : Endianness) (width value : Nat) : List UInt8 :=
  if endianness = .be then (leBytes width value).reverse
  else leBytes width value

/-- The form of a variable-length integer that takes `length` bytes. -/
def varintForm (length : Nat) (value : UInt64) : List UInt8 :=
  if length = 1 then [value.toUInt8]
  else if length = 3 then 0xFD :: leBytes 2 value.toNat
  else if length = 5 then 0xFE :: leBytes 4 value.toNat
  else 0xFF :: leBytes 8 value.toNat

/-- The bytes of a variable-length integer, of which `varint_read` reports
the count. -/
def varintDelivered (buffer : Buffer) (value : UInt64) : List UInt8 :=
  match varintRead (buffer.ptr.drop buffer.offset)
      (sizeSub buffer.size buffer.offset) with
  | none => []
  | some (length, _) => varintForm length value

/-- What a call returns, the buffer that it leaves and the bytes that it
delivers: those of the value that is read, or those that are copied out. -/
structure Performed where
  ok : Bool
  buffer : Buffer
  bytes : List UInt8

def Read.performed {α : Type} (bytes : α → List UInt8) (read : Read α) :
    Performed :=
  ⟨read.ok, read.buffer, if read.ok then bytes read.value else []⟩

def BufferCall.perform (buffer : Buffer) : BufferCall → Performed
  | .readU8 => (bufferReadU8 buffer).performed fun value => [value]
  | .readS8 => (bufferReadS8 buffer).performed fun value => [value.toUInt8]
  | .readU16 endianness =>
      (bufferReadU16 buffer endianness).performed fun value =>
        integerBytes endianness 2 value.toNat
  | .readS16 endianness =>
      (bufferReadS16 buffer endianness).performed fun value =>
        integerBytes endianness 2 value.toUInt16.toNat
  | .readU32 endianness =>
      (bufferReadU32 buffer endianness).performed fun value =>
        integerBytes endianness 4 value.toNat
  | .readS32 endianness =>
      (bufferReadS32 buffer endianness).performed fun value =>
        integerBytes endianness 4 value.toUInt32.toNat
  | .readU64 endianness =>
      (bufferReadU64 buffer endianness).performed fun value =>
        integerBytes endianness 8 value.toNat
  | .readS64 endianness =>
      (bufferReadS64 buffer endianness).performed fun value =>
        integerBytes endianness 8 value.toUInt64.toNat
  | .readVarint => (bufferReadVarint buffer).performed (varintDelivered buffer)
  | .move out outLen =>
      match bufferMove buffer out 0 outLen.toNat with
      | (ok, out, moved) =>
          ⟨ok, moved,
            if ok then out.take (sizeSub buffer.size buffer.offset) else []⟩

/-- A sequence of calls: the buffer afterwards and all bytes delivered. -/
def performAll : List BufferCall → Buffer → Buffer × List UInt8
  | [], buffer => (buffer, [])
  | call :: calls, buffer =>
      let performed := call.perform buffer
      let (last, bytes) := performAll calls performed.buffer
      (last, performed.bytes ++ bytes)

example :
    performAll [.readU16 .be, .readVarint, .move [0, 0] 2]
        ⟨[1, 2, 0xFD, 3, 4, 5, 6], 7, 0⟩ =
      (⟨[1, 2, 0xFD, 3, 4, 5, 6], 7, 7⟩, [1, 2, 0xFD, 3, 4, 5, 6]) := by
  decide +kernel

/-- A move that is told that there is more room than bytes left copies what
is left, but the seek by the size of the room fails. -/
def BufferCall.Exact (buffer : Buffer) : BufferCall → Prop
  | .move _ outLen =>
      buffer.offset = buffer.size ∨
        outLen.toNat ≤ buffer.size - buffer.offset
  | _ => True

/-- A call delivers the next `count` bytes and moves on by `moved`. -/
structure Delivers (buffer : Buffer) (performed : Performed)
    (moved count : Nat) : Prop where
  moved_le : moved ≤ count
  count_le : count ≤ buffer.rest.length
  buffer_eq : performed.buffer = buffer.advance moved
  bytes_eq : performed.bytes = buffer.rest.take count
  refused : performed.ok = false → moved = 0

/-- A reading function delivers the bytes of the value it returns. -/
theorem Reads.delivers
    {α : Type} {read : Buffer → Read α} {format : α → List UInt8 → Prop}
    (reads : Reads read format) {buffer : Buffer} (wf : buffer.Wf)
    (refused : (read buffer).ok = false → (read buffer).buffer = buffer)
    {bytes : α → List UInt8}
    (same : ∀ encoding, format (read buffer).value encoding →
      (read buffer).buffer = buffer.advance encoding.length →
      encoding <+: buffer.rest →
      bytes (read buffer).value = encoding) :
    ∃ count, Delivers buffer ((read buffer).performed bytes) count count := by
  cases ok : (read buffer).ok with
  | false =>
      refine ⟨0, Nat.le_refl _, Nat.zero_le _, ?_, ?_, fun _ => rfl⟩
      · exact refused ok
      · rw [Read.performed, ok]
        rfl
  | true =>
      obtain ⟨encoding, format, isPrefix, moved⟩ := reads.sound wf ok
      refine ⟨encoding.length, Nat.le_refl _, isPrefix.length_le, moved, ?_,
        fun failed => ?_⟩
      · rw [Read.performed, ok, if_pos rfl,
          same encoding format moved isPrefix]
        exact List.prefix_iff_eq_take.mp isPrefix
      · change (read buffer).ok = false at failed
        rw [ok] at failed
        cases failed

theorem Reads.delivers_fixed
    {α : Type} {read : Buffer → Read α} {bytes : α → List UInt8}
    (reads : Reads read fun value encoding => encoding = bytes value)
    {buffer : Buffer} (wf : buffer.Wf)
    (refused : (read buffer).ok = false → (read buffer).buffer = buffer) :
    ∃ count, Delivers buffer ((read buffer).performed bytes) count count :=
  reads.delivers wf refused fun _ format _ _ => format.symm

theorem bufferRead_refused
    {α : Type} {width : Nat} {read : List UInt8 → Nat → α} {zero : α}
    {buffer : Buffer}
    (failed : (bufferRead width read zero buffer).ok = false) :
    (bufferRead width read zero buffer).buffer = buffer := by
  unfold bufferRead at failed ⊢
  split
  · rename_i enough
    rw [if_pos enough] at failed
    cases failed
  · rfl

theorem bufferReadVarint_refused
    {buffer : Buffer} (failed : (bufferReadVarint buffer).ok = false) :
    (bufferReadVarint buffer).buffer = buffer := by
  unfold bufferReadVarint at failed ⊢
  split
  · rfl
  · rename_i read
    rw [read] at failed
    cases failed

/-- The length of an encoding and its value give its bytes. -/
theorem VarintFormat.form
    {value : UInt64} {encoding : List UInt8}
    (format : VarintFormat value.toNat encoding) :
    varintForm encoding.length value = encoding := by
  generalize number : value.toNat = decoded at format
  cases format with
  | one byte small =>
      have same : value.toUInt8 = byte := by
        apply UInt8.toNat_inj.mp
        rw [UInt64.toNat_toUInt8, number, Nat.mod_eq_of_lt byte.toNat_lt]
      rw [varintForm, List.length_singleton, if_pos rfl, same]
  | three payload length =>
      have same := leBytes_leNat payload
      rw [length] at same
      rw [varintForm, List.length_cons, length, if_neg (by omega), if_pos rfl,
        number, same]
  | five payload length =>
      have same := leBytes_leNat payload
      rw [length] at same
      rw [varintForm, List.length_cons, length, if_neg (by omega),
        if_neg (by omega), if_pos rfl, number, same]
  | nine payload length =>
      have same := leBytes_leNat payload
      rw [length] at same
      rw [varintForm, List.length_cons, length, if_neg (by omega),
        if_neg (by omega), if_neg (by omega), number, same]

theorem readVarint_delivers {buffer : Buffer} (wf : buffer.Wf) :
    ∃ count,
      Delivers buffer (BufferCall.readVarint.perform buffer) count count := by
  apply @Reads.delivers _ _ _ reads_varint buffer wf
    bufferReadVarint_refused (varintDelivered buffer)
  intro encoding format moved isPrefix
  obtain ⟨tail, split⟩ := isPrefix
  obtain ⟨beyond, memory⟩ := Buffer.drop_ptr_of_rest split.symm
  have available : encoding.length ≤ buffer.rest.length := by
    rw [← split, List.length_append]
    omega
  rw [varintDelivered, wf.sizeSub_eq, memory,
    varintRead_of_format format available]
  exact format.form

/-- A move copies what is left, and moves on when the sizes agree. -/
theorem move_delivers
    {buffer : Buffer} (wf : buffer.Wf) (out : List UInt8) (outLen : UInt32) :
    ∃ moved count,
      Delivers buffer ((BufferCall.move out outLen).perform buffer)
          moved count ∧
        ((BufferCall.move out outLen).Exact buffer ↔ moved = count) := by
  have length := wf.length_rest
  have offset := wf.offset_le
  have size := wf.sizeSub_eq
  have isPrefix := buffer.rest_prefix
  have copied : (buffer.ptr.drop buffer.offset).take buffer.rest.length =
      buffer.rest :=
    (List.prefix_iff_eq_take.mp isPrefix).symm
  change ∃ moved count, _ ∧
    ((buffer.offset = buffer.size ∨
      outLen.toNat ≤ buffer.size - buffer.offset) ↔ _)
  rw [BufferCall.perform, bufferMove, bufferCopy, size, copied]
  by_cases short : outLen.toNat < buffer.rest.length
  · rw [if_pos short]
    refine ⟨0, 0, ⟨Nat.le_refl _, Nat.zero_le _, rfl, rfl, fun _ => rfl⟩, ?_⟩
    exact ⟨fun _ => rfl, fun _ => by omega⟩
  · rw [if_neg short]
    have front : (memmove out 0 buffer.rest).take buffer.rest.length =
        buffer.rest := by
      simp [memmove]
    dsimp only
    rw [if_pos rfl, front]
    by_cases equal : outLen.toNat = buffer.rest.length
    · rw [wf.seekCur_of_le equal.le, equal]
      refine ⟨buffer.rest.length, buffer.rest.length, ⟨Nat.le_refl _,
        Nat.le_refl _, rfl, List.take_length.symm, fun failed => ?_⟩, ?_⟩
      · cases failed
      · exact ⟨fun _ => rfl, fun _ => by omega⟩
    · rw [wf.seekCur_of_lt (by omega) outLen.toNat_lt]
      refine ⟨0, buffer.rest.length, ⟨Nat.zero_le _, Nat.le_refl _, rfl,
        List.take_length.symm, fun _ => rfl⟩, ?_⟩
      omega

/-- Every call delivers the next bytes, and moves on past them unless it is a
move into more room than it needs. -/
theorem BufferCall.delivers
    (call : BufferCall) {buffer : Buffer} (wf : buffer.Wf) :
    ∃ moved count,
      Delivers buffer (call.perform buffer) moved count ∧
        (call.Exact buffer ↔ moved = count) := by
  have whole {performed : Performed}
      (delivers : ∃ count, Delivers buffer performed count count) :
      ∃ moved count,
        Delivers buffer performed moved count ∧ (True ↔ moved = count) := by
    obtain ⟨count, delivers⟩ := delivers
    exact ⟨count, count, delivers, fun _ => rfl, fun _ => trivial⟩
  cases call with
  | readU8 =>
      exact whole (reads_u8.delivers_fixed wf bufferRead_refused)
  | readS8 =>
      exact whole (reads_s8.delivers_fixed wf bufferRead_refused)
  | readU16 endianness =>
      cases endianness with
      | be =>
          exact whole (reads_u16_be.delivers_fixed wf bufferRead_refused)
      | le =>
          exact whole (reads_u16_le.delivers_fixed wf bufferRead_refused)
  | readS16 endianness =>
      cases endianness with
      | be =>
          exact whole (reads_s16_be.delivers_fixed wf bufferRead_refused)
      | le =>
          exact whole (reads_s16_le.delivers_fixed wf bufferRead_refused)
  | readU32 endianness =>
      cases endianness with
      | be =>
          exact whole (reads_u32_be.delivers_fixed wf bufferRead_refused)
      | le =>
          exact whole (reads_u32_le.delivers_fixed wf bufferRead_refused)
  | readS32 endianness =>
      cases endianness with
      | be =>
          exact whole (reads_s32_be.delivers_fixed wf bufferRead_refused)
      | le =>
          exact whole (reads_s32_le.delivers_fixed wf bufferRead_refused)
  | readU64 endianness =>
      cases endianness with
      | be =>
          exact whole (reads_u64_be.delivers_fixed wf bufferRead_refused)
      | le =>
          exact whole (reads_u64_le.delivers_fixed wf bufferRead_refused)
  | readS64 endianness =>
      cases endianness with
      | be =>
          exact whole (reads_s64_be.delivers_fixed wf bufferRead_refused)
      | le =>
          exact whole (reads_s64_le.delivers_fixed wf bufferRead_refused)
  | readVarint =>
      exact whole (readVarint_delivers wf)
  | move out outLen =>
      exact move_delivers wf out outLen

def AllExact (calls : List BufferCall) (buffer : Buffer) : Prop :=
  ∀ before call after, calls = before ++ call :: after →
    call.Exact (performAll before buffer).1

structure DeliversOnce (buffer : Buffer) (calls : List BufferCall) :
    Prop where
  delivered :
    (performAll calls buffer).2 =
      (buffer.ptr.drop buffer.offset).take
        ((performAll calls buffer).1.offset - buffer.offset)
  ordered : buffer.offset ≤ (performAll calls buffer).1.offset
  refused : ∀ before call after, calls = before ++ call :: after →
    (call.perform (performAll before buffer).1).ok = false →
      (call.perform (performAll before buffer).1).buffer.offset =
        (performAll before buffer).1.offset
  inside : ∀ before after, calls = before ++ after →
    (performAll before buffer).1.offset ≤ (performAll before buffer).1.size

theorem allExact_nil (buffer : Buffer) : AllExact [] buffer := by
  intro before call after equal
  cases before <;> cases equal

theorem allExact_cons_iff
    (call : BufferCall) (calls : List BufferCall) (buffer : Buffer) :
    AllExact (call :: calls) buffer ↔
      call.Exact buffer ∧ AllExact calls (call.perform buffer).buffer := by
  constructor
  · intro all
    refine ⟨all [] call calls rfl, ?_⟩
    intro before next after equal
    exact all (call :: before) next after (by rw [equal, List.cons_append])
  · intro ⟨first, later⟩ before next after equal
    cases before with
    | nil =>
        rw [List.nil_append, List.cons.injEq] at equal
        rw [← equal.1]
        exact first
    | cons head before =>
        rw [List.cons_append, List.cons.injEq] at equal
        rw [← equal.1]
        exact later before next after equal.2

/-- A sequence delivers at least as many bytes as the offset passes; these
are the bytes it passes exactly when every move is exact. -/
theorem performAll_delivers
    (calls : List BufferCall) :
    ∀ {buffer : Buffer}, buffer.Wf →
      ∃ moved, moved ≤ buffer.rest.length ∧
        (performAll calls buffer).1 = buffer.advance moved ∧
        moved ≤ (performAll calls buffer).2.length ∧
        (AllExact calls buffer →
          (performAll calls buffer).2 = buffer.rest.take moved) ∧
        (¬ AllExact calls buffer →
          moved < (performAll calls buffer).2.length) := by
  induction calls with
  | nil =>
      intro buffer _
      refine ⟨0, Nat.zero_le _, rfl, Nat.zero_le _, fun _ => rfl, ?_⟩
      exact fun overrun => absurd (allExact_nil buffer) overrun
  | cons call calls ih =>
      intro buffer wf
      obtain ⟨moved, count, delivers, exactIff⟩ := call.delivers wf
      have movedLe := delivers.moved_le
      have countLe := delivers.count_le
      have nextWf : (call.perform buffer).buffer.Wf := by
        rw [delivers.buffer_eq]
        exact wf.advance (by omega)
      obtain ⟨later, laterLe, last, enough, exactly, overrun⟩ := ih nextWf
      rw [delivers.buffer_eq, Buffer.rest_advance] at laterLe exactly
      rw [delivers.buffer_eq, Buffer.advance_advance] at last
      rw [List.length_drop] at laterLe
      have lengths :
          (performAll (call :: calls) buffer).2.length =
            count +
              (performAll calls (call.perform buffer).buffer).2.length := by
        change ((call.perform buffer).bytes ++ _).length = _
        rw [List.length_append, delivers.bytes_eq, List.length_take,
          Nat.min_eq_left countLe]
      rw [delivers.buffer_eq] at lengths enough overrun
      refine ⟨moved + later, by omega, ?_, by omega, ?_, ?_⟩
      · change (performAll calls (call.perform buffer).buffer).1 = _
        rw [delivers.buffer_eq]
        exact last
      · intro all
        rw [allExact_cons_iff, exactIff, delivers.buffer_eq] at all
        change (call.perform buffer).bytes ++
          (performAll calls (call.perform buffer).buffer).2 = _
        rw [delivers.bytes_eq, delivers.buffer_eq, exactly all.2, all.1,
          List.take_add]
      · intro some
        rw [allExact_cons_iff, exactIff, delivers.buffer_eq, not_and_or]
          at some
        rcases some with here | there
        · omega
        · have more := overrun there
          omega

theorem performAll_inside
    (calls : List BufferCall) {buffer : Buffer} (wf : buffer.Wf) :
    (performAll calls buffer).1.Wf := by
  obtain ⟨moved, movedLe, last, _⟩ := performAll_delivers calls wf
  rw [last]
  exact wf.advance movedLe

/-- **Each byte is delivered once** exactly when no move copies what is left
into more room than that. -/
theorem deliversOnce_iff
    {buffer : Buffer} (wf : buffer.Wf) (calls : List BufferCall) :
    DeliversOnce buffer calls ↔ AllExact calls buffer := by
  obtain ⟨moved, movedLe, last, _, exactly, overrun⟩ :=
    performAll_delivers calls wf
  have shift : (performAll calls buffer).1.offset - buffer.offset = moved := by
    rw [last, Buffer.advance_offset]
    omega
  constructor
  · intro once
    by_contra some
    have more := overrun some
    have lengths := congrArg List.length once.delivered
    rw [shift, List.length_take] at lengths
    omega
  · intro all
    constructor
    · rw [exactly all, shift]
      obtain ⟨beyond, memory⟩ := buffer.rest_prefix
      rw [← memory, List.take_append_of_le_length movedLe]
    · rw [last, Buffer.advance_offset]
      omega
    · intro before call after _ failed
      obtain ⟨moved, count, delivers, _⟩ :=
        call.delivers (performAll_inside before wf)
      rw [delivers.buffer_eq, delivers.refused failed, Buffer.advance_zero]
    · intro before after _
      exact (performAll_inside before wf).offset_le

/-- A buffer of two bytes. -/
theorem deliversOnce_iff_twoBytes :
    DeliversOnce ⟨[1, 2], 2, 0⟩ [.readU8, .move [0] 1] ↔
      AllExact [.readU8, .move [0] 1] ⟨[1, 2], 2, 0⟩ :=
  deliversOnce_iff ⟨by decide, by decide, by decide⟩ _

/-- Two moves of one byte into two cells deliver it twice. -/
theorem not_deliversOnce_twice :
    ¬ DeliversOnce ⟨[1], 1, 0⟩ [.move [0, 0] 2, .move [0, 0] 2] := by
  intro once
  exact absurd once.delivered (by decide +kernel)

end Neo3App
