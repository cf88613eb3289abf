import Neo3App.Common.Scan
import Neo3App.Lib.Paired

/-!
# Two scans of the same bytes

Two buffers may differ in the memory behind their size.  Reading, seeking and
marking cannot tell them apart, so two scans of the same bytes agree as long
as their records are related.
-/

namespace Neo3App

open Neo3App.Lib
open Neo3App.Lib.EarlyExit

variable {τ ε α : Type}

/-- Two buffers of `size` bytes at the same place in the same bytes. -/
structure SameInput (size : Nat) (first second : Buffer) : Prop where
  firstWf : first.Wf
  secondWf : second.Wf
  firstSize : first.size = size
  secondSize : second.size = size
  offset : first.offset = second.offset
  bytes : first.ptr.take size = second.ptr.take size

theorem SameInput.rest
    {size : Nat} {first second : Buffer}
    (same : SameInput size first second) : first.rest = second.rest := by
  rw [Buffer.rest, Buffer.rest, same.firstSize, same.secondSize, same.bytes,
    same.offset]

theorem SameInput.advance
    {size count : Nat} {first second : Buffer}
    (same : SameInput size first second)
    (available : count ≤ first.rest.length) :
    SameInput size (first.advance count) (second.advance count) where
  firstWf := same.firstWf.advance available
  secondWf := same.secondWf.advance (same.rest ▸ available)
  firstSize := same.firstSize
  secondSize := same.secondSize
  offset := congrArg (· + count) same.offset
  bytes := same.bytes

/-- What a pointer designates inside the bytes. -/
theorem SameInput.deref
    {size length : Nat} {first second : Buffer}
    (same : SameInput size first second) {position : Nat}
    (inside : position + length ≤ size) :
    deref first.ptr length (some position) =
      deref second.ptr length (some position) := by
  have taken (memory : List UInt8) :
      (memory.drop position).take length =
        ((memory.take size).drop position).take length := by
    rw [List.drop_take, List.take_take, Nat.min_eq_left (by omega)]
  rw [Neo3App.deref, Neo3App.deref, taken first.ptr, taken second.ptr,
    same.bytes]

/-- A reading function that sees only the bytes of the buffer, and stores
`zero` where it fails. -/
structure ReadsBytes (read : Buffer → Read α) (format : α → List UInt8 → Prop)
    (zero : α) : Prop where
  reads : Reads read format
  fails : ∀ {buffer : Buffer}, (read buffer).ok = false →
    read buffer = ⟨false, zero, buffer⟩

theorem bufferRead_fails
    {width : Nat} {read : List UInt8 → Nat → α} {zero : α} {buffer : Buffer}
    (fails : (bufferRead width read zero buffer).ok = false) :
    bufferRead width read zero buffer = ⟨false, zero, buffer⟩ := by
  unfold bufferRead at fails ⊢
  split at fails
  · cases fails
  · rename_i refused
    rw [if_neg refused]

theorem readsBytes_fixed
    {width : Nat} {read : List UInt8 → Nat → α} {zero : α}
    {format : α → List UInt8 → Prop}
    (reads : Reads (bufferRead width read zero) format) :
    ReadsBytes (bufferRead width read zero) format zero :=
  ⟨reads, bufferRead_fails⟩

theorem readsBytes_u8 :
    ReadsBytes bufferReadU8 (fun value encoding => encoding = [value]) 0 :=
  readsBytes_fixed reads_u8

theorem readsBytes_s8 :
    ReadsBytes bufferReadS8
      (fun value encoding => encoding = [value.toUInt8]) 0 :=
  ⟨reads_s8, bufferRead_fails⟩

theorem readsBytes_u16_be :
    ReadsBytes (bufferReadU16 · .be)
      (fun value encoding => encoding = (leBytes 2 value.toNat).reverse) 0 :=
  readsBytes_fixed reads_u16_be

theorem readsBytes_s16_le :
    ReadsBytes (bufferReadS16 · .le)
      (fun value encoding => encoding = leBytes 2 value.toUInt16.toNat) 0 :=
  readsBytes_fixed reads_s16_le

theorem readsBytes_s32_le :
    ReadsBytes (bufferReadS32 · .le)
      (fun value encoding => encoding = leBytes 4 value.toUInt32.toNat) 0 :=
  readsBytes_fixed reads_s32_le

theorem readsBytes_u32_le :
    ReadsBytes (bufferReadU32 · .le)
      (fun value encoding => encoding = leBytes 4 value.toNat) 0 :=
  readsBytes_fixed reads_u32_le

theorem readsBytes_s64_le :
    ReadsBytes (bufferReadS64 · .le)
      (fun value encoding => encoding = leBytes 8 value.toUInt64.toNat) 0 :=
  readsBytes_fixed reads_s64_le

theorem readsBytes_varint :
    ReadsBytes bufferReadVarint
      (fun value encoding => VarintFormat value.toNat encoding) 0 := by
  refine ⟨reads_varint, fun {buffer} fails => ?_⟩
  unfold bufferReadVarint at fails ⊢
  split at fails
  · rfl
  · cases fails

/-- Reads of the same bytes. -/
theorem ReadsBytes.same
    {read : Buffer → Read α} {format : α → List UInt8 → Prop} {zero : α}
    (reads : ReadsBytes read format zero) {size : Nat}
    {first second : Buffer} (same : SameInput size first second) :
    (read first).ok = (read second).ok ∧
      (read first).value = (read second).value ∧
        SameInput size (read first).buffer (read second).buffer := by
  cases firstOk : (read first).ok with
  | true =>
      obtain ⟨encoding, isValue, isPrefix, advanced⟩ :=
        reads.reads.sound same.firstWf firstOk
      have other :=
        reads.reads.complete same.secondWf isValue (same.rest ▸ isPrefix)
      rw [other, advanced]
      exact ⟨rfl, rfl, same.advance isPrefix.length_le⟩
  | false =>
      cases secondOk : (read second).ok with
      | true =>
          obtain ⟨encoding, isValue, isPrefix, _⟩ :=
            reads.reads.sound same.secondWf secondOk
          have other :=
            reads.reads.complete same.firstWf isValue
              (same.rest.symm ▸ isPrefix)
          rw [other] at firstOk
          cases firstOk
      | false =>
          rw [reads.fails firstOk, reads.fails secondOk]
          exact ⟨rfl, rfl, same⟩

theorem seekCur_of_le
    {buffer : Buffer} {store : τ} {length : Nat} {code : ε} (wf : buffer.Wf)
    (available : length ≤ buffer.rest.length) :
    seekCur length code ⟨buffer, store⟩ =
      (.ok (), ⟨buffer.advance length, store⟩) := by
  simp only [seekCur, wf.seekCur_of_le available, if_true]

theorem seekCur_of_lt
    {buffer : Buffer} {store : τ} {length : Nat} {code : ε} (wf : buffer.Wf)
    (missing : buffer.rest.length < length) (small : length < sizeModulus) :
    seekCur length code ⟨buffer, store⟩ =
      (.error code, ⟨buffer, store⟩) := by
  simp only [seekCur, wf.seekCur_of_lt missing small, Bool.false_eq_true,
    if_false]

/-- Two scans of the same bytes with related records. -/
def Paired (size : Nat) (related : τ → τ → Prop) (first second : Scan τ) :
    Prop :=
  SameInput size first.buf second.buf ∧ related first.store second.store

section

variable {size : Nat} {related left : τ → τ → Prop}

theorem Agree.readField
    {read : Buffer → Read α} {format : α → List UInt8 → Prop} {zero : α}
    (reads : ReadsBytes read format zero) (put : α → τ → τ) (code : ε)
    {after : α → τ → τ → Prop}
    (leaves : ∀ {first second}, related first second →
      left (put zero first) (put zero second))
    (stores : ∀ {first second} value, related first second →
      after value (put value first) (put value second)) :
    Agree (Paired size related) (Paired size left)
      (fun value => Paired size (after value)) (readField read put code)
      (readField read put code) := by
  refine ⟨?_⟩
  rintro ⟨first, tx⟩ ⟨second, tx'⟩ ⟨same, stored⟩
  obtain ⟨sameOk, sameValue, sameBuffer⟩ := reads.same same
  unfold Neo3App.readField
  cases firstOk : (read first).ok with
  | true =>
      simp only [firstOk, ← sameOk, if_true, ← sameValue]
      exact .ok ⟨sameBuffer, stores _ stored⟩
  | false =>
      have secondOk : (read second).ok = false := sameOk ▸ firstOk
      simp only [reads.fails firstOk, reads.fails secondOk,
        Bool.false_eq_true, if_false]
      exact .error ⟨same, leaves stored⟩

theorem Agree.readLocal
    {read : Buffer → Read α} {format : α → List UInt8 → Prop} {zero : α}
    (reads : ReadsBytes read format zero) (code : ε)
    (leaves : ∀ {first second}, related first second → left first second) :
    Agree (Paired size related) (Paired size left)
      (fun _ => Paired size related) (readLocal read code)
      (readLocal read code) :=
  Agree.readField reads (fun _ store => store) code leaves
    fun _ stored => stored

theorem Agree.seekCur
    {length : Nat} (small : length < sizeModulus) (code : ε)
    (leaves : ∀ {first second}, related first second → left first second) :
    Agree (Paired size related) (Paired size left)
      (fun _ => Paired size related) (seekCur length code)
      (seekCur length code) := by
  refine ⟨?_⟩
  rintro ⟨first, tx⟩ ⟨second, tx'⟩ ⟨same, stored⟩
  by_cases available : length ≤ first.rest.length
  · rw [seekCur_of_le same.firstWf available,
      seekCur_of_le same.secondWf (same.rest ▸ available)]
    exact .ok ⟨same.advance available, stored⟩
  · have missing := Nat.lt_of_not_le available
    rw [seekCur_of_lt same.firstWf missing small,
      seekCur_of_lt same.secondWf (same.rest ▸ missing) small]
    exact .error ⟨same, leaves stored⟩

theorem Agree.check
    (condition : Prop) [Decidable condition] (code : ε)
    {next other : Unit → Parser τ ε α} {final : α → τ → τ → Prop}
    (leaves : ∀ {first second}, related first second → left first second)
    (tail : ¬ condition → Agree (Paired size related) (Paired size left)
      (fun value => Paired size (final value)) (next ()) (other ())) :
    Agree (Paired size related) (Paired size left)
      (fun value => Paired size (final value))
      (exitIf condition code >>= next) (exitIf condition code >>= other) :=
  Agree.guard condition code (fun both => ⟨both.1, leaves both.2⟩) tail

theorem Agree.assignField
    {put : τ → τ} {after : τ → τ → Prop}
    (stores : ∀ {first second}, related first second →
      after (put first) (put second)) :
    Agree (Paired size related) (Paired size left)
      (fun _ => Paired size after)
      (assignField put : Parser τ ε Unit) (assignField put) :=
  Agree.assign fun same => ⟨same.1, stores same.2⟩

theorem Agree.markField
    {put : Ptr → τ → τ} {after : τ → τ → Prop}
    (stores : ∀ position {first second}, related first second →
      after (put position first) (put position second)) :
    Agree (Paired size related) (Paired size left)
      (fun _ => Paired size after)
      (markField put : Parser τ ε Unit) (markField put) := by
  apply Agree.assign
  intro first second both
  have sameOffset := both.1.offset
  refine ⟨both.1, ?_⟩
  change after (put (some first.buf.offset) first.store)
    (put (some second.buf.offset) second.store)
  rw [sameOffset]
  exact stores _ both.2

/-- A pointer is stored, and the bytes that it designates are skipped. -/
theorem Agree.markField_seekCur
    {put : Ptr → τ → τ} {length : Nat} (small : length < sizeModulus)
    (code : ε) {after : τ → τ → Prop} {next : Unit → Parser τ ε α}
    {final : α → τ → τ → Prop}
    (leaves : ∀ position {first second}, related first second →
      left (put position first) (put position second))
    (stores : ∀ {position} {first second}, position + length ≤ size →
      related first second →
        after (put (some position) first) (put (some position) second))
    (tail : Agree (Paired size after) (Paired size left)
      (fun value => Paired size (final value)) (next ()) (next ())) :
    Agree (Paired size related) (Paired size left)
      (fun value => Paired size (final value))
      (Neo3App.markField put >>= fun _ =>
        Neo3App.seekCur length code >>= next)
      (Neo3App.markField put >>= fun _ =>
        Neo3App.seekCur length code >>= next) := by
  refine ⟨?_⟩
  rintro ⟨first, tx⟩ ⟨second, tx'⟩ ⟨same, stored⟩
  unfold Neo3App.markField
  rw [assign_bind, assign_bind]
  have sameOffset : first.offset = second.offset := same.offset
  by_cases available : length ≤ first.rest.length
  · have inside : first.offset + length ≤ size := by
      have rest := same.firstWf.length_rest
      have offset := same.firstWf.offset_le
      have firstSize : first.size = size := same.firstSize
      change first.rest.length = first.size - first.offset at rest
      change first.offset ≤ first.size at offset
      omega
    rw [bind_of_ok (seekCur_of_le same.firstWf available),
      bind_of_ok (seekCur_of_le same.secondWf (same.rest ▸ available))]
    refine tail.run ⟨same.advance available, ?_⟩
    rw [← sameOffset]
    exact stores inside stored
  · have missing := Nat.lt_of_not_le available
    rw [bind_of_error (seekCur_of_lt same.firstWf missing small),
      bind_of_error
        (seekCur_of_lt same.secondWf (same.rest ▸ missing) small)]
    refine .error ⟨same, ?_⟩
    rw [← sameOffset]
    exact leaves _ stored

end

end Neo3App
