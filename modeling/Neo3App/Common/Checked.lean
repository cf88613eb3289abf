import Neo3App.Common.Paired
import Neo3App.Lib.Guarded
import Neo3App.Lib.Slots

/-!
# Checked scanning

The primitive steps of the parsers once more, with every access checked: a
byte is fetched alone and from inside the buffer, the unsigned difference of
size and offset is only formed where the offset is inside, an index stays
inside its array and a narrowed integer keeps its value.
-/

namespace Neo3App

open Neo3App.Lib
open Neo3App.Lib.EarlyExit

/-- What can go wrong at an access. -/
inductive Fault where
  | offset
  | byte
  | null
  | cell
  | narrowing
  deriving DecidableEq, Repr

abbrev Checked (τ ε α : Type) : Type :=
  EarlyExit (Scan τ) (Fault ⊕ ε) α

variable {τ ε α β : Type}

/-- `buffer->ptr[index]`. -/
def fetch (index : Nat) : Checked τ ε UInt8 := do
  demand (fun scan => decide (index < scan.buf.size)) .byte
  inspect fun scan => byteAt scan.buf.ptr index

def fetchBytes : (count index : Nat) → Checked τ ε (List UInt8)
  | 0, _ => pure []
  | count + 1, index => do
      let byte ← fetch index
      let bytes ← fetchBytes count (index + 1)
      pure (byte :: bytes)

def fetchAt (length : Nat) : Ptr → Checked τ ε (List UInt8)
  | none => fail .null
  | some position => fetchBytes length position

def demandInside : Checked τ ε Unit :=
  demand (fun scan => decide (scan.buf.offset ≤ scan.buf.size)) .offset

/-- `buffer->size - buffer->offset`. -/
def unread : Checked τ ε Nat := do
  demandInside
  inspect fun scan => sizeSub scan.buf.size scan.buf.offset

/-- `buffer_seek_cur(buffer, length)`. -/
def skip (length : Nat) : Checked τ ε Bool := do
  let result ← inspect fun scan => bufferSeekCur scan.buf length
  EarlyExit.assign fun scan => { scan with buf := result.2 }
  demandInside
  pure result.1

/-- The value of the `width` bytes at the offset, which are then skipped. -/
def checkedValue (width : Nat) (read : List UInt8 → Nat → α) :
    Checked τ ε (Bool × α) := do
  let position ← inspect fun scan => scan.buf.offset
  let bytes ← fetchBytes width position
  let _ ← skip width
  pure (true, read bytes 0)

def checkedRead (width : Nat) (read : List UInt8 → Nat → α) (zero : α) :
    Checked τ ε (Bool × α) := do
  let left ← unread
  if left < width then pure (false, zero) else checkedValue width read

def checkedU8 : Checked τ ε (Bool × UInt8) :=
  checkedRead 1 byteAt 0

def checkedS8 : Checked τ ε (Bool × Int8) :=
  checkedRead 1 (fun ptr offset => (byteAt ptr offset).toInt8) 0

def checkedU16Be : Checked τ ε (Bool × UInt16) :=
  checkedRead 2 readU16Be 0

def checkedS16Le : Checked τ ε (Bool × Int16) :=
  checkedRead 2 readS16Le 0

def checkedU32Le : Checked τ ε (Bool × UInt32) :=
  checkedRead 4 readU32Le 0

def checkedS32Le : Checked τ ε (Bool × Int32) :=
  checkedRead 4 readS32Le 0

def checkedS64Le : Checked τ ε (Bool × Int64) :=
  checkedRead 8 readS64Le 0

/-- A form of a variable-length integer that takes `width` bytes: the first
one has been fetched and `left` are there. -/
def checkedForm (left width : Nat) (read : List UInt8 → UInt64) :
    Checked τ ε (Bool × UInt64) := do
  if left < width then pure (false, 0) else
    checkedValue width fun bytes _ => read bytes

def checkedVarint : Checked τ ε (Bool × UInt64) := do
  let left ← unread
  if left < 1 then pure (false, 0) else do
    let position ← inspect fun scan => scan.buf.offset
    let first ← fetch position
    if first = 0xFD then
      checkedForm left 3 fun input => (readU16Le input 1).toUInt64
    else if first = 0xFE then
      checkedForm left 5 fun input => (readU32Le input 1).toUInt64
    else if first = 0xFF then
      checkedForm left 9 fun input => readU64Le input 1
    else
      checkedForm left 1 fun input => (byteAt input 0).toUInt64

/-- `if (!buffer_read_…(buf, &field)) return code;` -/
def checkedField (read : Checked τ ε (Bool × α)) (put : α → τ → τ)
    (code : ε) : Checked τ ε α := do
  let result ← read
  EarlyExit.assign fun scan =>
    { scan with store := put result.2 scan.store }
  exitIf (result.1 = false) (.inr code)
  pure result.2

def checkedLocal (read : Checked τ ε (Bool × α)) (code : ε) :
    Checked τ ε α :=
  checkedField read (fun _ store => store) code

/-- `if (!buffer_seek_cur(buf, length)) return code;` -/
def checkedSeek (length : Nat) (code : ε) : Checked τ ε Unit := do
  let ok ← skip length
  exitIf (ok = false) (.inr code)

/-- An assignment that indexes arrays. -/
def checkedAssign (put : τ → Except Fault τ) : Checked τ ε Unit := do
  let store ← lookUp fun scan : Scan τ => put scan.store
  EarlyExit.assign fun scan => { scan with store := store }

/-- `field = buf->ptr + buf->offset;` where the field is in an array. -/
def checkedMark (put : Ptr → τ → Except Fault τ) : Checked τ ε Unit := do
  let position ← inspect fun scan => scan.buf.offset
  checkedAssign (put (some position))

def cell {count : Nat} (array : Vector α count) (index : Nat) :
    Except Fault α :=
  if inside : index < count then .ok array[index] else .error .cell

def setCell {count : Nat} (array : Vector α count) (index : Nat)
    (change : α → Except Fault α) : Except Fault (Vector α count) :=
  if inside : index < count then do
    let value ← change array[index]
    pure (array.set index value)
  else
    .error .cell

/-- A 64-bit value as one below `bound`. -/
def narrow (bound : Nat) (value : UInt64) : Checked τ ε Nat :=
  lookUp fun _ =>
    if value.toNat < bound then .ok value.toNat else .error .narrowing

/-! ## No check of a byte fails -/

theorem byteAt_take {memory : List UInt8} {count index : Nat}
    (inside : index < count) :
    byteAt (memory.take count) index = byteAt memory index := by
  rw [byteAt, byteAt, List.getD_eq_getElem?_getD,
    List.getD_eq_getElem?_getD, List.getElem?_take_of_lt inside]

theorem fetch_of_lt
    {scan : Scan τ} {index : Nat} (inside : index < scan.buf.size) :
    (fetch index : Checked τ ε UInt8) scan =
      (.ok (byteAt scan.buf.ptr index), scan) := by
  unfold fetch
  rw [bind_of_ok (demand_of_true (by simpa using inside)), inspect_apply]

theorem fetchBytes_eq
    {scan : Scan τ} {count index : Nat}
    (inside : index + count ≤ scan.buf.size)
    (held : scan.buf.size ≤ scan.buf.ptr.length) :
    (fetchBytes count index : Checked τ ε (List UInt8)) scan =
      (.ok ((scan.buf.ptr.drop index).take count), scan) := by
  induction count generalizing index with
  | zero =>
      rfl
  | succ count ih =>
      have first : index < scan.buf.ptr.length := by omega
      have here : byteAt scan.buf.ptr index = scan.buf.ptr[index] := by
        simp [byteAt, first]
      unfold fetchBytes
      rw [bind_of_ok (fetch_of_lt (by omega)), bind_of_ok (ih (by omega)),
        pure_apply, here, List.drop_eq_getElem_cons first,
        List.take_succ_cons]

theorem demandInside_of_le
    {scan : Scan τ} (inside : scan.buf.offset ≤ scan.buf.size) :
    (demandInside : Checked τ ε Unit) scan = (.ok (), scan) :=
  demand_of_true (by simpa using inside)

theorem unread_eq {scan : Scan τ} (wf : scan.buf.Wf) :
    (unread : Checked τ ε Nat) scan =
      (.ok scan.buf.rest.length, scan) := by
  unfold unread
  rw [bind_of_ok (demandInside_of_le wf.offset_le), inspect_apply,
    wf.sizeSub_eq]

theorem skip_eq
    {scan : Scan τ} {length : Nat} {ok : Bool} {buffer : Buffer}
    (seek : bufferSeekCur scan.buf length = (ok, buffer))
    (inside : buffer.offset ≤ buffer.size) :
    (skip length : Checked τ ε Bool) scan =
      (.ok ok, { scan with buf := buffer }) := by
  unfold skip
  rw [inspect_bind, assign_bind, seek,
    bind_of_ok (demandInside_of_le inside), pure_apply]

theorem skip_of_le
    {scan : Scan τ} (wf : scan.buf.Wf) {length : Nat}
    (available : length ≤ scan.buf.rest.length) :
    (skip length : Checked τ ε Bool) scan =
      (.ok true, { scan with buf := scan.buf.advance length }) :=
  skip_eq (wf.seekCur_of_le available) (wf.advance available).offset_le

theorem skip_of_lt
    {scan : Scan τ} (wf : scan.buf.Wf) {length : Nat}
    (missing : scan.buf.rest.length < length)
    (small : length < sizeModulus) :
    (skip length : Checked τ ε Bool) scan = (.ok false, scan) :=
  skip_eq (wf.seekCur_of_lt missing small) wf.offset_le

/-- The reader looks at `width` bytes only. -/
def LooksAt (width : Nat) (read : List UInt8 → Nat → α) : Prop :=
  ∀ ptr offset, read ((ptr.drop offset).take width) 0 = read ptr offset

theorem checkedValue_eq
    {width : Nat} {read : List UInt8 → Nat → α} {scan : Scan τ}
    (wf : scan.buf.Wf) (available : width ≤ scan.buf.rest.length) :
    (checkedValue width read : Checked τ ε (Bool × α)) scan =
      (.ok (true, read ((scan.buf.ptr.drop scan.buf.offset).take width) 0),
        { scan with buf := scan.buf.advance width }) := by
  have rest := wf.length_rest
  have offset := wf.offset_le
  unfold checkedValue
  rw [inspect_bind, bind_of_ok (fetchBytes_eq (by omega) wf.size_le),
    bind_of_ok (skip_of_le wf available), pure_apply]

/-- The steps of `checked` are those of the reading function `read`. -/
def Fetches (checked : Checked τ ε (Bool × α)) (read : Buffer → Read α) :
    Prop :=
  ∀ {scan : Scan τ}, scan.buf.Wf →
    checked scan =
      (.ok ((read scan.buf).ok, (read scan.buf).value),
        { scan with buf := (read scan.buf).buffer })

theorem fetches_fixed
    {width : Nat} {read : List UInt8 → Nat → α} {zero : α}
    (looks : LooksAt width read) :
    Fetches (checkedRead width read zero : Checked τ ε (Bool × α))
      (bufferRead width read zero) := by
  intro scan wf
  unfold checkedRead
  rw [bind_of_ok (unread_eq wf)]
  by_cases available : width ≤ scan.buf.rest.length
  · rw [if_neg (Nat.not_lt.mpr available), checkedValue_eq wf available,
      looks, wf.read_of_le read zero available]
  · rw [if_pos (Nat.lt_of_not_le available), pure_apply,
      wf.read_of_lt read zero (Nat.lt_of_not_le available)]

theorem fetches_u8 :
    Fetches (checkedU8 : Checked τ ε (Bool × UInt8)) bufferReadU8 :=
  fetches_fixed fun ptr offset => by simp [byteAt_take]

theorem fetches_s8 :
    Fetches (checkedS8 : Checked τ ε (Bool × Int8)) bufferReadS8 :=
  fetches_fixed fun ptr offset => by simp [byteAt_take]

theorem fetches_u16_be :
    Fetches (checkedU16Be : Checked τ ε (Bool × UInt16))
      (bufferReadU16 · .be) :=
  fetches_fixed fun ptr offset => by simp [readU16Be, byteAt_take]

theorem looksAt_u16Le : LooksAt 2 readU16Le :=
  fun ptr offset => by simp [readU16Le, byteAt_take]

theorem looksAt_u32Le : LooksAt 4 readU32Le :=
  fun ptr offset => by simp [readU32Le, byteAt_take]

theorem looksAt_u64Le : LooksAt 8 readU64Le :=
  fun ptr offset => by simp [readU64Le, byteAt_take]

theorem fetches_s16_le :
    Fetches (checkedS16Le : Checked τ ε (Bool × Int16))
      (bufferReadS16 · .le) :=
  fetches_fixed fun ptr offset =>
    congrArg UInt16.toInt16 (looksAt_u16Le ptr offset)

theorem fetches_u32_le :
    Fetches (checkedU32Le : Checked τ ε (Bool × UInt32))
      (bufferReadU32 · .le) :=
  fetches_fixed looksAt_u32Le

theorem fetches_s32_le :
    Fetches (checkedS32Le : Checked τ ε (Bool × Int32))
      (bufferReadS32 · .le) :=
  fetches_fixed fun ptr offset =>
    congrArg UInt32.toInt32 (looksAt_u32Le ptr offset)

theorem fetches_s64_le :
    Fetches (checkedS64Le : Checked τ ε (Bool × Int64))
      (bufferReadS64 · .le) :=
  fetches_fixed fun ptr offset =>
    congrArg UInt64.toInt64 (looksAt_u64Le ptr offset)

/-- One form of a variable-length integer, against `varint_read`. -/
theorem checkedForm_eq
    {scan : Scan τ} (wf : scan.buf.Wf) {width : Nat} {value : UInt64}
    {read : List UInt8 → UInt64}
    (reads :
      read ((scan.buf.ptr.drop scan.buf.offset).take width) = value)
    (isRead :
      varintRead (scan.buf.ptr.drop scan.buf.offset) scan.buf.rest.length =
        if scan.buf.rest.length < width then none
        else some (width, value)) :
    (checkedForm scan.buf.rest.length width read :
        Checked τ ε (Bool × UInt64)) scan =
      (.ok ((bufferReadVarint scan.buf).ok,
          (bufferReadVarint scan.buf).value),
        { scan with buf := (bufferReadVarint scan.buf).buffer }) := by
  unfold checkedForm bufferReadVarint
  rw [wf.sizeSub_eq, isRead]
  by_cases available : width ≤ scan.buf.rest.length
  · rw [if_neg (Nat.not_lt.mpr available),
      if_neg (Nat.not_lt.mpr available), checkedValue_eq wf available, reads]
    simp only [wf.seekCur_of_le available]
  · rw [if_pos (Nat.lt_of_not_le available),
      if_pos (Nat.lt_of_not_le available), pure_apply]

theorem fetches_varint :
    Fetches (checkedVarint : Checked τ ε (Bool × UInt64))
      bufferReadVarint := by
  intro scan wf
  have rest := wf.length_rest
  have offset := wf.offset_le
  unfold checkedVarint
  rw [bind_of_ok (unread_eq wf)]
  by_cases empty : scan.buf.rest.length < 1
  · rw [if_pos empty, pure_apply]
    unfold bufferReadVarint varintRead
    rw [wf.sizeSub_eq, if_pos empty]
  have here : byteAt scan.buf.ptr scan.buf.offset =
      byteAt (scan.buf.ptr.drop scan.buf.offset) 0 := by
    rw [byteAt_drop, Nat.add_zero]
  rw [if_neg empty, inspect_bind, bind_of_ok (fetch_of_lt (by omega)), here]
  by_cases three : byteAt (scan.buf.ptr.drop scan.buf.offset) 0 = 0xFD
  · rw [if_pos three]
    refine
      checkedForm_eq wf ?_
        (by rw [varintRead, if_neg empty, if_pos three])
    simp [readU16Le, byteAt_take]
  by_cases five : byteAt (scan.buf.ptr.drop scan.buf.offset) 0 = 0xFE
  · rw [if_neg three, if_pos five]
    refine
      checkedForm_eq wf ?_
        (by rw [varintRead, if_neg empty, if_neg three, if_pos five])
    simp [readU32Le, byteAt_take]
  by_cases nine : byteAt (scan.buf.ptr.drop scan.buf.offset) 0 = 0xFF
  · rw [if_neg three, if_neg five, if_pos nine]
    refine
      checkedForm_eq wf ?_
        (by
          rw [varintRead, if_neg empty, if_neg three, if_neg five,
            if_pos nine])
    simp [readU64Le, byteAt_take]
  rw [if_neg three, if_neg five, if_neg nine]
  refine checkedForm_eq wf (by rw [byteAt_take Nat.one_pos]) ?_
  rw [varintRead, if_neg empty, if_neg three, if_neg five, if_neg nine,
    if_neg empty]

theorem faultless_readField
    (read : Buffer → Read α) (put : α → τ → τ) (code : ε) (scan : Scan τ) :
    (faultless (readField read put code) : Checked τ ε α) scan =
      if (read scan.buf).ok then
        (.ok (read scan.buf).value,
          ⟨(read scan.buf).buffer, put (read scan.buf).value scan.store⟩)
      else
        (.error (.inr code),
          ⟨(read scan.buf).buffer, put (read scan.buf).value scan.store⟩) := by
  unfold faultless readField
  cases ok : (read scan.buf).ok <;> simp [ok]

/-- A field is read; what is known afterwards is what its value and the bytes
that were skipped leave. -/
theorem Guards.readField
    {checked : Checked τ ε (Bool × α)} {read : Buffer → Read α}
    (fetches : Fetches checked read) {format : α → List UInt8 → Prop}
    {zero : α} (reads : ReadsBytes read format zero)
    (put : α → τ → τ) (code : ε) {before : Scan τ → Prop}
    {after : α → Scan τ → Prop}
    (wf : ∀ {scan}, before scan → scan.buf.Wf)
    (stores : ∀ {scan} value count, before scan →
      count ≤ scan.buf.rest.length →
        after value ⟨scan.buf.advance count, put value scan.store⟩) :
    Guards before after (checkedField checked put code)
      (Neo3App.readField read put code) := by
  apply Guards.of_eq
  · intro scan holds
    rw [faultless_readField]
    unfold checkedField
    rw [bind_of_ok (fetches (wf holds)), assign_bind, exitIf_bind]
    cases ok : (read scan.buf).ok with
    | true => rfl
    | false => rfl
  · intro scan final value holds run
    unfold Neo3App.readField at run
    cases ok : (read scan.buf).ok with
    | true =>
        obtain ⟨encoding, _, isPrefix, advanced⟩ :=
          reads.reads.sound (wf holds) ok
        simp only [ok, if_true, advanced] at run
        cases run
        exact stores _ _ holds isPrefix.length_le
    | false =>
        simp only [ok, Bool.false_eq_true, if_false] at run
        cases run

theorem Guards.seekCur
    {length : Nat} (small : length < sizeModulus) (code : ε)
    {before after : Scan τ → Prop}
    (wf : ∀ {scan}, before scan → scan.buf.Wf)
    (stores : ∀ {scan}, before scan → length ≤ scan.buf.rest.length →
      after ⟨scan.buf.advance length, scan.store⟩) :
    Guards before (fun _ => after) (checkedSeek length code)
      (Neo3App.seekCur length code) := by
  apply Guards.of_eq
  · rintro ⟨buffer, store⟩ holds
    have isWf : buffer.Wf := wf holds
    unfold checkedSeek
    by_cases available : length ≤ buffer.rest.length
    · rw [bind_of_ok (skip_of_le isWf available),
        faultless_of_ok (seekCur_of_le isWf available)]
      rfl
    · have missing := Nat.lt_of_not_le available
      rw [bind_of_ok (skip_of_lt isWf missing small),
        faultless_of_error (seekCur_of_lt isWf missing small)]
      rfl
  · rintro ⟨buffer, store⟩ final value holds run
    have isWf : buffer.Wf := wf holds
    by_cases available : length ≤ buffer.rest.length
    · rw [seekCur_of_le isWf available] at run
      cases run
      exact stores holds available
    · rw [seekCur_of_lt isWf (Nat.lt_of_not_le available) small] at run
      cases run

theorem checkedAssign_of_ok
    {put : τ → Except Fault τ} {scan : Scan τ} {store : τ}
    (inside : put scan.store = .ok store) :
    (checkedAssign put : Checked τ ε Unit) scan =
      (.ok (), { scan with store := store }) := by
  have found :
      (lookUp fun scan : Scan τ => put scan.store : Checked τ ε τ) scan =
        (.ok store, scan) :=
    lookUp_of_ok inside
  unfold checkedAssign
  rw [bind_of_ok found, assign_apply]

/-- An assignment whose indices are inside their arrays. -/
theorem Guards.assignField
    {checkedPut : τ → Except Fault τ} {put : τ → τ}
    {before after : Scan τ → Prop}
    (inside : ∀ {scan}, before scan →
      checkedPut scan.store = .ok (put scan.store))
    (stores : ∀ {scan}, before scan →
      after ⟨scan.buf, put scan.store⟩) :
    Guards before (fun _ => after) (checkedAssign checkedPut)
      (Neo3App.assignField put : Parser τ ε Unit) := by
  apply Guards.of_eq
  · intro scan holds
    rw [checkedAssign_of_ok (inside holds)]
    rfl
  · intro scan final value holds run
    cases run
    exact stores holds

theorem Guards.markField
    {checkedPut : Ptr → τ → Except Fault τ} {put : Ptr → τ → τ}
    {before after : Scan τ → Prop}
    (inside : ∀ {scan} position, before scan →
      checkedPut position scan.store = .ok (put position scan.store))
    (stores : ∀ {scan}, before scan →
      after ⟨scan.buf, put (some scan.buf.offset) scan.store⟩) :
    Guards before (fun _ => after) (checkedMark checkedPut)
      (Neo3App.markField put : Parser τ ε Unit) := by
  apply Guards.of_eq
  · intro scan holds
    unfold checkedMark
    rw [inspect_bind, checkedAssign_of_ok (inside _ holds)]
    rfl
  · intro scan final value holds run
    cases run
    exact stores holds

theorem cell_of_lt
    [Inhabited α] {count : Nat} (array : Vector α count) {index : Nat}
    (inside : index < count) : cell array index = .ok (slot array index) := by
  rw [cell, dif_pos inside, slot_of_lt array inside]

theorem setCell_of_lt
    [Inhabited α] {count : Nat} (array : Vector α count) {index : Nat}
    (inside : index < count) {checkedChange : α → Except Fault α}
    {change : α → α}
    (changes : ∀ value, checkedChange value = .ok (change value)) :
    setCell array index checkedChange =
      .ok (modifySlot array index change) := by
  have same : array.set index (change array[index]) =
      modifySlot array index change := by
    ext position here
    rw [getElem_modifySlot _ _ _ here, Vector.getElem_set]
    by_cases this : index = position
    · subst this
      rw [if_pos rfl]
    · rw [if_neg this, if_neg (Ne.symm this)]
  rw [setCell, dif_pos inside, changes, ← same]
  rfl

theorem setCell_pure_of_lt
    [Inhabited α] {count : Nat} (array : Vector α count) {index : Nat}
    (inside : index < count) (value : α) :
    setCell array index (fun _ => pure value) =
      .ok (modifySlot array index fun _ => value) :=
  setCell_of_lt array inside fun _ => rfl

/-- A narrowed value goes on as it was. -/
theorem Guards.narrow
    {bound : Nat} {value : UInt64} (small : value.toNat < bound)
    {before : Scan τ → Prop} {after : α → Scan τ → Prop}
    {checkedNext : Nat → Checked τ ε α} {body : Parser τ ε α}
    (tail : Guards before after (checkedNext value.toNat) body) :
    Guards before after (Neo3App.narrow bound value >>= checkedNext) body := by
  have kept (scan : Scan τ) :
      (Neo3App.narrow bound value >>= checkedNext) scan =
        checkedNext value.toNat scan := by
    unfold Neo3App.narrow
    rw [bind_of_ok (lookUp_of_ok (by rw [if_pos small]))]
  refine ⟨fun {s t} both => ?_⟩
  rw [kept]
  exact tail.run both

end Neo3App
