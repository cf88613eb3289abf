import Neo3App.Common.Scan
import Neo3App.Lib.Labelled

/-!
# Reading a text that ends early

`Walks` follows a parser through a labelled text.  On the whole text the
parser succeeds; where the bytes end before the text does, it leaves with the
code that is reported for the part of the first missing byte.  The rules
compose these facts along the parser.
-/

namespace Neo3App

open Neo3App.Lib

variable {τ ε κ α β : Type}

/-- `parser` reads `text` and returns `value`.  `known` is what it must know
of the memory and the record before, `next` what is known afterwards. -/
structure Walks (report : κ → ε) (known : List UInt8 → τ → Prop)
    (parser : Parser τ ε α) (text : List (κ × UInt8)) (value : α)
    (next : List UInt8 → τ → Prop) : Prop where
  whole :
    ∀ {scan : Scan τ}, scan.buf.Wf → known scan.buf.ptr scan.store →
      plain text <+: scan.buf.rest →
        ∃ store, next scan.buf.ptr store ∧
          parser scan = (.ok value, ⟨scan.buf.advance text.length, store⟩)
  cut :
    ∀ {scan : Scan τ} {n : Nat} (inside : n < text.length),
      scan.buf.Wf → known scan.buf.ptr scan.store →
      scan.buf.rest = (plain text).take n →
        ∃ final, parser scan = (.error (report text[n].1), final)

variable {report : κ → ε} {known middle next : List UInt8 → τ → Prop}

/-- One text after the other. -/
theorem Walks.bind
    {parser : Parser τ ε α} {onward : α → Parser τ ε β}
    {first second : List (κ × UInt8)} {value : α} {result : β}
    (firstWalks : Walks report known parser first value middle)
    (secondWalks : Walks report middle (onward value) second result next) :
    Walks report known (parser >>= onward) (first ++ second) result
      next where
  whole := by
    intro scan wf isKnown isPrefix
    rw [plain_append] at isPrefix
    have firstPrefix := (List.prefix_append _ _).trans isPrefix
    obtain ⟨store, isMiddle, firstRun⟩ :=
      firstWalks.whole wf isKnown firstPrefix
    have available : first.length ≤ scan.buf.rest.length := by
      rw [← length_plain]
      exact firstPrefix.length_le
    have secondPrefix :
        plain second <+: (scan.buf.advance first.length).rest := by
      obtain ⟨rest, split⟩ := isPrefix
      rw [Buffer.rest_advance, ← length_plain, ← split, List.append_assoc,
        List.drop_left]
      exact List.prefix_append _ _
    obtain ⟨final, isNext, secondRun⟩ :=
      secondWalks.whole
        (show (⟨scan.buf.advance first.length, store⟩ : Scan τ).buf.Wf from
          wf.advance available)
        isMiddle secondPrefix
    refine ⟨final, isNext, ?_⟩
    rw [EarlyExit.bind_of_ok firstRun, secondRun, Buffer.advance_advance,
      List.length_append]
  cut := by
    intro scan n inside wf isKnown rest
    rw [plain_append] at rest
    by_cases early : n < first.length
    · rw [List.take_append_of_le_length
        (by rw [length_plain]; exact early.le)] at rest
      obtain ⟨final, firstRun⟩ := firstWalks.cut early wf isKnown rest
      refine ⟨final, ?_⟩
      rw [EarlyExit.bind_of_error firstRun, List.getElem_append_left early]
    · obtain ⟨m, rfl⟩ := Nat.exists_eq_add_of_le (Nat.le_of_not_lt early)
      have later : m < second.length := by
        rw [List.length_append] at inside
        omega
      rw [← length_plain first, List.take_length_add_append] at rest
      have firstPrefix : plain first <+: scan.buf.rest := by
        rw [rest]
        exact List.prefix_append _ _
      obtain ⟨store, isMiddle, firstRun⟩ :=
        firstWalks.whole wf isKnown firstPrefix
      have available : first.length ≤ scan.buf.rest.length := by
        rw [← length_plain]
        exact firstPrefix.length_le
      have secondRest :
          (scan.buf.advance first.length).rest = (plain second).take m := by
        rw [Buffer.rest_advance, rest, ← length_plain, List.drop_left]
      obtain ⟨final, secondRun⟩ :=
        secondWalks.cut later
          (show (⟨scan.buf.advance first.length, store⟩ : Scan τ).buf.Wf from
            wf.advance available)
          isMiddle secondRest
      refine ⟨final, ?_⟩
      rw [EarlyExit.bind_of_ok firstRun, secondRun]
      simp only [List.getElem_append_right, Nat.le_add_right,
        Nat.add_sub_cancel_left]

/-- A step that reads nothing. -/
theorem Walks.silent
    {parser : Parser τ ε α} {value : α} (put : Scan τ → τ)
    (runs : ∀ scan : Scan τ, known scan.buf.ptr scan.store →
      parser scan = (.ok value, ⟨scan.buf, put scan⟩))
    (knownNext : ∀ scan : Scan τ, known scan.buf.ptr scan.store →
      next scan.buf.ptr (put scan)) :
    Walks report known parser [] value next where
  whole := by
    intro scan _ isKnown _
    exact ⟨put scan, knownNext scan isKnown, runs scan isKnown⟩
  cut := nofun

/-- A step that reads nothing, then the rest. -/
theorem Walks.afterSilent
    {parser : Parser τ ε α} {onward : α → Parser τ ε β}
    {text : List (κ × UInt8)} {value : α} {result : β}
    (firstWalks : Walks report known parser [] value middle)
    (restWalks : Walks report middle (onward value) text result next) :
    Walks report known (parser >>= onward) text result next :=
  firstWalks.bind restWalks

/-- The last step reads nothing. -/
theorem Walks.thenSilent
    {parser : Parser τ ε α} {onward : α → Parser τ ε β}
    {text : List (κ × UInt8)} {value : α} {result : β}
    (firstWalks : Walks report known parser text value middle)
    (restWalks : Walks report middle (onward value) [] result next) :
    Walks report known (parser >>= onward) text result next := by
  have sequence := firstWalks.bind restWalks
  rwa [List.append_nil] at sequence

theorem Walks.mono
    {parser : Parser τ ε α} {text : List (κ × UInt8)} {value : α}
    {before after : List UInt8 → τ → Prop}
    (walks : Walks report known parser text value next)
    (weaker : ∀ {memory store}, before memory store → known memory store)
    (stronger : ∀ {memory store}, next memory store → after memory store) :
    Walks report before parser text value after where
  whole := by
    intro scan wf isKnown isPrefix
    obtain ⟨store, isNext, run⟩ := walks.whole wf (weaker isKnown) isPrefix
    exact ⟨store, stronger isNext, run⟩
  cut inside wf isKnown := walks.cut inside wf (weaker isKnown)

theorem Walks.pure (value : α) :
    Walks report known (pure value : Parser τ ε α) [] value known :=
  Walks.silent Scan.store (fun _ _ => rfl) fun _ isKnown => isKnown

theorem Walks.assignField
    {put : τ → τ}
    (knownNext : ∀ {memory store}, known memory store →
      next memory (put store)) :
    Walks report known (assignField put : Parser τ ε Unit) [] () next :=
  Walks.silent (fun scan => put scan.store) (fun _ _ => rfl)
    fun _ isKnown => knownNext isKnown

theorem Walks.markField
    {put : Ptr → τ → τ}
    (knownNext : ∀ {memory store} position, known memory store →
      next memory (put position store)) :
    Walks report known (markField put : Parser τ ε Unit) [] () next :=
  Walks.silent (fun scan => put (some scan.buf.offset) scan.store)
    (fun _ _ => rfl) fun _ isKnown => knownNext _ isKnown

theorem Walks.exitIf
    {condition : Prop} [Decidable condition] (passes : ¬ condition)
    (code : ε) :
    Walks report known
      (EarlyExit.exitIf condition code : Parser τ ε Unit) [] () known :=
  Walks.silent Scan.store
    (fun _ _ => EarlyExit.exitIf_eq_ok_iff.mpr ⟨passes, rfl⟩)
    fun _ isKnown => isKnown

theorem Walks.exitWhen
    {condition : Scan τ → Bool} (code : ε)
    (passes : ∀ scan : Scan τ, known scan.buf.ptr scan.store →
      condition scan = false) :
    Walks report known
      (EarlyExit.exitWhen condition code : Parser τ ε Unit) [] () known :=
  Walks.silent Scan.store
    (fun scan isKnown =>
      EarlyExit.exitWhen_eq_ok_iff.mpr ⟨passes scan isKnown, rfl⟩)
    fun _ isKnown => isKnown

theorem Walks.readField
    {read : Buffer → Read α} {format : α → List UInt8 → Prop}
    (reads : Reads read format) {put : α → τ → τ} {code : ε} {name : κ}
    {value : α} {encoding : List UInt8} (isValue : format value encoding)
    (isCode : report name = code)
    (knownNext : ∀ {memory store}, known memory store →
      next memory (put value store)) :
    Walks report known (readField read put code) (label name encoding) value
      next where
  whole := by
    intro scan wf isKnown isPrefix
    rw [plain_label] at isPrefix
    refine ⟨put value scan.store, knownNext isKnown, ?_⟩
    rw [Neo3App.readField, reads.complete wf isValue isPrefix, length_label]
    rfl
  cut := by
    intro scan n inside wf _ rest
    rw [plain_label] at rest
    rw [length_label] at inside
    rw [getElem_label, isCode, Neo3App.readField]
    cases ok : (read scan.buf).ok with
    | false => exact ⟨_, rfl⟩
    | true =>
        obtain ⟨other, otherValue, isPrefix, _⟩ := reads.sound wf ok
        have short : other.length ≤ n := by
          have available := isPrefix.length_le
          rw [rest, List.length_take] at available
          omega
        have same :=
          reads.unique otherValue isValue
            (isPrefix.trans (rest ▸ List.take_prefix n encoding))
        rw [same.2] at short
        exact absurd inside (Nat.not_lt.mpr short)

theorem Walks.readLocal
    {read : Buffer → Read α} {format : α → List UInt8 → Prop}
    (reads : Reads read format) {code : ε} {name : κ} {value : α}
    {encoding : List UInt8} (isValue : format value encoding)
    (isCode : report name = code) :
    Walks report known (readLocal read code : Parser τ ε α)
      (label name encoding) value known :=
  Walks.readField reads isValue isCode fun isKnown => isKnown

theorem Walks.seekCur
    {length : Nat} (fits : length < sizeModulus) {code : ε} {name : κ}
    {bytes : List UInt8} (isLong : bytes.length = length)
    (isCode : report name = code) :
    Walks report known (seekCur length code : Parser τ ε Unit)
      (label name bytes) () known where
  whole := by
    intro scan wf isKnown isPrefix
    rw [plain_label] at isPrefix
    have available : length ≤ scan.buf.rest.length :=
      isLong ▸ isPrefix.length_le
    refine ⟨scan.store, isKnown, ?_⟩
    rw [Neo3App.seekCur, wf.seekCur_of_le available, length_label, isLong]
    rfl
  cut := by
    intro scan n inside wf _ rest
    rw [plain_label] at rest
    rw [length_label, isLong] at inside
    have missing : scan.buf.rest.length < length := by
      rw [rest, List.length_take]
      omega
    rw [getElem_label, isCode, Neo3App.seekCur,
      wf.seekCur_of_lt missing fits]
    exact ⟨_, rfl⟩

/-- A pointer is stored and the bytes it designates are skipped. -/
theorem Walks.slice
    {length : Nat} (fits : length < sizeModulus) {put : Ptr → τ → τ}
    {code : ε} {name : κ} {bytes : List UInt8}
    (isLong : bytes.length = length) (isCode : report name = code)
    (knownNext : ∀ {memory store position}, known memory store →
      deref memory length (some position) = bytes →
        next memory (put (some position) store)) :
    Walks report known
      (Neo3App.markField put >>= fun _ => Neo3App.seekCur length code :
        Parser τ ε Unit)
      (label name bytes) () next where
  whole := by
    intro scan wf isKnown isPrefix
    rw [plain_label] at isPrefix
    have available : length ≤ scan.buf.rest.length :=
      isLong ▸ isPrefix.length_le
    obtain ⟨beyond, memory⟩ := isPrefix.trans scan.buf.rest_prefix
    have sees :
        deref scan.buf.ptr length (some scan.buf.offset) = bytes := by
      rw [deref, ← memory, ← isLong, List.take_left]
    refine ⟨put (some scan.buf.offset) scan.store,
      knownNext isKnown sees, ?_⟩
    rw [Neo3App.markField, EarlyExit.assign_bind, Neo3App.seekCur]
    dsimp only
    rw [wf.seekCur_of_le available, length_label, isLong]
    rfl
  cut := by
    intro scan n inside wf _ rest
    rw [plain_label] at rest
    rw [length_label, isLong] at inside
    have missing : scan.buf.rest.length < length := by
      rw [rest, List.length_take]
      omega
    rw [getElem_label, isCode, Neo3App.markField, EarlyExit.assign_bind,
      Neo3App.seekCur]
    dsimp only
    rw [wf.seekCur_of_lt missing fits]
    exact ⟨_, rfl⟩

/-- A slice, then the rest. -/
theorem Walks.sliceThen
    {length : Nat} (fits : length < sizeModulus) {put : Ptr → τ → τ}
    {code : ε} {name : κ} {bytes : List UInt8}
    {onward : Unit → Parser τ ε β} {text : List (κ × UInt8)} {result : β}
    (isLong : bytes.length = length) (isCode : report name = code)
    (knownNext : ∀ {memory store position}, known memory store →
      deref memory length (some position) = bytes →
        middle memory (put (some position) store))
    (restWalks : Walks report middle (onward ()) text result next) :
    Walks report known
      (Neo3App.markField put >>= fun _ =>
        Neo3App.seekCur length code >>= onward)
      (label name bytes ++ text) result next := by
  rw [← EarlyExit.bind_assoc]
  exact (Walks.slice fits isLong isCode knownNext).bind restWalks

end Neo3App
