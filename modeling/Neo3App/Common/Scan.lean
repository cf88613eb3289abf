import Neo3App.Common.Buffer
import Neo3App.Lib.EarlyExit

/-!
# Scanning a buffer into a store

A parser of the source advances a buffer and fills a record, and returns at
the first field that does not fit.  `Accepts` describes such a parser by the
format it reads: which byte strings encode which layouts, and what storing a
layout does to the record.  A parser accepts exactly the encodings that
stand at its position; and where it fails, what it stored would have been
overwritten by storing any layout whose encoding is compatible with the
bytes at hand.  The rules compose these facts along the parser.
-/

namespace Neo3App

open Neo3App.Lib

/-- A buffer being read and the record being filled. -/
structure Scan (τ : Type) where
  buf : Buffer
  store : τ

abbrev Parser (τ ε α : Type) : Type :=
  EarlyExit (Scan τ) ε α

/-- Which layouts a byte string at a position encodes. -/
abbrev Format (ℓ : Type) : Type :=
  Nat → ℓ → List UInt8 → Prop

/-- One of two strings is a prefix of the other. -/
def Compatible (first second : List UInt8) : Prop :=
  first <+: second ∨ second <+: first

variable {τ ε α β ℓ κ : Type}

/-- `if (!buffer_read_…(buf, &field)) return code;`, where the field receives
the value whether or not the read succeeds. -/
def readField (read : Buffer → Read α) (put : α → τ → τ) (code : ε) :
    Parser τ ε α :=
  fun scan =>
    let result := read scan.buf
    let after := ⟨result.buffer, put result.value scan.store⟩
    if result.ok then (.ok result.value, after) else (.error code, after)

/-- `field = buf->ptr + buf->offset;` -/
def markField (put : Ptr → τ → τ) : Parser τ ε Unit :=
  EarlyExit.assign fun scan =>
    { scan with store := put (some scan.buf.offset) scan.store }

/-- `if (!buffer_seek_cur(buf, length)) return code;` -/
def seekCur (length : Nat) (code : ε) : Parser τ ε Unit :=
  fun scan =>
    let result := bufferSeekCur scan.buf length
    if result.1 then (.ok (), { scan with buf := result.2 })
    else (.error code, { scan with buf := result.2 })

/-- The `length` bytes that a pointer to the offset designates. -/
def peek (scan : Scan τ) (length : Nat) : List UInt8 :=
  (scan.buf.ptr.drop scan.buf.offset).take length

/-- A pointer to the next `length` bytes, which are then skipped. -/
def takeBytes (length : Nat) (code : ε) : Parser τ ε (List UInt8) := do
  let bytes ← EarlyExit.inspect fun scan => peek scan length
  seekCur length code
  pure bytes

def assignField (put : τ → τ) : Parser τ ε Unit :=
  EarlyExit.assign fun scan => { scan with store := put scan.store }

def readLocal (read : Buffer → Read α) (code : ε) : Parser τ ε α :=
  readField read (fun _ store => store) code

@[simp]
theorem readLocal_store
    (read : Buffer → Read α) (code : ε) (scan : Scan τ) :
    (readLocal read code scan).2.store = scan.store := by
  unfold readLocal readField
  by_cases ok : (read scan.buf).ok = true <;> simp [ok]

theorem Exits.readField
    {allowed : ε → Prop} (read : Buffer → Read α) (put : α → τ → τ)
    {code : ε} (isAllowed : allowed code) :
    (readField read put code).Exits allowed := by
  intro scan final left run
  unfold Neo3App.readField at run
  by_cases ok : (read scan.buf).ok = true
  · simp [ok] at run
  · simp only [ok, Bool.false_eq_true, if_false] at run
    cases run
    exact isAllowed

theorem Exits.seekCur
    {allowed : ε → Prop} (length : Nat) {code : ε}
    (isAllowed : allowed code) :
    (seekCur length code : Parser τ ε Unit).Exits allowed := by
  intro scan final left run
  unfold Neo3App.seekCur at run
  by_cases ok : (bufferSeekCur scan.buf length).1 = true
  · simp [ok] at run
  · simp only [ok, Bool.false_eq_true, if_false] at run
    cases run
    exact isAllowed

theorem Keeps.readField
    {γ : Type} {view : τ → γ} (read : Buffer → Read α) {put : α → τ → τ}
    (code : ε) (kept : ∀ value store, view (put value store) = view store) :
    (readField read put code).Keeps fun scan : Scan τ => view scan.store := by
  intro scan
  unfold Neo3App.readField
  by_cases ok : (read scan.buf).ok = true <;> simp [ok, kept]

theorem Keeps.readLocal
    {γ : Type} (view : τ → γ) (read : Buffer → Read α) (code : ε) :
    (readLocal read code).Keeps fun scan : Scan τ => view scan.store :=
  fun scan => congrArg view (readLocal_store read code scan)

theorem Keeps.seekCur
    {γ : Type} (view : τ → γ) (length : Nat) (code : ε) :
    (seekCur length code).Keeps fun scan : Scan τ => view scan.store := by
  intro scan
  unfold Neo3App.seekCur
  by_cases ok : (bufferSeekCur scan.buf length).1 = true <;> simp [ok]

/-! ## Acceptance of a format -/

/-- `parser` reads `format`: on an encoding of the layout `a` it returns
`value a` and stores `write a`.  `known` is what it must know of the memory
and the store, `ready` what it needs in addition in order not to refuse. -/
structure Accepts (parser : Parser τ ε α) (format : Format ℓ)
    (value : ℓ → α) (write : ℓ → τ → τ)
    (known : List UInt8 → τ → Prop) (ready : τ → Prop) : Prop where
  complete :
    ∀ {scan : Scan τ} {a : ℓ} {encoding : List UInt8},
      scan.buf.Wf → known scan.buf.ptr scan.store → ready scan.store →
      format scan.buf.offset a encoding → encoding <+: scan.buf.rest →
        parser scan =
          (.ok (value a),
            ⟨scan.buf.advance encoding.length, write a scan.store⟩)
  sound :
    ∀ {scan final : Scan τ} {result : α},
      scan.buf.Wf → known scan.buf.ptr scan.store →
      parser scan = (.ok result, final) →
        ∃ a encoding, format scan.buf.offset a encoding ∧
          encoding <+: scan.buf.rest ∧ result = value a ∧
          final = ⟨scan.buf.advance encoding.length, write a scan.store⟩
  stale :
    ∀ {scan final : Scan τ} {code : ε} {a : ℓ} {encoding : List UInt8},
      scan.buf.Wf → known scan.buf.ptr scan.store →
      parser scan = (.error code, final) →
      format scan.buf.offset a encoding →
      Compatible encoding scan.buf.rest →
        write a final.store = write a scan.store
  idempotent :
    ∀ {offset : Nat} {a : ℓ} {encoding : List UInt8},
      format offset a encoding → ∀ store,
        write a (write a store) = write a store
  unique :
    ∀ {offset : Nat} {a b : ℓ} {first second : List UInt8},
      format offset a first → format offset b second →
      first <+: second → a = b ∧ first = second

def Format.seq (first : Format ℓ) (second : ℓ → Format κ) :
    Format (ℓ × κ) :=
  fun offset layout encoding =>
    ∃ head tail, encoding = head ++ tail ∧
      first offset layout.1 head ∧
      second layout.1 (offset + head.length) layout.2 tail

theorem Compatible.of_append_left
    {head tail text : List UInt8}
    (compatible : Compatible (head ++ tail) text) :
    Compatible head text := by
  rcases compatible with shorter | longer
  · exact Or.inl ((List.prefix_append head tail).trans shorter)
  · exact List.prefix_or_prefix_of_prefix
      (List.prefix_append head tail) longer

theorem Compatible.drop
    {head tail text : List UInt8}
    (compatible : Compatible (head ++ tail) text)
    (isPrefix : head <+: text) :
    Compatible tail (text.drop head.length) := by
  obtain ⟨rest, rfl⟩ := isPrefix
  rw [List.drop_left]
  rcases compatible with shorter | longer
  · exact Or.inl ((List.prefix_append_right_inj head).mp shorter)
  · exact Or.inr ((List.prefix_append_right_inj head).mp longer)

/-- Encodings of one format at one position, each compatible with one text,
are equal. -/
theorem Accepts.unique_of_compatible
    {parser : Parser τ ε α} {format : Format ℓ} {value : ℓ → α}
    {write : ℓ → τ → τ} {known : List UInt8 → τ → Prop} {ready : τ → Prop}
    (accepts : Accepts parser format value write known ready)
    {offset : Nat} {a b : ℓ} {first second text : List UInt8}
    (firstFormat : format offset a first)
    (secondFormat : format offset b second)
    (isPrefix : first <+: text) (compatible : Compatible second text) :
    a = b ∧ first = second := by
  have comparable : first <+: second ∨ second <+: first := by
    rcases compatible with shorter | longer
    · exact List.prefix_or_prefix_of_prefix isPrefix shorter
    · exact Or.inl (isPrefix.trans longer)
  rcases comparable with forward | backward
  · exact accepts.unique firstFormat secondFormat forward
  · obtain ⟨sameLayout, sameText⟩ :=
      accepts.unique secondFormat firstFormat backward
    exact ⟨sameLayout.symm, sameText.symm⟩

/-- Sequencing.  The stores of the two halves must commute. -/
theorem Accepts.bind
    {first : Parser τ ε α} {next : α → Parser τ ε β}
    {firstFormat : Format ℓ} {firstValue : ℓ → α} {nextValue : ℓ → κ → β}
    {firstWrite : ℓ → τ → τ} {nextWrite : ℓ → κ → τ → τ}
    {known : List UInt8 → τ → Prop} {ready : τ → Prop}
    (nextFormat : ℓ → Format κ)
    (nextKnown : ℓ → List UInt8 → τ → Prop) (nextReady : τ → Prop)
    (firstAccepts :
      Accepts first firstFormat firstValue firstWrite known ready)
    (nextAccepts : ∀ {a offset encoding}, firstFormat offset a encoding →
      Accepts (next (firstValue a)) (nextFormat a) (nextValue a)
        (nextWrite a) (nextKnown a) nextReady)
    (knownNext : ∀ {memory store offset a encoding},
      known memory store → firstFormat offset a encoding →
        encoding <+: memory.drop offset →
        nextKnown a memory (firstWrite a store))
    (readyNext : ∀ {store} a, ready store →
      nextReady (firstWrite a store))
    (commute : ∀ a b store,
      firstWrite a (nextWrite a b store) =
        nextWrite a b (firstWrite a store)) :
    Accepts (first >>= next) (firstFormat.seq nextFormat)
      (fun layout => nextValue layout.1 layout.2)
      (fun layout store =>
        nextWrite layout.1 layout.2 (firstWrite layout.1 store))
      known ready where
  complete := by
    rintro scan ⟨a, b⟩ encoding wf isKnown isReady
      ⟨head, tail, rfl, headFormat, tailFormat⟩ isPrefix
    have headPrefix : head <+: scan.buf.rest :=
      (List.prefix_append head tail).trans isPrefix
    have headRun :=
      firstAccepts.complete wf isKnown isReady headFormat headPrefix
    have tailRun :
        next (firstValue a)
            ⟨scan.buf.advance head.length, firstWrite a scan.store⟩ = _ :=
      (nextAccepts headFormat).complete
        (wf.advance headPrefix.length_le)
        (knownNext isKnown headFormat
          (headPrefix.trans scan.buf.rest_prefix))
        (readyNext a isReady) tailFormat
        (by
          obtain ⟨rest, split⟩ := isPrefix
          rw [Buffer.rest_advance, ← split, List.append_assoc,
            List.drop_left]
          exact List.prefix_append tail rest)
    rw [EarlyExit.bind_of_ok headRun, tailRun, Buffer.advance_advance,
      List.length_append]
  sound := by
    intro scan final result wf isKnown run
    obtain ⟨middleValue, middle, headRun, tailRun⟩ :=
      EarlyExit.bind_eq_ok_iff.mp run
    obtain ⟨a, head, headFormat, headPrefix, rfl, rfl⟩ :=
      firstAccepts.sound wf isKnown headRun
    obtain ⟨b, tail, tailFormat, tailPrefix, rfl, rfl⟩ :=
      (nextAccepts headFormat).sound (wf.advance headPrefix.length_le)
        (knownNext isKnown headFormat
          (headPrefix.trans scan.buf.rest_prefix)) tailRun
    refine ⟨(a, b), head ++ tail, ⟨head, tail, rfl, headFormat, tailFormat⟩,
      ?_, rfl, ?_⟩
    · obtain ⟨rest, split⟩ := headPrefix
      rw [Buffer.rest_advance, ← split, List.drop_left] at tailPrefix
      rw [← split]
      exact (List.prefix_append_right_inj head).mpr tailPrefix
    · rw [Buffer.advance_advance, List.length_append]
  stale := by
    rintro scan final code ⟨a, b⟩ encoding wf isKnown run
      ⟨head, tail, rfl, headFormat, tailFormat⟩ compatible
    have headCompatible := compatible.of_append_left
    rcases EarlyExit.bind_eq_error_iff.mp run with
      headRun | ⟨middleValue, middle, headRun, tailRun⟩
    · have absorbed :=
        firstAccepts.stale wf isKnown headRun headFormat headCompatible
      simp only [absorbed]
    · obtain ⟨a', head', headFormat', headPrefix, rfl, rfl⟩ :=
        firstAccepts.sound wf isKnown headRun
      obtain ⟨rfl, rfl⟩ :=
        firstAccepts.unique_of_compatible
          headFormat' headFormat headPrefix headCompatible
      have absorbed :=
        (nextAccepts headFormat).stale (wf.advance headPrefix.length_le)
          (knownNext isKnown headFormat
            (headPrefix.trans scan.buf.rest_prefix))
          tailRun tailFormat
          (by
            rw [Buffer.rest_advance]
            exact compatible.drop headPrefix)
      calc
        nextWrite a' b (firstWrite a' final.store)
            = firstWrite a' (nextWrite a' b final.store) :=
          (commute a' b final.store).symm
        _ = firstWrite a' (nextWrite a' b (firstWrite a' scan.store)) := by
          rw [absorbed]
        _ = nextWrite a' b (firstWrite a' (firstWrite a' scan.store)) :=
          commute a' b (firstWrite a' scan.store)
        _ = nextWrite a' b (firstWrite a' scan.store) := by
          rw [firstAccepts.idempotent headFormat]
  idempotent := by
    rintro offset ⟨a, b⟩ _ ⟨head, tail, rfl, headFormat, tailFormat⟩ store
    calc
      nextWrite a b (firstWrite a (nextWrite a b (firstWrite a store)))
          = nextWrite a b
              (nextWrite a b (firstWrite a (firstWrite a store))) := by
        rw [commute]
      _ = nextWrite a b (firstWrite a (firstWrite a store)) :=
        (nextAccepts headFormat).idempotent tailFormat _
      _ = nextWrite a b (firstWrite a store) := by
        rw [firstAccepts.idempotent headFormat]
  unique := by
    rintro offset ⟨a, b⟩ ⟨a', b'⟩ _ _
      ⟨head, tail, rfl, headFormat, tailFormat⟩
      ⟨head', tail', rfl, headFormat', tailFormat'⟩ isPrefix
    obtain ⟨rfl, rfl⟩ :=
      firstAccepts.unique_of_compatible headFormat headFormat'
        ((List.prefix_append head tail).trans isPrefix)
        (Or.inl (List.prefix_append head' tail'))
    obtain ⟨rfl, rfl⟩ :=
      (nextAccepts headFormat).unique tailFormat tailFormat'
        ((List.prefix_append_right_inj head).mp isPrefix)
    exact ⟨rfl, rfl⟩

/-- Sequencing, where the second half needs to know nothing. -/
theorem Accepts.seq
    {first : Parser τ ε α} {next : α → Parser τ ε β}
    {firstFormat : Format ℓ} {nextFormat : ℓ → Format κ}
    {firstValue : ℓ → α} {nextValue : ℓ → κ → β}
    {firstWrite : ℓ → τ → τ} {nextWrite : ℓ → κ → τ → τ}
    {known : List UInt8 → τ → Prop} {ready : τ → Prop}
    (firstAccepts :
      Accepts first firstFormat firstValue firstWrite known ready)
    (nextAccepts : ∀ a,
      Accepts (next (firstValue a)) (nextFormat a) (nextValue a)
        (nextWrite a) (fun _ _ => True) (fun _ => True))
    (commute : ∀ a b store,
      firstWrite a (nextWrite a b store) =
        nextWrite a b (firstWrite a store)) :
    Accepts (first >>= next) (firstFormat.seq nextFormat)
      (fun layout => nextValue layout.1 layout.2)
      (fun layout store =>
        nextWrite layout.1 layout.2 (firstWrite layout.1 store))
      known ready :=
  Accepts.bind nextFormat (fun _ _ _ => True) (fun _ => True)
    firstAccepts (fun {a _ _} _ => nextAccepts a)
    (fun _ _ _ => trivial) (fun _ _ => trivial) commute

/-- Reshaping of layouts: `format` encodes the images of the layouts of
`oldFormat` under a map. -/
theorem Accepts.reshape
    {parser : Parser τ ε α} {oldFormat : Format ℓ} {oldValue : ℓ → α}
    {oldWrite : ℓ → τ → τ} {known : List UInt8 → τ → Prop}
    {ready : τ → Prop} {format : Format κ} {value : κ → α}
    {write : κ → τ → τ}
    (accepts :
      Accepts parser oldFormat oldValue oldWrite known ready)
    (shape : ℓ → κ)
    (shapeFormat : ∀ {offset layout encoding},
      format offset layout encoding ↔
        ∃ old, shape old = layout ∧ oldFormat offset old encoding)
    (shapeValue : ∀ {offset old encoding}, oldFormat offset old encoding →
      value (shape old) = oldValue old)
    (shapeWrite : ∀ {offset old encoding}, oldFormat offset old encoding →
      ∀ store, write (shape old) store = oldWrite old store) :
    Accepts parser format value write known ready where
  complete := by
    intro scan layout encoding wf isKnown isReady layoutFormat isPrefix
    obtain ⟨old, rfl, oldLayout⟩ := shapeFormat.mp layoutFormat
    rw [accepts.complete wf isKnown isReady oldLayout isPrefix,
      shapeValue oldLayout, shapeWrite oldLayout]
  sound := by
    intro scan final result wf isKnown run
    obtain ⟨old, encoding, oldLayout, isPrefix, rfl, rfl⟩ :=
      accepts.sound wf isKnown run
    exact ⟨shape old, encoding, shapeFormat.mpr ⟨old, rfl, oldLayout⟩,
      isPrefix, (shapeValue oldLayout).symm, by rw [shapeWrite oldLayout]⟩
  stale := by
    intro scan final code layout encoding wf isKnown run layoutFormat
      compatible
    obtain ⟨old, rfl, oldLayout⟩ := shapeFormat.mp layoutFormat
    rw [shapeWrite oldLayout, shapeWrite oldLayout]
    exact accepts.stale wf isKnown run oldLayout compatible
  idempotent := by
    intro offset layout encoding layoutFormat store
    obtain ⟨old, rfl, oldLayout⟩ := shapeFormat.mp layoutFormat
    rw [shapeWrite oldLayout, shapeWrite oldLayout,
      accepts.idempotent oldLayout]
  unique := by
    intro offset layout other first second firstFormat secondFormat
      isPrefix
    obtain ⟨old, rfl, oldLayout⟩ := shapeFormat.mp firstFormat
    obtain ⟨oldOther, rfl, otherLayout⟩ := shapeFormat.mp secondFormat
    obtain ⟨rfl, rfl⟩ := accepts.unique oldLayout otherLayout isPrefix
    exact ⟨rfl, rfl⟩

/-- Knowing more or being ready for more does no harm. -/
theorem Accepts.mono
    {parser : Parser τ ε α} {format : Format ℓ} {value : ℓ → α}
    {write : ℓ → τ → τ} {known knownMore : List UInt8 → τ → Prop}
    {ready readyMore : τ → Prop}
    (accepts : Accepts parser format value write known ready)
    (moreKnown : ∀ {memory store}, knownMore memory store →
      known memory store)
    (moreReady : ∀ {store}, readyMore store → ready store) :
    Accepts parser format value write knownMore readyMore where
  complete wf isKnown isReady :=
    accepts.complete wf (moreKnown isKnown) (moreReady isReady)
  sound wf isKnown := accepts.sound wf (moreKnown isKnown)
  stale wf isKnown := accepts.stale wf (moreKnown isKnown)
  idempotent := accepts.idempotent
  unique := accepts.unique

/-- A parser that never succeeds accepts a format that encodes nothing. -/
theorem Accepts.never
    {parser : Parser τ ε α} {format : Format ℓ} {value : ℓ → α}
    {write : ℓ → τ → τ} {known : List UInt8 → τ → Prop}
    {ready : τ → Prop}
    (fails : ∀ {scan final : Scan τ} {result : α},
      known scan.buf.ptr scan.store → parser scan ≠ (.ok result, final))
    (nothing : ∀ {offset layout encoding},
      ¬ format offset layout encoding) :
    Accepts parser format value write known ready where
  complete _ _ _ isFormat := absurd isFormat nothing
  sound _ isKnown run := absurd run (fails isKnown)
  stale _ _ _ isFormat := absurd isFormat nothing
  idempotent isFormat := absurd isFormat nothing
  unique isFormat := absurd isFormat nothing

section Primitives

variable {known : List UInt8 → τ → Prop} {ready : τ → Prop}

theorem Accepts.readField
    {read : Buffer → Read α} {format : α → List UInt8 → Prop}
    (reads : Reads read format) (put : α → τ → τ) (code : ε)
    (overwrite : ∀ value other store,
      put value (put other store) = put value store) :
    Accepts (readField read put code) (fun _ => format)
      (fun value => value) put known ready where
  complete := by
    intro scan value encoding wf _ _ valueFormat isPrefix
    rw [Neo3App.readField, reads.complete wf valueFormat isPrefix]
    rfl
  sound := by
    intro scan final result wf _ run
    unfold Neo3App.readField at run
    by_cases ok : (read scan.buf).ok = true
    · obtain ⟨encoding, valueFormat, isPrefix, buffer⟩ := reads.sound wf ok
      simp only [ok, if_true] at run
      cases run
      exact ⟨_, encoding, valueFormat, isPrefix, rfl, by rw [buffer]⟩
    · simp [ok] at run
  stale := by
    intro scan final code' value encoding wf _ run _ _
    unfold Neo3App.readField at run
    by_cases ok : (read scan.buf).ok = true
    · simp [ok] at run
    · simp only [ok, Bool.false_eq_true, if_false] at run
      cases run
      exact overwrite _ _ _
  idempotent := fun _ => overwrite _ _
  unique := reads.unique

theorem Accepts.readLocal
    {read : Buffer → Read α} {format : α → List UInt8 → Prop}
    (reads : Reads read format) (code : ε) :
    Accepts (readLocal read code) (fun _ => format)
      (fun value => value) (fun _ (store : τ) => store) known ready :=
  Accepts.readField reads _ code fun _ _ _ => rfl

/-- A step that reads nothing. -/
theorem Accepts.silent
    {parser : Parser τ ε α} {value : α} {allowed : Nat → Prop}
    {put : τ → τ}
    (runs : ∀ {scan : Scan τ}, scan.buf.Wf →
      known scan.buf.ptr scan.store → ready scan.store →
      allowed scan.buf.offset →
        parser scan = (.ok value, ⟨scan.buf, put scan.store⟩))
    (ran : ∀ {scan final : Scan τ} {result : α}, scan.buf.Wf →
      known scan.buf.ptr scan.store → parser scan = (.ok result, final) →
        allowed scan.buf.offset ∧ result = value ∧
          final = ⟨scan.buf, put scan.store⟩)
    (left : ∀ {scan final : Scan τ} {code : ε},
      parser scan = (.error code, final) → final.store = scan.store)
    (overwrite : ∀ store, put (put store) = put store) :
    Accepts parser
      (fun offset (_ : Unit) encoding => encoding = [] ∧ allowed offset)
      (fun _ => value) (fun _ => put) known ready where
  complete := by
    rintro scan _ _ wf isKnown isReady ⟨rfl, isAllowed⟩ _
    exact runs wf isKnown isReady isAllowed
  sound := by
    intro scan final result wf isKnown run
    obtain ⟨isAllowed, rfl, rfl⟩ := ran wf isKnown run
    exact ⟨(), [], ⟨rfl, isAllowed⟩, List.nil_prefix, rfl, rfl⟩
  stale := by
    intro scan final code _ _ _ _ run _ _
    rw [left run]
  idempotent := fun _ => overwrite
  unique := by
    rintro _ _ _ _ _ ⟨rfl, _⟩ ⟨rfl, _⟩ _
    exact ⟨rfl, rfl⟩

theorem Accepts.pure (value : α) :
    Accepts (pure value : Parser τ ε α)
      (fun _ (_ : Unit) encoding => encoding = [] ∧ True)
      (fun _ => value) (fun _ store => store) known ready := by
  refine Accepts.silent (fun _ _ _ _ => rfl) ?_ ?_ (fun _ => rfl)
  · intro scan final result _ _ run
    cases run
    exact ⟨trivial, rfl, rfl⟩
  · intro scan final code run
    cases run

theorem Accepts.assignField (put : τ → τ)
    (overwrite : ∀ store, put (put store) = put store) :
    Accepts (assignField put : Parser τ ε Unit)
      (fun _ (_ : Unit) encoding => encoding = [] ∧ True)
      (fun _ => ()) (fun _ => put) known ready := by
  refine Accepts.silent (fun _ _ _ _ => rfl) ?_ ?_ overwrite
  · intro scan final result _ _ run
    cases run
    exact ⟨trivial, rfl, rfl⟩
  · intro scan final code run
    cases run

private theorem store_of_exitWhen_error
    {condition : Scan τ → Bool} {code left : ε} {scan final : Scan τ}
    (run : EarlyExit.exitWhen condition code scan = (.error left, final)) :
    final.store = scan.store := by
  unfold EarlyExit.exitWhen at run
  by_cases refusal : condition scan = true
  · rw [if_pos refusal] at run
    cases run
    rfl
  · simp [refusal] at run

/-- A check that the known facts decide. -/
theorem Accepts.exitWhen
    {condition : Scan τ → Bool} (refused : Prop) (code : ε)
    (decided : ∀ scan : Scan τ, known scan.buf.ptr scan.store →
      (condition scan = true ↔ refused)) :
    Accepts (EarlyExit.exitWhen condition code : Parser τ ε Unit)
      (fun _ (_ : Unit) encoding => encoding = [] ∧ ¬ refused)
      (fun _ => ()) (fun _ store => store) known ready := by
  refine Accepts.silent ?_ ?_ store_of_exitWhen_error (fun _ => rfl)
  · intro scan _ isKnown _ allowed
    refine EarlyExit.exitWhen_eq_ok_iff.mpr ⟨?_, rfl⟩
    exact Bool.eq_false_iff.mpr (mt (decided scan isKnown).mp allowed)
  · intro scan final result _ isKnown run
    obtain ⟨passed, rfl⟩ := EarlyExit.exitWhen_eq_ok_iff.mp run
    refine ⟨mt (decided final isKnown).mpr ?_, rfl, rfl⟩
    exact Bool.eq_false_iff.mp passed

theorem Accepts.exitIf
    (condition : Prop) [Decidable condition] (code : ε) :
    Accepts (EarlyExit.exitIf condition code : Parser τ ε Unit)
      (fun _ (_ : Unit) encoding => encoding = [] ∧ ¬ condition)
      (fun _ => ()) (fun _ store => store) known ready := by
  have sameParser :
      (EarlyExit.exitIf condition code : Parser τ ε Unit) =
        EarlyExit.exitWhen (fun _ => decide condition) code := by
    funext scan
    simp [EarlyExit.exitIf, EarlyExit.exitWhen]
  rw [sameParser]
  exact
    Accepts.exitWhen condition code fun _ _ =>
      (decide_eq_true_iff : decide condition = true ↔ condition)

/-- A check that only a store that is not ready can fail. -/
theorem Accepts.exitUnlessReady
    {condition : Scan τ → Bool} (code : ε)
    (passes : ∀ scan : Scan τ, ready scan.store → condition scan = false) :
    Accepts (EarlyExit.exitWhen condition code : Parser τ ε Unit)
      (fun _ (_ : Unit) encoding => encoding = [] ∧ True)
      (fun _ => ()) (fun _ store => store) known ready := by
  refine Accepts.silent ?_ ?_ store_of_exitWhen_error (fun _ => rfl)
  · intro scan _ _ isReady _
    exact EarlyExit.exitWhen_eq_ok_iff.mpr ⟨passes scan isReady, rfl⟩
  · intro scan final result _ _ run
    obtain ⟨_, rfl⟩ := EarlyExit.exitWhen_eq_ok_iff.mp run
    exact ⟨trivial, rfl, rfl⟩

/-- A stored pointer: the layout is the position itself. -/
theorem Accepts.markField (put : Ptr → τ → τ)
    (overwrite : ∀ value other store,
      put value (put other store) = put value store) :
    Accepts (markField put : Parser τ ε Unit)
      (fun offset (position : Nat) encoding =>
        encoding = [] ∧ position = offset)
      (fun _ => ()) (fun position => put (some position))
      known ready where
  complete := by
    rintro scan _ _ _ _ _ ⟨rfl, rfl⟩ _
    rfl
  sound := by
    intro scan final result _ _ run
    cases run
    exact ⟨scan.buf.offset, [], ⟨rfl, rfl⟩, List.nil_prefix, rfl, rfl⟩
  stale := by
    intro scan final code _ _ _ _ run
    cases run
  idempotent := fun _ => overwrite _ _
  unique := by
    rintro _ _ _ _ _ ⟨rfl, rfl⟩ ⟨rfl, rfl⟩ _
    exact ⟨rfl, rfl⟩

/-- Skipping bytes: the layout is the bytes themselves. -/
theorem Accepts.seekCur
    {length : Nat} (fits : length < sizeModulus) (code : ε) :
    Accepts (seekCur length code : Parser τ ε Unit)
      (fun _ (bytes : List UInt8) encoding =>
        encoding = bytes ∧ bytes.length = length)
      (fun _ => ()) (fun _ store => store) known ready where
  complete := by
    rintro scan _ encoding wf _ _ ⟨rfl, rfl⟩ isPrefix
    rw [Neo3App.seekCur, wf.seekCur_of_le isPrefix.length_le]
    rfl
  sound := by
    intro scan final result wf _ run
    unfold Neo3App.seekCur at run
    by_cases available : length ≤ scan.buf.rest.length
    · rw [wf.seekCur_of_le available] at run
      cases run
      have taken : (scan.buf.rest.take length).length = length := by
        simp [available]
      exact ⟨scan.buf.rest.take length, _, ⟨rfl, taken⟩,
        List.take_prefix _ _, rfl, by rw [taken]⟩
    · rw [wf.seekCur_of_lt (by omega) fits] at run
      cases run
  stale := by
    intro scan final code' _ _ wf _ run _ _
    unfold Neo3App.seekCur at run
    by_cases available : length ≤ scan.buf.rest.length
    · rw [wf.seekCur_of_le available] at run
      cases run
    · rw [wf.seekCur_of_lt (by omega) fits] at run
      cases run
      rfl
  idempotent := fun _ _ => rfl
  unique := by
    rintro _ _ _ _ _ ⟨rfl, long⟩ ⟨rfl, long'⟩ isPrefix
    have same := isPrefix.eq_of_length (long.trans long'.symm)
    exact ⟨same, same⟩

end Primitives

/-- A check or an assignment, then the rest. -/
theorem Accepts.stepThen
    {first : Parser τ ε Unit} {next : Unit → Parser τ ε β}
    {allowed : Nat → Prop} {put : τ → τ} {nextFormat : Format κ}
    {nextValue : κ → β} {nextWrite : κ → τ → τ}
    {known : List UInt8 → τ → Prop} {ready : τ → Prop}
    (nextKnown : List UInt8 → τ → Prop) (nextReady : τ → Prop)
    (firstAccepts :
      Accepts first
        (fun offset (_ : Unit) encoding => encoding = [] ∧ allowed offset)
        (fun _ => ()) (fun _ => put) known ready)
    (nextAccepts : ∀ {offset}, allowed offset →
      Accepts (next ()) nextFormat nextValue nextWrite nextKnown nextReady)
    (knownNext : ∀ {memory store}, known memory store →
      nextKnown memory (put store))
    (readyNext : ∀ {store}, ready store → nextReady (put store))
    (commute : ∀ layout store,
      put (nextWrite layout store) = nextWrite layout (put store)) :
    Accepts (first >>= next)
      (fun offset layout encoding =>
        allowed offset ∧ nextFormat offset layout encoding)
      nextValue (fun layout store => nextWrite layout (put store))
      known ready := by
  have sequence :=
    Accepts.bind (fun _ => nextFormat) (fun _ => nextKnown) nextReady
      firstAccepts (fun firstFormat => nextAccepts firstFormat.2)
      (fun isKnown _ _ => knownNext isKnown) (fun _ => readyNext)
      (fun _ => commute)
  refine sequence.reshape Prod.snd ?_ (fun _ => rfl) (fun _ _ => rfl)
  intro offset layout encoding
  constructor
  · rintro ⟨isAllowed, layoutFormat⟩
    exact ⟨((), layout), rfl, [], encoding, rfl, ⟨rfl, isAllowed⟩,
      layoutFormat⟩
  · rintro ⟨⟨_, _⟩, rfl, _, tail, rfl, ⟨rfl, isAllowed⟩, layoutFormat⟩
    exact ⟨isAllowed, layoutFormat⟩

/-- A check or an assignment, where the rest needs to know nothing. -/
theorem Accepts.andThen
    {first : Parser τ ε Unit} {next : Unit → Parser τ ε β}
    {allowed : Nat → Prop} {put : τ → τ} {nextFormat : Format κ}
    {nextValue : κ → β} {nextWrite : κ → τ → τ}
    {known : List UInt8 → τ → Prop} {ready : τ → Prop}
    (firstAccepts :
      Accepts first
        (fun offset (_ : Unit) encoding => encoding = [] ∧ allowed offset)
        (fun _ => ()) (fun _ => put) known ready)
    (nextAccepts : ∀ {offset}, allowed offset →
      Accepts (next ()) nextFormat nextValue nextWrite (fun _ _ => True)
        (fun _ => True))
    (commute : ∀ layout store,
      put (nextWrite layout store) = nextWrite layout (put store)) :
    Accepts (first >>= next)
      (fun offset layout encoding =>
        allowed offset ∧ nextFormat offset layout encoding)
      nextValue (fun layout store => nextWrite layout (put store))
      known ready :=
  Accepts.stepThen (fun _ _ => True) (fun _ => True) firstAccepts
    nextAccepts (fun _ => trivial) (fun _ => trivial) commute

/-- A parser followed by one that reads nothing more. -/
theorem Accepts.thenPure
    {parser : Parser τ ε α} {format : Format ℓ} {value : ℓ → α}
    {write : ℓ → τ → τ} {known : List UInt8 → τ → Prop}
    {ready : τ → Prop}
    (accepts : Accepts parser format value write known ready)
    (result : β) :
    Accepts (parser >>= fun _ => Pure.pure result) format
      (fun _ => result) write known ready := by
  have returns :
      Accepts (Pure.pure result : Parser τ ε β)
        (fun _ (_ : Unit) encoding => encoding = [] ∧ True)
        (fun _ => result) (fun _ store => store)
        (fun _ _ => True) (fun _ => True) :=
    Accepts.pure result
  have sequence :
      Accepts (parser >>= fun _ => Pure.pure result) _ _ _ known ready :=
    Accepts.seq accepts (fun _ => returns) (fun _ _ _ => rfl)
  refine sequence.reshape Prod.fst ?_ (fun _ => rfl) (fun _ _ => rfl)
  intro offset layout encoding
  constructor
  · intro layoutFormat
    exact ⟨(layout, ()), rfl, encoding, [], by simp, layoutFormat, rfl,
      trivial⟩
  · rintro ⟨⟨_, _⟩, rfl, head, _, rfl, layoutFormat, rfl, _⟩
    simpa using layoutFormat

def Format.optional (flag : Prop) (format : Format ℓ) :
    Format (Option ℓ) :=
  fun offset layout encoding =>
    match layout with
    | none => ¬ flag ∧ encoding = []
    | some layout => flag ∧ format offset layout encoding

def writeOptional (write : ℓ → τ → τ) : Option ℓ → τ → τ
  | none, store => store
  | some layout, store => write layout store

theorem Accepts.optional
    {parser : Parser τ ε Unit} {format : Format ℓ}
    {write : ℓ → τ → τ} {known : List UInt8 → τ → Prop}
    {ready : τ → Prop} (flag : Prop) [Decidable flag]
    (accepts :
      Accepts parser format (fun _ => ()) write known ready) :
    Accepts (EarlyExit.runIf flag parser)
      (format.optional flag) (fun _ => ()) (writeOptional write)
      known ready := by
  by_cases present : flag
  · rw [EarlyExit.runIf, if_pos present]
    refine accepts.reshape some ?_ (fun _ => rfl) (fun _ _ => rfl)
    rintro offset (_ | layout) encoding
    · simp [Format.optional, present]
    · simp [Format.optional, present]
  · rw [EarlyExit.runIf, if_neg present]
    refine (Accepts.pure ()).reshape (fun _ => none) ?_ (fun _ => rfl)
      (fun _ _ => rfl)
    rintro offset (_ | layout) encoding
    · simp [Format.optional, present]
    · simp [Format.optional, present]

/-! ## Slices -/

/-- A slice of the memory: where it is and its bytes. -/
structure Slice where
  position : Nat
  bytes : List UInt8
  deriving DecidableEq, Repr

def SliceFormat (length : Nat) : Format Slice :=
  fun offset slice encoding =>
    slice.position = offset ∧ encoding = slice.bytes ∧
      slice.bytes.length = length

/-- The pointer to a slice sees its bytes. -/
theorem SliceFormat.deref_eq
    {length offset : Nat} {slice : Slice} {encoding memory : List UInt8}
    (format : SliceFormat length offset slice encoding)
    (isPrefix : encoding <+: memory.drop offset) :
    deref memory length (some slice.position) = slice.bytes := by
  obtain ⟨rfl, rfl, rfl⟩ := format
  obtain ⟨rest, split⟩ := isPrefix
  rw [deref, ← split, List.take_left]

/-- A pointer is stored and the bytes it designates are skipped. -/
theorem Accepts.slice
    {known : List UInt8 → τ → Prop} {ready : τ → Prop} {length : Nat}
    (put : Ptr → τ → τ) (code : ε)
    (overwrite : ∀ value other store,
      put value (put other store) = put value store)
    (fits : length < sizeModulus) :
    Accepts (Neo3App.markField put >>= fun _ => Neo3App.seekCur length code)
      (SliceFormat length) (fun _ => ())
      (fun slice => put (some slice.position)) known ready := by
  have sequence :
      Accepts (Neo3App.markField put >>= fun _ => Neo3App.seekCur length code)
        _ _ _ known ready :=
    Accepts.seq (Accepts.markField put overwrite)
      (fun _ => Accepts.seekCur fits code) (fun _ _ _ => rfl)
  refine sequence.reshape (fun layout => ⟨layout.1, layout.2⟩) ?_
    (fun _ => rfl) (fun _ _ => rfl)
  intro offset slice encoding
  constructor
  · rintro ⟨rfl, rfl, long⟩
    exact ⟨(slice.position, slice.bytes), rfl, [], slice.bytes, rfl,
      ⟨rfl, rfl⟩, rfl, long⟩
  · rintro ⟨⟨_, _⟩, rfl, _, _, rfl, ⟨rfl, rfl⟩, rfl, long⟩
    exact ⟨rfl, rfl, long⟩

/-- A slice, then the rest. -/
theorem Accepts.sliceThen
    {known : List UInt8 → τ → Prop} {ready : τ → Prop}
    {length : Nat} {put : Ptr → τ → τ} {code : ε}
    {next : Unit → Parser τ ε β} {nextValue : Slice → κ → β}
    {nextWrite : Slice → κ → τ → τ}
    (nextFormat : Slice → Format κ)
    (nextKnown : Slice → List UInt8 → τ → Prop) (nextReady : τ → Prop)
    (overwrite : ∀ value other store,
      put value (put other store) = put value store)
    (fits : length < sizeModulus)
    (nextAccepts : ∀ slice,
      Accepts (next ()) (nextFormat slice) (nextValue slice)
        (nextWrite slice) (nextKnown slice) nextReady)
    (knownNext : ∀ {memory store slice},
      known memory store →
        deref memory length (some slice.position) = slice.bytes →
        nextKnown slice memory (put (some slice.position) store))
    (readyNext : ∀ {store} (slice : Slice), ready store →
      nextReady (put (some slice.position) store))
    (commute : ∀ slice layout store,
      put (some slice.position) (nextWrite slice layout store) =
        nextWrite slice layout (put (some slice.position) store)) :
    Accepts
      (Neo3App.markField put >>= fun _ =>
        Neo3App.seekCur length code >>= next)
      ((SliceFormat length).seq nextFormat)
      (fun layout => nextValue layout.1 layout.2)
      (fun layout store =>
        nextWrite layout.1 layout.2 (put (some layout.1.position) store))
      known ready := by
  rw [← EarlyExit.bind_assoc]
  exact
    Accepts.bind nextFormat nextKnown nextReady
      (Accepts.slice put code overwrite fits)
      (fun {slice _ _} _ => nextAccepts slice)
      (fun isKnown format isPrefix =>
        knownNext isKnown (format.deref_eq isPrefix))
      readyNext commute

/-- The bytes at the offset are the first unread ones. -/
theorem peek_prefix_eq
    {scan : Scan τ} {bytes : List UInt8}
    (isPrefix : bytes <+: scan.buf.rest) :
    peek scan bytes.length = bytes := by
  obtain ⟨rest, memory⟩ := isPrefix.trans scan.buf.rest_prefix
  rw [peek, ← memory, List.take_left]

/-- A parser that reads an encoding standing at the offset, or leaves
everything alone when there is none. -/
theorem Accepts.ofDecision
    {parser : Parser τ ε α} {format : ℓ → List UInt8 → Prop}
    {value : ℓ → α} {write : ℓ → τ → τ} {known : List UInt8 → τ → Prop}
    {ready : τ → Prop}
    (decides : ∀ scan : Scan τ, scan.buf.Wf →
      (∃ a encoding, format a encoding ∧ encoding <+: scan.buf.rest ∧
        parser scan =
          (.ok (value a),
            ⟨scan.buf.advance encoding.length, write a scan.store⟩)) ∨
      (∀ a encoding, format a encoding → ¬ encoding <+: scan.buf.rest) ∧
        ∃ code, parser scan = (.error code, scan))
    (overwrite : ∀ a store, write a (write a store) = write a store)
    (unique : ∀ {a b first second}, format a first → format b second →
      first <+: second → a = b ∧ first = second) :
    Accepts parser (fun _ => format) value write known ready where
  complete := by
    intro scan a encoding wf _ _ isFormat isPrefix
    rcases decides scan wf with
      ⟨b, text, otherFormat, otherPrefix, run⟩ | ⟨nothing, _⟩
    · have same : b = a ∧ text = encoding := by
        rcases List.prefix_or_prefix_of_prefix otherPrefix isPrefix with
          forward | backward
        · exact unique otherFormat isFormat forward
        · obtain ⟨rfl, rfl⟩ := unique isFormat otherFormat backward
          exact ⟨rfl, rfl⟩
      obtain ⟨rfl, rfl⟩ := same
      exact run
    · exact absurd isPrefix (nothing a encoding isFormat)
  sound := by
    intro scan final result wf _ run
    rcases decides scan wf with
      ⟨a, encoding, isFormat, isPrefix, success⟩ | ⟨_, code, failure⟩
    · rw [run] at success
      cases success
      exact ⟨a, encoding, isFormat, isPrefix, rfl, rfl⟩
    · rw [run] at failure
      cases failure
  stale := by
    intro scan final code a encoding wf _ run _ _
    rcases decides scan wf with ⟨_, _, _, _, success⟩ | ⟨_, _, failure⟩
    · rw [run] at success
      cases success
    · rw [run] at failure
      cases failure
      rfl
  idempotent _ := overwrite _
  unique := unique

/-- The value is the skipped bytes. -/
theorem Accepts.takeBytes
    {known : List UInt8 → τ → Prop} {ready : τ → Prop}
    {length : Nat} (fits : length < sizeModulus) (code : ε) :
    Accepts (takeBytes length code : Parser τ ε (List UInt8))
      (fun _ (bytes : List UInt8) encoding =>
        encoding = bytes ∧ bytes.length = length)
      (fun bytes => bytes) (fun _ store => store) known ready := by
  refine Accepts.ofDecision ?_ (fun _ _ => rfl) ?_
  · intro scan wf
    by_cases available : length ≤ scan.buf.rest.length
    · left
      have long : (scan.buf.rest.take length).length = length := by
        simp [available]
      have isPrefix := List.take_prefix length scan.buf.rest
      have looked := peek_prefix_eq isPrefix
      rw [long] at looked
      refine ⟨_, _, ⟨rfl, long⟩, isPrefix, ?_⟩
      have skips :
          (Neo3App.seekCur length code : Parser τ ε Unit) scan =
            (.ok (), ⟨scan.buf.advance length, scan.store⟩) := by
        rw [Neo3App.seekCur, wf.seekCur_of_le available]
        rfl
      rw [Neo3App.takeBytes,
        EarlyExit.bind_of_ok (EarlyExit.inspect_apply _ scan),
        EarlyExit.bind_of_ok skips, looked, long]
      rfl
    · right
      refine ⟨?_, code, ?_⟩
      · rintro bytes _ ⟨rfl, rfl⟩ isPrefix
        exact available isPrefix.length_le
      · rw [Neo3App.takeBytes,
          EarlyExit.bind_of_ok (EarlyExit.inspect_apply _ scan)]
        refine EarlyExit.bind_of_error ?_
        rw [Neo3App.seekCur, wf.seekCur_of_lt (by omega) fits]
        rfl
  · rintro _ _ _ _ ⟨rfl, long⟩ ⟨rfl, long'⟩ isPrefix
    have same := isPrefix.eq_of_length (long.trans long'.symm)
    exact ⟨same, same⟩

end Neo3App
