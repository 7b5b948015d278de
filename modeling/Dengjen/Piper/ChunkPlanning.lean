import Dengjen.Piper.Streaming
import Dengjen.General.TransitionSystem

/-!
# The machine arithmetic of chunk planning

`SpeechStreamer::new` and `AdaptiveMelChunker` compute with `usize` and `isize`.
Here every addition, multiplication, negation and conversion of theirs is
checked: it has no value where the machine would overflow or wrap. A run whose
operations all have values is the run of the unbounded model.

## Implementation notes

A stream is planned by `new` and then by one call of the chunker for each chunk
that is asked for, so its states are those of a transition system whose step is
one uncancelled call. The product that the source lets saturate stays saturating.
-/

namespace Dengjen.Piper.Streaming

open TransitionSystem

/-- The value of a `usize` operation, unless it overflows. -/
def checkedUsize (n : Nat) : Option Nat :=
  if n ≤ usizeMax then some n else none

/-- The values of an `isize`. -/
def InIsize (i : Int) : Prop := -(isizeMax + 1 : Int) ≤ i ∧ i ≤ isizeMax

instance (i : Int) : Decidable (InIsize i) := inferInstanceAs (Decidable (_ ∧ _))

/-- The value of an `isize` operation, or of a conversion to `isize`, unless it overflows. -/
def checkedIsize (i : Int) : Option Int :=
  if InIsize i then some i else none

namespace AdaptiveMelChunker

/-- `AdaptiveMelChunker::new`, whose chunk size goes back from `isize` to `usize`. -/
def checkedNew (numFrames chunkSize chunkPadding hopLength : Int) : Option AdaptiveMelChunker :=
  if 0 ≤ chunkSize then
    some {
      numFrames := numFrames
      baseChunkSize := chunkSize.toNat
      padding := chunkPadding
      hopLength := hopLength
      cursor := some 0
      chunksEmitted := 0 }
  else none

/-- The frames of the next chunk, where nothing overflows. -/
def checkedChunkWidth (chunker : AdaptiveMelChunker) : Option Int := do
  let emitted ← checkedUsize (chunker.chunksEmitted + 1)
  checkedIsize (min (saturatingMul (max chunker.baseChunkSize 1) emitted) maxChunkSize)

/-- One call of the chunker, or `none` where one of its operations overflows. -/
def checkedNext (chunker : AdaptiveMelChunker) :
    Option (Option (Slice × Slice) × AdaptiveMelChunker) :=
  match chunker.cursor with
  | none => some (none, chunker)
  | some regionStart => do
      let (melStart, leadTrim) ←
        if regionStart = 0 then some (0, 0)
        else do
          let doubled ← checkedIsize (chunker.padding * 2)
          let melStart ← checkedIsize (regionStart - doubled)
          some (melStart, chunker.padding)
      let width ← chunker.checkedChunkWidth
      let regionEnd ← checkedIsize (regionStart + width)
      let paddedEnd ← checkedIsize (regionEnd + chunker.padding)
      let left ← checkedIsize (chunker.numFrames - paddedEnd)
      let (melEnd, tailTrim) ←
        if left ≤ minChunkSize then some (none, none)
        else do
          let negated ← checkedIsize (-chunker.padding)
          some (some paddedEnd, some negated)
      let emitted ← checkedUsize (chunker.chunksEmitted + 1)
      let audioStart ← checkedIsize (leadTrim * chunker.hopLength)
      let audioEnd ←
        match tailTrim with
        | none => some none
        | some frames => (checkedIsize (frames * chunker.hopLength)).map some
      some (some (⟨melStart, melEnd⟩, ⟨audioStart, audioEnd⟩),
        { chunker with chunksEmitted := emitted, cursor := melEnd })

end AdaptiveMelChunker

namespace SpeechStreamer

/-- `SpeechStreamer::new`, or `none` where one of its operations overflows. -/
def checkedNew (numFrames chunkSize chunkPadding hop : Nat) : Option SpeechStreamer := do
  let doubledSize ← checkedUsize (chunkSize * 2)
  let doubledPadding ← checkedUsize (chunkPadding * 2)
  let limit ← checkedUsize (doubledSize + doubledPadding)
  let frames ← checkedIsize numFrames
  let size ← checkedIsize chunkSize
  let padding ← checkedIsize chunkPadding
  let hopLength ← checkedIsize hop
  let chunker ← AdaptiveMelChunker.checkedNew frames size padding hopLength
  some { numFrames := numFrames, melChunker := chunker, oneShot := decide (numFrames ≤ limit) }

/-- One uncancelled call of the iterator, or `none` where one of its operations overflows. -/
def checkedNext (hop : Nat) (streamer : SpeechStreamer) :
    Option (Option (Option (List Nat)) × SpeechStreamer) := do
  match ← streamer.melChunker.checkedNext with
  | (none, chunker) => some (none, { streamer with melChunker := chunker })
  | (some item, chunker) =>
      if streamer.oneShot then
        some (some (some (decoded hop 0 streamer.numFrames)),
          { streamer with melChunker := chunker.consume })
      else
        some (some (synthesizeChunk streamer.numFrames hop item),
          { streamer with melChunker := chunker })

/-- The stream that `SpeechStreamer::new` makes, when none of its operations overflows. -/
def Created (numFrames chunkSize chunkPadding hop : Nat) (streamer : SpeechStreamer) : Prop :=
  SpeechStreamer.checkedNew numFrames chunkSize chunkPadding hop = some streamer

/-- One call of a stream; its label is what the call yields. -/
def Call (hop : Nat) (streamer : SpeechStreamer) (item : Option (Option (List Nat)))
    (streamer' : SpeechStreamer) : Prop :=
  streamer.checkedNext hop = some (item, streamer')

end SpeechStreamer

/-- No operation of `SpeechStreamer::new` overflows, nor one of any call of the stream it makes. -/
def PlansWithoutOverflow (numFrames chunkSize chunkPadding hop : Nat) : Prop :=
  (SpeechStreamer.checkedNew numFrames chunkSize chunkPadding hop).isSome ∧
    ∀ streamer, Reachable (SpeechStreamer.Created numFrames chunkSize chunkPadding hop)
        (SpeechStreamer.Call hop) streamer → (streamer.checkedNext hop).isSome

/-- The frame counts of an encoder output: its bytes, four for every sample, are a
`Vec`'s, so that they fit in an `isize`. -/
def EncoderFrames (numFrames : Nat) : Prop := numFrames * 4 ≤ isizeMax

instance (numFrames : Nat) : Decidable (EncoderFrames numFrames) :=
  inferInstanceAs (Decidable (_ ≤ _))

/-- The values on which nothing overflows. The products with the hop length are only
computed for a chunk that is not the last, the one of a lead only for a second chunk. -/
structure FitsIntegers (numFrames chunkSize chunkPadding hop : Nat) : Prop where
  doubled : chunkSize * 2 + chunkPadding * 2 ≤ usizeMax
  hopLength : hop ≤ isizeMax
  paddedEnd : chunkWidth chunkSize 0 + chunkPadding ≤ isizeMax
  tail : chunkWidth chunkSize 0 + chunkPadding + 44 < numFrames →
    chunkPadding * hop ≤ isizeMax + 1
  lead : chunkWidth chunkSize 0 + chunkPadding + 44 < numFrames →
    ¬ oneShot numFrames chunkSize chunkPadding → chunkPadding * hop ≤ isizeMax

section Operations

theorem checkedUsize_bind {α : Type} (n : Nat) (f : Nat → Option α) :
    (checkedUsize n).bind f = if n ≤ usizeMax then f n else none := by
  by_cases h : n ≤ usizeMax <;> simp [checkedUsize, h]

theorem checkedIsize_bind {α : Type} (i : Int) (f : Int → Option α) :
    (checkedIsize i).bind f = if InIsize i then f i else none := by
  by_cases h : InIsize i <;> simp [checkedIsize, h]

theorem inIsize_natCast {n : Nat} : InIsize (n : Int) ↔ n ≤ isizeMax := by
  simp only [InIsize, isizeMax]
  omega

/-- The negative values reach one further than the positive ones. -/
theorem inIsize_neg_natCast {n : Nat} : InIsize (-(n : Int)) ↔ n ≤ isizeMax + 1 := by
  simp only [InIsize, isizeMax]
  omega

end Operations

section Calls

/-- The width is capped, so that only the count of the chunks can overflow. -/
theorem checkedChunkWidth_bind {α : Type} (chunker : AdaptiveMelChunker) (f : Int → Option α) :
    chunker.checkedChunkWidth.bind f =
      if chunker.chunksEmitted + 1 ≤ usizeMax then f chunker.currentChunkWidth else none := by
  have hcap : InIsize chunker.currentChunkWidth := by
    simp only [InIsize, isizeMax, AdaptiveMelChunker.currentChunkWidth, maxChunkSize]
    omega
  rw [AdaptiveMelChunker.currentChunkWidth] at hcap
  simp only [AdaptiveMelChunker.checkedChunkWidth, Option.bind_eq_bind, checkedUsize_bind]
  split
  · rw [checkedIsize, if_pos hcap]
    rfl
  · rfl

/-- The operations of one call of a chunker that is at `regionStart`. -/
@[mk_iff]
structure OperationsFit (chunker : AdaptiveMelChunker) (regionStart : Int) : Prop where
  melStart : regionStart ≠ 0 →
    InIsize (chunker.padding * 2) ∧ InIsize (regionStart - chunker.padding * 2)
  counted : chunker.chunksEmitted + 1 ≤ usizeMax
  regionEnd : InIsize (regionStart + chunker.currentChunkWidth)
  paddedEnd : InIsize (regionStart + chunker.currentChunkWidth + chunker.padding)
  left : InIsize
    (chunker.numFrames - (regionStart + chunker.currentChunkWidth + chunker.padding))
  audioStart : InIsize ((if regionStart = 0 then 0 else chunker.padding) * chunker.hopLength)
  audioEnd :
    ¬ chunker.numFrames - (regionStart + chunker.currentChunkWidth + chunker.padding) ≤
        minChunkSize →
      InIsize (-chunker.padding) ∧ InIsize (-chunker.padding * chunker.hopLength)

/-- A call has a result exactly when its operations fit, and then that of the unbounded model. -/
theorem checkedNext_eq_some_iff {chunker : AdaptiveMelChunker} {regionStart : Int}
    (hcursor : chunker.cursor = some regionStart)
    {result : Option (Slice × Slice) × AdaptiveMelChunker} :
    chunker.checkedNext = some result ↔
      OperationsFit chunker regionStart ∧ chunker.next = result := by
  -- The branches only differ in which of the operations they perform.
  rcases eq_or_ne regionStart 0 with rfl | hstart
  · by_cases hfinal : chunker.numFrames - (0 + chunker.currentChunkWidth + chunker.padding) ≤
        minChunkSize
    · simp only [AdaptiveMelChunker.checkedNext, AdaptiveMelChunker.next, hcursor, hfinal,
        if_true, operationsFit_iff, checkedChunkWidth_bind, checkedUsize_bind, checkedIsize_bind,
        Option.bind_eq_bind, Option.bind_some, Option.map_none, Option.ite_none_right_eq_some,
        Option.some.injEq]
      tauto
    · simp only [AdaptiveMelChunker.checkedNext, AdaptiveMelChunker.next, hcursor, hfinal,
        if_true, if_false, operationsFit_iff, checkedChunkWidth_bind, checkedUsize_bind,
        checkedIsize_bind, Option.bind_eq_bind, Option.bind_some, Option.bind_map,
        Option.map_some, Option.ite_none_right_eq_some, Option.some.injEq, Function.comp_apply]
      tauto
  · by_cases hfinal : chunker.numFrames -
        (regionStart + chunker.currentChunkWidth + chunker.padding) ≤ minChunkSize
    · simp only [AdaptiveMelChunker.checkedNext, AdaptiveMelChunker.next, hcursor, hfinal, hstart,
        if_true, if_false, operationsFit_iff, checkedChunkWidth_bind, checkedUsize_bind,
        checkedIsize_bind, Option.bind_eq_bind, Option.bind_some, Option.map_none,
        Option.ite_none_right_eq_some, Option.some.injEq]
      tauto
    · simp only [AdaptiveMelChunker.checkedNext, AdaptiveMelChunker.next, hcursor, hfinal, hstart,
        if_false, operationsFit_iff, checkedChunkWidth_bind, checkedUsize_bind,
        checkedIsize_bind, Option.bind_eq_bind, Option.bind_some, Option.bind_map,
        Option.map_some, Option.ite_none_right_eq_some, Option.some.injEq, Function.comp_apply]
      tauto

theorem next_of_checkedNext {chunker : AdaptiveMelChunker}
    {result : Option (Slice × Slice) × AdaptiveMelChunker}
    (h : chunker.checkedNext = some result) : chunker.next = result := by
  cases hcursor : chunker.cursor with
  | none =>
      rw [AdaptiveMelChunker.checkedNext, hcursor] at h
      rw [AdaptiveMelChunker.next, hcursor]
      exact Option.some.inj h
  | some regionStart => exact ((checkedNext_eq_some_iff hcursor).mp h).2

theorem isSome_checkedNext_iff {chunker : AdaptiveMelChunker} {regionStart : Int}
    (hcursor : chunker.cursor = some regionStart) :
    chunker.checkedNext.isSome ↔ OperationsFit chunker regionStart := by
  rw [Option.isSome_iff_exists]
  constructor
  · rintro ⟨result, hresult⟩
    exact ((checkedNext_eq_some_iff hcursor).mp hresult).1
  · intro hfit
    exact ⟨_, (checkedNext_eq_some_iff hcursor).mpr ⟨hfit, rfl⟩⟩

/-- A call of the stream overflows only in its chunker, and is otherwise that of the
unbounded model. -/
theorem streamer_checkedNext_eq_some_iff {hop : Nat} {streamer streamer' : SpeechStreamer}
    {item : Option (Option (List Nat))} :
    streamer.checkedNext hop = some (item, streamer') ↔
      streamer.melChunker.checkedNext.isSome ∧ streamer.next hop = (item, streamer') := by
  cases hnext : streamer.melChunker.checkedNext with
  | none => simp [SpeechStreamer.checkedNext, hnext]
  | some result =>
      obtain ⟨planned, chunker⟩ := result
      have hsame := next_of_checkedNext hnext
      cases planned <;> cases hshot : streamer.oneShot <;>
        simp [SpeechStreamer.checkedNext, SpeechStreamer.next, hnext, hsame, hshot]

variable {numFrames chunkSize padding hop : Nat}

/-- The values on which the chunk after `emitted` others, from `cursor` on, is planned
without overflow. -/
structure ChunkFits (numFrames chunkSize padding hop cursor emitted : Nat) : Prop where
  counted : emitted + 1 ≤ usizeMax
  paddedEnd : cursor + chunkWidth chunkSize emitted + padding ≤ isizeMax
  lead : 0 < cursor → padding * 2 ≤ isizeMax ∧ padding * hop ≤ isizeMax
  tail : cursor + chunkWidth chunkSize emitted + padding + 44 < numFrames →
    padding * hop ≤ isizeMax + 1

theorem isFinal_iff {width cursor : Nat} :
    (numFrames : Int) - (cursor + width + padding) ≤ minChunkSize ↔
      numFrames ≤ cursor + width + padding + 44 := by
  simp only [minChunkSize]
  omega

theorem inIsize_lead_iff {cursor : Nat} :
    InIsize ((if (cursor : Int) = 0 then 0 else (padding : Int)) * hop) ↔
      (0 < cursor → padding * hop ≤ isizeMax) := by
  rcases Nat.eq_zero_or_pos cursor with rfl | hpos
  · simp [InIsize, isizeMax]
  · have hne : ¬ (cursor : Int) = 0 := by omega
    rw [if_neg hne, ← Nat.cast_mul, inIsize_natCast]
    exact ⟨fun h _ => h, fun h => h hpos⟩

theorem inIsize_tail_iff : InIsize (-(padding : Int) * hop) ↔ padding * hop ≤ isizeMax + 1 := by
  rw [Int.neg_mul, ← Nat.cast_mul, inIsize_neg_natCast]

theorem operationsFit_chunkerAt (hframes : numFrames ≤ isizeMax) (cursor emitted : Nat) :
    OperationsFit (chunkerAt numFrames chunkSize padding hop cursor emitted) cursor ↔
      ChunkFits numFrames chunkSize padding hop cursor emitted := by
  have hwidth : (chunkerAt numFrames chunkSize padding hop cursor emitted).currentChunkWidth =
      chunkWidth chunkSize emitted := currentChunkWidth_eq _
  simp only [operationsFit_iff, hwidth]
  simp only [chunkerAt, AdaptiveMelChunker.new, isFinal_iff, inIsize_lead_iff, inIsize_tail_iff,
    Nat.not_le]
  constructor
  · rintro ⟨hmel, hcount, -, hend, -, hlead, htail⟩
    refine ⟨hcount, ?_, ?_, fun hmore => (htail hmore).2⟩
    · rw [← inIsize_natCast]
      exact_mod_cast hend
    · intro hpos
      have hne : (cursor : Int) ≠ 0 := by omega
      have hdouble := (hmel hne).1
      rw [show (padding : Int) * 2 = (padding * 2 : Nat) by simp, inIsize_natCast] at hdouble
      exact ⟨hdouble, hlead hpos⟩
  · rintro ⟨hcount, hend, hlead, htail⟩
    have hrange : (numFrames : Int) ≤ isizeMax := by omega
    refine ⟨?_, hcount, ?_, ?_, ?_, fun hpos => (hlead hpos).2, fun hmore => ⟨?_, htail hmore⟩⟩
    · intro hne
      have hdouble := (hlead (by omega)).1
      simp only [InIsize]
      omega
    all_goals
      simp only [InIsize]
      omega

/-! ## The states of a stream -/

theorem next_state (cursor emitted : Nat) :
    (chunkerAt numFrames chunkSize padding hop cursor emitted).next.2 =
      if numFrames ≤ cursor + chunkWidth chunkSize emitted + padding + 44 then
        (chunkerAt numFrames chunkSize padding hop cursor (emitted + 1)).consume
      else chunkerAt numFrames chunkSize padding hop
        (cursor + chunkWidth chunkSize emitted + padding) (emitted + 1) := by
  have hwidth : (chunkerAt numFrames chunkSize padding hop cursor emitted).currentChunkWidth =
      chunkWidth chunkSize emitted := currentChunkWidth_eq _
  simp only [AdaptiveMelChunker.next, hwidth]
  simp only [chunkerAt, AdaptiveMelChunker.new, AdaptiveMelChunker.consume, isFinal_iff]
  split <;> simp

theorem checkedNew_eq_some_iff (hframes : numFrames ≤ isizeMax) {streamer : SpeechStreamer} :
    SpeechStreamer.checkedNew numFrames chunkSize padding hop = some streamer ↔
      (chunkSize * 2 + padding * 2 ≤ usizeMax ∧ hop ≤ isizeMax) ∧
        SpeechStreamer.new numFrames chunkSize padding hop = streamer := by
  simp only [SpeechStreamer.checkedNew, Option.bind_eq_bind, checkedUsize_bind, checkedIsize_bind,
    inIsize_natCast, AdaptiveMelChunker.checkedNew, Int.natCast_nonneg, if_true,
    Option.bind_some, Option.ite_none_right_eq_some, Option.some.injEq, Int.toNat_natCast]
  constructor
  · rintro ⟨-, -, hlimit, -, -, -, hhop, hnew⟩
    exact ⟨⟨hlimit, hhop⟩, hnew⟩
  · rintro ⟨⟨hlimit, hhop⟩, hnew⟩
    have hhalf : chunkSize ≤ isizeMax ∧ padding ≤ isizeMax := by
      simp only [usizeMax, isizeMax] at hlimit ⊢
      omega
    exact ⟨by omega, by omega, hlimit, hframes, hhalf.1, hhalf.2, hhop, hnew⟩

/-- The states of a stream: before its first chunk, between two chunks, and after the last. -/
inductive Planned (numFrames chunkSize padding hop : Nat) : SpeechStreamer → Prop
  | start : Planned numFrames chunkSize padding hop (.new numFrames chunkSize padding hop)
  | between (hshot : ¬ oneShot numFrames chunkSize padding)
      (hmore : chunkWidth chunkSize 0 + padding + 44 < numFrames) {cursor emitted : Nat}
      (hcount : emitted ≤ cursor) (hpad : padding < cursor) (hcursor : cursor + 44 < numFrames) :
      Planned numFrames chunkSize padding hop
        ⟨numFrames, chunkerAt numFrames chunkSize padding hop cursor emitted, false⟩
  | finished {streamer : SpeechStreamer} (h : streamer.melChunker.cursor = none) :
      Planned numFrames chunkSize padding hop streamer

theorem streamer_next_of_oneShot {streamer : SpeechStreamer} (h : streamer.oneShot = true) :
    (streamer.next hop).2.melChunker.cursor = none := by
  cases hcursor : streamer.melChunker.cursor with
  | none => simp only [SpeechStreamer.next, AdaptiveMelChunker.next, hcursor]
  | some regionStart =>
      simp only [SpeechStreamer.next, AdaptiveMelChunker.next, hcursor, h, if_true,
        AdaptiveMelChunker.consume]

theorem streamer_next_of_several {streamer : SpeechStreamer} (h : streamer.oneShot = false) :
    (streamer.next hop).2 = { streamer with melChunker := streamer.melChunker.next.2 } := by
  cases hcursor : streamer.melChunker.cursor with
  | none => simp only [SpeechStreamer.next, AdaptiveMelChunker.next, hcursor]
  | some regionStart =>
      simp only [SpeechStreamer.next, AdaptiveMelChunker.next, hcursor, h, Bool.false_eq_true,
        if_false]

/-- A chunk that is not the last moves the cursor past its padding. -/
theorem planned_next {cursor emitted : Nat} (hshot : ¬ oneShot numFrames chunkSize padding)
    (hcount : emitted ≤ cursor)
    (hmore : cursor + chunkWidth chunkSize emitted + padding + 44 < numFrames →
      chunkWidth chunkSize 0 + padding + 44 < numFrames) :
    Planned numFrames chunkSize padding hop
      ⟨numFrames, (chunkerAt numFrames chunkSize padding hop cursor emitted).next.2, false⟩ := by
  have hwidth := chunkWidth_pos chunkSize emitted
  rw [next_state]
  split
  · exact .finished rfl
  · exact .between hshot (hmore (by omega)) (by omega) (by omega) (by omega)

theorem Planned.step {streamer streamer' : SpeechStreamer} {item : Option (Option (List Nat))}
    (hplanned : Planned numFrames chunkSize padding hop streamer)
    (hcall : SpeechStreamer.Call hop streamer item streamer') :
    Planned numFrames chunkSize padding hop streamer' := by
  have hnext := (streamer_checkedNext_eq_some_iff.mp hcall).2
  have hstate : (streamer.next hop).2 = streamer' := by rw [hnext]
  rw [← hstate]
  cases hmode : streamer.oneShot with
  | true => exact .finished (streamer_next_of_oneShot hmode)
  | false =>
    rw [streamer_next_of_several hmode]
    cases hplanned with
    | start =>
        have hshot : ¬ oneShot numFrames chunkSize padding := by
          simpa [SpeechStreamer.new] using hmode
        rw [new_eq_chunkerAt hshot]
        exact planned_next hshot (le_refl 0) (fun hmore => by omega)
    | between hshot hmore hcount hpad hcursor =>
        exact planned_next hshot hcount (fun _ => hmore)
    | finished h =>
        refine .finished ?_
        simp only [AdaptiveMelChunker.next, h]

/-- On fitting values no call from a state of the stream overflows: between two chunks the
cursor, which bounds the padding and the count, is below the frame count. -/
theorem Planned.isSome_checkedNext (hframes : EncoderFrames numFrames)
    (hfits : FitsIntegers numFrames chunkSize padding hop) {streamer : SpeechStreamer}
    (hplanned : Planned numFrames chunkSize padding hop streamer) :
    (streamer.checkedNext hop).isSome := by
  have hrange : numFrames ≤ isizeMax := by
    rw [EncoderFrames] at hframes
    omega
  suffices hchunker : streamer.melChunker.checkedNext.isSome by
    rw [Option.isSome_iff_exists]
    exact ⟨_, streamer_checkedNext_eq_some_iff.mpr ⟨hchunker, rfl⟩⟩
  cases hplanned with
  | start =>
      refine (isSome_checkedNext_iff rfl).mpr ((operationsFit_chunkerAt hrange 0 0).mpr ?_)
      refine ⟨by decide, ?_, fun h => absurd h (Nat.lt_irrefl 0), fun hmore => ?_⟩
      · have hend := hfits.paddedEnd
        omega
      · exact hfits.tail (by omega)
  | @between hshot hmore cursor emitted hcount hpad hcursor =>
      refine (isSome_checkedNext_iff rfl).mpr ((operationsFit_chunkerAt hrange _ _).mpr ?_)
      have hlead := hfits.lead hmore hshot
      have hcap : chunkWidth chunkSize emitted ≤ maxChunkSize := Nat.min_le_right _ _
      simp only [EncoderFrames, isizeMax, maxChunkSize] at hframes hcap
      refine ⟨?_, ?_, fun _ => ⟨?_, hlead⟩, fun _ => by omega⟩
      · simp only [usizeMax]
        omega
      · simp only [isizeMax]
        omega
      · simp only [isizeMax]
        omega
  | finished h => simp [AdaptiveMelChunker.checkedNext, h]

theorem chunkFits_of_isSome (hframes : numFrames ≤ isizeMax) {streamer : SpeechStreamer}
    {cursor emitted : Nat}
    (hchunker : streamer.melChunker = chunkerAt numFrames chunkSize padding hop cursor emitted)
    (hcall : (streamer.checkedNext hop).isSome) :
    ChunkFits numFrames chunkSize padding hop cursor emitted := by
  obtain ⟨⟨item, streamer'⟩, hresult⟩ := Option.isSome_iff_exists.mp hcall
  have hsome := (streamer_checkedNext_eq_some_iff.mp hresult).1
  rw [hchunker] at hsome
  exact (operationsFit_chunkerAt hframes cursor emitted).mp ((isSome_checkedNext_iff rfl).mp hsome)

/-- The second call plans the chunk that starts at the padded end of the first. -/
theorem second_call (hshot : ¬ oneShot numFrames chunkSize padding)
    (hmore : chunkWidth chunkSize 0 + padding + 44 < numFrames) :
    ((SpeechStreamer.new numFrames chunkSize padding hop).next hop).2.melChunker =
      chunkerAt numFrames chunkSize padding hop (0 + chunkWidth chunkSize 0 + padding) (0 + 1) := by
  have hnot : ¬ numFrames ≤ 0 + chunkWidth chunkSize 0 + padding + 44 := by omega
  have hstate := @next_state numFrames chunkSize padding hop 0 0
  rw [if_neg hnot] at hstate
  rw [new_eq_chunkerAt hshot]
  rw [streamer_next_of_several rfl]
  exact hstate

/-- Planning overflows nowhere exactly when the values fit. -/
theorem plansWithoutOverflow_iff (hframes : EncoderFrames numFrames) :
    PlansWithoutOverflow numFrames chunkSize padding hop ↔
      FitsIntegers numFrames chunkSize padding hop := by
  have hrange : numFrames ≤ isizeMax := by
    rw [EncoderFrames] at hframes
    omega
  constructor
  · rintro ⟨hnew, hcalls⟩
    obtain ⟨streamer, hstreamer⟩ := Option.isSome_iff_exists.mp hnew
    obtain ⟨⟨hdoubled, hhop⟩, rfl⟩ := (checkedNew_eq_some_iff hrange).mp hstreamer
    have hreach : Reachable (SpeechStreamer.Created numFrames chunkSize padding hop)
        (SpeechStreamer.Call hop) (.new numFrames chunkSize padding hop) := .of_init hstreamer
    have hcall := hcalls _ hreach
    have hfirst : ChunkFits numFrames chunkSize padding hop 0 0 :=
      chunkFits_of_isSome hrange rfl hcall
    refine ⟨hdoubled, hhop, ?_, fun hmore => hfirst.tail (by omega), fun hmore hshot => ?_⟩
    · have hend := hfirst.paddedEnd
      omega
    · obtain ⟨⟨item, streamer'⟩, hresult⟩ := Option.isSome_iff_exists.mp hcall
      have hnext := (streamer_checkedNext_eq_some_iff.mp hresult).2
      have hchunker := @second_call numFrames chunkSize padding hop hshot hmore
      rw [hnext] at hchunker
      have hsecond := chunkFits_of_isSome hrange hchunker (hcalls _ (hreach.next hresult))
      have hwidth := chunkWidth_pos chunkSize 0
      exact (hsecond.lead (by omega)).2
  · intro hfits
    have hnew := (checkedNew_eq_some_iff hrange).mpr ⟨⟨hfits.doubled, hfits.hopLength⟩, rfl⟩
    refine ⟨Option.isSome_of_eq_some hnew, fun streamer hreach => ?_⟩
    refine Planned.isSome_checkedNext hframes hfits (hreach.invariant ?_ ?_)
    · intro s hs
      obtain rfl := ((checkedNew_eq_some_iff hrange).mp hs).2
      exact .start
    · intro s item t hs hcall
      exact hs.step hcall

/-- With the padding of the command line and a usual hop length nothing overflows. -/
theorem default_padding_plans :
    EncoderFrames 5000 ∧ PlansWithoutOverflow 5000 100 3 256 :=
  ⟨by decide, (plansWithoutOverflow_iff (by decide)).mpr
    ⟨by decide, by decide, by decide, fun _ => by decide, fun _ _ => by decide⟩⟩

/-- The largest padding a caller can pass overflows when it is doubled. -/
theorem largest_padding_overflows :
    EncoderFrames 5000 ∧ ¬ PlansWithoutOverflow 5000 100 usizeMax 256 := by
  refine ⟨by decide, fun h => ?_⟩
  have hnew : SpeechStreamer.checkedNew 5000 100 usizeMax 256 = none := by decide
  rw [PlansWithoutOverflow, hnew] at h
  exact absurd h.1 (by simp)

end Calls

end Dengjen.Piper.Streaming
