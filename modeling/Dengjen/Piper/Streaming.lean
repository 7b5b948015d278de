import Dengjen.Core.Integers
import Dengjen.General.Iteration
import Mathlib.Data.List.Range
import Mathlib.Data.List.GetD
import Mathlib.Tactic.Ring
import Mathlib.Tactic.Linarith

/-!
# Piper's streaming decoder: the adaptive mel chunker

A sentence is decoded in chunks of mel frames. `AdaptiveMelChunker` yields for
each chunk the mel frames to decode, widened by padding on both sides, and the
audio samples to keep, which should undo that padding. An `isize` is an `Int`
and a `usize` a `Nat` here: the sizes are assumed to stay in range, apart from
the one multiplication that the source lets saturate.

## Implementation notes

The decoder is the one the streaming split relies on: a mel frame `f` stands
for the `hop_length` samples from `f * hop_length` on. A sample is represented
by its position in the whole utterance, so a gap, an overlap or a repeated
frame is visible in the positions that are kept.
-/

namespace Dengjen.Piper.Streaming

open Iteration

/-- A rest of no more frames goes with the chunk before it. -/
def minChunkSize : Int := 44
/-- No chunk has more frames. -/
def maxChunkSize : Nat := 1024

/-- An `ndarray::Slice` of step one. -/
structure Slice where
  start : Int
  stop : Option Int
  deriving DecidableEq, Repr

namespace Slice

/-- A negative bound counts from the end of the axis; one that lies before the
start of the axis panics. -/
def absIndex (axisLen : Nat) (index : Int) : Option Nat :=
  if index < 0 then
    if (-index).toNat ≤ axisLen then some (axisLen - (-index).toNat) else none
  else some index.toNat

/-- The range of positions a slice selects on an axis, or `none` where slicing panics. -/
def toAbsSlice (axisLen : Nat) (slice : Slice) : Option (Nat × Nat) := do
  let start ← absIndex axisLen slice.start
  let stop ← absIndex axisLen (slice.stop.getD axisLen)
  let stop := if stop < start then start else stop
  if start ≤ axisLen ∧ stop ≤ axisLen then some (start, stop) else none

end Slice

/-- Cuts the frames of a sentence into chunks. -/
structure AdaptiveMelChunker where
  numFrames : Int
  baseChunkSize : Nat
  padding : Int
  hopLength : Int
  cursor : Option Int
  chunksEmitted : Nat
  deriving DecidableEq, Repr

namespace AdaptiveMelChunker

/-- A chunker that has cut nothing. -/
def new (numFrames chunkSize chunkPadding hopLength : Nat) : AdaptiveMelChunker where
  numFrames := numFrames
  baseChunkSize := chunkSize
  padding := chunkPadding
  hopLength := hopLength
  cursor := some 0
  chunksEmitted := 0

/-- Nothing is left to cut. -/
def consume (chunker : AdaptiveMelChunker) : AdaptiveMelChunker :=
  { chunker with cursor := none }

/-- The frames of the next chunk, which grows with the chunks before it. -/
def currentChunkWidth (chunker : AdaptiveMelChunker) : Int :=
  min (saturatingMul (max chunker.baseChunkSize 1) (chunker.chunksEmitted + 1)) maxChunkSize

/-- The mel frames to decode and the samples to keep of the next chunk. -/
def next (chunker : AdaptiveMelChunker) : Option (Slice × Slice) × AdaptiveMelChunker :=
  match chunker.cursor with
  | none => (none, chunker)
  | some regionStart =>
      let (melStart, leadTrim) :=
        if regionStart = 0 then (0, 0)
        else (regionStart - chunker.padding * 2, chunker.padding)
      let paddedEnd := regionStart + chunker.currentChunkWidth + chunker.padding
      let isFinal := chunker.numFrames - paddedEnd ≤ minChunkSize
      let (melEnd, tailTrim) :=
        if isFinal then (none, none) else (some paddedEnd, some (-chunker.padding))
      (some (⟨melStart, melEnd⟩,
          ⟨leadTrim * chunker.hopLength, tailTrim.map (· * chunker.hopLength)⟩),
        { chunker with chunksEmitted := chunker.chunksEmitted + 1, cursor := melEnd })

end AdaptiveMelChunker

/-- `SpeechStreamer::new` decodes in one shot what would make at most two chunks. -/
def oneShot (numFrames chunkSize chunkPadding : Nat) : Prop :=
  numFrames ≤ chunkSize * 2 + chunkPadding * 2

instance (numFrames chunkSize chunkPadding : Nat) :
    Decidable (oneShot numFrames chunkSize chunkPadding) :=
  inferInstanceAs (Decidable (_ ≤ _))

/-- The samples of the mel frames from `start` up to `stop`. -/
def decoded (hop start stop : Nat) : List Nat :=
  List.range' (start * hop) ((stop - start) * hop)

/-- `synthesize_chunk` with `trim_chunk_padding`: decode the mel slice, then keep the
audio slice of it. It is `none` where one of the two slices panics. -/
def synthesizeChunk (numFrames hop : Nat) (item : Slice × Slice) : Option (List Nat) := do
  let (melStart, melStop) ← item.1.toAbsSlice numFrames
  let waveform := decoded hop melStart melStop
  let (start, stop) ← item.2.toAbsSlice waveform.length
  some ((waveform.drop start).take (stop - start))

/-- The iterator over a sentence's chunks. `numFrames` is the time axis of the encoder output. -/
structure SpeechStreamer where
  numFrames : Nat
  melChunker : AdaptiveMelChunker
  oneShot : Bool
  deriving DecidableEq, Repr

namespace SpeechStreamer

/-- A streamer of a sentence, which is one chunk where it is short. -/
def new (numFrames chunkSize chunkPadding hop : Nat) : SpeechStreamer where
  numFrames := numFrames
  melChunker := .new numFrames chunkSize chunkPadding hop
  oneShot := decide (Streaming.oneShot numFrames chunkSize chunkPadding)

/-- One uncancelled call of the iterator; the item is `none` where slicing panics. -/
def next (hop : Nat) (streamer : SpeechStreamer) : Option (Option (List Nat)) × SpeechStreamer :=
  match streamer.melChunker.next with
  | (none, chunker) => (none, { streamer with melChunker := chunker })
  | (some item, chunker) =>
      if streamer.oneShot then
        (some (some (decoded hop 0 streamer.numFrames)),
          { streamer with melChunker := chunker.consume })
      else
        (some (synthesizeChunk streamer.numFrames hop item),
          { streamer with melChunker := chunker })

end SpeechStreamer

/-- The kept chunks are nonempty and their samples, in order, are those of the whole utterance. -/
def CoversOnce (numFrames chunkSize chunkPadding hop : Nat) : Prop :=
  ∃ chunks : List (List Nat),
    Drains (SpeechStreamer.next hop) (.new numFrames chunkSize chunkPadding hop)
      (chunks.map some) ∧
    chunks.flatten = List.range (numFrames * hop) ∧ ∀ chunk ∈ chunks, chunk ≠ []

section Slices

namespace Slice

@[simp] theorem absIndex_natCast (axisLen index : Nat) :
    absIndex axisLen (index : Int) = some index := by
  simp [absIndex]

theorem absIndex_neg {axisLen k : Nat} (hk : 0 < k) (hle : k ≤ axisLen) :
    absIndex axisLen (-(k : Int)) = some (axisLen - k) := by
  have hneg : -(k : Int) < 0 := by omega
  rw [absIndex, if_pos hneg, Int.neg_neg, Int.toNat_natCast, if_pos hle]

theorem toAbsSlice_open {axisLen start : Nat} (h : start ≤ axisLen) :
    toAbsSlice axisLen ⟨start, none⟩ = some (start, axisLen) := by
  simp [toAbsSlice, Nat.not_lt.mpr h, h]

theorem toAbsSlice_closed {axisLen start stop : Nat} (h : start ≤ stop) (hs : stop ≤ axisLen) :
    toAbsSlice axisLen ⟨start, some stop⟩ = some (start, stop) := by
  simp [toAbsSlice, Nat.not_lt.mpr h, hs, h.trans hs]

/-- A positive number of positions is cut off at the end of the axis. -/
theorem toAbsSlice_fromEnd {axisLen start k : Nat} (hk : 0 < k) (h : start + k ≤ axisLen) :
    toAbsSlice axisLen ⟨start, some (-(k : Int))⟩ = some (start, axisLen - k) := by
  have hle : k ≤ axisLen := by omega
  have hlt : ¬ axisLen - k < start := by omega
  have hstart : start ≤ axisLen := by omega
  simp [toAbsSlice, absIndex_neg hk hle, hlt, hstart]

/-- A start past the end of the axis panics, whatever the stop is. -/
theorem toAbsSlice_past {axisLen start : Nat} (h : axisLen < start) (stop : Option Int) :
    toAbsSlice axisLen ⟨start, stop⟩ = none := by
  cases hstop : absIndex axisLen (stop.getD axisLen) with
  | none => simp [toAbsSlice, hstop]
  | some stop => simp [toAbsSlice, hstop, Nat.not_le.mpr h]

/-- A start counted from the end selects at most the positions it counts. -/
theorem toAbsSlice_wrapped {axisLen back first last : Nat} {stop : Option Int} (hpos : 0 < back)
    (hle : back ≤ axisLen) (h : toAbsSlice axisLen ⟨-(back : Int), stop⟩ = some (first, last)) :
    first = axisLen - back ∧ last - first ≤ back := by
  simp only [toAbsSlice, absIndex_neg hpos hle, Option.bind_eq_bind, Option.bind_some,
    Option.bind_eq_some_iff, Option.ite_none_right_eq_some, Option.some.injEq, Prod.mk.injEq] at h
  obtain ⟨last', -, ⟨-, hlast⟩, rfl, rfl⟩ := h
  refine ⟨rfl, ?_⟩
  omega

end Slice

theorem length_decoded (hop start stop : Nat) :
    (decoded hop start stop).length = (stop - start) * hop := by
  simp [decoded]

/-- Dropping and taking whole frames of decoded samples is decoding fewer frames. -/
theorem decoded_trim (hop : Nat) {start stop lead tail : Nat}
    (h : start + lead + tail ≤ stop) :
    ((decoded hop start stop).drop (lead * hop)).take
        ((stop - start) * hop - tail * hop - lead * hop) =
      decoded hop (start + lead) (stop - tail) := by
  have hlen : (stop - start) * hop - tail * hop - lead * hop =
      (stop - tail - (start + lead)) * hop := by
    rw [← Nat.sub_mul, ← Nat.sub_mul]
    congr 1
    omega
  have hle : (stop - tail - (start + lead)) * hop ≤ (stop - start) * hop - lead * hop := by
    rw [← Nat.sub_mul]
    exact Nat.mul_le_mul_right _ (by omega)
  rw [hlen, decoded, decoded, List.drop_range', List.take_range'_of_length_ge hle]
  congr 1
  ring

/-- Consecutive frames decode to consecutive samples. -/
theorem decoded_append (hop : Nat) {a b c : Nat} (hab : a ≤ b) (hbc : b ≤ c) :
    decoded hop a b ++ decoded hop b c = decoded hop a c := by
  obtain ⟨d, rfl⟩ := Nat.exists_eq_add_of_le hab
  obtain ⟨e, rfl⟩ := Nat.exists_eq_add_of_le hbc
  have hstart : (a + d) * hop = a * hop + d * hop := by ring
  have hlen : (a + d + e - a) * hop = d * hop + e * hop := by
    rw [show a + d + e - a = d + e by omega]
    ring
  simp only [decoded, hstart, hlen, Nat.add_sub_cancel_left]
  exact List.range'_append_1

theorem decoded_ne_nil {hop a b : Nat} (hhop : 1 ≤ hop) (h : a < b) : decoded hop a b ≠ [] := by
  simp only [decoded, ne_eq, List.range'_eq_nil_iff, Nat.mul_eq_zero, not_or]
  omega

end Slices

section Chunks

variable {numFrames chunkSize padding hop : Nat}

/-- The width of the chunk after `emitted` others. -/
def chunkWidth (chunkSize emitted : Nat) : Nat :=
  min (max chunkSize 1 * (emitted + 1)) maxChunkSize

/-- The saturation of the product is invisible below the width cap. -/
theorem currentChunkWidth_eq (chunker : AdaptiveMelChunker) :
    chunker.currentChunkWidth = chunkWidth chunker.baseChunkSize chunker.chunksEmitted := by
  simp only [AdaptiveMelChunker.currentChunkWidth, chunkWidth, saturatingMul, usizeMax,
    maxChunkSize]
  omega

theorem chunkWidth_pos (chunkSize emitted : Nat) : 0 < chunkWidth chunkSize emitted := by
  have h : 0 < max chunkSize 1 * (emitted + 1) := Nat.mul_pos (by omega) (by omega)
  simp only [chunkWidth, maxChunkSize]
  omega

/-- The chunker between two chunks: its cursor is the padded end of the last one. -/
def chunkerAt (numFrames chunkSize padding hop cursor emitted : Nat) : AdaptiveMelChunker :=
  { AdaptiveMelChunker.new numFrames chunkSize padding hop with
    cursor := some cursor, chunksEmitted := emitted }

theorem chunkWidth_mono (chunkSize : Nat) {emitted emitted' : Nat} (h : emitted ≤ emitted') :
    chunkWidth chunkSize emitted ≤ chunkWidth chunkSize emitted' := by
  have hle : max chunkSize 1 * (emitted + 1) ≤ max chunkSize 1 * (emitted' + 1) :=
    Nat.mul_le_mul_left _ (by omega)
  simp only [chunkWidth]
  omega

/-- Where the padded mel slice of the next chunk starts, and how many frames of it lead. -/
def StartsAt (padding cursor start lead : Nat) : Prop :=
  (cursor = 0 ∧ start = 0 ∧ lead = 0) ∨ (0 < cursor ∧ start + padding * 2 = cursor ∧ lead = padding)

theorem StartsAt.kept_le {cursor start lead : Nat} (hs : StartsAt padding cursor start lead) :
    start + lead ≤ cursor := by
  rcases hs with ⟨rfl, rfl, rfl⟩ | ⟨_, hstart, rfl⟩ <;> omega

/-- The last chunk is left open on both the mel and the audio side. -/
theorem next_last (hop : Nat) {cursor emitted start lead : Nat} (hs : StartsAt padding cursor start lead)
    (hlast : numFrames ≤ cursor + chunkWidth chunkSize emitted + padding + 44) :
    (chunkerAt numFrames chunkSize padding hop cursor emitted).next =
      (some (⟨start, none⟩, ⟨(lead * hop : Nat), none⟩),
        (chunkerAt numFrames chunkSize padding hop cursor (emitted + 1)).consume) := by
  have hfinal : (numFrames : Int) -
      (cursor + chunkWidth chunkSize emitted + padding) ≤ minChunkSize := by
    simp only [minChunkSize]
    omega
  rcases hs with ⟨rfl, rfl, rfl⟩ | ⟨hpos, hstart, hlead⟩
  · simp only [AdaptiveMelChunker.next, chunkerAt, AdaptiveMelChunker.new, currentChunkWidth_eq,
      AdaptiveMelChunker.consume, hfinal, if_true]
    simp
  · subst hlead
    have hne : (cursor : Int) ≠ 0 := by omega
    have hmel : (cursor : Int) - lead * 2 = start := by omega
    simp only [AdaptiveMelChunker.next, chunkerAt, AdaptiveMelChunker.new, currentChunkWidth_eq,
      AdaptiveMelChunker.consume, hfinal, hne, hmel, if_true, if_false]
    simp

/-- Any other chunk ends at its padded end, and its audio gives the padding back. -/
theorem next_middle (hop : Nat) {cursor emitted start lead : Nat} (hs : StartsAt padding cursor start lead)
    (hmore : cursor + chunkWidth chunkSize emitted + padding + 44 < numFrames) :
    (chunkerAt numFrames chunkSize padding hop cursor emitted).next =
      (some (⟨start, some (cursor + chunkWidth chunkSize emitted + padding : Nat)⟩,
          ⟨(lead * hop : Nat), some (-((padding * hop : Nat) : Int))⟩),
        chunkerAt numFrames chunkSize padding hop
          (cursor + chunkWidth chunkSize emitted + padding) (emitted + 1)) := by
  have hfinal : ¬ (numFrames : Int) -
      (cursor + chunkWidth chunkSize emitted + padding) ≤ minChunkSize := by
    simp only [minChunkSize]
    omega
  rcases hs with ⟨rfl, rfl, rfl⟩ | ⟨hpos, hstart, hlead⟩
  · simp only [Nat.cast_zero] at hfinal
    simp only [AdaptiveMelChunker.next, chunkerAt, AdaptiveMelChunker.new, currentChunkWidth_eq,
      Nat.cast_zero, hfinal, if_true, if_false]
    simp
  · subst hlead
    have hne : (cursor : Int) ≠ 0 := by omega
    have hmel : (cursor : Int) - lead * 2 = start := by omega
    simp only [AdaptiveMelChunker.next, chunkerAt, AdaptiveMelChunker.new, currentChunkWidth_eq,
      hfinal, hne, hmel, if_false]
    simp

theorem synthesizeChunk_last {start lead : Nat} (h : start + lead ≤ numFrames) :
    synthesizeChunk numFrames hop (⟨start, none⟩, ⟨(lead * hop : Nat), none⟩) =
      some (decoded hop (start + lead) numFrames) := by
  have hstart : start ≤ numFrames := by omega
  have hlead : lead * hop ≤ (decoded hop start numFrames).length := by
    rw [length_decoded]
    exact Nat.mul_le_mul_right _ (by omega)
  have htrim := decoded_trim hop (show start + lead + 0 ≤ numFrames by omega)
  simp only [Nat.zero_mul, Nat.sub_zero] at htrim
  simp only [synthesizeChunk, Slice.toAbsSlice_open hstart, Option.bind_eq_bind, Option.bind_some,
    Slice.toAbsSlice_open hlead]
  rw [length_decoded, htrim]

theorem synthesizeChunk_middle {start stop lead tail : Nat} (hhop : 1 ≤ hop) (htail : 0 < tail)
    (h : start + lead + tail ≤ stop) (hs : stop ≤ numFrames) :
    synthesizeChunk numFrames hop
        (⟨start, some stop⟩, ⟨(lead * hop : Nat), some (-((tail * hop : Nat) : Int))⟩) =
      some (decoded hop (start + lead) (stop - tail)) := by
  have hstart : start ≤ stop := by omega
  have hcut : lead * hop + tail * hop ≤ (decoded hop start stop).length := by
    rw [length_decoded, ← Nat.add_mul]
    exact Nat.mul_le_mul_right _ (by omega)
  have hpos : 0 < tail * hop := Nat.mul_pos htail hhop
  simp only [synthesizeChunk, Slice.toAbsSlice_closed hstart hs, Option.bind_eq_bind,
    Option.bind_some, Slice.toAbsSlice_fromEnd hpos hcut]
  rw [length_decoded, decoded_trim hop h]

/-! ## The chunks of one sentence -/

theorem streamer_next_exhausted {hop : Nat} {streamer : SpeechStreamer}
    (h : streamer.melChunker.cursor = none) : (streamer.next hop).1 = none := by
  simp only [SpeechStreamer.next, AdaptiveMelChunker.next, h]

theorem streamer_next_chunk (numFrames hop : Nat) {chunker chunker' : AdaptiveMelChunker}
    {item : Slice × Slice} (h : chunker.next = (some item, chunker')) :
    SpeechStreamer.next hop ⟨numFrames, chunker, false⟩ =
      (some (synthesizeChunk numFrames hop item), ⟨numFrames, chunker', false⟩) := by
  simp only [SpeechStreamer.next, h, Bool.false_eq_true, if_false]

theorem new_eq_chunkerAt (h : ¬ oneShot numFrames chunkSize padding) :
    SpeechStreamer.new numFrames chunkSize padding hop =
      ⟨numFrames, chunkerAt numFrames chunkSize padding hop 0 0, false⟩ := by
  simp only [SpeechStreamer.new, decide_eq_false h]
  rfl

/-- A last chunk keeps everything after what the chunks before it kept. -/
theorem drains_last {cursor emitted start lead : Nat} (hhop : 1 ≤ hop)
    (hs : StartsAt padding cursor start lead) (hcursor : cursor < numFrames)
    (hlast : numFrames ≤ cursor + chunkWidth chunkSize emitted + padding + 44) :
    ∃ chunks : List (List Nat),
      Drains (SpeechStreamer.next hop)
        ⟨numFrames, chunkerAt numFrames chunkSize padding hop cursor emitted, false⟩
        (chunks.map some) ∧
      chunks.flatten = decoded hop (start + lead) numFrames ∧ ∀ chunk ∈ chunks, chunk ≠ [] := by
  have hkept : start + lead < numFrames := hs.kept_le.trans_lt hcursor
  refine ⟨[decoded hop (start + lead) numFrames], ?_, by simp, by
    simpa using decoded_ne_nil hhop hkept⟩
  have hnext := streamer_next_chunk numFrames hop (next_last hop hs hlast)
  rw [synthesizeChunk_last hkept.le] at hnext
  exact .yield hnext (.done (streamer_next_exhausted rfl))

/-- With a padding between one frame and the first width, the chunks still to come keep
exactly what the chunks before them did not, whatever the cursor is. -/
theorem drains_from (hhop : 1 ≤ hop) (hpos : 0 < padding)
    (hpad : padding ≤ chunkWidth chunkSize 0) {cursor emitted start lead : Nat}
    (hs : StartsAt padding cursor start lead) (hcursor : cursor < numFrames) :
    ∃ chunks : List (List Nat),
      Drains (SpeechStreamer.next hop)
        ⟨numFrames, chunkerAt numFrames chunkSize padding hop cursor emitted, false⟩
        (chunks.map some) ∧
      chunks.flatten = decoded hop (start + lead) numFrames ∧ ∀ chunk ∈ chunks, chunk ≠ [] := by
  -- The cursor grows by at least one frame, so the frames past it run out.
  induction hn : numFrames - cursor using Nat.strong_induction_on
    generalizing cursor emitted start lead with
  | _ k ih =>
      have hwidth : chunkWidth chunkSize 0 ≤ chunkWidth chunkSize emitted :=
        chunkWidth_mono chunkSize (Nat.zero_le emitted)
      by_cases hlast : numFrames ≤ cursor + chunkWidth chunkSize emitted + padding + 44
      · exact drains_last hhop hs hcursor hlast
      · have hmore : cursor + chunkWidth chunkSize emitted + padding + 44 < numFrames := by omega
        have hkept := hs.kept_le
        have hs' : StartsAt padding (cursor + chunkWidth chunkSize emitted + padding)
            (cursor + chunkWidth chunkSize emitted - padding) padding :=
          .inr ⟨by omega, by omega, rfl⟩
        obtain ⟨chunks, hdrain, hflat, hne⟩ :=
          @ih _ (by omega) _ (emitted + 1) _ _ hs' (by omega) rfl
        have hfit : start + lead + padding ≤ cursor + chunkWidth chunkSize emitted + padding := by
          omega
        have hstop : cursor + chunkWidth chunkSize emitted + padding - padding =
            cursor + chunkWidth chunkSize emitted - padding + padding := by omega
        refine ⟨decoded hop (start + lead)
          (cursor + chunkWidth chunkSize emitted - padding + padding) :: chunks, ?_, ?_, ?_⟩
        · refine .yield ?_ hdrain
          rw [streamer_next_chunk numFrames hop (next_middle hop hs hmore),
            synthesizeChunk_middle hhop hpos hfit (by omega), hstop]
        · rw [List.flatten_cons, hflat]
          exact decoded_append hop (by omega) (by omega)
        · have hfirst : decoded hop (start + lead)
              (cursor + chunkWidth chunkSize emitted - padding + padding) ≠ [] :=
            decoded_ne_nil hhop (by omega)
          simpa [hfirst] using hne

/-- Without padding the audio of a chunk that is not the last stops at sample `-0 = 0`. -/
theorem synthesizeChunk_unpadded {stop : Nat} (hs : stop ≤ numFrames) :
    synthesizeChunk numFrames hop
        (⟨(0 : Nat), some stop⟩, ⟨((0 * hop : Nat) : Int), some (-((0 * hop : Nat) : Int))⟩) =
      some [] := by
  have hmel := Slice.toAbsSlice_closed (Nat.zero_le stop) hs
  have haudio := Slice.toAbsSlice_closed (le_refl 0)
    (Nat.zero_le (decoded hop 0 stop).length)
  simp only [Nat.cast_zero] at hmel haudio
  simp only [synthesizeChunk, Nat.zero_mul, Nat.cast_zero, Int.neg_zero, hmel,
    Option.bind_eq_bind, Option.bind_some, haudio]
  rfl

/-- A mel slice that starts `back` frames before the end holds too few frames for a larger
lead to be dropped from its audio. -/
theorem synthesizeChunk_wrapped {back lead : Nat} (hhop : 1 ≤ hop) (hpos : 0 < back)
    (hle : back ≤ numFrames) (hlead : back < lead) (melStop audioStop : Option Int) :
    synthesizeChunk numFrames hop
      (⟨-(back : Int), melStop⟩, ⟨(lead * hop : Nat), audioStop⟩) = none := by
  simp only [synthesizeChunk, Option.bind_eq_bind]
  rw [Option.bind_eq_none_iff]
  rintro ⟨melStart, melEnd⟩ hmel
  obtain ⟨rfl, hend⟩ := Slice.toAbsSlice_wrapped hpos hle hmel
  have hshort : (decoded hop (numFrames - back) melEnd).length < lead * hop := by
    rw [length_decoded]
    exact Nat.mul_lt_mul_of_pos_right (by omega) hhop
  rw [Slice.toAbsSlice_past hshort]
  rfl

/-- Past the first chunk, whether it is the last one only shows in where the slices stop. -/
theorem next_start (numFrames chunkSize padding hop emitted : Nat) {cursor : Nat}
    (hpos : 0 < cursor) :
    ∃ melStop audioStop chunker',
      (chunkerAt numFrames chunkSize padding hop cursor emitted).next =
        (some (⟨cursor - padding * 2, melStop⟩, ⟨(padding * hop : Nat), audioStop⟩),
          chunker') := by
  have hne : (cursor : Int) ≠ 0 := by omega
  simp only [AdaptiveMelChunker.next, chunkerAt, AdaptiveMelChunker.new, hne, if_false,
    Nat.cast_mul]
  exact ⟨_, _, _, rfl⟩

/-- The first of several chunks keeps no sample when there is no padding. -/
theorem not_coversOnce_unpadded (hshot : ¬ oneShot numFrames chunkSize 0)
    (hmore : chunkWidth chunkSize 0 + 44 < numFrames) :
    ¬ CoversOnce numFrames chunkSize 0 hop := by
  rintro ⟨chunks, hdrain, -, hne⟩
  rw [new_eq_chunkerAt hshot] at hdrain
  have hstart : StartsAt 0 0 0 0 := .inl ⟨rfl, rfl, rfl⟩
  have hnext := next_middle hop hstart
    (show 0 + chunkWidth chunkSize 0 + 0 + 44 < numFrames by omega)
  obtain ⟨items, hitems, -⟩ := hdrain.of_next (streamer_next_chunk numFrames hop hnext)
  rw [synthesizeChunk_unpadded (by omega)] at hitems
  have hempty : some [] ∈ chunks.map some := hitems ▸ List.mem_cons_self
  obtain ⟨chunk, hmem, hchunk⟩ := List.mem_map.mp hempty
  exact hne chunk hmem (Option.some.inj hchunk)

/-- The second chunk starts before the first mel frame when the padding is wider than the
first chunk. -/
theorem not_coversOnce_wide (hhop : 1 ≤ hop) (hshot : ¬ oneShot numFrames chunkSize padding)
    (hmore : chunkWidth chunkSize 0 + padding + 44 < numFrames)
    (hwide : chunkWidth chunkSize 0 < padding) :
    ¬ CoversOnce numFrames chunkSize padding hop := by
  rintro ⟨chunks, hdrain, -, -⟩
  rw [new_eq_chunkerAt hshot] at hdrain
  have hwidth := chunkWidth_pos chunkSize 0
  have hstart : StartsAt padding 0 0 0 := .inl ⟨rfl, rfl, rfl⟩
  have hfirst := next_middle hop hstart
    (show 0 + chunkWidth chunkSize 0 + padding + 44 < numFrames by omega)
  obtain ⟨items, hitems, hdrain⟩ := hdrain.of_next (streamer_next_chunk numFrames hop hfirst)
  obtain ⟨melStop, audioStop, chunker, hsecond⟩ :=
    next_start numFrames chunkSize padding hop (0 + 1)
      (show 0 < 0 + chunkWidth chunkSize 0 + padding by omega)
  obtain ⟨items', rfl, -⟩ := hdrain.of_next (streamer_next_chunk numFrames hop hsecond)
  have hwrap : ((0 + chunkWidth chunkSize 0 + padding : Nat) : Int) - padding * 2 =
      -((padding - chunkWidth chunkSize 0 : Nat) : Int) := by omega
  rw [hwrap, synthesizeChunk_wrapped hhop (by omega) (by omega) (by omega)] at hitems
  have hpanic : none ∈ chunks.map some := hitems ▸ by simp
  simp at hpanic

/-- Streaming keeps every sample once exactly when one chunk is enough or the padding is at
least one frame and no wider than the first chunk. -/
theorem coversOnce_iff (hhop : 1 ≤ hop) (hshot : ¬ oneShot numFrames chunkSize padding) :
    CoversOnce numFrames chunkSize padding hop ↔
      numFrames ≤ chunkWidth chunkSize 0 + padding + 44 ∨
        (1 ≤ padding ∧ padding ≤ chunkWidth chunkSize 0) := by
  constructor
  · intro hcovers
    by_contra hfails
    obtain ⟨hmore, hpadding⟩ := not_or.mp hfails
    rcases Nat.eq_zero_or_pos padding with rfl | hpos
    · exact not_coversOnce_unpadded hshot (by omega) hcovers
    · exact not_coversOnce_wide hhop hshot (by omega) (by omega) hcovers
  · intro hcond
    have hstart : StartsAt padding 0 0 0 := .inl ⟨rfl, rfl, rfl⟩
    have hframes : 0 < numFrames := by
      rw [oneShot] at hshot
      omega
    have hall : decoded hop (0 + 0) numFrames = List.range (numFrames * hop) := by
      simp [decoded, List.range_eq_range']
    rw [CoversOnce, new_eq_chunkerAt hshot, ← hall]
    rcases hcond with hlast | ⟨hpos, hpad⟩
    · exact drains_last hhop hstart hframes (by omega)
    · exact drains_from hhop hpos hpad hstart hframes

/-- With the padding in range, several chunks of growing width cover an utterance. -/
theorem coversOnce_of_several_chunks : CoversOnce 5000 100 10 256 :=
  (coversOnce_iff (by decide) (by decide)).mpr (.inr (by decide))

/-- A thousand frames in unpadded chunks of a hundred are not covered. -/
theorem unpadded_not_covered : 1 ≤ 256 ∧ ¬ oneShot 1000 100 0 ∧ ¬ CoversOnce 1000 100 0 256 :=
  ⟨by decide, by decide, not_coversOnce_unpadded (by decide) (by decide)⟩

end Chunks

end Dengjen.Piper.Streaming
