import Dengjen.Audio.Samples
import Dengjen.General.Pieces
import Dengjen.Kokoro.Sentence
import Mathlib.Algebra.Order.BigOperators.Group.List
import Mathlib.Logic.Relation

/-!
# Kokoro's streams

A stream is cut from the finished sentence: chunks of the scaled size, of which
the last may be shorter. The scaled size saturates, and the cursor stays where
adding the size to it does not overflow.
-/

namespace Dengjen.Kokoro

namespace KokoroAudioStreamer

variable {streamer streamer' : KokoroAudioStreamer}

/-! ## One chunk -/

/-- The next call hands out nothing. -/
def IsEnded (streamer : KokoroAudioStreamer) : Prop :=
  streamer.chunkSize = 0 ∨ streamer.cursor ≥ streamer.samples.length

/-- Where the next chunk ends. -/
def stop (streamer : KokoroAudioStreamer) : Nat :=
  min (streamer.cursor + streamer.chunkSize) streamer.samples.length

/-- What has not been handed out. -/
def left (streamer : KokoroAudioStreamer) : AudioSamples := streamer.samples.drop streamer.cursor

theorem next_of_ended (h : streamer.IsEnded) : streamer.next = (none, streamer) := if_pos h

theorem next_of_not_ended (h : ¬ streamer.IsEnded) :
    streamer.next =
      (some (streamer.left.take streamer.chunkSize), { streamer with cursor := streamer.stop }) := by
  have htake : (streamer.samples.take streamer.stop).drop streamer.cursor =
      streamer.left.take streamer.chunkSize := by
    rw [stop, List.drop_take, left]
    apply List.take_eq_take_iff.mpr
    rw [List.length_drop]
    omega
  rw [← htake]
  exact if_neg h

theorem drain_of_ended (h : streamer.IsEnded) : streamer.drain = [] := by
  rw [drain]
  split
  · rfl
  · next hnext =>
      rw [next_of_ended h] at hnext
      cases hnext

theorem drain_of_not_ended (h : ¬ streamer.IsEnded) :
    streamer.drain =
      streamer.left.take streamer.chunkSize ::
        { streamer with cursor := streamer.stop : KokoroAudioStreamer }.drain := by
  rw [drain]
  split
  · next hnext =>
      rw [next_of_not_ended h] at hnext
      cases hnext
  · next hnext =>
      rw [next_of_not_ended h] at hnext
      cases hnext
      rfl

/-! ## The chunks of a stream -/

/-- A chunk with others behind it. -/
def IsChunk (size : Nat) (rest chunk : AudioSamples) : Prop :=
  size < rest.length ∧ chunk.length = size

/-- The last chunk. -/
def IsLast (size : Nat) (rest : AudioSamples) : Prop := rest ≠ [] ∧ rest.length ≤ size

/-- A drain hands out what is left, chunk by chunk. -/
theorem pieces_drain (hsize : 0 < streamer.chunkSize)
    (hleft : streamer.cursor < streamer.samples.length) :
    Pieces (IsChunk streamer.chunkSize) (IsLast streamer.chunkSize) streamer.left
      streamer.drain := by
  induction hlength : streamer.left.length using Nat.strong_induction_on generalizing streamer with
  | _ length ih =>
      have hended : ¬ streamer.IsEnded := by
        rintro (hzero | hover)
        · omega
        · omega
      have hlen : streamer.left.length = streamer.samples.length - streamer.cursor :=
        List.length_drop
      rw [drain_of_not_ended hended]
      by_cases hlast : streamer.left.length ≤ streamer.chunkSize
      · have hover : streamer.samples.length ≤ streamer.stop := by
          rw [stop]
          omega
        rw [drain_of_ended (.inr hover), List.take_of_length_le hlast]
        exact .last ⟨List.ne_nil_of_length_pos (by omega), hlast⟩
      · have hstop : streamer.stop = streamer.cursor + streamer.chunkSize := by
          rw [stop]
          omega
        let streamer' : KokoroAudioStreamer := { streamer with cursor := streamer.stop }
        have hleft' : streamer'.left = streamer.left.drop streamer.chunkSize := by
          rw [left, left, List.drop_drop]
          exact congrArg (streamer.samples.drop ·) hstop
        have hless : streamer'.left.length < length := by
          rw [hleft', List.length_drop]
          omega
        have hmore : streamer.stop < streamer.samples.length := by omega
        have htail := @ih _ hless streamer' hsize hmore rfl
        rw [hleft'] at htail
        nth_rewrite 1 [← List.take_append_drop streamer.chunkSize streamer.left]
        refine .cons ⟨?_, ?_⟩ htail
        · rw [List.take_append_drop]
          omega
        · rw [List.length_take]
          omega

/-! ## The cursor -/

/-- A call that hands out a chunk. -/
def Advances (streamer streamer' : KokoroAudioStreamer) : Prop :=
  ∃ chunk, streamer.next = (some chunk, streamer')

/-- A `Vec` takes at most `isize::MAX` bytes. -/
def FitsInMemory (samples : AudioSamples) : Prop := samples.length * 4 ≤ isizeMax

/-- The next call computes no index that overflows or lies outside the samples. -/
structure InBounds (streamer : KokoroAudioStreamer) : Prop where
  sum_le : ¬ streamer.IsEnded → streamer.cursor + streamer.chunkSize ≤ usizeMax
  cursor_le : ¬ streamer.IsEnded → streamer.cursor ≤ streamer.stop
  stop_le : streamer.stop ≤ streamer.samples.length

/-- The cursor is where a chunk ended. -/
structure CursorInv (streamer : KokoroAudioStreamer) : Prop where
  size_le : streamer.chunkSize ≤ usizeMax
  fits : FitsInMemory streamer.samples
  cursor : streamer.cursor = 0 ∨ streamer.chunkSize ≤ streamer.cursor ∨
    streamer.cursor = streamer.samples.length

theorem CursorInv.step (h : streamer.CursorInv) (hnext : streamer.Advances streamer') :
    streamer'.CursorInv := by
  obtain ⟨chunk, hnext⟩ := hnext
  have hended : ¬ streamer.IsEnded := by
    intro hended
    rw [next_of_ended hended] at hnext
    cases hnext
  rw [next_of_not_ended hended] at hnext
  cases hnext
  refine ⟨h.size_le, h.fits, ?_⟩
  dsimp only
  rw [stop]
  omega

/-- Where the cursor is not 0 the size is at most the cursor, and so less than the samples. -/
theorem CursorInv.inBounds (h : streamer.CursorInv) : streamer.InBounds := by
  have hfits := h.fits
  have hsize := h.size_le
  have hcursor := h.cursor
  simp only [FitsInMemory, isizeMax, usizeMax] at hfits hsize
  constructor
  · intro hended
    simp only [IsEnded, not_or] at hended
    rw [usizeMax]
    omega
  · intro hended
    simp only [IsEnded, not_or] at hended
    rw [stop]
    omega
  · exact Nat.min_le_right _ _

theorem inBounds_of_reachable {start : KokoroAudioStreamer} (hstart : start.CursorInv)
    (h : Relation.ReflTransGen Advances start streamer) : streamer.InBounds := by
  have hinv : streamer.CursorInv := by
    induction h with
    | refl => exact hstart
    | tail _ hnext ih => exact ih.step hnext
  exact hinv.inBounds

end KokoroAudioStreamer

/-! ## The stream of a sentence -/

/-- Chunks that are the samples of an audio again, in one size but for the last. -/
structure Streams (audio : Audio) (size : Nat) (chunks : List AudioSamples) : Prop where
  flatten_eq : chunks.flatten = audio.samples
  bytes_eq : chunks.flatMap AudioSamples.asWaveBytes = AudioSamples.asWaveBytes audio.samples
  length_eq : ∀ before chunk after, chunks = before ++ chunk :: after → after ≠ [] →
    chunk.length = size
  length_le : ∀ chunk ∈ chunks, chunk.length ≤ size
  ne_nil : ∀ chunk ∈ chunks, chunk ≠ []

open KokoroAudioStreamer in
theorem streams_drain (audio : Audio) {size : Nat} (hsize : 0 < size) :
    Streams audio size (KokoroAudioStreamer.mk audio.samples 0 size).drain := by
  by_cases hnil : audio.samples = []
  · have hdrain : (KokoroAudioStreamer.mk audio.samples 0 size).drain = [] := by
      apply drain_of_ended
      rw [hnil]
      exact .inr (Nat.le_refl 0)
    rw [hdrain]
    constructor
    · exact hnil.symm
    · rw [hnil]
      rfl
    · intro before chunk after heq
      exact absurd heq (by simp)
    · exact List.forall_mem_nil _
    · exact List.forall_mem_nil _
  · have hleft : 0 < audio.samples.length := List.length_pos_iff.mpr hnil
    have hpieces := @pieces_drain ⟨audio.samples, 0, size⟩ hsize hleft
    have hflatten := hpieces.flatten_eq
    constructor
    · exact hflatten
    · rw [← AudioSamples.asWaveBytes_flatten, hflatten]
      rfl
    · intro before chunk after heq hafter
      exact (hpieces.cut_of_append heq hafter).2
    · exact hpieces.forall_mem (fun _ _ h => h.2.le) fun _ h => h.2
    · refine hpieces.forall_mem (fun _ _ h => ?_) fun _ h => h.1
      apply List.ne_nil_of_length_pos
      rw [h.2]
      exact hsize

/-- A stream of the whole sentence, or the error that the sentence ends with. -/
theorem streamSynthesis_eq (voice : KokoroModel) (synthConfig : SynthesisConfig)
    (phonemes : String) {chunkSize : Nat} (hpos : 0 < chunkSize) :
    voice.streamSynthesis synthConfig phonemes chunkSize =
      (voice.synthesizePhonemes synthConfig phonemes).map fun audio =>
        (KokoroAudioStreamer.mk audio.samples 0
          (saturatingMul chunkSize kokoroChunkSizeScale)).drain.map fun chunk =>
            .returned (.ok chunk) := by
  rw [KokoroModel.streamSynthesis, if_neg hpos.ne']
  cases voice.synthesizePhonemes synthConfig phonemes <;> rfl

theorem saturatingMul_pos {chunkSize : Nat} (hpos : 0 < chunkSize) :
    0 < saturatingMul chunkSize kokoroChunkSizeScale := by
  simp only [saturatingMul, kokoroChunkSizeScale, usizeMax]
  omega

/-- A stream yields the sentence that is spoken in one piece, whatever the chunk size. -/
theorem streamSynthesis_speaks_sentence (voice : KokoroModel) (synthConfig : SynthesisConfig)
    (phonemes : String) {chunkSize : Nat} (hpos : 0 < chunkSize) (chunkPadding : Nat) :
    match voice.toDengjenModel.speakOneSentence synthConfig phonemes with
    | .error error =>
        voice.toDengjenModel.streamSynthesis synthConfig phonemes chunkSize chunkPadding =
          .returned (.error error)
    | .ok audio =>
        (∃ chunks : List AudioSamples,
          voice.toDengjenModel.streamSynthesis synthConfig phonemes chunkSize chunkPadding =
            .returned (.ok (chunks.map fun chunk => .returned (.ok chunk))) ∧
          Streams audio (saturatingMul chunkSize kokoroChunkSizeScale) chunks) ∧
        (KokoroAudioStreamer.FitsInMemory audio.samples → ∀ streamer : KokoroAudioStreamer,
          Relation.ReflTransGen KokoroAudioStreamer.Advances
            ⟨audio.samples, 0, saturatingMul chunkSize kokoroChunkSizeScale⟩ streamer →
          streamer.InBounds) := by
  have hstream : voice.toDengjenModel.streamSynthesis synthConfig phonemes chunkSize chunkPadding =
      .returned (voice.streamSynthesis synthConfig phonemes chunkSize) := rfl
  have hspeak : voice.toDengjenModel.speakOneSentence synthConfig phonemes =
      voice.synthesizePhonemes synthConfig phonemes := rfl
  rw [hstream, hspeak, streamSynthesis_eq voice synthConfig phonemes hpos]
  cases voice.synthesizePhonemes synthConfig phonemes with
  | error error => rfl
  | ok audio =>
      refine ⟨⟨_, rfl, streams_drain audio (saturatingMul_pos hpos)⟩, ?_⟩
      intro hfits streamer hreach
      exact KokoroAudioStreamer.inBounds_of_reachable
        ⟨Nat.min_le_right _ _, hfits, .inl rfl⟩ hreach

/-- A voice with 200 samples for each token. -/
def longVoice : KokoroModel :=
  { Sentence.twoPresets with
    session := fun tokenIds _ _ => .ok (tokenIds.flatMap fun _ => List.replicate 200 KokoroModel.speed) }

theorem longVoice_speaks :
    ∃ audio, longVoice.toDengjenModel.speakOneSentence .default "aaa" = .ok audio ∧
      audio.samples.length = 1000 := by
  have htokens : longVoice.vocab.tokenize "aaa" = [1, 1, 1] := by decide
  have hspeak : longVoice.toDengjenModel.speakOneSentence .default "aaa" =
      longVoice.synthesizePhonemes .default "aaa" := rfl
  rw [hspeak, KokoroModel.synthesizePhonemes, htokens, splitTokens, if_neg (by decide)]
  refine ⟨_, rfl, ?_⟩
  simp only [List.reverse_singleton, List.flatMap_singleton, Audio.new, List.length_flatMap,
    List.length_replicate]
  rfl

/-- Chunks are as many as the samples need. -/
theorem Streams.length_le_mul {audio : Audio} {size : Nat} {chunks : List AudioSamples}
    (h : Streams audio size chunks) : audio.samples.length ≤ chunks.length * size := by
  have hsum := List.sum_le_card_nsmul (chunks.map List.length) size
    (List.forall_mem_map.mpr h.length_le)
  rwa [List.length_map, nsmul_eq_mul, Nat.cast_id, ← List.length_flatten, h.flatten_eq] at hsum

/-- Three tokens and their frame have 1000 samples, which are no less than four chunks. -/
theorem longVoice_streams :
    ∃ (audio : Audio) (chunks : List AudioSamples),
      longVoice.toDengjenModel.streamSynthesis .default "aaa" 1 3 =
        .returned (.ok (chunks.map fun chunk => .returned (.ok chunk))) ∧
      Streams audio 256 chunks ∧ 4 ≤ chunks.length := by
  obtain ⟨audio, haudio, hlength⟩ := longVoice_speaks
  have hstreams := streamSynthesis_speaks_sentence longVoice .default "aaa" Nat.one_pos 3
  rw [haudio] at hstreams
  obtain ⟨⟨chunks, hchunks, hcut⟩, -⟩ := hstreams
  refine ⟨audio, chunks, hchunks, hcut, ?_⟩
  have hmul : audio.samples.length ≤ chunks.length * 256 := hcut.length_le_mul
  omega

end Dengjen.Kokoro
