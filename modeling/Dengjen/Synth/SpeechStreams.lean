import Dengjen.General.Iteration
import Dengjen.Synth.AudioOutputConfig
import Mathlib.Data.PNat.Basic

/-!
# The lazy, parallel and batched speech streams

The three streams synthesize the sentences of one text one by one, all at once
and in groups. Their iterators are three state machines over the same
single-sentence processing. `par_iter().map().collect()` on an indexed iterator
keeps the order of its items and is `List.map` here.
-/

namespace Dengjen.Synth

open Iteration

variable {σ : Type*}

/-- What the streams of a text work on. -/
structure SpeechSynthesisTaskProvider (σ : Type*) where
  ops : AudioOps
  model : DengjenModel σ
  state : σ
  text : String
  outputConfig : Option AudioOutputConfig

namespace SpeechSynthesisTaskProvider

/-- The sentences of a text. -/
def getPhonemes (provider : SpeechSynthesisTaskProvider σ) : DengjenResult (List String) :=
  provider.model.phonemizeText provider.state provider.text

/-- Speaks a sentence with the prosody that was asked for. -/
def processOneSentence (provider : SpeechSynthesisTaskProvider σ) (sentence : String) :
    DengjenResult Audio := do
  let audio ← provider.model.speakOneSentence provider.state sentence
  shapeOutput provider.ops provider.outputConfig audio

end SpeechSynthesisTaskProvider

/-- A stream that speaks a sentence for each pull. -/
structure DengjenSpeechStreamLazy (σ : Type*) where
  provider : SpeechSynthesisTaskProvider σ
  pendingSentences : List String
  nextChunkIndex : Nat

namespace DengjenSpeechStreamLazy

/-- A stream of the sentences of a text. -/
def new (provider : SpeechSynthesisTaskProvider σ) : DengjenResult (DengjenSpeechStreamLazy σ) :=
  provider.getPhonemes.map fun sentences => ⟨provider, sentences, 0⟩

/-- Speaks the next sentence. -/
def next (stream : DengjenSpeechStreamLazy σ) :
    Option (DengjenResult Audio) × DengjenSpeechStreamLazy σ :=
  match stream.pendingSentences with
  | [] => (none, stream)
  | sentence :: rest =>
      (some (stream.provider.processOneSentence sentence),
        { stream with pendingSentences := rest, nextChunkIndex := stream.nextChunkIndex + 1 })

end DengjenSpeechStreamLazy

/-- The shared synthesis pool, or the error that every use of it reports. -/
abbrev ThreadPool := DengjenResult Unit

/-- A stream whose sentences have all been spoken. -/
structure DengjenSpeechStreamParallel where
  finished : List (DengjenResult Audio)

namespace DengjenSpeechStreamParallel

/-- Speaks all sentences of a text. -/
def new (synthesisThreadPool : ThreadPool) (provider : SpeechSynthesisTaskProvider σ) :
    DengjenResult DengjenSpeechStreamParallel := do
  let sentences ← provider.getPhonemes
  synthesisThreadPool
  pure ⟨sentences.map provider.processOneSentence⟩

/-- Hands out the next result. -/
def next (stream : DengjenSpeechStreamParallel) :
    Option (DengjenResult Audio) × DengjenSpeechStreamParallel :=
  match stream.finished with
  | [] => (none, stream)
  | result :: rest => (some result, ⟨rest⟩)

end DengjenSpeechStreamParallel

/-- A stream that speaks a group of sentences at once. -/
structure DengjenSpeechStreamBatched (σ : Type*) where
  provider : SpeechSynthesisTaskProvider σ
  pending : List String
  batchSize : ℕ+
  buffered : List (DengjenResult Audio)
  nextChunkIndex : Nat

namespace DengjenSpeechStreamBatched

/-- A stream of the sentences of a text. -/
def new (provider : SpeechSynthesisTaskProvider σ) (batchSize : ℕ+) :
    DengjenResult (DengjenSpeechStreamBatched σ) :=
  provider.getPhonemes.map fun sentences => ⟨provider, sentences, batchSize, [], 0⟩

/-- Speaks the next group. -/
def computeNextGroup (synthesisThreadPool : ThreadPool) (stream : DengjenSpeechStreamBatched σ) :
    Option (List (DengjenResult Audio)) × DengjenSpeechStreamBatched σ :=
  let group := stream.pending.take stream.batchSize
  let stream := { stream with pending := stream.pending.drop stream.batchSize }
  if group.isEmpty then (none, stream)
  else
    let stream := { stream with nextChunkIndex := stream.nextChunkIndex + group.length }
    match synthesisThreadPool with
    | .error error => (some [.error error], { stream with pending := [] })
    | .ok () => (some (group.map stream.provider.processOneSentence), stream)

/-- Hands out a result of the group, or speaks the next one. -/
def next (synthesisThreadPool : ThreadPool) (stream : DengjenSpeechStreamBatched σ) :
    Option (DengjenResult Audio) × DengjenSpeechStreamBatched σ :=
  match stream.buffered with
  | result :: rest => (some result, { stream with buffered := rest })
  | [] =>
      match stream.computeNextGroup synthesisThreadPool with
      | (none, stream) => (none, stream)
      | (some [], stream) => (none, { stream with buffered := [] })
      | (some (result :: rest), stream) => (some result, { stream with buffered := rest })

/-- The results a stream still has to yield. -/
def remaining (stream : DengjenSpeechStreamBatched σ) : List (DengjenResult Audio) :=
  stream.buffered ++ stream.pending.map stream.provider.processOneSentence

theorem computeNextGroup_nil (pool : ThreadPool) {stream : DengjenSpeechStreamBatched σ}
    (h : stream.pending = []) : stream.computeNextGroup pool = (none, stream) := by
  cases stream
  cases h
  simp [computeNextGroup]

/-- A group is the next `batchSize` sentences, or all of them when there are fewer. -/
theorem computeNextGroup_cons {stream : DengjenSpeechStreamBatched σ} {sentence : String}
    {rest : List String} (h : stream.pending = sentence :: rest) :
    ∃ results stream', stream.computeNextGroup (.ok ()) =
        (some (stream.provider.processOneSentence sentence :: results), stream') ∧
      stream'.buffered = stream.buffered ∧ stream'.provider = stream.provider ∧
      results ++ stream'.pending.map stream.provider.processOneSentence =
        rest.map stream.provider.processOneSentence := by
  obtain ⟨k, hk⟩ := Nat.exists_eq_succ_of_ne_zero stream.batchSize.pos.ne'
  have hgroup : stream.pending.take stream.batchSize = sentence :: rest.take k := by
    rw [h, hk, List.take_succ_cons]
  have hrest : stream.pending.drop stream.batchSize = rest.drop k := by
    rw [h, hk, List.drop_succ_cons]
  let emitted := stream.nextChunkIndex + (sentence :: rest.take k).length
  refine ⟨(rest.take k).map stream.provider.processOneSentence,
    { stream with pending := rest.drop k, nextChunkIndex := emitted }, ?_, rfl, rfl, ?_⟩
  · simp only [computeNextGroup, hgroup, hrest, List.isEmpty_cons, Bool.false_eq_true, if_false,
      List.map_cons, emitted]
  · rw [← List.map_append, List.take_append_drop]

end DengjenSpeechStreamBatched

/-- The items all three streams stand for. -/
def sequentialResults (provider : SpeechSynthesisTaskProvider σ) (sentences : List String) :
    List (DengjenResult Audio) := sentences.map provider.processOneSentence

theorem drains_lazy (stream : DengjenSpeechStreamLazy σ) :
    Drains DengjenSpeechStreamLazy.next stream
      (sequentialResults stream.provider stream.pendingSentences) := by
  refine drains_remaining (fun _ => True)
    (fun stream => sequentialResults stream.provider stream.pendingSentences) ?_ ?_ stream trivial
  · intro stream _ h
    rw [sequentialResults, List.map_eq_nil_iff] at h
    simp only [DengjenSpeechStreamLazy.next, h]
  · intro stream result results _ h
    obtain ⟨sentence, rest, hpending, rfl, rfl⟩ := List.map_eq_cons_iff.mp h
    simp only [DengjenSpeechStreamLazy.next, hpending]
    exact ⟨_, rfl, trivial, rfl⟩

theorem drains_parallel (results : List (DengjenResult Audio)) :
    Drains DengjenSpeechStreamParallel.next ⟨results⟩ results := by
  induction results with
  | nil => exact .done rfl
  | cons result results ih => exact .yield rfl ih

/-- Refilling the buffer does not change what is still to come. -/
theorem drains_batched (stream : DengjenSpeechStreamBatched σ) :
    Drains (DengjenSpeechStreamBatched.next (.ok ())) stream stream.remaining := by
  refine drains_remaining (fun _ => True) DengjenSpeechStreamBatched.remaining ?_ ?_ stream trivial
  · intro stream _ h
    obtain ⟨hbuffered, hpending⟩ := List.append_eq_nil_iff.mp h
    rw [List.map_eq_nil_iff] at hpending
    simp only [DengjenSpeechStreamBatched.next, hbuffered,
      DengjenSpeechStreamBatched.computeNextGroup_nil _ hpending]
  · intro stream result results _ h
    cases hbuffered : stream.buffered with
    | cons head rest =>
        rw [DengjenSpeechStreamBatched.remaining, hbuffered, List.cons_append,
          List.cons.injEq] at h
        obtain ⟨rfl, rfl⟩ := h
        simp only [DengjenSpeechStreamBatched.next, hbuffered]
        exact ⟨_, rfl, trivial, rfl⟩
    | nil =>
        rw [DengjenSpeechStreamBatched.remaining, hbuffered, List.nil_append] at h
        obtain ⟨sentence, rest, hpending, rfl, rfl⟩ := List.map_eq_cons_iff.mp h
        obtain ⟨group, stream', hgroup, -, hprovider, hrest⟩ :=
          DengjenSpeechStreamBatched.computeNextGroup_cons hpending
        simp only [DengjenSpeechStreamBatched.next, hbuffered, hgroup]
        refine ⟨_, rfl, trivial, ?_⟩
        rw [DengjenSpeechStreamBatched.remaining, hprovider]
        exact hrest

/-- Creating the stream fails with the error of `results`, or `next` yields exactly `results`. -/
def Yields {S α : Type*} (next : S → Option α × S) (stream : DengjenResult S)
    (results : DengjenResult (List α)) : Prop :=
  match stream, results with
  | .ok stream, .ok results => ∀ items, Drains next stream items ↔ items = results
  | .error error, .error error' => error = error'
  | _, _ => False

/-- The lazy, the parallel and the batched stream yield the single-sentence results in order. -/
theorem streams_yield_sequentialResults (provider : SpeechSynthesisTaskProvider σ)
    (batchSize : ℕ+) :
    Yields DengjenSpeechStreamLazy.next (DengjenSpeechStreamLazy.new provider)
      (provider.getPhonemes.map (sequentialResults provider)) ∧
    Yields DengjenSpeechStreamParallel.next (DengjenSpeechStreamParallel.new (.ok ()) provider)
      (provider.getPhonemes.map (sequentialResults provider)) ∧
    Yields (DengjenSpeechStreamBatched.next (.ok ()))
      (DengjenSpeechStreamBatched.new provider batchSize)
      (provider.getPhonemes.map (sequentialResults provider)) := by
  cases hphonemes : provider.getPhonemes with
  | error error =>
      simp only [DengjenSpeechStreamLazy.new, DengjenSpeechStreamParallel.new,
        DengjenSpeechStreamBatched.new, hphonemes]
      exact ⟨rfl, rfl, rfl⟩
  | ok sentences =>
      simp only [DengjenSpeechStreamLazy.new, DengjenSpeechStreamParallel.new,
        DengjenSpeechStreamBatched.new, hphonemes]
      refine ⟨fun items => ?_, fun items => ?_, fun items => ?_⟩
      · exact (drains_lazy ⟨provider, sentences, 0⟩).iff_eq
      · exact (drains_parallel _).iff_eq
      · exact (drains_batched ⟨provider, sentences, batchSize, [], 0⟩).iff_eq

end Dengjen.Synth
