import Dengjen.General.TransitionSystem
import Dengjen.Synth.SpeechStreams
import Mathlib.Data.List.ReduceOption

/-!
# The realtime speech stream

A producer job on the synthesis pool walks through the sentences and sends the
shaped chunks over an unbounded channel; the consumer's `next` receives them.
A cancellation token is read by both at several places. One step is one read of
the token, one call into the model, or one operation on the channel.

## Implementation notes

A model that sees the token cancelled may open an empty stream or end one
early. That is the only freedom it has: `giveUp` is a step of its own, and
every other step of the producer follows from its position.
-/

namespace Dengjen.Synth.Realtime

open TransitionSystem

variable {σ : Type*}

/-- What a realtime stream yields. -/
abbrev Item := DengjenResult AudioSamples

/-- No chunk is asked for in a greater size. -/
def maxStreamChunkSize : Nat := 1000000

/-- The chunk size of a sentence, which grows with the sentences before it. -/
def nextChunkSize (baseChunkSize sentencesSeen : Nat) : Nat :=
  let extraMultiples := min sentencesSeen 4
  let growth := saturatingMul baseChunkSize extraMultiples
  min (saturatingAdd baseChunkSize growth) maxStreamChunkSize

/-- What `RealtimeSpeechStream::new` hands to the producer. -/
structure Job (σ : Type*) where
  provider : SpeechSynthesisTaskProvider σ
  sentences : List String
  chunkSize : Nat
  chunkPadding : Nat
  sampleRate : Nat
  numChannels : Nat

namespace Job

variable (job : Job σ)

/-- The backend's stream of a sentence. -/
def openStream (index : Nat) (phonemes : String) : Outcome (DengjenResult AudioStream) :=
  job.provider.model.streamSynthesis job.provider.state phonemes
    (nextChunkSize job.chunkSize index) job.chunkPadding

/-- A chunk with the prosody of the job. -/
def shaped (chunk : DengjenResult AudioSamples) : Item :=
  match chunk, job.provider.outputConfig with
  | .ok samples, some config =>
      config.applyToRawSamples job.provider.ops samples job.sampleRate job.numChannels
  | .ok samples, none => .ok samples
  | .error err, _ => .error err

/-- What `process_rt_stream` sends after the chunks of a sentence. -/
def silence : Option Item := do
  let config ← job.provider.outputConfig
  let silenceMs ← config.appendedSilenceMs
  some (config.generateSilence job.provider.ops silenceMs job.sampleRate job.numChannels)

end Job

/-! ## The sequence

What is to be delivered is said of the model, the output configuration and the sentences
alone. The producer below has its own way to each item. -/

namespace Job

variable (job : Job σ)

/-- The items of one stream, then those of `after`, unless a panic ends the sequence. -/
def streamItems (after : List Item) : AudioStream → List Item
  | [] => after
  | .panicked message :: _ => [.error (workerPanic message)]
  | .returned (.error err) :: stream => .error err :: streamItems after stream
  | .returned (.ok samples) :: stream =>
      match job.provider.outputConfig with
      | none => .ok samples :: streamItems after stream
      | some config =>
          config.applyToRawSamples job.provider.ops samples job.sampleRate job.numChannels ::
            streamItems after stream

/-- The trailing silence, when one is configured. -/
def silenceItems : List Item :=
  match job.provider.outputConfig with
  | none => []
  | some config =>
      match config.appendedSilenceMs with
      | none => []
      | some silenceMs =>
          [config.generateSilence job.provider.ops silenceMs job.sampleRate job.numChannels]

/-- The items of the sentences from the one numbered `index` on. -/
def sentenceItems : Nat → List String → List Item
  | _, [] => []
  | index, phonemes :: rest =>
      match job.provider.model.streamSynthesis job.provider.state phonemes
        (nextChunkSize job.chunkSize index) job.chunkPadding with
      | .panicked message => [.error (workerPanic message)]
      | .returned (.error err) => [.error err]
      | .returned (.ok stream) =>
          job.streamItems (job.silenceItems ++ sentenceItems (index + 1) rest) stream

/-- The one sequence a run may deliver. -/
def sequential : List Item := job.sentenceItems 0 job.sentences

theorem streamItems_returned (after : List Item) (chunk : DengjenResult AudioSamples)
    (stream : AudioStream) : job.streamItems after (.returned chunk :: stream) =
      job.shaped chunk :: job.streamItems after stream := by
  cases chunk with
  | error err => rw [streamItems, shaped]
  | ok samples =>
      cases hconfig : job.provider.outputConfig with
      | none => simp only [streamItems, shaped, hconfig]
      | some config => simp only [streamItems, shaped, hconfig]

theorem silenceItems_eq : job.silenceItems = job.silence.toList := by
  cases hconfig : job.provider.outputConfig with
  | none => simp [silenceItems, silence, hconfig]
  | some config =>
      cases hsilence : config.appendedSilenceMs with
      | none => simp [silenceItems, silence, hconfig, hsilence]
      | some silenceMs => simp [silenceItems, silence, hconfig, hsilence]

/-- One sentence, in the words of the producer. -/
theorem sentenceItems_cons (index : Nat) (phonemes : String) (rest : List String) :
    job.sentenceItems index (phonemes :: rest) =
      match job.openStream index phonemes with
      | .panicked message => [.error (workerPanic message)]
      | .returned (.error err) => [.error err]
      | .returned (.ok stream) =>
          job.streamItems (job.silence.toList ++ job.sentenceItems (index + 1) rest) stream := by
  rw [sentenceItems, silenceItems_eq]
  rfl

end Job

/-! ## The producer and the consumer -/

/-- Where the producer job is, with the sentences and the part of the stream still to come. -/
inductive Producer
  | queued
  | nextSentence (index : Nat) (rest : List String)
  | opening (index : Nat) (phonemes : String) (rest : List String)
  | pulling (index : Nat) (stream : AudioStream) (rest : List String)
  | pulled (chunk : DengjenResult AudioSamples) (index : Nat) (stream : AudioStream)
      (rest : List String)
  | sending (shaped : Item) (index : Nat) (stream : AudioStream) (rest : List String)
  | drained (index : Nat) (rest : List String)
  | sendingSilence (silence : Item) (index : Nat) (rest : List String)
  | failing (err : DengjenError)
  | panicking (message : String)
  | finished

/-- The consumer is inside `next`, past its check of the token, or not. -/
inductive Consumer
  | idle
  | receiving
  deriving DecidableEq

/-- The producer, the consumer and the channel between them. -/
structure State where
  producer : Producer
  queue : List Item
  cancelled : Bool
  receiverAlive : Bool
  consumer : Consumer
  returned : List (Option Item)

/-- What may happen between the producer, its consumer and its owner. -/
inductive Action
  | produce
  | giveUp
  | call
  | receive
  | cancel
  | dropReceiver
  deriving DecidableEq

namespace State

/-- `tx.send`: the item is queued unless the receiver is gone, and then the job returns. -/
def send (s : State) (item : Item) (continued : Producer) : State :=
  if s.receiverAlive then { s with producer := continued, queue := s.queue ++ [item] }
  else { s with producer := .finished }

/-- The items `next` has delivered. -/
def delivered (s : State) : List Item := s.returned.reduceOption

end State

section Steps

variable (job : Job σ)

/-- One step of the producer. -/
def produce (s : State) : Option State :=
  match s.producer with
  | .queued => some { s with producer := .nextSentence 0 job.sentences }
  | .nextSentence _ [] => some { s with producer := .finished }
  | .nextSentence index (phonemes :: rest) =>
      if s.cancelled then some { s with producer := .finished }
      else some { s with producer := .opening index phonemes rest }
  | .opening index phonemes rest =>
      match job.openStream index phonemes with
      | .panicked message => some { s with producer := .panicking message }
      | .returned (.error err) => some { s with producer := .failing err }
      | .returned (.ok stream) => some { s with producer := .pulling index stream rest }
  | .pulling index [] rest => some { s with producer := .drained index rest }
  | .pulling _ (.panicked message :: _) _ => some { s with producer := .panicking message }
  | .pulling index (.returned chunk :: stream) rest =>
      some { s with producer := .pulled chunk index stream rest }
  | .pulled chunk index stream rest =>
      if s.cancelled then some { s with producer := .nextSentence (index + 1) rest }
      else some { s with producer := .sending (job.shaped chunk) index stream rest }
  | .sending shaped index stream rest => some (s.send shaped (.pulling index stream rest))
  | .drained index rest =>
      if s.cancelled then some { s with producer := .nextSentence (index + 1) rest }
      else
        match job.silence with
        | none => some { s with producer := .nextSentence (index + 1) rest }
        | some silence => some { s with producer := .sendingSilence silence index rest }
  | .sendingSilence silence index rest => some (s.send silence (.nextSentence (index + 1) rest))
  | .failing err => some (s.send (.error err) .finished)
  | .panicking message => some (s.send (.error (workerPanic message)) .finished)
  | .finished => none

/-- A model that reacts to the cancelled token. -/
def giveUp (s : State) : Option State :=
  if s.cancelled then
    match s.producer with
    | .opening index _ rest => some { s with producer := .pulling index [] rest }
    | .pulling index _ rest => some { s with producer := .drained index rest }
    | _ => none
  else none

/-- The first half of `next`: a cancelled stream ends without a look at the channel. -/
def call (s : State) : Option State :=
  if s.consumer = .idle ∧ s.receiverAlive then
    if s.cancelled then some { s with returned := s.returned ++ [none] }
    else some { s with consumer := .receiving }
  else none

/-- The second half of `next`: `rx.recv` blocks while the channel is empty and connected. -/
def receive (s : State) : Option State :=
  if s.consumer = .receiving then
    match s.queue, s.producer with
    | item :: queue, _ =>
        some { s with queue, consumer := .idle, returned := s.returned ++ [some item] }
    | [], .finished => some { s with consumer := .idle, returned := s.returned ++ [none] }
    | [], _ => none
  else none

/-- One step of either side. -/
def step (s : State) : Action → Option State
  | .produce => produce job s
  | .giveUp => giveUp s
  | .call => call s
  | .receive => receive s
  | .cancel => some { s with cancelled := true }
  | .dropReceiver =>
      if s.consumer = .idle then some { s with receiverAlive := false } else none

/-- The stream as `new` returns it, its job spawned and not started. -/
def initial : State where
  producer := .queued
  queue := []
  cancelled := false
  receiverAlive := true
  consumer := .idle
  returned := []

end Steps

/-! ## The sequence a position still has to send -/

section Pending

variable (job : Job σ)

/-- What an undisturbed producer still sends from its position on. -/
def pending : Producer → List Item
  | .queued => job.sequential
  | .nextSentence index rest => job.sentenceItems index rest
  | .opening index phonemes rest => job.sentenceItems index (phonemes :: rest)
  | .pulling index stream rest =>
      job.streamItems (job.silence.toList ++ job.sentenceItems (index + 1) rest) stream
  | .pulled chunk index stream rest =>
      job.shaped chunk ::
        job.streamItems (job.silence.toList ++ job.sentenceItems (index + 1) rest) stream
  | .sending shaped index stream rest =>
      shaped :: job.streamItems (job.silence.toList ++ job.sentenceItems (index + 1) rest) stream
  | .drained index rest => job.silence.toList ++ job.sentenceItems (index + 1) rest
  | .sendingSilence silence index rest => silence :: job.sentenceItems (index + 1) rest
  | .failing err => [.error err]
  | .panicking message => [.error (workerPanic message)]
  | .finished => []

/-- The steps an undisturbed producer takes for one sentence. -/
def openRank (index : Nat) (phonemes : String) : Nat :=
  match job.openStream index phonemes with
  | .returned (.ok stream) => 3 * stream.length + 3
  | _ => 1

/-- How many steps the producer has for the sentences that are left. -/
def sentencesRank : Nat → List String → Nat
  | _, [] => 1
  | index, phonemes :: rest => openRank job index phonemes + 2 + sentencesRank (index + 1) rest

/-- A bound on the steps the producer can still take. -/
def producerRank : Producer → Nat
  | .queued => 1 + sentencesRank job 0 job.sentences
  | .nextSentence index rest => sentencesRank job index rest
  | .opening index phonemes rest =>
      openRank job index phonemes + 1 + sentencesRank job (index + 1) rest
  | .pulling index stream rest => 3 * stream.length + 3 + sentencesRank job (index + 1) rest
  | .pulled _ index stream rest => 3 * stream.length + 5 + sentencesRank job (index + 1) rest
  | .sending _ index stream rest => 3 * stream.length + 4 + sentencesRank job (index + 1) rest
  | .drained index rest => 2 + sentencesRank job (index + 1) rest
  | .sendingSilence _ index rest => 1 + sentencesRank job (index + 1) rest
  | .failing _ => 1
  | .panicking _ => 1
  | .finished => 0

/-- The positions a producer goes through once it has seen the cancellation. -/
inductive Abandoned : Producer → Prop
  | emptied (index rest) : Abandoned (.pulling index [] rest)
  | drained (index rest) : Abandoned (.drained index rest)
  | nextSentence (index rest) : Abandoned (.nextSentence index rest)
  | finished : Abandoned .finished

/-- The producer moves on silently, sends the next pending item, or sees the cancellation. -/
inductive Produced (s : State) : State → Prop
  | silent {p} (hpending : pending job p = pending job s.producer)
      (hrank : producerRank job p < producerRank job s.producer) :
      Produced s { s with producer := p }
  | sent {item p} (hpending : pending job s.producer = item :: pending job p)
      (hrank : producerRank job p < producerRank job s.producer) : Produced s (s.send item p)
  | abandoned {p} (hcancelled : s.cancelled) (hp : Abandoned p) :
      Produced s { s with producer := p }

variable {job}

theorem produced_of_silent {s t : State} {p q : Producer} (hs : s.producer = q)
    (hpending : pending job p = pending job q) (hrank : producerRank job p < producerRank job q)
    (h : some { s with producer := p } = some t) : Produced job s t := by
  subst hs
  cases h
  exact .silent hpending hrank

theorem produced_of_sent {s t : State} {item : Item} {p q : Producer} (hs : s.producer = q)
    (hpending : pending job q = item :: pending job p)
    (hrank : producerRank job p < producerRank job q) (h : some (s.send item p) = some t) :
    Produced job s t := by
  subst hs
  cases h
  exact .sent hpending hrank

/-- A step that looks at the cancellation first. -/
theorem produced_unless_cancelled {s t : State} {p : Producer} {next : Option State}
    (hp : Abandoned p) (hnext : next = some t → Produced job s t)
    (h : (if s.cancelled then some { s with producer := p } else next) = some t) :
    Produced job s t := by
  split at h
  · next hcancelled =>
      cases h
      exact .abandoned hcancelled hp
  · exact hnext h

theorem produced_of_opening {s : State} {index : Nat} {phonemes : String} {rest : List String}
    (hs : s.producer = .opening index phonemes rest) {t : State} (h : produce job s = some t) :
    Produced job s t := by
  simp only [produce, hs] at h
  cases hopen : job.openStream index phonemes with
  | panicked message =>
      rw [hopen] at h
      refine produced_of_silent hs ?_ ?_ h
      · simp only [pending, Job.sentenceItems_cons, hopen]
      · simp only [producerRank, openRank, hopen]
        omega
  | returned result =>
      cases result with
      | error err =>
          rw [hopen] at h
          refine produced_of_silent hs ?_ ?_ h
          · simp only [pending, Job.sentenceItems_cons, hopen]
          · simp only [producerRank, openRank, hopen]
            omega
      | ok stream =>
          rw [hopen] at h
          refine produced_of_silent hs ?_ ?_ h
          · simp only [pending, Job.sentenceItems_cons, hopen]
          · simp only [producerRank, openRank, hopen]
            omega

theorem produced_of_drained {s : State} {index : Nat} {rest : List String}
    (hs : s.producer = .drained index rest) {t : State} (h : produce job s = some t) :
    Produced job s t := by
  simp only [produce, hs] at h
  refine produced_unless_cancelled (.nextSentence _ _) (fun h => ?_) h
  cases hsilence : job.silence with
  | none =>
      rw [hsilence] at h
      refine produced_of_silent hs ?_ ?_ h
      · simp only [pending, hsilence, Option.toList_none, List.nil_append]
      · simp only [producerRank]
        omega
  | some silence =>
      rw [hsilence] at h
      refine produced_of_silent hs ?_ ?_ h
      · simp only [pending, hsilence, Option.toList_some, List.singleton_append]
      · simp only [producerRank]
        omega

theorem produced_of_nextSentence {s : State} {index : Nat} {rest : List String}
    (hs : s.producer = .nextSentence index rest) {t : State} (h : produce job s = some t) :
    Produced job s t := by
  cases rest with
  | nil =>
      simp only [produce, hs] at h
      refine produced_of_silent hs ?_ ?_ h
      · simp only [pending, Job.sentenceItems]
      · simp only [producerRank, sentencesRank]
        omega
  | cons phonemes rest =>
      simp only [produce, hs] at h
      refine produced_unless_cancelled .finished (fun h => ?_) h
      refine produced_of_silent hs ?_ ?_ h
      · simp only [pending]
      · simp only [producerRank, sentencesRank]
        omega

theorem produced_of_pulling {s : State} {index : Nat} {stream : AudioStream} {rest : List String}
    (hs : s.producer = .pulling index stream rest) {t : State} (h : produce job s = some t) :
    Produced job s t := by
  rcases stream with _ | ⟨_ | message, stream⟩ <;> simp only [produce, hs] at h <;>
    refine produced_of_silent hs ?_ ?_ h <;>
    simp only [pending, Job.streamItems, Job.streamItems_returned, producerRank, List.length_cons,
      List.length_nil]
  all_goals omega

/-- Every step of the producer is one of the three kinds. -/
theorem produced_of_produce {s t : State} (h : produce job s = some t) : Produced job s t := by
  cases hs : s.producer with
  | queued =>
      simp only [produce, hs] at h
      refine produced_of_silent hs ?_ ?_ h
      · rfl
      · simp only [producerRank]
        omega
  | nextSentence index rest => exact produced_of_nextSentence hs h
  | opening index phonemes rest => exact produced_of_opening hs h
  | pulling index stream rest => exact produced_of_pulling hs h
  | pulled chunk index stream rest =>
      simp only [produce, hs] at h
      refine produced_unless_cancelled (.nextSentence _ _) (fun h => ?_) h
      refine produced_of_silent hs ?_ ?_ h
      · simp only [pending]
      · simp only [producerRank]
        omega
  | drained index rest => exact produced_of_drained hs h
  | sending shaped index stream rest =>
      simp only [produce, hs] at h
      refine produced_of_sent hs ?_ ?_ h
      · simp only [pending]
      · simp only [producerRank]
        omega
  | sendingSilence silence index rest =>
      simp only [produce, hs] at h
      refine produced_of_sent hs ?_ ?_ h
      · simp only [pending]
      · simp only [producerRank]
        omega
  | failing err =>
      simp only [produce, hs] at h
      refine produced_of_sent hs ?_ ?_ h
      · simp only [pending]
      · simp only [producerRank]
        omega
  | panicking message =>
      simp only [produce, hs] at h
      refine produced_of_sent hs ?_ ?_ h
      · simp only [pending]
      · simp only [producerRank]
        omega
  | finished => simp only [produce, hs, reduceCtorEq] at h

/-- A producer that has seen the cancellation sends nothing more. -/
theorem produce_abandoned {s t : State} (hcancelled : s.cancelled) (hs : Abandoned s.producer)
    (h : produce job s = some t) : ∃ p, Abandoned p ∧ t = { s with producer := p } := by
  cases hp : s.producer with
  | pulling index stream rest =>
      rw [hp] at hs
      cases hs
      simp only [produce, hp] at h
      exact ⟨_, .drained _ _, (Option.some.inj h).symm⟩
  | drained index rest =>
      simp only [produce, hp] at h
      rw [if_pos hcancelled] at h
      exact ⟨_, .nextSentence _ _, (Option.some.inj h).symm⟩
  | nextSentence index rest =>
      cases rest with
      | nil =>
          simp only [produce, hp] at h
          exact ⟨_, .finished, (Option.some.inj h).symm⟩
      | cons phonemes rest =>
          simp only [produce, hp] at h
          rw [if_pos hcancelled] at h
          exact ⟨_, .finished, (Option.some.inj h).symm⟩
  | finished => simp only [produce, hp, reduceCtorEq] at h
  | _ => rw [hp] at hs; cases hs

/-- Only a finished producer has no step. -/
theorem exists_produce {s : State} (h : s.producer ≠ .finished) : ∃ t, produce job s = some t := by
  rw [← Option.isSome_iff_exists]
  unfold produce
  split <;> (try split) <;> (try split) <;> first | rfl | exact absurd ‹_› h

end Pending

/-! ## Every run delivers a prefix of the sequence -/

section Invariant

variable (job : Job σ)

/-- What holds between the producer, the channel and the consumer. -/
structure Inv (s : State) : Prop where
  /-- What has been sent is a prefix of the sequence. -/
  sent : s.delivered ++ s.queue <+: job.sequential
  /-- The rest is what the producer still sends, unless it was told or found out to stop. -/
  rest : s.delivered ++ s.queue ++ pending job s.producer = job.sequential ∨
    (s.cancelled ∧ Abandoned s.producer) ∨ (s.receiverAlive = false ∧ s.producer = .finished)
  /-- Without a cancellation `next` returns `None` only after the whole sequence. -/
  ended : s.cancelled = false → ∃ k, s.returned = s.delivered.map some ++ List.replicate k none ∧
    (0 < k → s.delivered = job.sequential ∧ s.queue = [] ∧ s.producer = .finished)
  /-- The consumer holds the receiver. -/
  alive : s.consumer = .receiving → s.receiverAlive

variable {job}

@[simp] theorem delivered_append_some (returned : List (Option Item)) (item : Item) :
    (returned ++ [some item]).reduceOption = returned.reduceOption ++ [item] := by
  simp [List.reduceOption_append]

@[simp] theorem delivered_append_none (returned : List (Option Item)) :
    (returned ++ [none]).reduceOption = returned.reduceOption := by
  simp [List.reduceOption_append]

theorem initial_inv : Inv job initial where
  sent := List.nil_prefix
  rest := .inl rfl
  ended _ := ⟨0, rfl, by simp⟩
  alive := nofun

/-- Moving the producer on without a send keeps the invariant when its next position does. -/
theorem Inv.move {s : State} {p : Producer} (hi : Inv job s) (hs : s.producer ≠ .finished)
    (hrest : s.delivered ++ s.queue ++ pending job p = job.sequential ∨
      (s.cancelled ∧ Abandoned p)) : Inv job { s with producer := p } where
  sent := hi.sent
  rest := hrest.imp_right .inl
  ended hc := by
    obtain ⟨k, hreturned, hk⟩ := hi.ended hc
    exact ⟨k, hreturned, fun hpos => absurd (hk hpos).2.2 hs⟩
  alive := hi.alive

/-- The next pending item goes to the end of the channel, or the job stops. -/
theorem Inv.send {s : State} {item : Item} {p : Producer} (hi : Inv job s)
    (hs : s.producer ≠ .finished)
    (hrest : s.delivered ++ s.queue ++ item :: pending job p = job.sequential) :
    Inv job (s.send item p) := by
  have hended : ∀ queue p', s.cancelled = false → ∃ k,
      s.returned = s.delivered.map some ++ List.replicate k none ∧
        (0 < k → s.delivered = job.sequential ∧ queue = ([] : List Item) ∧
          p' = Producer.finished) := by
    intro queue p' hc
    obtain ⟨k, hreturned, hk⟩ := hi.ended hc
    exact ⟨k, hreturned, fun hpos => absurd (hk hpos).2.2 hs⟩
  unfold State.send
  split
  · have hrest' : s.delivered ++ (s.queue ++ [item]) ++ pending job p = job.sequential := by
      simpa using hrest
    exact ⟨⟨_, hrest'⟩, .inl hrest', hended _ _, hi.alive⟩
  · next hdropped =>
      exact ⟨hi.sent, .inr (.inr ⟨by simpa using hdropped, rfl⟩), hended _ _, hi.alive⟩

theorem Inv.produce {s t : State} (hi : Inv job s) (h : produce job s = some t) : Inv job t := by
  have hs : s.producer ≠ .finished := by
    intro hfinished
    simp only [Realtime.produce, hfinished, reduceCtorEq] at h
  rcases hi.rest with hrest | ⟨hcancelled, habandoned⟩ | ⟨-, hfinished⟩
  · cases produced_of_produce h with
    | silent hpending _ => exact hi.move hs (.inl (hpending ▸ hrest))
    | sent hpending _ => exact hi.send hs (hpending ▸ hrest)
    | abandoned hcancelled hp => exact hi.move hs (.inr ⟨hcancelled, hp⟩)
  · obtain ⟨p, hp, rfl⟩ := produce_abandoned hcancelled habandoned h
    exact hi.move hs (.inr ⟨hcancelled, hp⟩)
  · exact absurd hfinished hs

/-- A stream that was opened empty or cut short is one the job is about to abandon. -/
theorem Inv.giveUp {s t : State} (hi : Inv job s) (h : giveUp s = some t) : Inv job t := by
  unfold Realtime.giveUp at h
  split at h
  · next hcancelled =>
      cases hp : s.producer with
      | opening index phonemes rest =>
          rw [hp] at h
          cases h
          exact hi.move (by simp [hp]) (.inr ⟨hcancelled, .emptied _ _⟩)
      | pulling index stream rest =>
          rw [hp] at h
          cases h
          exact hi.move (by simp [hp]) (.inr ⟨hcancelled, .drained _ _⟩)
      | _ => simp only [hp, reduceCtorEq] at h
  · cases h

theorem Inv.call {s t : State} (hi : Inv job s) (h : call s = some t) : Inv job t := by
  unfold Realtime.call at h
  split at h
  · next hidle =>
      split at h
      · next hcancelled =>
          cases h
          refine ⟨?_, ?_, ?_, hi.alive⟩
          · simpa [State.delivered] using hi.sent
          · simpa [State.delivered] using hi.rest
          · intro hc
            exact absurd (hcancelled.symm.trans hc) (by decide)
      · cases h
        exact ⟨hi.sent, hi.rest, hi.ended, fun _ => hidle.2⟩
  · cases h

theorem Inv.receive {s t : State} (hi : Inv job s) (h : receive s = some t) : Inv job t := by
  unfold Realtime.receive at h
  split at h
  · next hreceiving =>
      split at h
      · next item queue hqueue =>
          cases h
          refine ⟨?_, ?_, ?_, nofun⟩
          · simpa [State.delivered, hqueue] using hi.sent
          · simpa [State.delivered, hqueue] using hi.rest
          · intro hc
            obtain ⟨k, hreturned, hk⟩ := hi.ended hc
            obtain rfl : k = 0 := by
              by_contra hne
              simp [hqueue] at hk
              omega
            refine ⟨0, ?_, by simp⟩
            simp only [List.replicate_zero, List.append_nil] at hreturned
            simp only [State.delivered, delivered_append_some, List.map_append, List.map_cons,
              List.map_nil, List.replicate_zero, List.append_nil, List.append_left_inj]
            exact hreturned
      · next hqueue hfinished =>
          cases h
          have halive := hi.alive hreceiving
          refine ⟨?_, ?_, ?_, nofun⟩
          · simpa [State.delivered] using hi.sent
          · simpa [State.delivered] using hi.rest
          · intro hc
            obtain ⟨k, hreturned, hk⟩ := hi.ended hc
            have hall : s.delivered = job.sequential := by
              rcases hi.rest with hrest | ⟨hcancelled, -⟩ | ⟨hdropped, -⟩
              · simpa [hqueue, hfinished, pending] using hrest
              · exact absurd (hcancelled.symm.trans hc) (by decide)
              · exact absurd halive (by simp [hdropped])
            refine ⟨k + 1, ?_, fun _ => ⟨?_, hqueue, hfinished⟩⟩
            · simp only [State.delivered, delivered_append_none, List.replicate_succ',
                ← List.append_assoc, List.append_left_inj]
              exact hreturned
            · simpa [State.delivered] using hall
      · cases h
  · cases h

theorem Inv.step {s t : State} {action : Action} (hi : Inv job s)
    (h : step job s action = some t) : Inv job t := by
  cases action with
  | produce => exact hi.produce h
  | giveUp => exact hi.giveUp h
  | call => exact hi.call h
  | receive => exact hi.receive h
  | cancel =>
      cases h
      refine ⟨hi.sent, ?_, nofun, hi.alive⟩
      exact hi.rest.imp_right fun h => h.imp_left fun h => ⟨rfl, h.2⟩
  | dropReceiver =>
      simp only [Realtime.step] at h
      split at h
      · next hidle =>
          cases h
          refine ⟨hi.sent, ?_, hi.ended, ?_⟩
          · exact hi.rest.imp_right fun h => h.imp_right fun h => ⟨rfl, h.2⟩
          · intro hreceiving
            rw [hidle] at hreceiving
            cases hreceiving
      · cases h

/-- The states of a job's runs. -/
abbrev Reaches (job : Job σ) (s : State) : Prop :=
  Reachable (· = initial) (steps (step job)) s

theorem Reaches.inv {s : State} (hs : Reaches job s) : Inv job s :=
  hs.invariant (fun _ h => h ▸ initial_inv) fun _ _ _ hi h => hi.step h

end Invariant

/-! ## Completeness, and silence after a cancellation -/

section Delivery

variable (job : Job σ)

/-- The steps of a consumer that calls `next` until its first `None`, with the producer
undisturbed. -/
def delivering : State → Action → State → Prop :=
  restrict (fun s action => action ≠ .cancel ∧ action ≠ .dropReceiver ∧
    (action = .call → none ∉ s.returned)) (steps (step job))

/-- The calls of `next` to come, counted down by their two halves. -/
def consumerRank (s : State) : Nat :=
  match s.consumer with
  | .receiving => 1
  | .idle => if none ∈ s.returned then 0 else 2

/-- What every step of a delivery that nobody cancels lowers. -/
def deliveryRank (s : State) : Nat :=
  3 * producerRank job s.producer + 2 * s.queue.length + consumerRank s

/-- What holds while nobody cancels or leaves. -/
structure DeliveryInv (s : State) : Prop extends Inv job s where
  uncancelled : s.cancelled = false
  connected : s.receiverAlive = true
  /-- No call follows the first `None`. -/
  once : none ∈ s.returned → s.consumer = .idle ∧ s.returned.count none = 1

variable {job}

theorem initial_deliveryInv : DeliveryInv job initial where
  toInv := initial_inv
  uncancelled := rfl
  connected := rfl
  once := nofun

theorem deliveryInv_produce {s t : State} (hi : DeliveryInv job s) (h : produce job s = some t) :
    DeliveryInv job t ∧ deliveryRank job t < deliveryRank job s := by
  have hinv := hi.toInv.produce h
  cases produced_of_produce h with
  | silent _ hrank =>
      refine ⟨⟨hinv, hi.uncancelled, hi.connected, hi.once⟩, ?_⟩
      simp only [deliveryRank, consumerRank]
      omega
  | sent _ hrank =>
      rw [State.send, if_pos hi.connected] at hinv ⊢
      refine ⟨⟨hinv, hi.uncancelled, hi.connected, hi.once⟩, ?_⟩
      simp only [deliveryRank, consumerRank, List.length_append, List.length_singleton]
      omega
  | abandoned hcancelled _ =>
      exact absurd (hcancelled.symm.trans hi.uncancelled) (by decide)

theorem deliveryInv_call {s t : State} (hi : DeliveryInv job s) (hfirst : none ∉ s.returned)
    (h : call s = some t) : DeliveryInv job t ∧ deliveryRank job t < deliveryRank job s := by
  have hinv := hi.toInv.call h
  unfold call at h
  split at h
  · next hidle =>
      have hcancelled : ¬ s.cancelled = true := by simp [hi.uncancelled]
      rw [if_neg hcancelled] at h
      cases h
      refine ⟨⟨hinv, hi.uncancelled, hi.connected, fun hnone => absurd hnone hfirst⟩, ?_⟩
      simp only [deliveryRank, consumerRank, hidle.1, hfirst, if_false]
      omega
  · cases h

theorem deliveryInv_receive {s t : State} (hi : DeliveryInv job s) (h : receive s = some t) :
    DeliveryInv job t ∧ deliveryRank job t < deliveryRank job s := by
  have hinv := hi.toInv.receive h
  unfold receive at h
  split at h
  · next hreceiving =>
      have hfirst : none ∉ s.returned := by
        intro hnone
        rw [(hi.once hnone).1] at hreceiving
        cases hreceiving
      split at h
      · next item queue hqueue =>
          cases h
          refine ⟨⟨hinv, hi.uncancelled, hi.connected, ?_⟩, ?_⟩
          · intro hnone
            simp [hfirst] at hnone
          · simp only [deliveryRank, consumerRank, hreceiving, hqueue, List.length_cons]
            split <;> omega
      · next hqueue hfinished =>
          cases h
          refine ⟨⟨hinv, hi.uncancelled, hi.connected, ?_⟩, ?_⟩
          · intro _
            refine ⟨rfl, ?_⟩
            rw [List.count_append, List.count_eq_zero_of_not_mem hfirst]
            rfl
          · simp [deliveryRank, consumerRank, hreceiving]
      · cases h
  · cases h

theorem deliveryInv_step {s t : State} {action : Action} (hi : DeliveryInv job s)
    (h : delivering job s action t) :
    DeliveryInv job t ∧ deliveryRank job t < deliveryRank job s := by
  obtain ⟨⟨hcancel, hdrop, hcall⟩, hstep⟩ := h
  cases action with
  | produce => exact deliveryInv_produce hi hstep
  | giveUp =>
      simp only [steps, step, giveUp, hi.uncancelled, Bool.false_eq_true, if_false,
        reduceCtorEq] at hstep
  | call => exact deliveryInv_call hi (hcall rfl) hstep
  | receive => exact deliveryInv_receive hi hstep
  | cancel => exact absurd rfl hcancel
  | dropReceiver => exact absurd rfl hdrop

/-- Until the first `None` the consumer can call, or receive, or the producer can move. -/
theorem exists_delivering {s : State} (hi : DeliveryInv job s) (hfirst : none ∉ s.returned) :
    ∃ action t, delivering job s action t := by
  cases hconsumer : s.consumer with
  | idle =>
      have hcall : call s = some { s with consumer := .receiving } := by
        simp [call, hconsumer, hi.connected, hi.uncancelled]
      exact ⟨.call, _, ⟨nofun, nofun, fun _ => hfirst⟩, hcall⟩
  | receiving =>
      cases hqueue : s.queue with
      | cons item queue =>
          have hreceive : receive s = some { s with
              queue, consumer := .idle, returned := s.returned ++ [some item] } := by
            simp [receive, hconsumer, hqueue]
          exact ⟨.receive, _, ⟨nofun, nofun, nofun⟩, hreceive⟩
      | nil =>
          by_cases hfinished : s.producer = .finished
          · have hreceive : receive s = some { s with
                consumer := .idle, returned := s.returned ++ [none] } := by
              simp [receive, hconsumer, hqueue, hfinished]
            exact ⟨.receive, _, ⟨nofun, nofun, nofun⟩, hreceive⟩
          · obtain ⟨t, hproduce⟩ : ∃ t, produce job s = some t := exists_produce hfinished
            exact ⟨.produce, t, ⟨nofun, nofun, nofun⟩, hproduce⟩

/-- The first `None` comes after the whole sequence. -/
theorem DeliveryInv.returned_eq {s : State} (hi : DeliveryInv job s) (hnone : none ∈ s.returned) :
    s.returned = job.sequential.map some ++ [none] := by
  obtain ⟨k, hreturned, hk⟩ := hi.ended hi.uncancelled
  have hcount := (hi.once hnone).2
  have hsome : (s.delivered.map some).count none = 0 := by
    simp [List.count_eq_zero]
  rw [hreturned, List.count_append, hsome, List.count_replicate_self, Nat.zero_add] at hcount
  rw [hreturned, hcount, (hk (by omega)).1]
  rfl

/-- A cancelled consumer that is outside `next` stays outside and is only told `None`. -/
theorem step_cancelled {s t : State} {action : Action} (hcancelled : s.cancelled)
    (hidle : s.consumer = .idle) (h : step job s action = some t) :
    t.cancelled ∧ t.consumer = .idle ∧ ∃ k, t.returned = s.returned ++ List.replicate k none := by
  cases action with
  | produce =>
      cases produced_of_produce h with
      | silent _ _ => exact ⟨hcancelled, hidle, 0, by simp⟩
      | sent _ _ =>
          unfold State.send
          split <;> exact ⟨hcancelled, hidle, 0, by simp⟩
      | abandoned _ _ => exact ⟨hcancelled, hidle, 0, by simp⟩
  | giveUp =>
      change giveUp s = some t at h
      unfold giveUp at h
      rw [if_pos hcancelled] at h
      split at h <;> cases h <;> exact ⟨hcancelled, hidle, 0, by simp⟩
  | call =>
      change call s = some t at h
      simp only [call, hidle, hcancelled, true_and, if_true] at h
      split at h <;> cases h
      exact ⟨rfl, rfl, 1, rfl⟩
  | receive => simp [step, receive, hidle] at h
  | cancel =>
      cases h
      exact ⟨rfl, hidle, 0, by simp⟩
  | dropReceiver =>
      change (if s.consumer = .idle then some { s with receiverAlive := false } else none) =
        some t at h
      rw [if_pos hidle] at h
      cases h
      exact ⟨hcancelled, hidle, 0, by simp⟩

theorem run_cancelled {s t : State} {actions : List Action} (run : Run (steps (step job)) s actions t)
    (hcancelled : s.cancelled) (hidle : s.consumer = .idle) :
    ∃ k, t.returned = s.returned ++ List.replicate k none := by
  induction run with
  | nil => exact ⟨0, by simp⟩
  | cons head _ ih =>
      obtain ⟨hc, hi, k, hk⟩ := step_cancelled hcancelled hidle head
      obtain ⟨l, hl⟩ := ih hc hi
      refine ⟨k + l, ?_⟩
      rw [hl, hk, List.append_assoc, List.replicate_append_replicate]

variable (job)

/-- Every run delivers a prefix of the one sequence. Without a cancellation nothing but the
whole sequence precedes a `None`, and a consumer that keeps calling gets there in a bounded
number of steps. After a cancellation every new call returns `None`. -/
theorem realtime_delivery :
    (∀ s, Reaches job s → s.delivered <+: job.sequential) ∧
    (∀ s, Reaches job s → s.cancelled = false →
      ∃ k, s.returned <+: job.sequential.map some ++ List.replicate k none) ∧
    (∃ bound, ∀ s actions, Run (delivering job) initial actions s → actions.length ≤ bound ∧
      ((∀ action t, ¬ delivering job s action t) →
        s.returned = job.sequential.map some ++ [none])) ∧
    (∀ s t actions, s.cancelled → s.consumer = .idle → Run (steps (step job)) s actions t →
      ∃ k, t.returned = s.returned ++ List.replicate k none) := by
  refine ⟨?_, ?_, ⟨deliveryRank job initial, ?_⟩, ?_⟩
  · intro s hs
    exact (List.prefix_append _ _).trans hs.inv.sent
  · intro s hs hc
    obtain ⟨k, hreturned, hk⟩ := hs.inv.ended hc
    refine ⟨k, ?_⟩
    rw [hreturned]
    rcases Nat.eq_zero_or_pos k with rfl | hpos
    · simp only [List.replicate_zero, List.append_nil]
      exact ((List.prefix_append _ _).trans hs.inv.sent).map some
    · simp only [(hk hpos).1, List.prefix_rfl]
  · intro s actions run
    have hstep : ∀ s action t, DeliveryInv job s → delivering job s action t →
        DeliveryInv job t ∧ deliveryRank job t < deliveryRank job s :=
      fun _ _ _ => deliveryInv_step
    have hbound := run.length_add_rank_le hstep initial_deliveryInv
    have hi := run.preserves (fun s action t hi h => (hstep s action t hi h).1) initial_deliveryInv
    refine ⟨by omega, fun hstuck => ?_⟩
    by_cases hnone : none ∈ s.returned
    · exact hi.returned_eq hnone
    · obtain ⟨action, t, h⟩ := exists_delivering hi hnone
      exact absurd h (hstuck action t)
  · intro s t actions hcancelled hidle run
    exact run_cancelled run hcancelled hidle

/-- One sentence of one sample, by a model that streams, before a millisecond of silence. -/
def oneChunkJob : Job Unit where
  provider :=
    { ops :=
        { SonicStream := AudioSamples
          newSonicStream := fun _ _ => .ok []
          setSpeed := fun stream _ => stream
          setVolume := fun stream _ => stream
          setPitch := fun stream _ => stream
          write := fun stream samples => stream ++ samples
          flush := id
          samplesAvailable := List.length
          read := fun stream frames => stream.take frames
          trimTrailingSilence := fun samples _ => samples
          fadeOut := fun samples _ => samples }
      model :=
        { audioOutputInfo := fun _ => .ok ⟨1000, 1, 2⟩
          phonemizeText := fun _ text => .ok [text]
          speakBatch := fun _ _ => .ok []
          speakOneSentence := fun _ _ => .ok ⟨[⟨1⟩], ⟨1000, 1, 2⟩⟩
          getDefaultSynthesisConfig := fun _ => .ok none
          getFallbackSynthesisConfig := fun _ => .ok none
          setFallbackSynthesisConfig := fun _ _ => (.ok (), ())
          supportsStreamingOutput := fun _ => true
          streamSynthesis := fun _ _ _ _ => .returned (.ok [.returned (.ok [⟨1⟩])]) }
      state := ()
      text := "a"
      outputConfig := some ⟨none, none, none, some 1⟩ }
  sentences := ["a"]
  chunkSize := 45
  chunkPadding := 3
  sampleRate := 1000
  numChannels := 1

/-- The chunk is sent and received, and then the token is cancelled. -/
def cancelledRun : List Action :=
  [.produce, .produce, .produce, .produce, .produce, .produce, .call, .receive, .cancel]

/-- The job was cancelled after its first chunk. -/
def cancelledState : State where
  producer := .pulling 0 [] []
  queue := []
  cancelled := true
  receiverAlive := true
  consumer := .idle
  returned := [some (.ok [⟨1⟩])]

/-- Nobody cancels, and the silence follows the chunk before the first `None`. -/
def completeRun : List Action :=
  [.produce, .produce, .produce, .call, .produce, .produce, .produce, .receive, .call, .produce,
    .produce, .produce, .receive, .call, .produce, .receive]

/-- Every chunk has been returned. -/
def completeState : State where
  producer := .finished
  queue := []
  cancelled := false
  receiverAlive := true
  consumer := .idle
  returned := [some (.ok [⟨1⟩]), some (.ok [zeroSample]), none]

theorem cancelledRun_reaches : Reaches oneChunkJob cancelledState :=
  ⟨initial, cancelledRun, rfl, run_of_replay rfl⟩

theorem completeRun_reaches : Reaches oneChunkJob completeState :=
  ⟨initial, completeRun, rfl, run_of_replay rfl⟩

theorem oneChunkJob_delivery :
    cancelledState.delivered <+: oneChunkJob.sequential ∧
      oneChunkJob.sequential = [.ok [⟨1⟩], .ok [zeroSample]] ∧
      (∃ k, completeState.returned <+: oneChunkJob.sequential.map some ++ List.replicate k none) ∧
      ∃ k, ({ cancelledState with returned := [some (.ok [⟨1⟩]), none] } : State).returned =
        cancelledState.returned ++ List.replicate k none :=
  ⟨(realtime_delivery oneChunkJob).1 _ cancelledRun_reaches, rfl,
    (realtime_delivery oneChunkJob).2.1 _ completeRun_reaches rfl,
    (realtime_delivery oneChunkJob).2.2.2 _ _ [.call] rfl rfl (run_of_replay rfl)⟩

end Delivery

end Dengjen.Synth.Realtime
