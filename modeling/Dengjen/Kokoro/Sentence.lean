import Dengjen.General.TransitionSystem
import Dengjen.Kokoro.Voice

/-!
# One sentence under concurrent configuration

The tokens of a sentence are synthesized chunk by chunk, and each chunk reads
the configuration anew. Between two chunks the lock is free, so that another
thread may store a configuration there. One step is one such call, or one chunk
with the read that it starts with; the streams of a voice are cut from the
finished sentence and read nothing.
-/

namespace Dengjen.Kokoro.Sentence

open TransitionSystem

/-- The call to `synthesize_phonemes`: its chunks that are left, the preset each of the others
was run with, and their audios or the error that ended the call. -/
structure State where
  synthConfig : SynthesisConfig
  pending : List (List Int)
  spoken : List String
  audios : DengjenResult (List Audio)

/-- A chunk is spoken, or another call stores a configuration. -/
inductive Action
  | synthesizeTokenChunk
  | setFallbackSynthesisConfig (synthesisConfig : SynthesisConfig)

section Steps

variable (voice : KokoroModel)

/-- The chunks of a sentence are left to be spoken. -/
def start (synthConfig : SynthesisConfig) (phonemes : String) : State where
  synthConfig := synthConfig
  pending := splitTokens (voice.vocab.tokenize phonemes) maxTokenLen
    (voice.vocab.tokenize " ").head?
  spoken := []
  audios := .ok []

/-- A chunk's error ends the call. -/
def synthesizeChunk (s : State) : Option State :=
  match s.pending with
  | [] => none
  | tokens :: rest =>
      let spoken := s.spoken ++ [voice.voiceName s.synthConfig]
      match voice.synthesizeTokenChunk s.synthConfig tokens with
      | .error error => some { s with pending := [], spoken, audios := .error error }
      | .ok audio =>
          some { s with
            pending := rest
            spoken
            audios := s.audios.map fun audios => audios ++ [audio] }

/-- The configuration in force after a call of another thread. -/
def configAfter (s : State) (synthesisConfig : SynthesisConfig) : SynthesisConfig :=
  (voice.setFallbackSynthesisConfig s.synthConfig synthesisConfig).2

/-- A step of the sentence or of another call. -/
def step (s : State) : Action → Option State
  | .synthesizeTokenChunk => synthesizeChunk voice s
  | .setFallbackSynthesisConfig config => some { s with synthConfig := configAfter voice s config }

/-- What the call returns once no chunk is left. -/
def result (s : State) : DengjenResult Audio :=
  s.audios.map fun audios =>
    Audio.new (audios.flatMap fun audio => audio.samples) voice.sampleRate

/-- A configuration that is stored between the first and the last chunk keeps the preset. -/
def KeepsPreset (s : State) : Action → Prop
  | .synthesizeTokenChunk => True
  | .setFallbackSynthesisConfig config => s.spoken ≠ [] → s.pending ≠ [] →
      voice.voiceName (configAfter voice s config) = voice.voiceName s.synthConfig

end Steps

section Chunk

variable {voice : KokoroModel} {s t : State}

/-- A chunk is run with the preset in force and leaves the configuration alone. -/
theorem synthesizeChunk_spec (h : synthesizeChunk voice s = some t) :
    s.pending ≠ [] ∧ t.spoken = s.spoken ++ [voice.voiceName s.synthConfig] ∧
      t.synthConfig = s.synthConfig := by
  rw [synthesizeChunk] at h
  split at h
  · cases h
  · next hpending =>
      refine ⟨by simp [hpending], ?_⟩
      split at h <;> cases h <;> exact ⟨rfl, rfl⟩

theorem exists_synthesizeChunk (h : s.pending ≠ []) : ∃ t, synthesizeChunk voice s = some t := by
  obtain ⟨tokens, rest, hpending⟩ := List.exists_cons_of_ne_nil h
  rw [synthesizeChunk, hpending]
  split
  · next hnil => cases hnil
  · split
    · exact ⟨_, rfl⟩
    · exact ⟨_, rfl⟩

end Chunk

/-! ## Without other calls -/

section Undisturbed

variable {voice : KokoroModel} {s t : State}

theorem synthesizeChunk_ok {tokens : List Int} {rest : List (List Int)} {audio : Audio}
    (hpending : s.pending = tokens :: rest)
    (hok : voice.synthesizeTokenChunk s.synthConfig tokens = .ok audio) :
    synthesizeChunk voice s = some { s with
      pending := rest
      spoken := s.spoken ++ [voice.voiceName s.synthConfig]
      audios := s.audios.map fun audios => audios ++ [audio] } := by
  simp only [synthesizeChunk, hpending, hok]

theorem synthesizeChunk_error {tokens : List Int} {rest : List (List Int)} {error : DengjenError}
    (hpending : s.pending = tokens :: rest)
    (herror : voice.synthesizeTokenChunk s.synthConfig tokens = .error error) :
    synthesizeChunk voice s = some { s with
      pending := []
      spoken := s.spoken ++ [voice.voiceName s.synthConfig]
      audios := .error error } := by
  simp only [synthesizeChunk, hpending, herror]

/-- Nothing happens after the last chunk. -/
theorem eq_of_chunks_done {n : Nat} (hdone : s.pending = [])
    (run : Run (steps (step voice)) s (List.replicate n .synthesizeTokenChunk) t) : t = s := by
  cases n with
  | zero =>
      cases run
      rfl
  | succ n =>
      cases run with
      | cons head tail => exact absurd hdone (synthesizeChunk_spec head).1

/-- Chunks that are run one after another give what `mapM` gives. -/
theorem audios_of_chunks {audios : List Audio} (haudios : s.audios = .ok audios) {n : Nat}
    (run : Run (steps (step voice)) s (List.replicate n .synthesizeTokenChunk) t)
    (hdone : t.pending = []) :
    t.audios = (s.pending.mapM (voice.synthesizeTokenChunk s.synthConfig)).map fun rest =>
      audios ++ rest := by
  induction n generalizing s audios with
  | zero =>
      cases run
      rw [hdone, haudios, List.mapM_nil]
      exact congrArg _ (List.append_nil audios).symm
  | succ n ih =>
      cases run with
      | cons head tail =>
          obtain ⟨tokens, rest, hpending⟩ :=
            List.exists_cons_of_ne_nil (synthesizeChunk_spec head).1
          rw [hpending, List.mapM_cons]
          cases hchunk : voice.synthesizeTokenChunk s.synthConfig tokens with
          | error error =>
              rw [steps, step, synthesizeChunk_error hpending hchunk, Option.some.injEq] at head
              subst head
              rw [eq_of_chunks_done rfl tail]
              rfl
          | ok audio =>
              rw [steps, step, synthesizeChunk_ok hpending hchunk, Option.some.injEq] at head
              subst head
              have haudios' : (s.audios.map fun audios => audios ++ [audio]) =
                  .ok (audios ++ [audio]) := by
                rw [haudios]
                rfl
              rw [ih haudios' tail]
              cases rest.mapM (voice.synthesizeTokenChunk s.synthConfig) with
              | error error => rfl
              | ok others => exact congrArg Except.ok (List.append_assoc audios [audio] others)

/-- Chunk by chunk the call synthesizes the sentence as a whole. -/
theorem result_of_chunks {synthConfig : SynthesisConfig} {phonemes : String} {n : Nat}
    (run : Run (steps (step voice)) (start voice synthConfig phonemes)
      (List.replicate n .synthesizeTokenChunk) t) (hdone : t.pending = []) :
    result voice t = voice.synthesizePhonemes synthConfig phonemes := by
  have haudios := audios_of_chunks rfl run hdone
  rw [result, haudios, KokoroModel.synthesizePhonemes, start]
  dsimp only
  cases (splitTokens (voice.vocab.tokenize phonemes) maxTokenLen
    (voice.vocab.tokenize " ").head?).mapM (voice.synthesizeTokenChunk synthConfig) <;> rfl

end Undisturbed

/-! ## The preset of a sentence -/

section Preset

variable {voice : KokoroModel} {s t : State} {name : String}

/-- The steps that keep the preset between the first and the last chunk. -/
def keepingSteps (voice : KokoroModel) : State → Action → State → Prop :=
  restrict (KeepsPreset voice) (steps (step voice))

/-- A preset has been chosen: every chunk was run with it, and so will be the next. -/
structure SpeaksAs (voice : KokoroModel) (name : String) (s : State) : Prop where
  begun : s.spoken ≠ []
  spoken : ∀ used ∈ s.spoken, used = name
  next : s.pending ≠ [] → voice.voiceName s.synthConfig = name

/-- The first chunk chooses the preset in force. -/
theorem speaksAs_of_first (hspoken : s.spoken = []) (h : synthesizeChunk voice s = some t) :
    SpeaksAs voice (voice.voiceName s.synthConfig) t := by
  obtain ⟨-, hspoken', hconfig⟩ := synthesizeChunk_spec h
  rw [hspoken, List.nil_append] at hspoken'
  constructor
  · rw [hspoken']
    exact List.cons_ne_nil _ _
  · intro used hused
    rw [hspoken', List.mem_singleton] at hused
    exact hused
  · intro _
    rw [hconfig]

theorem SpeaksAs.step {action : Action} (hs : SpeaksAs voice name s)
    (h : keepingSteps voice s action t) : SpeaksAs voice name t := by
  obtain ⟨hkeeps, hstep⟩ := h
  cases action with
  | synthesizeTokenChunk =>
      obtain ⟨hpending, hspoken, hconfig⟩ := synthesizeChunk_spec hstep
      have hname := hs.next hpending
      constructor
      · rw [hspoken]
        simp
      · intro used hused
        rw [hspoken, List.mem_append, List.mem_singleton, hname] at hused
        exact hused.elim (hs.spoken used) id
      · intro _
        rw [hconfig, hname]
  | setFallbackSynthesisConfig config =>
      cases Option.some.inj hstep
      refine ⟨hs.begun, hs.spoken, fun hpending => ?_⟩
      exact (hkeeps hs.begun hpending).trans (hs.next hpending)

/-- A run that keeps the preset speaks with that of a configuration it passed through. -/
theorem exists_preset_of_run {actions : List Action} (run : Run (keepingSteps voice) s actions t)
    (hbegin : s.spoken = []) :
    ∃ before after u, actions = before ++ after ∧ Run (keepingSteps voice) s before u ∧
      Run (keepingSteps voice) u after t ∧
      ∀ used ∈ t.spoken, used = voice.voiceName u.synthConfig := by
  induction run with
  | nil s =>
      refine ⟨[], [], s, rfl, .nil s, .nil s, fun used hused => ?_⟩
      rw [hbegin] at hused
      cases hused
  | @cons s action u actions t head tail ih =>
      cases action with
      | synthesizeTokenChunk =>
          have hspeaks := tail.preserves (fun _ _ _ hs h => hs.step h)
            (speaksAs_of_first hbegin head.2)
          exact ⟨[], _, s, rfl, .nil s, .cons head tail, hspeaks.spoken⟩
      | setFallbackSynthesisConfig config =>
          have hunspoken : u.spoken = [] := by
            cases Option.some.inj head.2
            exact hbegin
          obtain ⟨before, after, w, rfl, first, second, hused⟩ := ih hunspoken
          exact ⟨_ :: before, after, w, rfl, .cons head first, second, hused⟩

/-- A chunk that is run while another preset is in force than for an earlier one. -/
theorem exists_two_presets {used : String} (hused : used ∈ s.spoken) (hpending : s.pending ≠ [])
    (hne : used ≠ voice.voiceName s.synthConfig) :
    ∃ t, Run (steps (step voice)) s [.synthesizeTokenChunk] t ∧
      ∃ used ∈ t.spoken, ∃ other ∈ t.spoken, used ≠ other := by
  obtain ⟨t, h⟩ : ∃ t, synthesizeChunk voice s = some t := exists_synthesizeChunk hpending
  obtain ⟨-, hspoken, -⟩ := synthesizeChunk_spec h
  refine ⟨t, .single h, used, ?_, voice.voiceName s.synthConfig, ?_, hne⟩
  · rw [hspoken]
    exact List.mem_append_left _ hused
  · rw [hspoken]
    exact List.mem_append_right _ (List.mem_singleton.mpr rfl)

/-- Where a call can change the preset of a sentence that has begun, two presets can be heard. -/
theorem exists_two_presets_of_change {config : SynthesisConfig}
    (h : ¬ KeepsPreset voice s (.setFallbackSynthesisConfig config)) :
    ∃ actions t, Run (steps (step voice)) s actions t ∧
      ∃ used ∈ t.spoken, ∃ other ∈ t.spoken, used ≠ other := by
  rw [KeepsPreset, Classical.not_imp, Classical.not_imp] at h
  obtain ⟨hbegun, hpending, hchange⟩ := h
  obtain ⟨used, hused⟩ := List.exists_mem_of_ne_nil _ hbegun
  by_cases hname : used = voice.voiceName s.synthConfig
  · have hne : used ≠ voice.voiceName (configAfter voice s config) :=
      fun heq => hchange (heq.symm.trans hname)
    let changed : State := { s with synthConfig := configAfter voice s config }
    have hwrite : steps (step voice) s (.setFallbackSynthesisConfig config) changed := rfl
    have hspoken : used ∈ changed.spoken := hused
    obtain ⟨t, run, hpresets⟩ := exists_two_presets hspoken hpending hne
    exact ⟨_, t, .cons hwrite run, hpresets⟩
  · obtain ⟨t, run, hpresets⟩ := exists_two_presets hused hpending hname
    exact ⟨_, t, run, hpresets⟩

end Preset

/-- In every run in which no call changes the preset between a sentence's first and last chunk,
the sentence is spoken with one preset, that of a configuration in force during the run; where
a call can change it, two presets can be heard. -/
theorem one_preset_per_sentence (voice : KokoroModel) (phonemes : String) :
    (∀ synthConfig actions t,
      Run (keepingSteps voice) (start voice synthConfig phonemes) actions t →
      ∃ before after u, actions = before ++ after ∧
        Run (keepingSteps voice) (start voice synthConfig phonemes) before u ∧
        Run (keepingSteps voice) u after t ∧
        ∀ used ∈ t.spoken, used = voice.voiceName u.synthConfig) ∧
    (∀ synthConfig actions s,
      Run (steps (step voice)) (start voice synthConfig phonemes) actions s →
      ∀ config, ¬ KeepsPreset voice s (.setFallbackSynthesisConfig config) →
        ∃ actions t, Run (steps (step voice)) s actions t ∧
          ∃ used ∈ t.spoken, ∃ other ∈ t.spoken, used ≠ other) :=
  ⟨fun _ _ _ run => exists_preset_of_run run rfl,
    fun _ _ _ _ _ h => exists_two_presets_of_change h⟩

/-- A voice of two presets that knows one token besides the frame. -/
def twoPresets : KokoroModel where
  vocab := ⟨HashMap.fromIter [("$", 0), ("a", 1)], 0, 1⟩
  voiceStyles := ⟨HashMap.fromIter [("af_heart", []), ("am_adam", [])]⟩
  phonemize _ text := .ok [text]
  session _ _ _ := .ok []
  sampleRate := 24000
  defaultVoice := "af_heart"
  speakerMap := HashMap.fromIter [(0, "af_heart"), (1, "am_adam")]
  speakerMap_zero := rfl

theorem tokenizeLoop_replicate (n : Nat) :
    twoPresets.vocab.tokenizeLoop (List.replicate n 'a') 0 = List.replicate n 1 := by
  induction n with
  | zero => rfl
  | succ n ih =>
      have hlimit : min twoPresets.vocab.maxTokenChars ((List.replicate n 'a').length + 1) = 1 :=
        Nat.min_eq_left (Nat.succ_le_succ (Nat.zero_le _))
      rw [List.replicate_succ, Vocab.tokenizeLoop, hlimit, List.replicate_succ, ← ih]
      rfl

/-- A sentence of more tokens than one chunk holds is spoken in two. -/
theorem chunks_of_replicate {n : Nat} (hlong : 510 < n) (hshort : n ≤ 1020) :
    (start twoPresets .default (String.ofList (List.replicate n 'a'))).pending =
      [List.replicate 510 1, List.replicate (n - 510) 1] := by
  have htokens : twoPresets.vocab.tokenize (String.ofList (List.replicate n 'a')) =
      List.replicate n 1 := by
    rw [Vocab.tokenize, String.toList_ofList, tokenizeLoop_replicate]
  have hbreak : (twoPresets.vocab.tokenize " ").head? = none := by decide
  have hmax : (maxTokenLen : Nat) = 510 := rfl
  have hcut (rest : List Int) : chunkCut maxTokenLen none rest = 510 := rfl
  rw [start, htokens, hbreak, splitTokens, if_pos]
  · dsimp only
    rw [hcut, List.take_replicate, List.drop_replicate, splitTokens, if_neg, Nat.min_eq_left]
    · exact hlong.le
    · rw [List.length_replicate, hmax]
      omega
  · rwa [List.length_replicate, hmax]

theorem twoPresets_chunk {synthConfig : SynthesisConfig}
    (h : twoPresets.voiceStyles.perVoice.lookup (twoPresets.voiceName synthConfig) = some [])
    (tokens : List Int) :
    twoPresets.synthesizeTokenChunk synthConfig tokens = .ok (Audio.new [] 24000) := by
  rw [KokoroModel.synthesizeTokenChunk, VoiceStyles.styleFor, h]
  rfl

/-- A sentence of one token more than a chunk holds. -/
def longSentence : String := String.ofList (List.replicate 511 'a')

/-- After the first of its two chunks. -/
theorem longSentence_first_chunk :
    ∃ s, steps (step twoPresets) (start twoPresets .default longSentence) .synthesizeTokenChunk s ∧
      s.synthConfig = .default ∧ s.spoken = ["af_heart"] ∧ s.pending = [List.replicate 1 1] := by
  have hchunks := chunks_of_replicate (show 510 < 511 by decide) (by decide)
  exact ⟨_, synthesizeChunk_ok hchunks (twoPresets_chunk rfl _), rfl, rfl, rfl⟩

/-- The second chunk is run with the preset that another call has stored after the first. -/
theorem two_presets_in_one_sentence :
    ∃ t, Run (steps (step twoPresets)) (start twoPresets .default longSentence)
        [.synthesizeTokenChunk, .setFallbackSynthesisConfig ⟨some 1, ∅⟩, .synthesizeTokenChunk] t ∧
      t.pending = [] ∧ t.spoken = ["af_heart", "am_adam"] := by
  obtain ⟨s, first, hconfig, hspoken, hpending⟩ := longSentence_first_chunk
  have hstored : configAfter twoPresets s ⟨some 1, ∅⟩ = ⟨some 1, ∅⟩ := by
    rw [configAfter, hconfig]
    rfl
  let changed : State := { s with synthConfig := ⟨some 1, ∅⟩ }
  have second : steps (step twoPresets) s (.setFallbackSynthesisConfig ⟨some 1, ∅⟩) changed := by
    rw [steps, step, hstored]
  have hleft : changed.pending = [List.replicate 1 1] := hpending
  have third := synthesizeChunk_ok hleft (twoPresets_chunk rfl _)
  refine ⟨_, .cons first (.cons second (.single third)), rfl, ?_⟩
  exact congrArg (fun spoken => spoken ++ ["am_adam"]) hspoken

/-- The same sentence, undisturbed. -/
theorem longSentence_one_preset :
    ∃ t, Run (keepingSteps twoPresets) (start twoPresets .default longSentence)
        [.synthesizeTokenChunk, .synthesizeTokenChunk] t ∧
      ∃ name, ∀ used ∈ t.spoken, used = name := by
  obtain ⟨s, first, hconfig, -, hpending⟩ := longSentence_first_chunk
  have hchunk : twoPresets.synthesizeTokenChunk s.synthConfig (List.replicate 1 1) =
      .ok (Audio.new [] 24000) := twoPresets_chunk (by rw [hconfig]; rfl) _
  have second := synthesizeChunk_ok hpending hchunk
  have run : Run (keepingSteps twoPresets) (start twoPresets .default longSentence)
      [.synthesizeTokenChunk, .synthesizeTokenChunk] _ :=
    .cons ⟨trivial, first⟩ (.single ⟨trivial, second⟩)
  obtain ⟨-, -, u, -, -, -, hspoken⟩ :=
    (one_preset_per_sentence twoPresets longSentence).1 _ _ _ run
  exact ⟨_, run, _, hspoken⟩

end Dengjen.Kokoro.Sentence
