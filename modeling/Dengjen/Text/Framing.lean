import Dengjen.Kokoro.TokenChunks
import Dengjen.Piper.Voice
import Dengjen.Text.Tokenizers

/-!
# The frame of a sentence

Piper puts the ids of `^` and `$` around the ids of a sentence, Kokoro the id of
`$` around each of its chunks. The symbols are ordinary keys of the table that the
text is searched for, and no loop treats them apart: a marker occurs inside a
sentence exactly when the greedy segmentation of its phonemes has it as a piece.
-/

namespace Dengjen

open GreedySegmentation

/-- The id starts the sequence and does not occur again. -/
def OnlyFirst (id : Int) (ids : List Int) : Prop := ids.head? = some id ∧ id ∉ ids.tail

/-- The id ends the sequence and does not occur before. -/
def OnlyLast (id : Int) (ids : List Int) : Prop := ids.getLast? = some id ∧ id ∉ ids.dropLast

/-- The id starts and ends the sequence and does not occur between. -/
def OnlyAtEnds (id : Int) (ids : List Int) : Prop :=
  ∃ between, ids = id :: between ++ [id] ∧ id ∉ between

theorem onlyFirst_cons {first : Int} {rest : List Int} :
    OnlyFirst first (first :: rest) ↔ first ∉ rest := by
  simp [OnlyFirst]

theorem onlyLast_concat {last : Int} {front : List Int} :
    OnlyLast last (front ++ [last]) ↔ last ∉ front := by
  simp [OnlyLast]

theorem onlyAtEnds_frame {frameId : Int} {between : List Int} :
    OnlyAtEnds frameId (frameId :: between ++ [frameId]) ↔ frameId ∉ between := by
  constructor
  · rintro ⟨other, heq, hnot⟩
    have hbetween : between = other := by simpa using heq
    exact hbetween ▸ hnot
  · exact fun h => ⟨between, rfl, h⟩

namespace Piper

/-- No two symbols of a voice have one id. -/
def InjectivePhonemeIds (phonemeIdMap : HashMap String (List Int)) : Prop :=
  ∀ key key' id, firstPhonemeId phonemeIdMap key = some id →
    firstPhonemeId phonemeIdMap key' = some id → key = key'

section Markers

variable {phonemeIdMap : HashMap String (List Int)} {text : List Char}
  {segments : List (List Char × Int)}

/-- A piece has the id of a symbol exactly when it is the symbol. -/
theorem mem_ids_iff (hinj : InjectivePhonemeIds phonemeIdMap)
    (h : Segments (pieceId (firstPhonemeId phonemeIdMap)) text segments) {symbol : String}
    {id : Int} (hid : firstPhonemeId phonemeIdMap symbol = some id) :
    id ∈ segments.map Prod.snd ↔ symbol.toList ∈ segments.map Prod.fst := by
  simp only [List.mem_map]
  constructor
  · rintro ⟨segment, hmem, rfl⟩
    have hpiece : firstPhonemeId phonemeIdMap (String.ofList segment.1) = some segment.2 :=
      h.value_of_mem hmem
    refine ⟨segment, hmem, ?_⟩
    rw [hinj _ _ _ hid hpiece, String.toList_ofList]
  · rintro ⟨segment, hmem, hsymbol⟩
    have hpiece := h.value_of_mem hmem
    rw [hsymbol, pieceId, String.ofList_toList, hid] at hpiece
    exact ⟨segment, hmem, (Option.some.inj hpiece).symm⟩

theorem mem_padded_iff {id padId : Int} (hpad : id ≠ padId) :
    (id ∈ segments.flatMap fun segment => [segment.2, padId]) ↔ id ∈ segments.map Prod.snd := by
  simp [hpad, eq_comm]

end Markers

namespace VitsModelCommons

variable {voice : VitsModelCommons} {padId bosId eosId : Int}

theorem firstId_of_some {token : String} {id : Int}
    (h : firstPhonemeId voice.config.phonemeIdMap token = some id) : voice.firstId token = .ok id := by
  rw [firstId, h]

theorem sentenceIds_eq (hpad : firstPhonemeId voice.config.phonemeIdMap "_" = some padId)
    (hbos : firstPhonemeId voice.config.phonemeIdMap "^" = some bosId)
    (heos : firstPhonemeId voice.config.phonemeIdMap "$" = some eosId) (phonemes : String) :
    voice.sentenceIds phonemes =
      .ok (mapPhonemesToIds voice.config.phonemeIdMap phonemes padId bosId eosId) := by
  rw [sentenceIds, getMetaIds, firstId_of_some hpad, firstId_of_some hbos, firstId_of_some heos]
  rfl

/-- The start and the end of a sentence are unique as far as its text does not name them. -/
theorem framed_iff {phonemes : String} {segments : List (List Char × Int)}
    (hinj : InjectivePhonemeIds voice.config.phonemeIdMap)
    (hpad : firstPhonemeId voice.config.phonemeIdMap "_" = some padId)
    (hbos : firstPhonemeId voice.config.phonemeIdMap "^" = some bosId)
    (heos : firstPhonemeId voice.config.phonemeIdMap "$" = some eosId)
    (h : Segments (pieceId (firstPhonemeId voice.config.phonemeIdMap)) phonemes.toList segments) :
    (OnlyFirst bosId (mapPhonemesToIds voice.config.phonemeIdMap phonemes padId bosId eosId) ↔
        "^".toList ∉ segments.map Prod.fst) ∧
      (OnlyLast eosId (mapPhonemesToIds voice.config.phonemeIdMap phonemes padId bosId eosId) ↔
        "$".toList ∉ segments.map Prod.fst) := by
  have hbosPad : bosId ≠ padId := fun heq => absurd (hinj _ _ _ (heq ▸ hbos) hpad) (by decide)
  have heosPad : eosId ≠ padId := fun heq => absurd (hinj _ _ _ (heq ▸ heos) hpad) (by decide)
  have hends : eosId ≠ bosId := fun heq => absurd (hinj _ _ _ (heq ▸ heos) hbos) (by decide)
  rw [mapPhonemesToIds_eq h]
  constructor
  · rw [List.cons_append, onlyFirst_cons, List.mem_append, List.mem_singleton,
      mem_padded_iff hbosPad, mem_ids_iff hinj h hbos, or_iff_left hends.symm]
  · rw [onlyLast_concat, List.mem_cons, mem_padded_iff heosPad, mem_ids_iff hinj h heos,
      or_iff_right hends]

end VitsModelCommons

end Piper

namespace Kokoro

namespace KokoroModel

variable (voice : KokoroModel)

/-- A chunk in its frame. -/
def frameTokens (tokens : List Int) : List Int :=
  voice.vocab.bosId :: tokens ++ [voice.vocab.eosId]

/-- The token sequences a sentence is synthesized from. -/
def framedChunks (phonemes : String) : List (List Int) :=
  (splitTokens (voice.vocab.tokenize phonemes) maxTokenLen
    (voice.vocab.tokenize " ").head?).map voice.frameTokens

/-- The inference on one framed sequence. -/
def inferTokens (synthConfig : SynthesisConfig) (tokenIds : List Int) : DengjenResult Audio := do
  let style ← voice.voiceStyles.styleFor (voice.voiceName synthConfig) tokenIds.length
  let data ← voice.session tokenIds style speed
  pure (Audio.new data voice.sampleRate)

/-- A sentence's inferences see the framed sequences and no others. -/
theorem synthesizePhonemes_eq (synthConfig : SynthesisConfig) (phonemes : String) :
    voice.synthesizePhonemes synthConfig phonemes = (do
      let audios ← (voice.framedChunks phonemes).mapM (voice.inferTokens synthConfig)
      pure (Audio.new (audios.flatMap fun audio => audio.samples) voice.sampleRate)) := by
  rw [framedChunks, List.mapM_map]
  rfl

variable {voice}

theorem framedChunks_iff {phonemes : String} {segments : List (List Char × Int)}
    (hbounded : voice.vocab.Bounded)
    (h : Segments (pieceId voice.vocab.map.lookup) phonemes.toList segments) :
    (∀ framed ∈ voice.framedChunks phonemes, OnlyAtEnds voice.vocab.bosId framed) ↔
      voice.vocab.bosId ∉ segments.map Prod.snd := by
  have htokens := Vocab.tokenize_eq hbounded h
  have hframe (chunk : List Int) :
      OnlyAtEnds voice.vocab.bosId (voice.frameTokens chunk) ↔ voice.vocab.bosId ∉ chunk :=
    onlyAtEnds_frame
  have hflatten := (pieces_splitTokens (voice.vocab.tokenize phonemes) maxTokenLen
    (voice.vocab.tokenize " ").head?).flatten_eq
  simp only [framedChunks, List.forall_mem_map, hframe]
  rw [← htokens, ← hflatten, List.mem_flatten, hflatten]
  simp only [not_exists, not_and]

end KokoroModel

end Kokoro

/-- The frame of a sentence is unique exactly as far as the greedy segmentation of its phonemes
has no marker among its pieces, for Piper voices with distinct ids and for Kokoro voices. -/
theorem sentence_framing (phonemes : String) :
    (∀ voice : Piper.VitsModelCommons, ∀ padId bosId eosId,
      Piper.InjectivePhonemeIds voice.config.phonemeIdMap →
      Piper.firstPhonemeId voice.config.phonemeIdMap "_" = some padId →
      Piper.firstPhonemeId voice.config.phonemeIdMap "^" = some bosId →
      Piper.firstPhonemeId voice.config.phonemeIdMap "$" = some eosId →
      ∃ segments ids,
        Segments (pieceId (Piper.firstPhonemeId voice.config.phonemeIdMap)) phonemes.toList
          segments ∧
        voice.sentenceIds phonemes = .ok ids ∧
        (OnlyFirst bosId ids ↔ "^".toList ∉ segments.map Prod.fst) ∧
        (OnlyLast eosId ids ↔ "$".toList ∉ segments.map Prod.fst)) ∧
      ∀ voice : Kokoro.KokoroModel, ∀ vocabPath map,
        Kokoro.Vocab.load vocabPath map = .ok voice.vocab →
        ∃ segments, Segments (pieceId map.lookup) phonemes.toList segments ∧
          map.lookup "$" = some voice.vocab.bosId ∧
          ((∀ framed ∈ voice.framedChunks phonemes, OnlyAtEnds voice.vocab.bosId framed) ↔
            voice.vocab.bosId ∉ segments.map Prod.snd) := by
  constructor
  · intro voice padId bosId eosId hinj hpad hbos heos
    obtain ⟨segments, hsegments⟩ := exists_segments
      (pieceId (Piper.firstPhonemeId voice.config.phonemeIdMap)) phonemes.toList
    exact ⟨segments, _, hsegments,
      Piper.VitsModelCommons.sentenceIds_eq hpad hbos heos phonemes,
      Piper.VitsModelCommons.framed_iff hinj hpad hbos heos hsegments⟩
  · intro voice vocabPath map hload
    obtain ⟨hmap, hbos, hbounded⟩ := Kokoro.Vocab.load_ok hload
    subst hmap
    obtain ⟨segments, hsegments⟩ :=
      exists_segments (pieceId voice.vocab.map.lookup) phonemes.toList
    exact ⟨segments, hsegments, hbos, Kokoro.KokoroModel.framedChunks_iff hbounded hsegments⟩

/-- A voice of text phonemes with the markers and two other symbols. -/
def markerVoice : Piper.VitsModelCommons where
  config :=
    { language := none
      audio := ⟨22050, none⟩
      numSpeakers := 1
      speakerIdMap := ∅
      streaming := none
      espeakVoice := "en-us"
      inference := ⟨⟨0x3F2AC083⟩, ⟨0x3F800000⟩, ⟨0x3F4CCCCD⟩⟩
      phonemeIdMap := HashMap.fromIter [("_", [0]), ("^", [1]), ("$", [2]), ("a", [3]), ("ab", [4])]
      defaultSpeakerId := none
      hopLength := none }
  doPhonemizeText text := .ok [text]

/-- The frame and two other tokens. -/
def frameVocab : HashMap String Int := HashMap.fromIter [("$", 0), ("a", 1), ("ab", 2)]

/-- A voice of these tokens. -/
def frameVoice : Kokoro.KokoroModel where
  vocab := ⟨frameVocab, 0, 2⟩
  voiceStyles := ⟨AList.singleton "af_heart" [[]]⟩
  phonemize _ text := .ok [text]
  session _ _ _ := .ok []
  sampleRate := 24000
  defaultVoice := "af_heart"
  speakerMap := AList.singleton 0 "af_heart"
  speakerMap_zero := rfl

theorem markerVoice_symbol {key : String} {id : Int}
    (h : Piper.firstPhonemeId markerVoice.config.phonemeIdMap key = some id) :
    (key, id) ∈ [("_", 0), ("^", 1), ("$", 2), ("a", 3), ("ab", 4)] := by
  obtain ⟨ids, hids, hid⟩ := Option.bind_eq_some_iff.mp h
  have hmem := HashMap.mem_of_lookup_fromIter hids
  simp only [List.mem_cons, List.not_mem_nil, or_false, Prod.mk.injEq] at hmem
  rcases hmem with ⟨rfl, rfl⟩ | ⟨rfl, rfl⟩ | ⟨rfl, rfl⟩ | ⟨rfl, rfl⟩ | ⟨rfl, rfl⟩ <;>
    cases hid <;> decide

theorem markerVoice_injective :
    Piper.InjectivePhonemeIds markerVoice.config.phonemeIdMap := by
  intro key key' id hkey hkey'
  have hmem := markerVoice_symbol hkey
  have hmem' := markerVoice_symbol hkey'
  simp only [List.mem_cons, List.not_mem_nil, or_false, Prod.mk.injEq] at hmem hmem'
  grind

theorem frameVoice_framedChunks : frameVoice.framedChunks "$" = [[0, 0, 0]] := by
  have htokens : frameVoice.vocab.tokenize "$" = [0] := by decide
  rw [Kokoro.KokoroModel.framedChunks, htokens, Kokoro.splitTokens, if_neg (by decide)]
  rfl

/-- A text that names the markers has their ids inside its frame. -/
theorem markers_inside_frame :
    (¬ ∀ voice : Piper.VitsModelCommons, ∀ padId bosId eosId phonemes ids,
      Piper.InjectivePhonemeIds voice.config.phonemeIdMap →
      voice.getMetaIds = .ok (padId, bosId, eosId) →
      voice.sentenceIds phonemes = .ok ids → OnlyFirst bosId ids ∧ OnlyLast eosId ids) ∧
    ¬ ∀ voice : Kokoro.KokoroModel, ∀ vocabPath map phonemes,
      Kokoro.Vocab.load vocabPath map = .ok voice.vocab →
      ∀ framed ∈ voice.framedChunks phonemes, OnlyAtEnds voice.vocab.bosId framed := by
  constructor
  · intro h
    have hframed := h markerVoice 0 1 2 "^$" [1, 1, 0, 2, 0, 2] markerVoice_injective rfl rfl
    exact absurd hframed.1.2 (by decide)
  · intro h
    have hframed := h frameVoice "tokenizer.json" frameVocab "$" rfl [0, 0, 0]
      (by rw [frameVoice_framedChunks]; exact List.mem_singleton.mpr rfl)
    obtain ⟨between, heq, hnot⟩ := hframed
    have hbetween : between = [0] := by
      have hlast : [0] ++ [0] = between ++ [0] := (List.cons.inj heq).2
      exact List.append_cancel_right hlast.symm
    exact absurd hnot (by rw [hbetween]; decide)

/-- The pieces of `aaba` are no markers, since the frame of their ids is unique. -/
theorem markerVoice_framing :
    (∃ segments,
      Segments (pieceId (Piper.firstPhonemeId markerVoice.config.phonemeIdMap)) "aaba".toList
        segments ∧
      markerVoice.sentenceIds "aaba" = .ok [1, 3, 0, 4, 0, 3, 0, 2] ∧
      "^".toList ∉ segments.map Prod.fst ∧ "$".toList ∉ segments.map Prod.fst) ∧
    ∃ segments, Segments (pieceId frameVocab.lookup) "aaba".toList segments ∧
      frameVoice.framedChunks "aaba" = [[0, 1, 2, 1, 0]] ∧ 0 ∉ segments.map Prod.snd := by
  obtain ⟨hpiper, hkokoro⟩ := sentence_framing "aaba"
  obtain ⟨segments, ids, hsegments, hids, hfirst, hlast⟩ :=
    hpiper markerVoice 0 1 2 markerVoice_injective rfl rfl rfl
  obtain ⟨segments', hsegments', -, hends⟩ := hkokoro frameVoice "tokenizer.json" frameVocab rfl
  have hsentence : markerVoice.sentenceIds "aaba" = .ok [1, 3, 0, 4, 0, 3, 0, 2] := rfl
  obtain rfl : ids = [1, 3, 0, 4, 0, 3, 0, 2] := Except.ok.inj (hids.symm.trans hsentence)
  have hchunks : frameVoice.framedChunks "aaba" = [[0, 1, 2, 1, 0]] := by
    have htokens : frameVoice.vocab.tokenize "aaba" = [1, 2, 1] := by decide
    rw [Kokoro.KokoroModel.framedChunks, htokens, Kokoro.splitTokens, if_neg (by decide)]
    rfl
  refine ⟨⟨segments, hsegments, hsentence, ?_, ?_⟩, segments', hsegments', hchunks, ?_⟩
  · exact hfirst.mp ⟨rfl, by decide⟩
  · exact hlast.mp ⟨rfl, by decide⟩
  · apply hends.mp
    rw [hchunks, List.forall_mem_singleton]
    exact ⟨[1, 2, 1], rfl, by decide⟩

end Dengjen
