import Dengjen.Melo.Voice

/-!
# The text between the phonemizer and the synthesis

`phonemize_text` writes one line for each pair of a phone and a tone, and
`speak_one_sentence` splits the lines and then each line at its last colon. A
phone may hold colons, since a tone holds none.
-/

namespace Dengjen.Melo

/-- The separators occur in a pair at most as colons of its phone. -/
structure Transportable (pair : String × String) : Prop where
  phone : '\n' ∉ pair.1.toList
  tone : '\n' ∉ pair.2.toList
  tone_colon : ':' ∉ pair.2.toList

/-- The line of one pair. -/
def encodeToken (pair : String × String) : List Char :=
  pair.1.toList ++ ':' :: pair.2.toList

@[simp] theorem toList_encodePairs (pairs : List (String × String)) :
    (encodePairs pairs).toList = ['\n'].intercalate (pairs.map encodeToken) := by
  rw [encodePairs, String.toList_intercalate, List.map_map]
  congr 1
  apply List.map_congr_left
  intro pair _
  simp only [Function.comp_apply, String.toList_append, encodeToken, List.append_assoc]
  rfl

theorem encodeToken_ne_nil (pair : String × String) : encodeToken pair ≠ [] := by
  simp [encodeToken]

theorem Transportable.newline_notMem {pair : String × String} (h : Transportable pair) :
    '\n' ∉ encodeToken pair := by
  simp [encodeToken, h.phone, h.tone]

theorem rsplitOnce_of_notMem {separator : Char} {chars : List Char} (h : separator ∉ chars) :
    rsplitOnce separator chars = none := by
  induction chars with
  | nil => rfl
  | cons c rest ih =>
      rw [List.mem_cons, not_or] at h
      rw [rsplitOnce, ih h.2]
      exact if_neg (Ne.symm h.1)

/-- The split is at the last separator. -/
theorem rsplitOnce_append {separator : Char} (before : List Char) {after : List Char}
    (h : separator ∉ after) :
    rsplitOnce separator (before ++ separator :: after) = some (before, after) := by
  induction before with
  | nil =>
      rw [List.nil_append, rsplitOnce, rsplitOnce_of_notMem h]
      exact if_pos rfl
  | cons c before ih => rw [List.cons_append, rsplitOnce, ih]

theorem decodeToken_encodeToken {pair : String × String} (h : Transportable pair) :
    decodeToken (encodeToken pair) = pair := by
  rw [decodeToken, encodeToken, rsplitOnce_append _ h.tone_colon]
  simp

/-- The lines of a sentence are those of its pairs; there is none of an empty one. -/
theorem lines_encodePairs {pairs : List (String × String)} (h : ∀ pair ∈ pairs, Transportable pair) :
    (((encodePairs pairs).toList.splitOn '\n').filter fun line => !line.isEmpty) =
      pairs.map encodeToken := by
  rw [toList_encodePairs]
  cases pairs with
  | nil => rfl
  | cons pair pairs =>
      rw [List.splitOn_intercalate]
      · apply List.filter_eq_self.mpr
        intro line hline
        obtain ⟨other, -, rfl⟩ := List.mem_map.mp hline
        simpa using encodeToken_ne_nil other
      · intro line hline
        obtain ⟨other, hother, rfl⟩ := List.mem_map.mp hline
        exact (h other hother).newline_notMem
      · exact List.cons_ne_nil _ _

theorem decodePairs_encodePairs {pairs : List (String × String)}
    (h : ∀ pair ∈ pairs, Transportable pair) : decodePairs (encodePairs pairs) = pairs := by
  rw [decodePairs, lines_encodePairs h, List.map_map]
  calc pairs.map (decodeToken ∘ encodeToken)
      = pairs.map id := List.map_congr_left fun pair hpair => decodeToken_encodeToken (h pair hpair)
    _ = pairs := List.map_id pairs

theorem phonemizeText_of_ok {voice : MeloTTSModel} {text : String}
    {sentences : List (List (String × String))} (h : voice.phoneTonePairs text = .ok sentences) :
    voice.phonemizeText text = .ok (sentences.map encodePairs) := by
  rw [MeloTTSModel.phonemizeText, h]
  rfl

/-- The string that `phonemize_text` builds of a sentence is decoded to the sentence's pairs,
and it is these that are synthesized. -/
theorem phoneme_transport_lossless (pairs : List (String × String))
    (h : ∀ pair ∈ pairs, Transportable pair) :
    decodePairs (encodePairs pairs) = pairs ∧
      ∀ (voice : MeloTTSModel) (fallback : Option SynthesisConfig) (text : String),
        voice.phoneTonePairs text = .ok [pairs] →
          voice.phonemizeText text = .ok [encodePairs pairs] ∧
            voice.speakOneSentence fallback (encodePairs pairs) =
              voice.synthesizePhoneTonePairs pairs (voice.synthesisConfig fallback) := by
  have hdecode := decodePairs_encodePairs h
  constructor
  · exact hdecode
  · intro voice fallback text hpairs
    refine ⟨phonemizeText_of_ok hpairs, ?_⟩
    rw [MeloTTSModel.speakOneSentence, hdecode]

/-- A voice whose phonemizer finds an empty phone and a phone with a colon in every text. -/
def colonVoice : MeloTTSModel where
  config :=
    { sampleRate := 44100
      phoneIdMap := ∅
      toneIdMap := ∅
      speakerIdMap := ∅
      defaultSpeakerId := none
      inference := ⟨⟨0x3F2AC083⟩, ⟨0x3F800000⟩, ⟨0x3F4CCCCD⟩⟩ }
  phoneTonePairs _ := .ok [[("", "1"), ("a:b", "_")]]
  session _ := .ok []

theorem colonVoice_transport :
    colonVoice.phonemizeText "ab" = .ok [encodePairs [("", "1"), ("a:b", "_")]] ∧
      decodePairs (encodePairs [("", "1"), ("a:b", "_")]) = [("", "1"), ("a:b", "_")] := by
  obtain ⟨hdecode, hvoice⟩ := phoneme_transport_lossless [("", "1"), ("a:b", "_")] (by
    intro pair hpair
    simp only [List.mem_cons, List.not_mem_nil, or_false] at hpair
    rcases hpair with rfl | rfl
    · exact ⟨by decide, by decide, by decide⟩
    · exact ⟨by decide, by decide, by decide⟩)
  exact ⟨(hvoice colonVoice none "ab" rfl).1, hdecode⟩

end Dengjen.Melo
