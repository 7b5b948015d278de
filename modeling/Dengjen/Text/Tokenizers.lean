import Dengjen.Kokoro.Voice
import Dengjen.Melo.Config
import Dengjen.Piper.Config

/-!
# The three phoneme tokenizers

Piper bounds its search by the longest key with the same first character,
MeloTTS and Kokoro by the longest key of all. None of the bounds is exceeded by
a key that could match, so that each loop emits the ids of the greedy
segmentation over the whole table.
-/

namespace Dengjen

open GreedySegmentation

/-- A bound on the keys that can match does not cut the search short. -/
theorem longestMatch_of_bound {idOf : String → Option Int} {current : Char} {rest : List Char}
    {bound width : Nat} {id : Int} (h : Longest (pieceId idOf) (current :: rest) width id)
    (hbound : ∀ key, key.toList.head? = some current → (idOf key).isSome →
      key.toList.length ≤ bound) :
    longestMatch idOf (min bound (rest.length + 1)) (current :: rest) = some (width, id) := by
  apply longestMatch_of_longest h _ (Nat.min_le_right _ _)
  apply Nat.le_min.mpr
  refine ⟨?_, h.le⟩
  have hsome : (idOf (String.ofList ((current :: rest).take width))).isSome :=
    Option.isSome_of_eq_some h.value
  have hhead : (String.ofList ((current :: rest).take width)).toList.head? = some current := by
    rw [String.toList_ofList, List.head?_take, if_neg h.pos.ne']
    rfl
  have hlength := hbound _ hhead hsome
  rwa [String.toList_ofList, List.length_take_of_le h.le] at hlength

theorem longestMatch_of_unmatched_cons {idOf : String → Option Int} {current : Char}
    {rest : List Char} (h : Unmatched (pieceId idOf) (current :: rest)) (bound : Nat) :
    longestMatch idOf (min bound (rest.length + 1)) (current :: rest) = none :=
  longestMatch_of_unmatched h (Nat.min_le_right _ _)

namespace Piper

/-- One key's part in the bounds. -/
def recordEntry (longest : HashMap Char Nat) (entry : String) : HashMap Char Nat :=
  match entry.toList with
  | [] => longest
  | first :: rest =>
      longest.insert first (max ((longest.lookup first).getD 0) (1 + rest.length))

theorem longestEntryByFirstChar_eq (phonemeIdMap : HashMap String (List Int)) :
    longestEntryByFirstChar phonemeIdMap = phonemeIdMap.keys.foldl recordEntry ∅ := rfl

/-- A key raises the bound of its first character to its length and lowers no bound. -/
theorem le_recordEntry (longest : HashMap Char Nat) (entry : String) (first : Char) :
    (longest.lookup first).getD 0 ≤ ((recordEntry longest entry).lookup first).getD 0 ∧
      (entry.toList.head? = some first →
        entry.toList.length ≤ ((recordEntry longest entry).lookup first).getD 0) := by
  rw [recordEntry]
  cases hchars : entry.toList with
  | nil => simp
  | cons head rest =>
      by_cases h : first = head
      · subst h
        simp only [AList.lookup_insert, Option.getD_some, List.head?_cons, List.length_cons]
        omega
      · simp only [AList.lookup_insert_ne h, List.head?_cons, Option.some.injEq]
        exact ⟨Nat.le_refl _, fun heq => absurd heq.symm h⟩

theorem le_foldl_recordEntry (entries : List String) (longest : HashMap Char Nat) (first : Char) :
    (longest.lookup first).getD 0 ≤ ((entries.foldl recordEntry longest).lookup first).getD 0 ∧
      ∀ entry ∈ entries, entry.toList.head? = some first →
        entry.toList.length ≤ ((entries.foldl recordEntry longest).lookup first).getD 0 := by
  induction entries generalizing longest with
  | nil => exact ⟨Nat.le_refl _, nofun⟩
  | cons entry entries ih =>
      obtain ⟨hle, hentry⟩ := le_recordEntry longest entry first
      obtain ⟨hle', hentries⟩ := ih (recordEntry longest entry)
      refine ⟨hle.trans hle', ?_⟩
      intro other hother hhead
      rcases List.mem_cons.mp hother with rfl | hmem
      · exact (hentry hhead).trans hle'
      · exact hentries other hmem hhead

theorem length_le_longestEntryByFirstChar {phonemeIdMap : HashMap String (List Int)}
    {first : Char} (key : String) (hhead : key.toList.head? = some first)
    (hid : (firstPhonemeId phonemeIdMap key).isSome) :
    key.toList.length ≤ ((longestEntryByFirstChar phonemeIdMap).lookup first).getD 0 := by
  have hmem : key ∈ phonemeIdMap.keys := by
    rw [← AList.mem_keys, ← AList.lookup_isSome]
    exact Option.isSome_of_isSome_bind hid
  rw [longestEntryByFirstChar_eq]
  exact (le_foldl_recordEntry phonemeIdMap.keys ∅ first).2 key hmem hhead

theorem isGreedyLoop (phonemeIdMap : HashMap String (List Int)) (padId : Int) :
    IsGreedyLoop (pieceId (firstPhonemeId phonemeIdMap)) (fun id => [id, padId])
      (mapPhonemesLoop phonemeIdMap (longestEntryByFirstChar phonemeIdMap) padId) where
  nil covered := by cases covered <;> rfl
  covered _ _ _ := rfl
  unmatched current rest h := by
    rw [mapPhonemesLoop, longestMatch_of_unmatched_cons h]
  longest current rest width id h := by
    rw [mapPhonemesLoop, longestMatch_of_bound h length_le_longestEntryByFirstChar]
    rfl

/-- Each piece's id is followed by a pad, between the ids of the start and the end. -/
theorem mapPhonemesToIds_eq {phonemeIdMap : HashMap String (List Int)} {phonemes : String}
    {segments : List (List Char × Int)}
    (h : Segments (pieceId (firstPhonemeId phonemeIdMap)) phonemes.toList segments)
    (padId bosId eosId : Int) :
    mapPhonemesToIds phonemeIdMap phonemes padId bosId eosId =
      bosId :: (segments.flatMap fun segment => [segment.2, padId]) ++ [eosId] := by
  rw [mapPhonemesToIds, (isGreedyLoop phonemeIdMap padId).loop_eq h]

/-- Every other id of a list. -/
def unpadded : List Int → List Int
  | id :: _ :: rest => id :: unpadded rest
  | _ => []

/-- The ids of a sentence without its frame and its pads. -/
def unframed (ids : List Int) : List Int := unpadded ids.tail.dropLast

theorem unpadded_flatMap (segments : List (List Char × Int)) (padId : Int) :
    unpadded (segments.flatMap fun segment => [segment.2, padId]) = segments.map Prod.snd := by
  induction segments with
  | nil => rfl
  | cons segment segments ih =>
      rw [List.flatMap_cons, List.map_cons, ← ih]
      rfl

theorem unframed_mapPhonemesToIds {phonemeIdMap : HashMap String (List Int)} {phonemes : String}
    {segments : List (List Char × Int)}
    (h : Segments (pieceId (firstPhonemeId phonemeIdMap)) phonemes.toList segments)
    (padId bosId eosId : Int) :
    unframed (mapPhonemesToIds phonemeIdMap phonemes padId bosId eosId) =
      segments.map Prod.snd := by
  rw [unframed, mapPhonemesToIds_eq h, List.cons_append, List.tail_cons, List.dropLast_concat,
    unpadded_flatMap]

end Piper

namespace Melo

theorem length_le_longestEntry {phoneIdMap : HashMap String (List Int)} (key : String)
    (hid : (firstPhoneId phoneIdMap key).isSome) :
    key.toList.length ≤ longestEntry phoneIdMap := by
  have hmem : key ∈ phoneIdMap.keys := by
    rw [← AList.mem_keys, ← AList.lookup_isSome]
    exact Option.isSome_of_isSome_bind hid
  apply Nat.le_trans _ (Nat.le_max_left _ _)
  exact List.le_max?_getD_of_mem (List.mem_map_of_mem hmem)

theorem isGreedyLoop (phoneIdMap : HashMap String (List Int)) (toneId blankId blankTone : Int) :
    IsGreedyLoop (pieceId (firstPhoneId phoneIdMap)) (fun id => [id, blankId])
      fun chars covered =>
        (mapChunkLoop phoneIdMap (longestEntry phoneIdMap) toneId blankId blankTone chars
          covered).1 where
  nil covered := by cases covered <;> rfl
  covered _ _ _ := rfl
  unmatched current rest h := by
    rw [mapChunkLoop, longestMatch_of_unmatched_cons h]
  longest current rest width id h := by
    rw [mapChunkLoop, longestMatch_of_bound h fun key _ => length_le_longestEntry key]
    rfl

/-- The phone ids of one pair are Piper's ids of its phone. -/
theorem mapPhoneTonePairsToIds_singleton {phoneIdMap : HashMap String (List Int)}
    {phone : String} {segments : List (List Char × Int)}
    (h : Segments (pieceId (firstPhoneId phoneIdMap)) phone.toList segments)
    (toneIdMap : HashMap String Int) (tone : String) :
    (mapPhoneTonePairsToIds phoneIdMap toneIdMap [(phone, tone)]).1 =
      (firstPhoneId phoneIdMap "^").getD 0 ::
        (segments.flatMap fun segment => [segment.2, (firstPhoneId phoneIdMap "_").getD 0]) ++
        [(firstPhoneId phoneIdMap "$").getD 0] := by
  have hloop := (isGreedyLoop phoneIdMap
    ((toneIdMap.lookup tone).getD ((toneIdMap.lookup "_").getD 0))
    ((firstPhoneId phoneIdMap "_").getD 0) ((toneIdMap.lookup "_").getD 0)).loop_eq h
  simp only [mapPhoneTonePairsToIds, List.map_cons, List.map_nil, List.flatten_cons,
    List.flatten_nil, List.append_nil]
  rw [hloop]

end Melo

namespace Kokoro

/-- No key of the vocabulary is longer than the search goes. -/
def Vocab.Bounded (vocab : Vocab) : Prop :=
  ∀ key, (vocab.map.lookup key).isSome → key.toList.length ≤ vocab.maxTokenChars

theorem Vocab.load_ok {vocabPath : String} {map : HashMap String Int} {vocab : Vocab}
    (h : Vocab.load vocabPath map = .ok vocab) :
    vocab.map = map ∧ map.lookup "$" = some vocab.bosId ∧ vocab.Bounded := by
  rw [Vocab.load] at h
  split at h
  · next bosId hbos =>
      cases h
      refine ⟨rfl, hbos, ?_⟩
      intro key hkey
      have hmem : key ∈ map.keys := by rwa [← AList.mem_keys, ← AList.lookup_isSome]
      exact List.le_max?_getD_of_mem (List.mem_map_of_mem hmem)
  · cases h

theorem isGreedyLoop {vocab : Vocab} (hbounded : vocab.Bounded) :
    IsGreedyLoop (pieceId vocab.map.lookup) (fun id => [id]) vocab.tokenizeLoop where
  nil covered := by cases covered <;> rfl
  covered _ _ _ := rfl
  unmatched current rest h := by
    rw [Vocab.tokenizeLoop, longestMatch_of_unmatched_cons h]
  longest current rest width id h := by
    rw [Vocab.tokenizeLoop, longestMatch_of_bound h fun key _ => hbounded key]
    rfl

theorem Vocab.tokenize_eq {vocab : Vocab} (hbounded : vocab.Bounded) {phonemes : String}
    {segments : List (List Char × Int)}
    (h : Segments (pieceId vocab.map.lookup) phonemes.toList segments) :
    vocab.tokenize phonemes = segments.map Prod.snd := by
  rw [Vocab.tokenize, (isGreedyLoop hbounded).loop_eq h, ← List.map_eq_flatMap]

end Kokoro

/-- Every phoneme string has one greedy segmentation over a table, and the three tokenizers
emit its ids: Piper with a pad behind each, MeloTTS the same on one pair, and Kokoro bare. -/
theorem tokenizers_agree (phonemeIdMap : HashMap String (List Int)) (phonemes : String) :
    ∃ segments, Segments (pieceId (Piper.firstPhonemeId phonemeIdMap)) phonemes.toList segments ∧
      (∀ other, Segments (pieceId (Piper.firstPhonemeId phonemeIdMap)) phonemes.toList other →
        other = segments) ∧
      (∀ padId bosId eosId,
        Piper.mapPhonemesToIds phonemeIdMap phonemes padId bosId eosId =
          bosId :: (segments.flatMap fun segment => [segment.2, padId]) ++ [eosId]) ∧
      (∀ toneIdMap tone,
        (Melo.mapPhoneTonePairsToIds phonemeIdMap toneIdMap [(phonemes, tone)]).1 =
          Piper.mapPhonemesToIds phonemeIdMap phonemes
            ((Melo.firstPhoneId phonemeIdMap "_").getD 0)
            ((Melo.firstPhoneId phonemeIdMap "^").getD 0)
            ((Melo.firstPhoneId phonemeIdMap "$").getD 0)) ∧
      (∀ vocabPath map vocab padId bosId eosId, Kokoro.Vocab.load vocabPath map = .ok vocab →
        (∀ key, phonemeIdMap.lookup key = (map.lookup key).map fun id => [id]) →
        Piper.unframed (Piper.mapPhonemesToIds phonemeIdMap phonemes padId bosId eosId) =
          vocab.tokenize phonemes) := by
  obtain ⟨segments, hsegments⟩ :=
    exists_segments (pieceId (Piper.firstPhonemeId phonemeIdMap)) phonemes.toList
  refine ⟨segments, hsegments, fun other hother => hother.unique hsegments,
    Piper.mapPhonemesToIds_eq hsegments, ?_, ?_⟩
  · intro toneIdMap tone
    rw [Melo.mapPhoneTonePairsToIds_singleton hsegments, Piper.mapPhonemesToIds_eq hsegments]
  · intro vocabPath map vocab padId bosId eosId hload hsingle
    obtain ⟨rfl, -, hbounded⟩ := Kokoro.Vocab.load_ok hload
    have htable : pieceId (Piper.firstPhonemeId phonemeIdMap) = pieceId vocab.map.lookup := by
      funext piece
      simp only [pieceId, Piper.firstPhonemeId, hsingle]
      cases vocab.map.lookup (String.ofList piece) <;> rfl
    have hpieces := Piper.unframed_mapPhonemesToIds hsegments padId bosId eosId
    have htokens := Kokoro.Vocab.tokenize_eq hbounded (htable ▸ hsegments)
    rw [hpieces, htokens]

/-- A vocabulary with overlapping keys. -/
def overlappingVocab : HashMap String Int :=
  HashMap.fromIter [("$", 0), ("a", 1), ("ab", 2), ("b", 3)]

theorem overlappingVocab_tokenized :
    ∃ vocab, Kokoro.Vocab.load "tokenizer.json" overlappingVocab = .ok vocab ∧
      Piper.unframed (Piper.mapPhonemesToIds
          (HashMap.fromIter [("$", [0]), ("a", [1]), ("ab", [2]), ("b", [3])]) "aabcb" 7 8 9) =
        vocab.tokenize "aabcb" := by
  obtain ⟨-, -, -, -, -, hkokoro⟩ := tokenizers_agree
    (HashMap.fromIter [("$", [0]), ("a", [1]), ("ab", [2]), ("b", [3])]) "aabcb"
  refine ⟨_, rfl, hkokoro "tokenizer.json" overlappingVocab _ 7 8 9 rfl ?_⟩
  intro key
  simp only [overlappingVocab, HashMap.lookup_fromIter, List.reverse_cons, List.reverse_nil,
    List.nil_append, List.cons_append, List.findSome?_cons, List.findSome?_nil]
  split_ifs <;> rfl

end Dengjen
