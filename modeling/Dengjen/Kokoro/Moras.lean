import Mathlib.Data.List.Basic

/-!
# Japanese moras

A pronunciation in kana is cut into moras, each a key of a table that gives its
phonemes. A kana that continues the last mora is joined to it.
-/

namespace Dengjen.Kokoro

/-- The rows of `mora_phonemes`. -/
def moraTable : List (List Char × List Char) := [
  (['ァ'], ['a']), (['ア'], ['a']), (['ィ'], ['i']), (['イ'], ['i']), (['イ', 'ェ'], ['j', 'e']),
  (['ゥ'], ['u']), (['ウ'], ['u']), (['ウ', 'ィ'], ['w', 'i']), (['ウ', 'ゥ'], ['w', 'u']),
  (['ウ', 'ェ'], ['w', 'e']), (['ウ', 'ォ'], ['w', 'o']), (['ェ'], ['e']), (['エ'], ['e']),
  (['ォ'], ['o']), (['オ'], ['o']), (['カ'], ['k', 'a']), (['ガ'], ['g', 'a']),
  (['キ'], ['k', 'i']), (['キ', 'ィ'], ['ᶄ', 'i']), (['キ', 'ェ'], ['ᶄ', 'e']),
  (['キ', 'ャ'], ['ᶄ', 'a']), (['キ', 'ュ'], ['ᶄ', 'u']), (['キ', 'ョ'], ['ᶄ', 'o']),
  (['ギ'], ['g', 'i']), (['ギ', 'ィ'], ['ᶃ', 'i']), (['ギ', 'ェ'], ['ᶃ', 'e']),
  (['ギ', 'ャ'], ['ᶃ', 'a']), (['ギ', 'ュ'], ['ᶃ', 'u']), (['ギ', 'ョ'], ['ᶃ', 'o']),
  (['ク'], ['k', 'u']), (['ク', 'ァ'], ['K', 'a']), (['ク', 'ィ'], ['K', 'i']),
  (['ク', 'ゥ'], ['K', 'u']), (['ク', 'ェ'], ['K', 'e']), (['ク', 'ォ'], ['K', 'o']),
  (['ク', 'ヮ'], ['K', 'a']), (['グ'], ['g', 'u']), (['グ', 'ァ'], ['G', 'a']),
  (['グ', 'ィ'], ['G', 'i']), (['グ', 'ゥ'], ['G', 'u']), (['グ', 'ェ'], ['G', 'e']),
  (['グ', 'ォ'], ['G', 'o']), (['グ', 'ヮ'], ['G', 'a']), (['ケ'], ['k', 'e']), (['ゲ'], ['g', 'e']),
  (['コ'], ['k', 'o']), (['ゴ'], ['g', 'o']), (['サ'], ['s', 'a']), (['ザ'], ['z', 'a']),
  (['シ'], ['ɕ', 'i']), (['シ', 'ェ'], ['ɕ', 'e']), (['シ', 'ャ'], ['ɕ', 'a']),
  (['シ', 'ュ'], ['ɕ', 'u']), (['シ', 'ョ'], ['ɕ', 'o']), (['ジ'], ['ʥ', 'i']),
  (['ジ', 'ェ'], ['ʥ', 'e']), (['ジ', 'ャ'], ['ʥ', 'a']), (['ジ', 'ュ'], ['ʥ', 'u']),
  (['ジ', 'ョ'], ['ʥ', 'o']), (['ス'], ['s', 'u']), (['ス', 'ィ'], ['s', 'i']), (['ズ'], ['z', 'u']),
  (['ズ', 'ィ'], ['z', 'i']), (['セ'], ['s', 'e']), (['ゼ'], ['z', 'e']), (['ソ'], ['s', 'o']),
  (['ゾ'], ['z', 'o']), (['タ'], ['t', 'a']), (['ダ'], ['d', 'a']), (['チ'], ['ʨ', 'i']),
  (['チ', 'ェ'], ['ʨ', 'e']), (['チ', 'ャ'], ['ʨ', 'a']), (['チ', 'ュ'], ['ʨ', 'u']),
  (['チ', 'ョ'], ['ʨ', 'o']), (['ヂ'], ['ʥ', 'i']), (['ヂ', 'ェ'], ['ʥ', 'e']),
  (['ヂ', 'ャ'], ['ʥ', 'a']), (['ヂ', 'ュ'], ['ʥ', 'u']), (['ヂ', 'ョ'], ['ʥ', 'o']), (['ッ'], ['ʔ']),
  (['ツ'], ['ʦ', 'u']), (['ツ', 'ァ'], ['ʦ', 'a']), (['ツ', 'ィ'], ['ʦ', 'i']),
  (['ツ', 'ェ'], ['ʦ', 'e']), (['ツ', 'ォ'], ['ʦ', 'o']), (['ヅ'], ['z', 'u']), (['テ'], ['t', 'e']),
  (['テ', 'ィ'], ['t', 'i']), (['テ', 'ェ'], ['ƫ', 'e']), (['テ', 'ャ'], ['ƫ', 'a']),
  (['テ', 'ュ'], ['ƫ', 'u']), (['テ', 'ョ'], ['ƫ', 'o']), (['デ'], ['d', 'e']),
  (['デ', 'ィ'], ['d', 'i']), (['デ', 'ェ'], ['ᶁ', 'e']), (['デ', 'ャ'], ['ᶁ', 'a']),
  (['デ', 'ュ'], ['ᶁ', 'u']), (['デ', 'ョ'], ['ᶁ', 'o']), (['ト'], ['t', 'o']),
  (['ト', 'ゥ'], ['t', 'u']), (['ド'], ['d', 'o']), (['ド', 'ゥ'], ['d', 'u']), (['ナ'], ['n', 'a']),
  (['ニ'], ['n', 'i']), (['ニ', 'ィ'], ['ɲ', 'i']), (['ニ', 'ェ'], ['ɲ', 'e']),
  (['ニ', 'ャ'], ['ɲ', 'a']), (['ニ', 'ュ'], ['ɲ', 'u']), (['ニ', 'ョ'], ['ɲ', 'o']),
  (['ヌ'], ['n', 'u']), (['ネ'], ['n', 'e']), (['ノ'], ['n', 'o']), (['ハ'], ['h', 'a']),
  (['バ'], ['b', 'a']), (['パ'], ['p', 'a']), (['ヒ'], ['h', 'i']), (['ヒ', 'ィ'], ['ç', 'i']),
  (['ヒ', 'ェ'], ['ç', 'e']), (['ヒ', 'ャ'], ['ç', 'a']), (['ヒ', 'ュ'], ['ç', 'u']),
  (['ヒ', 'ョ'], ['ç', 'o']), (['ビ'], ['b', 'i']), (['ビ', 'ィ'], ['ᶀ', 'i']),
  (['ビ', 'ェ'], ['ᶀ', 'e']), (['ビ', 'ャ'], ['ᶀ', 'a']), (['ビ', 'ュ'], ['ᶀ', 'u']),
  (['ビ', 'ョ'], ['ᶀ', 'o']), (['ピ'], ['p', 'i']), (['ピ', 'ィ'], ['ᶈ', 'i']),
  (['ピ', 'ェ'], ['ᶈ', 'e']), (['ピ', 'ャ'], ['ᶈ', 'a']), (['ピ', 'ュ'], ['ᶈ', 'u']),
  (['ピ', 'ョ'], ['ᶈ', 'o']), (['フ'], ['f', 'u']), (['フ', 'ァ'], ['f', 'a']),
  (['フ', 'ィ'], ['f', 'i']), (['フ', 'ェ'], ['f', 'e']), (['フ', 'ォ'], ['f', 'o']),
  (['ブ'], ['b', 'u']), (['プ'], ['p', 'u']), (['ヘ'], ['h', 'e']), (['ベ'], ['b', 'e']),
  (['ペ'], ['p', 'e']), (['ホ'], ['h', 'o']), (['ボ'], ['b', 'o']), (['ポ'], ['p', 'o']),
  (['マ'], ['m', 'a']), (['ミ'], ['m', 'i']), (['ミ', 'ィ'], ['ᶆ', 'i']), (['ミ', 'ェ'], ['ᶆ', 'e']),
  (['ミ', 'ャ'], ['ᶆ', 'a']), (['ミ', 'ュ'], ['ᶆ', 'u']), (['ミ', 'ョ'], ['ᶆ', 'o']),
  (['ム'], ['m', 'u']), (['メ'], ['m', 'e']), (['モ'], ['m', 'o']), (['ャ'], ['j', 'a']),
  (['ヤ'], ['j', 'a']), (['ュ'], ['j', 'u']), (['ユ'], ['j', 'u']), (['ョ'], ['j', 'o']),
  (['ヨ'], ['j', 'o']), (['ラ'], ['r', 'a']), (['リ'], ['r', 'i']), (['リ', 'ィ'], ['ᶉ', 'i']),
  (['リ', 'ェ'], ['ᶉ', 'e']), (['リ', 'ャ'], ['ᶉ', 'a']), (['リ', 'ュ'], ['ᶉ', 'u']),
  (['リ', 'ョ'], ['ᶉ', 'o']), (['ル'], ['r', 'u']), (['レ'], ['r', 'e']), (['ロ'], ['r', 'o']),
  (['ヮ'], ['w', 'a']), (['ワ'], ['w', 'a']), (['ヰ'], ['i']), (['ヱ'], ['e']), (['ヲ'], ['o']),
  (['ン'], ['ɴ']), (['ヴ'], ['v', 'u']), (['ヴ', 'ァ'], ['v', 'a']), (['ヴ', 'ィ'], ['v', 'i']),
  (['ヴ', 'ェ'], ['v', 'e']), (['ヴ', 'ォ'], ['v', 'o']), (['ヴ', 'ャ'], ['ᶀ', 'a']),
  (['ヴ', 'ュ'], ['ᶀ', 'u']), (['ヴ', 'ョ'], ['ᶀ', 'o']), (['ヵ'], ['k', 'a']), (['ヶ'], ['k', 'e']),
  (['ヷ'], ['v', 'a']), (['ヸ'], ['v', 'i']), (['ヹ'], ['v', 'e']), (['ヺ'], ['v', 'o']),
  (['ー'], ['ː'])]

/-- The phonemes of a mora. -/
def moraPhonemes (mora : List Char) : Option (List Char) := moraTable.lookup mora

/-- One kana of a pronunciation. -/
def pushKana (moras : List (List Char)) (c : Char) : List (List Char) :=
  match moras.getLast? with
  | some last =>
      if (moraPhonemes (last ++ [c])).isSome then moras.dropLast ++ [last ++ [c]]
      else moras ++ [[c]]
  | none => moras ++ [[c]]

/-- The moras of a reading. -/
def pronToMoras (pron : List Char) : List (List Char) :=
  (pron.filter fun c => (moraPhonemes [c]).isSome).foldl pushKana []

/-- The phonemes of moras; those that have none are passed over. -/
def morasToPhonemes (moras : List (List Char)) : List Char :=
  (moras.filterMap moraPhonemes).flatten

/-- The sounds that a mora may end in. -/
def isTail (c : Char) : Bool :=
  c = 'a' || c = 'e' || c = 'i' || c = 'o' || c = 'u' || c = 'ʔ' || c = 'ɴ' || c = 'ː'

theorem exists_row_of_moraPhonemes {mora phonemes : List Char}
    (h : moraPhonemes mora = some phonemes) : (mora, phonemes) ∈ moraTable := by
  obtain ⟨before, after, htable, -⟩ := List.lookup_eq_some_iff.mp h
  rw [htable]
  exact List.mem_append_right before List.mem_cons_self

theorem isSome_of_mem_pushKana {moras : List (List Char)} {c : Char}
    (hmoras : ∀ mora ∈ moras, (moraPhonemes mora).isSome) (hc : (moraPhonemes [c]).isSome) :
    ∀ mora ∈ pushKana moras c, (moraPhonemes mora).isSome := by
  have hpush : ∀ mora ∈ moras ++ [[c]], (moraPhonemes mora).isSome := by
    rw [List.forall_mem_append, List.forall_mem_singleton]
    exact ⟨hmoras, hc⟩
  rw [pushKana]
  split
  · rename_i last hlast
    split
    · rename_i hjoined
      rw [List.forall_mem_append, List.forall_mem_singleton]
      exact ⟨fun mora hmora => hmoras mora (List.dropLast_subset moras hmora), hjoined⟩
    · exact hpush
  · exact hpush

/-- Every mora of a pronunciation has phonemes. -/
theorem isSome_of_mem_pronToMoras (pron : List Char) :
    ∀ mora ∈ pronToMoras pron, (moraPhonemes mora).isSome := by
  have hfold : ∀ kana : List Char, (∀ c ∈ kana, (moraPhonemes [c]).isSome) →
      ∀ moras : List (List Char), (∀ mora ∈ moras, (moraPhonemes mora).isSome) →
        ∀ mora ∈ kana.foldl pushKana moras, (moraPhonemes mora).isSome := by
    intro kana hkana
    induction kana with
    | nil => exact fun _ hmoras => hmoras
    | cons c kana ih =>
        rw [List.forall_mem_cons] at hkana
        intro moras hmoras
        exact ih hkana.2 _ (isSome_of_mem_pushKana hmoras hkana.1)
  exact hfold _ (fun c hc => (List.mem_filter.mp hc).2) [] (List.forall_mem_nil _)

theorem exists_row_of_mem_phonemes {moras : List (List Char)} {c : Char}
    (h : c ∈ morasToPhonemes moras) : ∃ row ∈ moraTable, c ∈ row.2 := by
  obtain ⟨phonemes, hphonemes, hc⟩ := List.mem_flatten.mp h
  obtain ⟨mora, -, hmora⟩ := List.mem_filterMap.mp hphonemes
  exact ⟨_, exists_row_of_moraPhonemes hmora, hc⟩

/-- Moras are heard. -/
theorem morasToPhonemes_ne_nil {pron : List Char} (h : pronToMoras pron ≠ []) :
    morasToPhonemes (pronToMoras pron) ≠ [] := by
  obtain ⟨mora, rest, hmoras⟩ := List.exists_cons_of_ne_nil h
  have hsome := isSome_of_mem_pronToMoras pron mora (hmoras ▸ List.mem_cons_self)
  obtain ⟨phonemes, hphonemes⟩ := Option.isSome_iff_exists.mp hsome
  have hvalues : ∀ row ∈ moraTable, row.2 ≠ [] := by decide +kernel
  have hne := hvalues _ (exists_row_of_moraPhonemes hphonemes)
  rw [hmoras, morasToPhonemes, List.filterMap_cons_some hphonemes, List.flatten_cons]
  exact List.append_ne_nil_of_left_ne_nil hne _

end Dengjen.Kokoro
