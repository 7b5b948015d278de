import Dengjen.Core.Texts
import Dengjen.Espeak.Phonemize
import Dengjen.Pinyin.G2pw
import Dengjen.Text.Inference
import Mathlib.Data.String.Basic

/-!
# The readings of the Chinese characters

The dictionary of the polyphonic characters gives a line for each reading of a
character. The labels of g2pW are these readings in order, and the candidates of a
character are the labels of its own. What the model predicts is a label of the
characters it is asked about, as long as it does not prefer another one.

## Implementation notes

The files of a model directory are read through parameters, and so is the parsing of
JSON. The parsed map is iterated in its own order.
-/

namespace Dengjen.Pinyin

open Espeak (lines)

/-! ## The dictionaries -/

/-- The readings of characters, and the pairs of those with several. -/
structure Dictionaries where
  monophonic : HashMap Char String
  charBopomofo : HashMap Char String
  polyphonicChars : List (Char × String)

/-- The files of the directory of a model, with how a path in it is displayed. -/
structure ModelDir where
  join : String → String
  readToString : String → Except String (List Char)
  parseReadings : List Char → Except String (HashMap String (List String))
  parsePinyin : List Char → Except String (HashMap String String)

/-- The error of a file that cannot be read. -/
def readError (path : String) (cause : String) : DengjenError :=
  .phonemizationError s!"Failed to read pinyin dictionary file {path}: {cause}"

/-- The first character before the tab, and all that is behind the tab. -/
def readPair (tables : CharTables) (path : String) (line : List Char) :
    DengjenResult (Char × String) :=
  match line.takeWhile (· ≠ '\t') with
  | [] => .error (.phonemizationError s!"Malformed line in {path}: {tables.debug line}")
  | c :: _ => .ok (c, String.ofList (line.dropWhile (· ≠ '\t')).tail)

/-- The pairs of a file's lines, of which blank ones are passed over. -/
def readTabSeparatedCharStringPairs (tables : CharTables) (dir : ModelDir) (path : String) :
    DengjenResult (List (Char × String)) := do
  let content ← (dir.readToString path).mapError (readError (dir.join path))
  ((lines content).filter fun line => !line.all isWhitespace).mapM (readPair tables (dir.join path))

/-- The first reading of the first character of a key. -/
def firstReading (entry : String × List String) : Option (Char × String) := do
  let c ← entry.1.toList.head?
  let first ← entry.2.head?
  return (c, first)

/-- The dictionaries of three files. -/
def loadDictionaries (tables : CharTables) (dir : ModelDir)
    (monophonicPath polyphonicPath charBopomofoPath : String) : DengjenResult Dictionaries := do
  let monophonic ← readTabSeparatedCharStringPairs tables dir monophonicPath
  let polyphonicChars ← readTabSeparatedCharStringPairs tables dir polyphonicPath
  let raw ← (dir.readToString charBopomofoPath).mapError (readError (dir.join charBopomofoPath))
  let parsed ← (dir.parseReadings raw).mapError (readError (dir.join charBopomofoPath))
  return {
    monophonic := HashMap.fromIter monophonic
    charBopomofo := HashMap.fromIter (parsed.iter.filterMap firstReading)
    polyphonicChars }

/-! ## The labels -/

/-- The readings of all characters, in order and each of them once. -/
def phonemeLabels (polyphonicChars : List (Char × String)) : List String :=
  (polyphonicChars.map Prod.snd).dedup.mergeSort (· ≤ ·)

/-- One more reading of a character, by its index. -/
def pushCandidate (labels : List String) (char2phonemes : HashMap Char (List Nat))
    (entry : Char × String) : HashMap Char (List Nat) :=
  match labels.idxOf? entry.2 with
  | some index =>
      char2phonemes.insert entry.1 ((char2phonemes.lookup entry.1).getD [] ++ [index])
  | none => char2phonemes

/-- The labels and the readings of each character. -/
def getPhonemeLabels (polyphonicChars : List (Char × String)) :
    List String × HashMap Char (List Nat) :=
  let labels := phonemeLabels polyphonicChars
  (labels, polyphonicChars.foldl (pushCandidate labels) ∅)

/-- The reading of a character that has one. -/
def resolveCharDictionaryOnly (dictionaries : Dictionaries) (c : Char) : Option String :=
  (dictionaries.monophonic.lookup c).or (dictionaries.charBopomofo.lookup c)

/-! ## The prediction -/

/-- The error of a session, or of what it answers. -/
def inferenceError (cause : String) : DengjenError :=
  .inferenceError s!"g2pW inference failed: {cause}"

/-- The label of the greatest score, where the tensor has one row with a score for each label. -/
def predictedLabel (debugShape : List Int → String) (labels : List String) (tensor : OutputTensor) :
    DengjenResult String :=
  match tensor.shape with
  | [batch, labelDim] =>
      if batch ≠ 1 then
        .error (inferenceError
          s!"expected batch size 1, model produced shape {debugShape tensor.shape}")
      else if labelDim < 0 then
        .error (inferenceError s!"invalid label dimension in shape {debugShape tensor.shape}")
      else if labelDim.toNat ≠ labels.length ∨ tensor.data.length < labelDim.toNat then
        .error (inferenceError (s!"g2pW model output width {labelDim.toNat} " ++
          s!"(probs len {tensor.data.length}) does not match the " ++
          s!"configured label count {labels.length}"))
      else
        match argmax (tensor.data.take labelDim.toNat) with
        | none => .error (inferenceError "empty prediction output")
        | some predicted =>
            match labels[predicted]? with
            | some label => .ok label
            | none => .error (inferenceError s!"predicted label index {predicted} out of range")
  | _ => .error (inferenceError
      s!"expected a rank-2 (batch, num_labels) output tensor, got shape {debugShape tensor.shape}")

/-- What `resolve_polyphonic` makes of what the session returns. -/
def readOutputs (debugShape : List Int → String) (labels : List String)
    (outputs : Except String (List (Except String OutputTensor))) : DengjenResult String := do
  match ← outputs.mapError inferenceError with
  | [] => .error (inferenceError "model produced no output tensors")
  | first :: _ => predictedLabel debugShape labels (← first.mapError inferenceError)

/-! ## Resolving a character -/

/-- The model, its session and the dictionaries. -/
structure PinyinEngine where
  g2pw : G2pwEngine
  session : OrtSession G2pwEngine.ModelInputs
  dictionaries : Dictionaries
  bopomofoToPinyin : HashMap String String

namespace PinyinEngine

variable (tables : CharTables) (engine : PinyinEngine)

/-- The reading of a character that has several. -/
def resolvePolyphonic (chars : List Char) (queryCharIndex : Nat) : DengjenResult String :=
  engine.g2pw.resolvePolyphonic tables
    (fun inputs => readOutputs engine.session.debugShape engine.g2pw.config.labels
      (engine.session.run inputs)) chars queryCharIndex

/-- The reading of a character, if it has any. -/
def resolveChar (chars : List Char) (charIndex : Nat) : DengjenResult (Option String) :=
  match chars[charIndex]? with
  | none => .error (.phonemizationError
      s!"char_index {charIndex} is out of bounds for a sentence of {chars.length} characters")
  | some c =>
      if engine.g2pw.config.isPolyphonic c then do
        return some (← engine.resolvePolyphonic tables chars charIndex)
      else .ok (resolveCharDictionaryOnly engine.dictionaries c)

end PinyinEngine

/-- The error of an engine that cannot be made. -/
def loadError (cause : String) : DengjenError :=
  .phonemizationError s!"Failed to load pinyin phonemizer model files: {cause}"

/-- `create_pinyin_engine`, with the session and the tokenizer that are loaded for it. -/
def createPinyinEngine (tables : CharTables) (dir : ModelDir)
    (loaded : DengjenResult (OrtSession G2pwEngine.ModelInputs × Tokenizer)) :
    DengjenResult PinyinEngine := do
  let dictionaries ← loadDictionaries tables dir "MONOPHONIC_CHARS.txt" "POLYPHONIC_CHARS.txt"
    "char_bopomofo_dict.json"
  let (labels, char2phonemes) := getPhonemeLabels dictionaries.polyphonicChars
  let (session, tokenizer) ← loaded
  let raw ← (dir.readToString "bopomofo_to_pinyin_wo_tune_dict.json").mapError loadError
  let bopomofoToPinyin ← (dir.parsePinyin raw).mapError loadError
  return {
    g2pw := pinyinEngine tokenizer labels char2phonemes
    session, dictionaries, bopomofoToPinyin }

/-! ## Labels and candidates -/

/-- The readings that the lines of a character give, in the order of the lines. -/
def readings (polyphonicChars : List (Char × String)) (c : Char) : List String :=
  (polyphonicChars.filter fun entry => entry.1 = c).map Prod.snd

variable {polyphonicChars : List (Char × String)} {labels : List String} {c : Char}

theorem mem_phonemeLabels {label : String} :
    label ∈ phonemeLabels polyphonicChars ↔ ∃ c, label ∈ readings polyphonicChars c := by
  rw [phonemeLabels, List.mem_mergeSort, List.mem_dedup]
  constructor
  · intro h
    obtain ⟨entry, hentry, rfl⟩ := List.mem_map.mp h
    exact ⟨entry.1, List.mem_map_of_mem (List.mem_filter.mpr ⟨hentry, by simp⟩)⟩
  · rintro ⟨c, h⟩
    obtain ⟨entry, hentry, rfl⟩ := List.mem_map.mp h
    exact List.mem_map_of_mem (List.mem_of_mem_filter hentry)

theorem sortedLT_phonemeLabels (polyphonicChars : List (Char × String)) :
    (phonemeLabels polyphonicChars).SortedLT :=
  List.sortedLE_mergeSort.sortedLT_of_nodup
    ((List.mergeSort_perm _ _).nodup_iff.mpr (List.nodup_dedup _))

theorem sortedLT_chars (labels : List String) (char2phonemes : HashMap Char (List Nat)) :
    (pinyinConfig labels char2phonemes).chars.SortedLT :=
  List.sortedLE_mergeSort.sortedLT_of_nodup
    ((List.mergeSort_perm _ _).nodup_iff.mpr char2phonemes.nodupKeys)

/-- A line adds the label of its reading to the candidates of its character. -/
theorem lookup_pushCandidate {char2phonemes : HashMap Char (List Nat)} {entry : Char × String}
    (hlabel : entry.2 ∈ labels) : (pushCandidate labels char2phonemes entry).lookup c =
      if entry.1 = c then
        some ((char2phonemes.lookup c).getD [] ++ [labels.idxOf entry.2])
      else char2phonemes.lookup c := by
  have hindex : labels.idxOf? entry.2 = some (labels.idxOf entry.2) := by
    obtain ⟨index, hindex⟩ := Option.isSome_iff_exists.mp (List.isSome_idxOf?.mpr hlabel)
    rw [List.idxOf_eq_getD_idxOf?, hindex]
    rfl
  rw [pushCandidate, hindex]
  dsimp only
  by_cases h : entry.1 = c
  · rw [if_pos h, ← h, AList.lookup_insert]
  · rw [if_neg h, AList.lookup_insert_ne (Ne.symm h)]

theorem lookup_foldl_pushCandidate {entries : List (Char × String)}
    (char2phonemes : HashMap Char (List Nat)) (h : ∀ entry ∈ entries, entry.2 ∈ labels) :
    (entries.foldl (pushCandidate labels) char2phonemes).lookup c =
      if readings entries c = [] then char2phonemes.lookup c
      else some ((char2phonemes.lookup c).getD [] ++ (readings entries c).map labels.idxOf) := by
  induction entries generalizing char2phonemes with
  | nil => rfl
  | cons entry rest ih =>
      obtain ⟨hlabel, hrest⟩ := List.forall_mem_cons.mp h
      rw [List.foldl_cons, ih _ hrest, lookup_pushCandidate hlabel]
      by_cases hentry : entry.1 = c
      · have hreadings : readings (entry :: rest) c = entry.2 :: readings rest c := by
          simp [readings, hentry]
        by_cases hnil : readings rest c = []
        · simp [hreadings, hentry, hnil]
        · simp [hreadings, hentry, hnil]
      · have hreadings : readings (entry :: rest) c = readings rest c := by
          simp [readings, hentry]
        simp [hreadings, hentry]

/-- A character is polyphonic when it has a line, and its candidates are its readings. -/
theorem lookup_getPhonemeLabels (polyphonicChars : List (Char × String)) (c : Char) :
    (getPhonemeLabels polyphonicChars).2.lookup c =
      if readings polyphonicChars c = [] then none
      else some ((readings polyphonicChars c).map (phonemeLabels polyphonicChars).idxOf) := by
  have hlabels : ∀ entry ∈ polyphonicChars, entry.2 ∈ phonemeLabels polyphonicChars := by
    intro entry hentry
    exact mem_phonemeLabels.mpr
      ⟨entry.1, List.mem_map_of_mem (List.mem_filter.mpr ⟨hentry, by simp⟩)⟩
  rw [getPhonemeLabels, lookup_foldl_pushCandidate ∅ hlabels]
  simp

/-! ## The mask -/

theorem getElem?_foldl_set (candidates : List Nat) (mask : List F32) (j : Nat) :
    (candidates.foldl (fun mask c => mask.set c one) mask)[j]? =
      if j ∈ candidates then mask[j]?.map fun _ => one else mask[j]? := by
  induction candidates generalizing mask with
  | nil => simp
  | cons candidate rest ih =>
      rw [List.foldl_cons, ih, List.getElem?_set]
      by_cases hcandidate : candidate = j
      · subst hcandidate
        by_cases hlt : candidate < mask.length
        · simp [hlt]
        · simp [hlt]
      · simp [hcandidate, Ne.symm hcandidate]

/-- The mask has a one at the candidates, and a zero at every other label. -/
theorem getElem?_buildPhonemeMask {candidates : List Nat} {j : Nat} (hj : j < labels.length) :
    (buildPhonemeMask labels candidates)[j]? = some (if j ∈ candidates then one else zero) := by
  rw [buildPhonemeMask, getElem?_foldl_set, List.getElem?_replicate, if_pos hj]
  split
  · rfl
  · rfl

/-! ## The answer of the model -/

/-- The tensor is one row with a score for each label, and this one has the greatest. -/
structure Predicts (labels : List String) (tensor : OutputTensor) (label : String) : Prop where
  shape : tensor.shape = [1, (labels.length : Int)]
  scores : labels.length ≤ tensor.data.length
  greatest : ∃ i score, IsArgmax (tensor.data.take labels.length) i score ∧ labels[i]? = some label

/-- Every label outside of these has a lower score than another one. -/
def Favours (labels allowed : List String) (tensor : OutputTensor) : Prop :=
  ∀ (j : Nat) score label, (tensor.data.take labels.length)[j]? = some score →
    labels[j]? = some label → label ∉ allowed →
      ∃ better ∈ tensor.data.take labels.length, F32.totalRank score < F32.totalRank better

theorem Predicts.mem {allowed : List String} {tensor : OutputTensor} {label : String}
    (h : Predicts labels tensor label) (hfavours : Favours labels allowed tensor) :
    label ∈ allowed := by
  obtain ⟨i, score, hargmax, hlabel⟩ := h.greatest
  by_contra hout
  obtain ⟨better, hbetter, hlt⟩ := hfavours i score label hargmax.value hlabel hout
  exact absurd (hargmax.greatest better hbetter) (not_le_of_gt hlt)

/-- A row with a score for each of some labels has a greatest one, and that is a label's. -/
theorem exists_predicted {data : List F32} (hne : labels ≠ []) (hdata : labels.length ≤ data.length) :
    ∃ i score label, argmax (data.take labels.length) = some i ∧
      IsArgmax (data.take labels.length) i score ∧ labels[i]? = some label := by
  have hrow : data.take labels.length ≠ [] := by
    rw [← List.length_pos_iff, List.length_take, Nat.min_eq_left hdata]
    exact List.length_pos_iff.mpr hne
  obtain ⟨i, score, hi, hargmax⟩ := exists_lastArgmax F32.totalRank hrow
  obtain ⟨hlt, -⟩ := List.getElem?_eq_some_iff.mp hargmax.value
  rw [List.length_take, Nat.min_eq_left hdata] at hlt
  exact ⟨i, score, labels[i], hi, hargmax, List.getElem?_eq_getElem hlt⟩

/-- There is either a label that is predicted, or an error of the inference. -/
theorem predictedLabel_cases (debugShape : List Int → String) (hne : labels ≠ [])
    (tensor : OutputTensor) :
    (∃ label, predictedLabel debugShape labels tensor = .ok label ∧ Predicts labels tensor label) ∨
      (∃ cause, predictedLabel debugShape labels tensor = .error (inferenceError cause)) ∧
        ∀ label, ¬ Predicts labels tensor label := by
  rw [predictedLabel]
  split
  · next batch labelDim hshape =>
      split
      · next hbatch =>
          refine .inr ⟨⟨_, rfl⟩, fun label hlabel => hbatch ?_⟩
          cases hshape.symm.trans hlabel.shape
          rfl
      · next hbatch =>
          split
          · next hnegative =>
              refine .inr ⟨⟨_, rfl⟩, fun label hlabel => ?_⟩
              cases hshape.symm.trans hlabel.shape
              omega
          · next hnegative =>
              split
              · next hwidth =>
                  refine .inr ⟨⟨_, rfl⟩, fun label hlabel => ?_⟩
                  cases hshape.symm.trans hlabel.shape
                  have hscores := hlabel.scores
                  simp only [Int.toNat_natCast] at hwidth
                  omega
              · next hwidth =>
                  rw [not_or, not_not, Nat.not_lt] at hwidth
                  obtain ⟨hlength, hscores⟩ := hwidth
                  rw [hlength] at hscores ⊢
                  obtain ⟨i, score, label, hi, hargmax, hlabel⟩ := exists_predicted hne hscores
                  refine .inl ⟨label, ?_, ?_, hscores, i, score, hargmax, hlabel⟩
                  · simp only [hi, hlabel]
                  · rw [hshape, not_not.mp hbatch]
                    congr 2
                    omega
  · next hrank =>
      refine .inr ⟨⟨_, rfl⟩, fun label hlabel => ?_⟩
      exact hrank 1 labels.length hlabel.shape

theorem Predicts.unique {tensor : OutputTensor} {label label' : String}
    (h : Predicts labels tensor label) (h' : Predicts labels tensor label') : label = label' := by
  obtain ⟨i, score, hargmax, hlabel⟩ := h.greatest
  obtain ⟨j, score', hargmax', hlabel'⟩ := h'.greatest
  obtain rfl : i = j :=
    Option.some.inj (hargmax.lastArgmax_eq.symm.trans hargmax'.lastArgmax_eq)
  exact Option.some.inj (hlabel.symm.trans hlabel')

/-- The session has answered with this tensor first. -/
def AnswersWith (outputs : Except String (List (Except String OutputTensor)))
    (tensor : OutputTensor) : Prop :=
  ∃ others, outputs = .ok (.ok tensor :: others)

theorem readOutputs_cases (debugShape : List Int → String) (hne : labels ≠ [])
    (outputs : Except String (List (Except String OutputTensor))) :
    (∃ label tensor, readOutputs debugShape labels outputs = .ok label ∧
        AnswersWith outputs tensor ∧ Predicts labels tensor label) ∨
      (∃ cause, readOutputs debugShape labels outputs = .error (inferenceError cause)) ∧
        ∀ tensor, AnswersWith outputs tensor → ∀ label, ¬ Predicts labels tensor label := by
  match outputs with
  | .error cause => exact .inr ⟨⟨cause, rfl⟩, fun _ ⟨_, h⟩ => nomatch h⟩
  | .ok [] => exact .inr ⟨⟨_, rfl⟩, fun _ ⟨_, h⟩ => nomatch h⟩
  | .ok (.error cause :: others) => exact .inr ⟨⟨cause, rfl⟩, fun _ ⟨_, h⟩ => nomatch h⟩
  | .ok (.ok tensor :: others) =>
      rcases predictedLabel_cases debugShape hne tensor with
        ⟨label, hlabel, hpredicts⟩ | ⟨⟨cause, hcause⟩, hnone⟩
      · exact .inl ⟨label, tensor, hlabel, ⟨others, rfl⟩, hpredicts⟩
      · refine .inr ⟨⟨cause, hcause⟩, ?_⟩
        rintro _ ⟨_, h⟩
        cases h
        exact hnone

end Dengjen.Pinyin
