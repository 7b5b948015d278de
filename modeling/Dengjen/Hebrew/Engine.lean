import Dengjen.Hebrew.Nakdimon
import Dengjen.Hebrew.Sentences
import Dengjen.Text.Inference

/-!
# The Nakdimon engine

The letters of a text without points are numbered, and the model scores for each of
them the classes of three tables. The class with the greatest score is taken where the
tensors have the shapes that these tables ask for.

## Implementation notes

The numbers of the letters are small enough for an `f32` to hold them. A text is its
characters.
-/

namespace Dengjen.Hebrew

/-- The letters of the alphabet, final forms included. -/
def hebrewLetters : List Char := charsBetween '\u05D0' '\u05EA'

/-- The punctuation that has an id. -/
def punctuation : List Char := " !\"'(),-.:;?".toList

/-- The characters with an id of their own. -/
def validLetters : List Char := punctuation ++ hebrewLetters

/-- A character that keeps its own id. -/
def isValidLetter (c : Char) : Bool :=
  punctuation.contains c || ('\u05D0' ≤ c && c ≤ '\u05EA')

/-- The characters that stand for Hebrew, for anything else, and for digits. -/
def specialTokens : List Char := ['H', 'O', '5']

/-- The id of each character, counted from 1; 0 is the mask. -/
def charToIdMap : HashMap Char Nat :=
  HashMap.fromIter ((specialTokens ++ validLetters).zipIdx.map fun (c, i) => (c, i + 1))

/-- The letter, or what it is taken for. -/
def normalize (c : Char) : Char :=
  if isValidLetter c then c
  else if c = '\n' ∨ c = '\t' then ' '
  else if c ∈ ['\u05BE', '\u2012', '\u2013', '\u2014', '\u2015', '\u2212'] then '-'
  else if c = '[' then '('
  else if c = ']' then ')'
  else if c ∈ ['\u00B4', '\u2018', '\u2019'] then '\''
  else if c ∈ ['\u201C', '\u201D', '\u05F4'] then '"'
  else if c.isDigit then '5'
  else if c = '\u2026' then ','
  else if c ∈ ['\u05F2', '\u05F0', '\u05F1'] then 'H'
  else 'O'

/-- The number of a letter in the input of the model. -/
def inputId (c : Char) : Nat := (charToIdMap.lookup (normalize c)).getD 0

/-- The error of a session, or of what it answers. -/
def inferenceError (cause : String) : DengjenError :=
  .inferenceError s!"Nakdimon inference failed: {cause}"

/-- The number of classes of an output tensor, which has to have the shape of its table. -/
def numClasses (debugShape : List Int → String) (shape : List Int) (seqLen expectedClasses : Nat) :
    DengjenResult Nat :=
  if shape.length ≠ 3 then
    .error (inferenceError s!"expected a rank-3 output tensor, got shape {debugShape shape}")
  else
    match shape[2]? with
    | none =>
        .error (inferenceError s!"expected a rank-3 output tensor, got shape {debugShape shape}")
    | some classes =>
        if shape.head? ≠ some 1 then
          .error (inferenceError
            s!"expected batch size 1, model produced shape {debugShape shape}")
        else if shape[1]? ≠ some (seqLen : Int) then
          .error (inferenceError (s!"expected output sequence length {seqLen}, " ++
            s!"model produced shape {debugShape shape}"))
        else if classes < 0 then
          .error (inferenceError ("expected a non-negative class dimension, " ++
            s!"model produced shape {debugShape shape}"))
        else if classes.toNat ≠ expectedClasses then
          .error (inferenceError
            s!"expected {expectedClasses} classes, model produced shape {debugShape shape}")
        else .ok classes.toNat

/-- The scores at a position, `data.get(pos * classes..(pos + 1) * classes)`. -/
def scoreRow (data : List F32) (classes pos : Nat) : Option (List F32) :=
  if (pos + 1) * classes ≤ data.length then some ((data.drop (pos * classes)).take classes) else none

/-- The class of each position. -/
def argmaxPerPosition (data : List F32) (seqLen classes : Nat) : List Nat :=
  (List.range seqLen).map fun pos => ((scoreRow data classes pos).bind argmax).getD 0

/-- A text without points. -/
def withoutNiqqud (text : List Char) : List Char := text.filter fun c => !isNiqqud c

/-- The tensors of niqqud, dagesh and sin, and the text that they make of the letters. -/
def readDiacritics (debugShape : List Int → String) (letters : List Char)
    (outputs : List (Except String OutputTensor)) : DengjenResult (List Char) :=
  match outputs with
  | niqqud :: dagesh :: sin :: _ => do
      let niqqud ← niqqud.mapError inferenceError
      let dagesh ← dagesh.mapError inferenceError
      let sin ← sin.mapError inferenceError
      let niqqudCount ← numClasses debugShape niqqud.shape letters.length (niqqudClasses.length + 1)
      let dageshCount ← numClasses debugShape dagesh.shape letters.length (dageshClasses.length + 1)
      let sinCount ← numClasses debugShape sin.shape letters.length (sinClasses.length + 1)
      return (mergeDiacritics letters
        (argmaxPerPosition niqqud.data letters.length niqqudCount)
        (argmaxPerPosition dagesh.data letters.length dageshCount)
        (argmaxPerPosition sin.data letters.length sinCount)).toList
  | _ => .error (inferenceError (s!"expected 3 output tensors (niqqud, dagesh, sin), " ++
      s!"model produced {outputs.length}"))

/-- A text with the points that the session predicts. -/
def diacritize (session : OrtSession (List Nat)) (text : List Char) : DengjenResult (List Char) :=
  let letters := withoutNiqqud text
  if letters.isEmpty then .ok letters
  else do
    let outputs ← (session.run (letters.map inputId)).mapError inferenceError
    readDiacritics session.debugShape letters outputs

/-- A text that has points already. -/
def alreadyDiacritized (text : List Char) : Bool := text.any isNiqqud

/-- How a text is pronounced, once it has its points. -/
def textToHebrewPhonemes (unicode : Unicode) (session : OrtSession (List Nat)) (text : List Char) :
    DengjenResult (List (List Char)) := do
  let diacritized ← if alreadyDiacritized text then .ok text else diacritize session text
  return phonemesFromDiacritized unicode diacritized

/-! ## The numbers of the letters -/

theorem mem_charsBetween {first last c : Char} (hfirst : first ≤ c) (hlast : c ≤ last) :
    c ∈ charsBetween first last := by
  have hfirst' : first.toNat ≤ c.toNat := hfirst
  have hlast' : c.toNat ≤ last.toNat := hlast
  refine List.mem_map.mpr ⟨c.toNat, ?_, Char.ofNat_toNat c⟩
  rw [List.mem_range'_1]
  omega

/-- Every character is taken for one that has a number. -/
theorem normalize_mem (c : Char) : normalize c ∈ specialTokens ++ validLetters := by
  have hall : [' ', '-', '(', ')', '\'', '"', '5', ',', 'H', 'O'].all fun c =>
      (specialTokens ++ validLetters).contains c := by decide
  have hknown : ∀ c ∈ [' ', '-', '(', ')', '\'', '"', '5', ',', 'H', 'O'],
      c ∈ specialTokens ++ validLetters :=
    fun c hc => List.contains_iff_mem.mp (List.all_eq_true.mp hall c hc)
  rw [normalize, ite_mem]
  refine ⟨fun hvalid => List.mem_append_right _ ?_, fun _ => hknown _ ?_⟩
  · rcases Bool.or_eq_true_iff.mp hvalid with hpunctuation | hletter
    · exact List.mem_append_left _ (List.contains_iff_mem.mp hpunctuation)
    · obtain ⟨hfirst, hlast⟩ := Bool.and_eq_true_iff.mp hletter
      exact List.mem_append_right _
        (mem_charsBetween (of_decide_eq_true hfirst) (of_decide_eq_true hlast))
  · repeat refine ite_mem.mpr ⟨fun _ => by decide, fun _ => ?_⟩
    decide

theorem exists_inputId_eq (c : Char) : ∃ i, (specialTokens ++ validLetters)[i]? = some (normalize c) ∧
    inputId c = i + 1 := by
  obtain ⟨i, hi⟩ := List.mem_iff_getElem?.mp (normalize_mem c)
  have hentry : (normalize c, i + 1) ∈
      (specialTokens ++ validLetters).zipIdx.map fun (c, i) => (c, i + 1) :=
    List.mem_map.mpr ⟨(normalize c, i), List.mem_zipIdx_iff_getElem?.mpr hi, rfl⟩
  obtain ⟨id, hid⟩ := HashMap.exists_lookup_fromIter hentry
  obtain ⟨⟨c', j⟩, hj, heq⟩ := List.mem_map.mp (HashMap.mem_of_lookup_fromIter hid)
  cases heq
  refine ⟨j, List.mem_zipIdx_iff_getElem?.mp hj, ?_⟩
  rw [inputId, charToIdMap, hid]
  rfl

/-- No letter is given the number of the mask, and each number is that of one letter. -/
structure Numbered : Prop where
  bounds : ∀ c, 1 ≤ inputId c ∧ inputId c ≤ 42
  inj : ∀ c c', inputId c = inputId c' ↔ normalize c = normalize c'

theorem numbered : Numbered where
  bounds c := by
    obtain ⟨i, hi, hid⟩ := exists_inputId_eq c
    obtain ⟨hlt, -⟩ := List.getElem?_eq_some_iff.mp hi
    have hlength : (specialTokens ++ validLetters).length = 42 := by decide
    omega
  inj c c' := by
    constructor
    · intro h
      obtain ⟨i, hi, hid⟩ := exists_inputId_eq c
      obtain ⟨j, hj, hid'⟩ := exists_inputId_eq c'
      obtain rfl : i = j := by omega
      exact Option.some.inj (hi.symm.trans hj)
    · intro h
      rw [inputId, inputId, h]

/-! ## The predicted classes -/

/-- One class of the table, or the mask, for each letter, the greatest where there are scores. -/
structure Classified (table : List Char) (data : List F32) (letters : List Char) (ids : List Nat) :
    Prop where
  length : ids.length = letters.length
  inside : ∀ id ∈ ids, id ≤ table.length
  greatest : ∀ (pos : Nat) row, pos < letters.length →
    scoreRow data (table.length + 1) pos = some row →
      ∃ id score, ids[pos]? = some id ∧ IsArgmax row id score

theorem length_of_scoreRow {data row : List F32} {classes pos : Nat}
    (h : scoreRow data classes pos = some row) : row.length = classes := by
  rw [scoreRow] at h
  split at h
  · next hle =>
      cases h
      rw [Nat.add_mul, Nat.one_mul] at hle
      rw [List.length_take, List.length_drop]
      omega
  · cases h

/-- A row with a score for each class has a greatest one among them. -/
theorem exists_argmax_scoreRow {data row : List F32} {classes pos : Nat}
    (h : scoreRow data (classes + 1) pos = some row) :
    ∃ id score, argmax row = some id ∧ IsArgmax row id score ∧ id ≤ classes := by
  have hlength := length_of_scoreRow h
  have hne : row ≠ [] := by
    rw [← List.length_pos_iff]
    omega
  obtain ⟨id, score, hid, hargmax⟩ := exists_lastArgmax F32.totalRank hne
  obtain ⟨hlt, -⟩ := List.getElem?_eq_some_iff.mp hargmax.value
  exact ⟨id, score, hid, hargmax, by omega⟩

theorem classified_argmaxPerPosition (table : List Char) (data : List F32) (letters : List Char) :
    Classified table data letters (argmaxPerPosition data letters.length (table.length + 1)) where
  length := by rw [argmaxPerPosition, List.length_map, List.length_range]
  inside id hid := by
    obtain ⟨pos, -, rfl⟩ := List.mem_map.mp hid
    cases hrow : scoreRow data (table.length + 1) pos with
    | none => exact Nat.zero_le _
    | some row =>
        obtain ⟨id, score, hargmax, -, hle⟩ := exists_argmax_scoreRow hrow
        rw [Option.bind_some, hargmax]
        exact hle
  greatest pos row hpos hrow := by
    obtain ⟨id, score, hid, hargmax, -⟩ := exists_argmax_scoreRow hrow
    refine ⟨id, score, ?_, hargmax⟩
    rw [argmaxPerPosition, List.getElem?_map, List.getElem?_range hpos, Option.map_some, hrow,
      Option.bind_some, hid]
    rfl

/-! ## The answer of the model -/

section NumClasses

variable {debugShape : List Int → String} {shape : List Int} {seqLen classes : Nat}

theorem exists_of_numClasses_error {error : DengjenError}
    (h : numClasses debugShape shape seqLen classes = .error error) :
    ∃ cause, error = inferenceError cause := by
  rw [numClasses] at h
  repeat' split at h
  all_goals cases h
  all_goals exact ⟨_, rfl⟩

/-- Only one shape is accepted. -/
theorem shape_of_numClasses {count : Nat}
    (h : numClasses debugShape shape seqLen classes = .ok count) :
    shape = [1, (seqLen : Int), (classes : Int)] ∧ count = classes := by
  rw [numClasses] at h
  split at h
  · cases h
  · next hrank =>
      split at h
      · cases h
      · next dim hdim =>
          split at h
          · cases h
          · next hbatch =>
              split at h
              · cases h
              · next hlength =>
                  split at h
                  · cases h
                  · next hnegative =>
                      split at h
                      · cases h
                      · next hcount =>
                          cases h
                          obtain ⟨first, second, third, rfl⟩ :=
                            List.length_eq_three.mp (not_not.mp hrank)
                          obtain rfl := Option.some.inj (not_not.mp hbatch)
                          obtain rfl := Option.some.inj (not_not.mp hlength)
                          obtain rfl := Option.some.inj hdim
                          rw [← not_not.mp hcount, Int.toNat_of_nonneg (Int.not_lt.mp hnegative)]
                          exact ⟨rfl, rfl⟩

theorem numClasses_of_shape (debugShape : List Int → String)
    (h : shape = [1, (seqLen : Int), (classes : Int)]) :
    numClasses debugShape shape seqLen classes = .ok classes := by
  subst h
  simp [numClasses]

end NumClasses

/-- The session answers with a tensor for each table, with a row of scores for each letter. -/
structure Answers (session : OrtSession (List Nat)) (letters : List Char)
    (niqqud dagesh sin : OutputTensor) : Prop where
  run : ∃ others, session.run (letters.map inputId) = .ok (.ok niqqud :: .ok dagesh :: .ok sin :: others)
  niqqud : niqqud.shape = [1, (letters.length : Int), 16]
  dagesh : dagesh.shape = [1, (letters.length : Int), 3]
  sin : sin.shape = [1, (letters.length : Int), 4]

/-- The outcome for a text with letters. -/
inductive Diacritized (session : OrtSession (List Nat)) (text : List Char) : Prop
  | merged (niqqud dagesh sin : OutputTensor) (niqqudIds dageshIds sinIds : List Nat)
      (answers : Answers session (withoutNiqqud text) niqqud dagesh sin)
      (niqqud_ids : Classified niqqudClasses niqqud.data (withoutNiqqud text) niqqudIds)
      (dagesh_ids : Classified dageshClasses dagesh.data (withoutNiqqud text) dageshIds)
      (sin_ids : Classified sinClasses sin.data (withoutNiqqud text) sinIds)
      (h : diacritize session text =
        .ok (mergeDiacritics (withoutNiqqud text) niqqudIds dageshIds sinIds).toList)
  | failed (cause : String)
      (unanswered : ∀ niqqud dagesh sin, ¬ Answers session (withoutNiqqud text) niqqud dagesh sin)
      (h : diacritize session text = .error (inferenceError cause))

theorem readDiacritics_cases {session : OrtSession (List Nat)} {letters : List Char}
    {outputs : List (Except String OutputTensor)}
    (hrun : session.run (letters.map inputId) = .ok outputs) :
    (∃ niqqud dagesh sin, Answers session letters niqqud dagesh sin ∧
        readDiacritics session.debugShape letters outputs = .ok (mergeDiacritics letters
          (argmaxPerPosition niqqud.data letters.length (niqqudClasses.length + 1))
          (argmaxPerPosition dagesh.data letters.length (dageshClasses.length + 1))
          (argmaxPerPosition sin.data letters.length (sinClasses.length + 1))).toList) ∨
      (∃ cause, readDiacritics session.debugShape letters outputs = .error (inferenceError cause)) ∧
        ∀ niqqud dagesh sin, ¬ Answers session letters niqqud dagesh sin := by
  match outputs with
  | [] | [_] | [_, _] =>
      refine .inr ⟨⟨_, rfl⟩, ?_⟩
      rintro niqqud dagesh sin ⟨⟨others, hothers⟩, -, -, -⟩
      cases hrun.symm.trans hothers
  | .error cause :: _ :: _ :: _ | .ok _ :: .error cause :: _ :: _ | .ok _ :: .ok _ :: .error cause :: _ =>
      refine .inr ⟨⟨cause, rfl⟩, ?_⟩
      rintro niqqud dagesh sin ⟨⟨others, hothers⟩, -, -, -⟩
      cases hrun.symm.trans hothers
  | .ok niqqud :: .ok dagesh :: .ok sin :: others =>
      have hread : readDiacritics session.debugShape letters
          (.ok niqqud :: .ok dagesh :: .ok sin :: others) = do
        let niqqudCount ←
          numClasses session.debugShape niqqud.shape letters.length (niqqudClasses.length + 1)
        let dageshCount ←
          numClasses session.debugShape dagesh.shape letters.length (dageshClasses.length + 1)
        let sinCount ←
          numClasses session.debugShape sin.shape letters.length (sinClasses.length + 1)
        return (mergeDiacritics letters
          (argmaxPerPosition niqqud.data letters.length niqqudCount)
          (argmaxPerPosition dagesh.data letters.length dageshCount)
          (argmaxPerPosition sin.data letters.length sinCount)).toList := rfl
      have hanswers : ∀ {niqqud' dagesh' sin' : OutputTensor},
          Answers session letters niqqud' dagesh' sin' →
            niqqud' = niqqud ∧ dagesh' = dagesh ∧ sin' = sin := by
        rintro niqqud' dagesh' sin' ⟨⟨others', hothers⟩, -, -, -⟩
        cases hrun.symm.trans hothers
        exact ⟨rfl, rfl, rfl⟩
      rw [hread]
      cases hniqqud : numClasses session.debugShape niqqud.shape letters.length
          (niqqudClasses.length + 1) with
      | error error =>
          obtain ⟨cause, rfl⟩ := exists_of_numClasses_error hniqqud
          refine .inr ⟨⟨cause, rfl⟩, fun niqqud' dagesh' sin' h => ?_⟩
          obtain ⟨rfl, -, -⟩ := hanswers h
          cases hniqqud.symm.trans (numClasses_of_shape session.debugShape h.niqqud)
      | ok niqqudCount =>
          obtain ⟨hniqqudShape, rfl⟩ := shape_of_numClasses hniqqud
          cases hdagesh : numClasses session.debugShape dagesh.shape letters.length
              (dageshClasses.length + 1) with
          | error error =>
              obtain ⟨cause, rfl⟩ := exists_of_numClasses_error hdagesh
              refine .inr ⟨⟨cause, rfl⟩, fun niqqud' dagesh' sin' h => ?_⟩
              obtain ⟨-, rfl, -⟩ := hanswers h
              cases hdagesh.symm.trans (numClasses_of_shape session.debugShape h.dagesh)
          | ok dageshCount =>
              obtain ⟨hdageshShape, rfl⟩ := shape_of_numClasses hdagesh
              cases hsin : numClasses session.debugShape sin.shape letters.length
                  (sinClasses.length + 1) with
              | error error =>
                  obtain ⟨cause, rfl⟩ := exists_of_numClasses_error hsin
                  refine .inr ⟨⟨cause, rfl⟩, fun niqqud' dagesh' sin' h => ?_⟩
                  obtain ⟨-, -, rfl⟩ := hanswers h
                  cases hsin.symm.trans (numClasses_of_shape session.debugShape h.sin)
              | ok sinCount =>
                  obtain ⟨hsinShape, rfl⟩ := shape_of_numClasses hsin
                  exact .inl ⟨niqqud, dagesh, sin,
                    ⟨⟨others, hrun⟩, hniqqudShape, hdageshShape, hsinShape⟩, rfl⟩

theorem diacritized_diacritize (session : OrtSession (List Nat)) {text : List Char}
    (hletters : withoutNiqqud text ≠ []) : Diacritized session text := by
  have hstart : diacritize session text =
      (session.run ((withoutNiqqud text).map inputId)).mapError inferenceError >>=
        readDiacritics session.debugShape (withoutNiqqud text) := by
    rw [diacritize]
    simp only [List.isEmpty_iff, if_neg hletters]
  cases hrun : session.run ((withoutNiqqud text).map inputId) with
  | error cause =>
      rw [hrun] at hstart
      refine .failed cause ?_ hstart
      rintro niqqud dagesh sin ⟨⟨others, hothers⟩, -, -, -⟩
      cases hrun.symm.trans hothers
  | ok outputs =>
      rw [hrun] at hstart
      rcases readDiacritics_cases hrun with
        ⟨niqqud, dagesh, sin, hanswers, hread⟩ | ⟨⟨cause, hread⟩, hunanswered⟩
      · exact .merged niqqud dagesh sin _ _ _ hanswers (classified_argmaxPerPosition ..)
          (classified_argmaxPerPosition ..) (classified_argmaxPerPosition ..) (hstart.trans hread)
      · exact .failed cause hunanswered (hstart.trans hread)

/-! ## Diacritizing once more -/

theorem isNiqqud_of_withoutNiqqud (text : List Char) :
    ∀ letter ∈ withoutNiqqud text, isNiqqud letter = false := by
  intro letter hletter
  simpa using (List.mem_filter.mp hletter).2

theorem addsPoints_nil : AddsPoints [] (String.ofList []) where
  removed := by rw [removeNiqqud, String.toList_ofList, List.filter_nil]
  unmarked := by simp
  pointed := ⟨[], .nil, by simp⟩

theorem addsPoints_diacritize {session : OrtSession (List Nat)} {text merged : List Char}
    (h : diacritize session text = .ok merged) :
    AddsPoints (withoutNiqqud text) (String.ofList merged) := by
  by_cases hnil : withoutNiqqud text = []
  · rw [diacritize] at h
    simp only [hnil, List.isEmpty_nil, if_true] at h
    cases h
    rw [hnil]
    exact addsPoints_nil
  · cases diacritized_diacritize session hnil with
    | merged niqqud dagesh sin niqqudIds dageshIds sinIds _ _ _ _ hmerged =>
        cases h.symm.trans hmerged
        rw [String.ofList_toList]
        exact addsPoints_mergeDiacritics (withoutNiqqud text) niqqudIds dageshIds sinIds
          (isNiqqud_of_withoutNiqqud text)
    | failed cause _ hfailed => cases h.symm.trans hfailed

/-- Without its points the new text has the letters of the old one. -/
theorem withoutNiqqud_diacritize {session : OrtSession (List Nat)} {text merged : List Char}
    (h : diacritize session text = .ok merged) : withoutNiqqud merged = withoutNiqqud text := by
  have hremoved := (addsPoints_diacritize h).removed
  rw [removeNiqqud, String.toList_ofList] at hremoved
  exact String.ofList_injective hremoved

theorem diacritize_again {session : OrtSession (List Nat)} {text merged : List Char}
    (h : diacritize session text = .ok merged) : diacritize session merged = .ok merged := by
  rw [← h, diacritize, diacritize, withoutNiqqud_diacritize h]

theorem textToHebrewPhonemes_again {unicode : Unicode} {session : OrtSession (List Nat)}
    {text merged : List Char} (hplain : alreadyDiacritized text = false)
    (h : diacritize session text = .ok merged) :
    textToHebrewPhonemes unicode session merged = textToHebrewPhonemes unicode session text := by
  have htext : textToHebrewPhonemes unicode session text =
      .ok (phonemesFromDiacritized unicode merged) := by
    rw [textToHebrewPhonemes, hplain, if_neg Bool.false_ne_true, h]
    rfl
  rw [htext, textToHebrewPhonemes]
  cases alreadyDiacritized merged with
  | true => rfl
  | false =>
      rw [if_neg Bool.false_ne_true, diacritize_again h]
      rfl

/-- What the engine does with a text, whatever its session answers. -/
structure Engine (unicode : Unicode) (session : OrtSession (List Nat)) (text : List Char) : Prop where
  numbered : Numbered
  diacritized : withoutNiqqud text ≠ [] → Diacritized session text
  points : ∀ merged, diacritize session text = .ok merged →
    AddsPoints (withoutNiqqud text) (String.ofList merged)
  again : ∀ merged, diacritize session text = .ok merged → diacritize session merged = .ok merged
  phonemes : ∀ merged, alreadyDiacritized text = false → diacritize session text = .ok merged →
    textToHebrewPhonemes unicode session merged = textToHebrewPhonemes unicode session text

/-- A session that scores the last class best for one letter. -/
def lastClassSession : OrtSession (List Nat) where
  run _ := .ok [.ok ⟨[1, 1, 16], (List.range 16).map fun i => ⟨i⟩⟩,
    .ok ⟨[1, 1, 3], (List.range 3).map fun i => ⟨i⟩⟩, .ok ⟨[1, 1, 4], (List.range 4).map fun i => ⟨i⟩⟩]
  debugShape _ := ""

example : diacritize lastClassSession ['\u05E9', '\u05B8'] =
    .ok ['\u05E9', '\u05BC', '\u05C2', '\u05B7'] := by decide

end Dengjen.Hebrew
