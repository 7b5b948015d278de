import Dengjen.Pinyin.NumberPaths

/-!
# The segments of a text with numbers

Every text is a list of segments, characters that are no digits and recognised numbers,
years, percentages and temperatures, such that what is written for the text is the list
of their readings. So no digit is left, and no other character is lost.
-/

namespace Dengjen.Pinyin

/-- A piece of a text, with a number or without one. -/
inductive Segment
  | literal (c : Char) (h : c.isDigit = false)
  | number (number : Number)
  | year (digits : DigitString) (h : digits.chars.length = yearDigits)
  | percentage (percentage : Percentage)
  | temperature (temperature : Temperature)

namespace Segment

/-- A piece as it is written. -/
def text : Segment → List Char
  | .literal c _ => [c]
  | .number decimal => decimal.text
  | .year digits _ => digits.chars
  | .percentage percent => percent.text
  | .temperature degrees => degrees.text

/-- A piece as it is read. -/
def words : Segment → List Char
  | .literal c _ => [c]
  | .number decimal => decimal.words
  | .year digits _ => readDigitByDigit digits.chars
  | .percentage percent => percent.words
  | .temperature degrees => degrees.words

/-- The characters that are part of nothing recognised. -/
def literals : Segment → List Char
  | .literal c _ => [c]
  | _ => []

theorem literals_sublist (segment : Segment) : segment.literals.Sublist segment.words := by
  cases segment with
  | literal c h => exact List.Sublist.refl _
  | number number => exact List.nil_sublist _
  | year digits h => exact List.nil_sublist _
  | percentage percentage => exact List.nil_sublist _
  | temperature temperature => exact List.nil_sublist _

theorem digit_words (segment : Segment) : ∀ c ∈ segment.words, c.isDigit = false := by
  cases segment with
  | literal c h => exact List.forall_mem_singleton.mpr h
  | number number =>
      exact ((spoken_formatInteger _).append (spoken_pointedWords _)).digit
  | year digits h => exact (spoken_readDigitByDigit _).digit
  | percentage percentage => exact percentage.spoken_words.digit
  | temperature temperature => exact temperature.spoken_words.digit

/-- What is recognised has a digit. -/
theorem words_eq_text (segment : Segment) (h : ∀ c ∈ segment.text, c.isDigit = false) :
    segment.words = segment.text := by
  have hvalue : ∀ digits : DigitString, (∀ c ∈ digits.chars, c ∈ segment.text) →
      segment.words = segment.text := by
    intro digits hmem
    obtain ⟨c, hc⟩ := List.exists_mem_of_ne_nil _ digits.ne_nil
    have hdigit := digits.isDigit c hc
    rw [h c (hmem c hc)] at hdigit
    cases hdigit
  cases segment with
  | literal c h => rfl
  | number number =>
      exact hvalue number.integer fun c hc => List.mem_append_left _ hc
  | year digits _ => exact hvalue digits fun c hc => hc
  | percentage percentage =>
      refine hvalue percentage.value.integer fun c hc => ?_
      exact List.mem_append_left _ (List.mem_append_right _ (List.mem_append_left _ hc))
  | temperature temperature =>
      refine hvalue temperature.value.integer fun c hc => ?_
      exact List.mem_append_left _ (List.mem_append_right _ (List.mem_append_left _ hc))

end Segment

/-- What is written for a text is what its segments are read as. -/
def Segmented (text words : List Char) : Prop :=
  ∃ segments : List Segment,
    text = segments.flatMap Segment.text ∧ words = segments.flatMap Segment.words

section

variable {text words out : List Char}

theorem Segmented.append {text' words' : List Char} (h : Segmented text words)
    (h' : Segmented text' words') : Segmented (text ++ text') (words ++ words') := by
  obtain ⟨segments, rfl, rfl⟩ := h
  obtain ⟨segments', rfl, rfl⟩ := h'
  exact ⟨segments ++ segments', List.flatMap_append.symm, List.flatMap_append.symm⟩

theorem segmented_segment (segment : Segment) : Segmented segment.text segment.words :=
  ⟨[segment], by simp, by simp⟩

theorem segmented_of_reads (h : Reads text words) : Segmented text words := by
  induction h with
  | nil => exact ⟨[], rfl, rfl⟩
  | char hc _ ih => exact (segmented_segment (.literal _ hc)).append ih
  | number number _ _ _ ih => exact (segmented_segment (.number number)).append ih
  | year digits hlength _ ih => exact (segmented_segment (.year digits hlength)).append ih

theorem segmented_normalizePlainDigits (text : List Char) :
    Segmented text (normalizePlainDigits text) :=
  segmented_of_reads (reads_normalizePlainDigits text)

theorem segmented_of_percentages (h : Transcribes IsPercentage text out) :
    Segmented text (normalizePlainDigits out) := by
  induction h with
  | copied text => exact segmented_normalizePlainDigits text
  | piece before h _ ih =>
      obtain ⟨percentage, rfl, rfl⟩ := h
      rw [normalizePlainDigits_around percentage.spoken_words percentage.words_ne_nil]
      exact ((segmented_normalizePlainDigits before).append
        (segmented_segment (.percentage percentage))).append ih

theorem segmented_of_temperatures (h : Transcribes IsTemperature text out) :
    Segmented text (normalizePlainDigits (normalizePercentages out)) := by
  induction h with
  | copied text => exact segmented_of_percentages (transcribes_percentages text)
  | piece before h _ ih =>
      obtain ⟨temperature, rfl, rfl⟩ := h
      rw [normalize_around_words temperature.spoken_words temperature.words_ne_nil]
      exact ((segmented_of_percentages (transcribes_percentages before)).append
        (segmented_segment (.temperature temperature))).append ih

theorem segmented_normalizeNumbers (text : List Char) : Segmented text (normalizeNumbers text) :=
  segmented_of_temperatures (transcribes_temperatures text)

theorem Segmented.digit (h : Segmented text words) : ∀ c ∈ words, c.isDigit = false := by
  obtain ⟨segments, -, rfl⟩ := h
  intro c hc
  obtain ⟨segment, -, hc⟩ := List.mem_flatMap.mp hc
  exact segment.digit_words c hc

theorem Segmented.eq_of_digit (h : Segmented text words)
    (hdigit : ∀ c ∈ text, c.isDigit = false) : words = text := by
  obtain ⟨segments, rfl, rfl⟩ := h
  refine List.flatMap_congr fun segment hsegment => ?_
  apply segment.words_eq_text
  exact fun c hc => hdigit c (List.mem_flatMap.mpr ⟨segment, hsegment, hc⟩)

theorem literals_sublist_words (segments : List Segment) :
    (segments.flatMap Segment.literals).Sublist (segments.flatMap Segment.words) := by
  induction segments with
  | nil => exact List.Sublist.refl _
  | cons segment segments ih => exact segment.literals_sublist.append ih

/-- No digit is left, a text without digits is kept, and no other character is lost. -/
theorem normalizeNumbers_complete (text : List Char) :
    (∀ c ∈ normalizeNumbers text, c.isDigit = false) ∧
    ((∀ c ∈ text, c.isDigit = false) → normalizeNumbers text = text) ∧
    normalizeNumbers (normalizeNumbers text) = normalizeNumbers text ∧
    ∃ segments : List Segment, text = segments.flatMap Segment.text ∧
      normalizeNumbers text = segments.flatMap Segment.words ∧
      (segments.flatMap Segment.literals).Sublist (normalizeNumbers text) := by
  have hdigit := (segmented_normalizeNumbers text).digit
  refine ⟨hdigit, (segmented_normalizeNumbers text).eq_of_digit, ?_, ?_⟩
  · exact (segmented_normalizeNumbers (normalizeNumbers text)).eq_of_digit hdigit
  · obtain ⟨segments, htext, hwords⟩ := segmented_normalizeNumbers text
    exact ⟨segments, htext, hwords, hwords ▸ literals_sublist_words segments⟩

end

end Dengjen.Pinyin
