import Dengjen.Pinyin.NumberContexts

/-!
# Number paths

A value is read alike as a temperature, as a percentage and as a plain number, and what
stands around it is read as if it stood alone: the three scanners, each run over what
the one before it has written, do not disturb each other.
-/

namespace Dengjen.Pinyin

section

variable {front rest : List Char} {value : Value}

/-! ## What the scanners write -/

theorem exists_cons_value (sign : Option Minus) (value : Value) (rest : List Char) :
    ∃ a tail, signText sign ++ value.text ++ rest = a :: tail :=
  List.exists_cons_of_ne_nil
    (List.append_ne_nil_of_left_ne_nil (signText_append_text_ne_nil sign value) rest)

theorem normalizeTemperatures_of_value (sign : Option Minus) (h : Ends value rest)
    (hunit : celsiusEnd rest = none) :
    normalizeTemperatures (signText sign ++ value.text ++ rest) =
      signText sign ++ value.text ++ normalizeTemperatures rest := by
  obtain ⟨a, tail, htext⟩ := exists_cons_value sign value rest
  have hstep := temperatureStep_of_value htext.symm h
  rw [hunit] at hstep
  exact Scanner.run_of_step htext hstep

theorem ends_of_noValue (h : NoValue rest) : Ends value rest where
  digit c hc := (h c hc).1
  fraction _ tail htail := absurd rfl (h '.' (by rw [htail]; rfl)).2

theorem noValue_unit (spaces : Nat) (unit : Celsius) (rest : List Char) :
    NoValue (List.replicate spaces ' ' ++ unit.text ++ rest) := by
  rintro c hc
  cases spaces with
  | zero =>
      cases unit
      · obtain rfl := Option.some.inj hc
        decide
      · obtain rfl := Option.some.inj hc
        decide
  | succ spaces =>
      obtain rfl := Option.some.inj hc
      decide

theorem noValue_percent (mark : PercentSign) (rest : List Char) : NoValue (mark.char :: rest) := by
  rintro c hc
  obtain rfl := Option.some.inj hc
  cases mark <;> decide

theorem normalizeTemperatures_text (temperature : Temperature) (rest : List Char) :
    normalizeTemperatures (temperature.text ++ rest) =
      temperature.words ++ normalizeTemperatures rest := by
  obtain ⟨sign, value, spaces, unit⟩ := temperature
  obtain ⟨a, tail, htext⟩ :=
    exists_cons_value sign value (List.replicate spaces ' ' ++ unit.text ++ rest)
  have hends : Ends value (List.replicate spaces ' ' ++ unit.text ++ rest) :=
    ends_of_noValue (noValue_unit spaces unit rest)
  have hstep := temperatureStep_of_value htext.symm hends
  rw [celsiusEnd_eq_some_iff.mpr ⟨spaces, unit, rfl⟩] at hstep
  rw [Temperature.text, List.append_assoc]
  exact Scanner.run_of_step htext hstep

theorem normalizePercentages_text (percentage : Percentage) (rest : List Char) :
    normalizePercentages (percentage.text ++ rest) =
      percentage.words ++ normalizePercentages rest := by
  obtain ⟨sign, value, mark⟩ := percentage
  obtain ⟨a, tail, htext⟩ := exists_cons_value sign value (mark.char :: rest)
  have hends : Ends value (mark.char :: rest) := ends_of_noValue (noValue_percent mark rest)
  have hstep := percentageStep_of_value htext.symm hends
  rw [percentEnd_eq_some_iff.mpr ⟨mark, rfl⟩] at hstep
  rw [Percentage.text, List.append_assoc]
  exact Scanner.run_of_step htext hstep

theorem celsiusEnd_percent (mark : PercentSign) (rest : List Char) :
    celsiusEnd (mark.char :: rest) = none := by
  cases mark <;> rfl

theorem integer_scanValue_percent (mark : PercentSign) (rest : List Char) :
    (scanValue (mark.char :: rest)).integer = [] := by
  cases mark <;> rfl

/-- A percentage is left to the second scanner. -/
theorem normalizeTemperatures_percentage (percentage : Percentage) (rest : List Char) :
    normalizeTemperatures (percentage.text ++ rest) =
      percentage.text ++ normalizeTemperatures rest := by
  obtain ⟨sign, value, mark⟩ := percentage
  have hends : Ends value (mark.char :: rest) := ends_of_noValue (noValue_percent mark rest)
  have hvalue := normalizeTemperatures_of_value sign hends (celsiusEnd_percent mark rest)
  have hmark : normalizeTemperatures (mark.char :: rest) =
      [mark.char] ++ normalizeTemperatures rest :=
    Scanner.run_of_step rfl (temperatureStep_of_empty (integer_scanValue_percent mark rest))
  rw [Percentage.text, List.append_assoc, List.singleton_append, hvalue, hmark]
  exact (List.append_assoc _ _ _).symm

/-! ## What the scanners recognise -/

/-- A temperature and how it is read. -/
def IsTemperature (piece reading : List Char) : Prop :=
  ∃ temperature : Temperature, piece = temperature.text ∧ reading = temperature.words

/-- A percentage and how it is read. -/
def IsPercentage (piece reading : List Char) : Prop :=
  ∃ percentage : Percentage, piece = percentage.text ∧ reading = percentage.words

theorem transcribes_temperatures (text : List Char) :
    Transcribes IsTemperature text (normalizeTemperatures text) := by
  refine Scanner.transcribes (fun a tail => ?_) text
  change ∃ piece, a :: tail = piece ++ (temperatureStep a tail).2 ∧
    ((temperatureStep a tail).1 = piece ∨ IsTemperature piece (temperatureStep a tail).1)
  rcases scanned (a :: tail) with hempty | ⟨sign, value, rest, htext, hends⟩
  · rw [temperatureStep_of_empty hempty]
    exact ⟨[a], rfl, .inl rfl⟩
  · rw [temperatureStep_of_value htext hends]
    cases hunit : celsiusEnd rest with
    | none => exact ⟨_, htext, .inl rfl⟩
    | some rest' =>
        obtain ⟨spaces, unit, rfl⟩ := celsiusEnd_eq_some_iff.mp hunit
        have hpiece := htext.trans (List.append_assoc _ _ rest').symm
        exact ⟨_, hpiece, .inr ⟨⟨sign, value, spaces, unit⟩, rfl, rfl⟩⟩

theorem transcribes_percentages (text : List Char) :
    Transcribes IsPercentage text (normalizePercentages text) := by
  refine Scanner.transcribes (fun a tail => ?_) text
  change ∃ piece, a :: tail = piece ++ (percentageStep a tail).2 ∧
    ((percentageStep a tail).1 = piece ∨ IsPercentage piece (percentageStep a tail).1)
  rcases scanned (a :: tail) with hempty | ⟨sign, value, rest, htext, hends⟩
  · rw [percentageStep_of_empty hempty]
    exact ⟨[a], rfl, .inl rfl⟩
  · rw [percentageStep_of_value htext hends]
    cases hmark : percentEnd rest with
    | none => exact ⟨[a], rfl, .inl rfl⟩
    | some rest' =>
        obtain ⟨mark, rfl⟩ := percentEnd_eq_some_iff.mp hmark
        have hpiece := htext.trans (List.append_assoc _ [mark.char] rest').symm
        exact ⟨_, hpiece, .inr ⟨⟨sign, value, mark⟩, rfl, rfl⟩⟩

/-- What the first scanner writes does not end in a value, unless its text does. -/
theorem outside_normalizeTemperatures (h : ∀ c ∈ front.getLast?, Outside c) :
    ∀ c ∈ (normalizeTemperatures front).getLast?, Outside c := by
  refine (transcribes_temperatures front).getLast ?_ h
  rintro piece reading ⟨temperature, -, rfl⟩
  refine ⟨'度', ?_, outside_of_mem (by decide)⟩
  exact List.getLast?_concat

/-! ## A value on its own -/

theorem percent_notMem_text (mark : PercentSign) (value : Value) : mark.char ∉ value.text := by
  have hdigits : ∀ digits : DigitString, mark.char ∉ digits.chars := by
    intro digits hmem
    exact absurd (digits.isDigit _ hmem) (by cases mark <;> decide)
  rw [Value.text, List.mem_append, not_or]
  refine ⟨hdigits value.integer, ?_⟩
  cases value.fraction with
  | none => exact List.not_mem_nil
  | some digits =>
      rw [Option.elim_some, List.mem_cons, not_or]
      exact ⟨by cases mark <;> decide, hdigits digits⟩

theorem normalizeTemperatures_value (value : Value) :
    normalizeTemperatures value.text = value.text := by
  have hends : Ends value [] := ends_of_noValue fun c hc => absurd hc (by simp)
  have hvalue := normalizeTemperatures_of_value none hends rfl
  have hnil : normalizeTemperatures [] = [] := Scanner.run_nil
  rw [hnil, List.append_nil] at hvalue
  exact hvalue

theorem normalizePercentages_value (value : Value) :
    normalizePercentages value.text = value.text := by
  refine (transcribes_percentages value.text).eq_of_none ?_
  rintro piece reading ⟨percentage, rfl, -⟩ hoccurs
  have hmark : percentage.mark.char ∈ percentage.text :=
    List.mem_append_right _ List.mem_cons_self
  exact percent_notMem_text _ value (hoccurs.subset hmark)

/-- A value on its own is a number with one fraction, or none. -/
theorem normalizePlainDigits_value (value : Value) :
    normalizePlainDigits value.text = value.words := by
  let number : Number := ⟨value.integer, value.fraction.toList⟩
  have hclosed : Closed [] :=
    ⟨fun c hc => absurd hc (by simp), fun tail htail => absurd htail (by simp)⟩
  have hyear : ¬ number.IsYear [] := fun hyear => absurd hyear.2.2 (by simp)
  have hreads := Reads.number number hclosed hyear .nil
  rw [List.append_nil, List.append_nil] at hreads
  have htext : number.text = value.text := by
    rw [Number.text, Value.text]
    cases hfraction : value.fraction <;> simp [number, pointedText, hfraction]
  have hwords : number.words = value.words := by
    rw [Number.words, Value.words, valueWords, Value.fractionChars]
    cases hfraction : value.fraction with
    | none => simp [number, pointedWords, hfraction]
    | some digits => simp [number, pointedWords, hfraction, digits.ne_nil]
  rw [← htext, ← hwords]
  exact normalizePlainDigits_of_reads hreads

theorem normalizeNumbers_value (value : Value) : normalizeNumbers value.text = value.words := by
  rw [normalizeNumbers, normalizeTemperatures_value, normalizePercentages_value,
    normalizePlainDigits_value]

/-! ## A value among other text -/

theorem noUnit_of_inside {c : Char} (h : c.isDigit = true ∨ isMinus c = true) :
    c ≠ ' ' ∧ ∀ unit : Celsius, c ∉ unit.text := by
  have hnot : ∀ d ∈ ' ' :: (Celsius.sign.text ++ Celsius.letters.text), c ≠ d := by
    rintro d hd rfl
    have hall : (' ' :: (Celsius.sign.text ++ Celsius.letters.text)).all
        (fun d => !(d.isDigit || isMinus d)) = true := by decide
    have hneither := List.all_eq_true.mp hall c hd
    rw [Bool.not_eq_true', Bool.or_eq_false_iff] at hneither
    rw [hneither.1, hneither.2] at h
    rcases h with h | h <;> cases h
  refine ⟨hnot ' ' List.mem_cons_self, fun unit hmem => hnot c ?_ rfl⟩
  rw [List.mem_cons, List.mem_append]
  cases unit
  · exact .inr (.inl hmem)
  · exact .inr (.inr hmem)

theorem noUnit_value (sign : Option Minus) (value : Value) (rest : List Char) :
    NoUnit (signText sign ++ value.text ++ rest) := by
  intro c hc
  apply noUnit_of_inside
  cases sign with
  | some minus =>
      obtain rfl := Option.some.inj hc
      exact .inr (isMinus_char minus)
  | none =>
      obtain ⟨d, chars, hchars⟩ := List.exists_cons_of_ne_nil value.integer.ne_nil
      have hd : d.isDigit = true := value.integer.isDigit d (hchars ▸ List.mem_cons_self)
      rw [Value.text, hchars] at hc
      obtain rfl := Option.some.inj hc
      exact .inl hd

theorem normalizeTemperatures_append (h : ∀ c ∈ front.getLast?, Outside c)
    (hback : NoUnit rest) :
    normalizeTemperatures (front ++ rest) =
      normalizeTemperatures front ++ normalizeTemperatures rest :=
  Scanner.run_append (local_temperatures h hback)

theorem normalizePercentages_append (h : ∀ c ∈ front.getLast?, Outside c) :
    normalizePercentages (front ++ rest) =
      normalizePercentages front ++ normalizePercentages rest :=
  Scanner.run_append (local_percentages (.inl h))

/-- The words of a temperature part the text for both of the scanners behind the first. -/
theorem normalize_around_words {words : List Char} (h : Spoken words) (hne : words ≠ [])
    (front back : List Char) :
    normalizePlainDigits (normalizePercentages (front ++ words ++ back)) =
      normalizePlainDigits (normalizePercentages front) ++ words ++
        normalizePlainDigits (normalizePercentages back) := by
  rw [normalizePercentages_around h hne, normalizePlainDigits_around h hne]

theorem Temperature.words_ne_nil (temperature : Temperature) : temperature.words ≠ [] :=
  List.append_ne_nil_of_right_ne_nil _ (List.cons_ne_nil _ _)

theorem Percentage.words_ne_nil (percentage : Percentage) : percentage.words ≠ [] := by
  refine List.append_ne_nil_of_left_ne_nil ?_ _
  split <;> decide

theorem normalizeNumbers_around_temperature (h : ∀ c ∈ front.getLast?, Outside c)
    (temperature : Temperature) (back : List Char) :
    normalizeNumbers (front ++ temperature.text ++ back) =
      normalizeNumbers front ++ temperature.words ++ normalizeNumbers back := by
  have hunit : NoUnit (temperature.text ++ back) := by
    rw [Temperature.text, List.append_assoc]
    exact noUnit_value _ _ _
  rw [normalizeNumbers, List.append_assoc, normalizeTemperatures_append h hunit,
    normalizeTemperatures_text, ← List.append_assoc,
    normalize_around_words temperature.spoken_words temperature.words_ne_nil]
  rfl

theorem normalizeNumbers_around_percentage (h : ∀ c ∈ front.getLast?, Outside c)
    (percentage : Percentage) (back : List Char) :
    normalizeNumbers (front ++ percentage.text ++ back) =
      normalizeNumbers front ++ percentage.words ++ normalizeNumbers back := by
  have hunit : NoUnit (percentage.text ++ back) := by
    rw [Percentage.text, List.append_assoc]
    exact noUnit_value _ _ _
  rw [normalizeNumbers, List.append_assoc, normalizeTemperatures_append h hunit,
    normalizeTemperatures_percentage, normalizePercentages_append (outside_normalizeTemperatures h),
    normalizePercentages_text, ← List.append_assoc,
    normalizePlainDigits_around percentage.spoken_words percentage.words_ne_nil]
  rfl

/-- Percentages and temperatures agree with plain numbers, in any context. -/
theorem normalizeNumbers_in_context (h : ∀ c ∈ front.getLast?, Outside c) (value : Value)
    (back : List Char) :
    (∀ mark : PercentSign, normalizeNumbers (front ++ value.text ++ mark.char :: back) =
      normalizeNumbers front ++ "百分之".toList ++ normalizeNumbers value.text ++
        normalizeNumbers back) ∧
    (∀ (minus : Minus) (mark : PercentSign),
      normalizeNumbers (front ++ minus.char :: value.text ++ mark.char :: back) =
        normalizeNumbers front ++ "负百分之".toList ++ normalizeNumbers value.text ++
          normalizeNumbers back) ∧
    (∀ (spaces : Nat) (unit : Celsius),
      normalizeNumbers (front ++ value.text ++ List.replicate spaces ' ' ++ unit.text ++ back) =
        normalizeNumbers front ++ normalizeNumbers value.text ++ '度' :: normalizeNumbers back) ∧
    ∀ (minus : Minus) (spaces : Nat) (unit : Celsius),
      normalizeNumbers
          (front ++ minus.char :: value.text ++ List.replicate spaces ' ' ++ unit.text ++ back) =
        normalizeNumbers front ++ "零下".toList ++ normalizeNumbers value.text ++
          '度' :: normalizeNumbers back := by
  rw [normalizeNumbers_value]
  refine ⟨fun mark => ?_, fun minus mark => ?_, fun spaces unit => ?_,
    fun minus spaces unit => ?_⟩
  · have hread := normalizeNumbers_around_percentage h ⟨none, value, mark⟩ back
    simpa [Percentage.text, Percentage.words, signText] using hread
  · have hread := normalizeNumbers_around_percentage h ⟨some minus, value, mark⟩ back
    simpa [Percentage.text, Percentage.words, signText] using hread
  · have hread := normalizeNumbers_around_temperature h ⟨none, value, spaces, unit⟩ back
    simpa [Temperature.text, Temperature.words, signText] using hread
  · have hread := normalizeNumbers_around_temperature h ⟨some minus, value, spaces, unit⟩ back
    simpa [Temperature.text, Temperature.words, signText] using hread

end

/-- `7.50`. -/
def sevenPointFiveZero : Value where
  integer := ⟨['7'], List.cons_ne_nil _ _, List.all_eq_true.mp rfl⟩
  fraction := some ⟨['5', '0'], List.cons_ne_nil _ _, List.all_eq_true.mp rfl⟩

theorem below_zero_in_context :
    normalizeNumbers (['约'] ++ '-' :: ['7', '.', '5', '0'] ++ [' '] ++ ['°', 'C'] ++ ['5', '%']) =
      normalizeNumbers ['约'] ++ "零下".toList ++ normalizeNumbers ['7', '.', '5', '0'] ++
        '度' :: normalizeNumbers ['5', '%'] := by
  have houtside : ∀ c ∈ ['约'].getLast?, Outside c := by
    rintro c hc
    obtain rfl := Option.some.inj hc
    exact ⟨by decide, by decide, by decide⟩
  have hread := normalizeNumbers_in_context houtside sevenPointFiveZero ['5', '%']
  exact hread.2.2.2 .hyphen 1 .letters

end Dengjen.Pinyin
