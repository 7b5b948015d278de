import Dengjen.Pinyin.PlainDigits

/-!
# Numbers among other text

What the scanners do with a front does not depend on the text behind it, where no
value goes on from the one into the other. Words that a scanner has written part the
text for the scanners that run after it.
-/

namespace Dengjen.Pinyin

/-- A character that is no part of a value or of its sign. -/
structure Outside (c : Char) : Prop where
  digit : c.isDigit = false
  point : c ≠ '.'
  minus : isMinus c = false

/-- The last character is no part of a value. -/
def EndsOutside (front : List Char) : Prop := ∃ c ∈ front.getLast?, Outside c

/-- No value goes on into the text. -/
def NoValue (back : List Char) : Prop := ∀ c ∈ back.head?, c.isDigit = false ∧ c ≠ '.'

section Values

variable {front back rest tail : List Char} {a : Char} {value : Value}

theorem EndsOutside.of_append (h : EndsOutside (front ++ rest))
    (hfront : ∃ c ∈ front.getLast?, ¬ Outside c) : EndsOutside rest := by
  obtain ⟨c, hc, houtside⟩ := h
  rw [List.getLast?_append] at hc
  cases hrest : rest.getLast? with
  | none =>
      obtain ⟨d, hd, hinside⟩ := hfront
      rw [hrest, Option.none_or, hd] at hc
      obtain rfl := Option.some.inj hc
      exact absurd houtside hinside
  | some d =>
      rw [hrest, Option.some_or] at hc
      exact ⟨d, hrest, Option.some.inj hc ▸ houtside⟩

theorem EndsOutside.ne_nil (h : EndsOutside rest) : rest ≠ [] := by
  rintro rfl
  obtain ⟨c, hc, -⟩ := h
  cases hc

theorem NoDigit.append (h : NoDigit rest) (hback : EndsOutside rest ∨ NoValue back) :
    NoDigit (rest ++ back) := by
  cases rest with
  | nil =>
      rcases hback with ⟨c, hc, -⟩ | hback
      · cases hc
      · exact fun c hc => (hback c hc).1
  | cons c rest => exact h

theorem NoFraction.append (h : NoFraction rest) (hback : EndsOutside rest ∨ NoValue back) :
    NoFraction (rest ++ back) := by
  intro tail htail
  match rest, h with
  | [], _ =>
      rcases hback with ⟨c, hc, -⟩ | hback
      · cases hc
      · exact absurd rfl (hback '.' (by rw [show back = '.' :: tail from htail]; rfl)).2
  | [c], _ =>
      obtain ⟨rfl, rfl⟩ := List.cons.inj htail
      rcases hback with ⟨d, hd, houtside⟩ | hback
      · exact absurd (Option.some.inj hd).symm houtside.point
      · exact fun c hc => (hback c hc).1
  | c :: d :: rest, h =>
      obtain ⟨rfl, rfl⟩ := List.cons.inj htail
      exact h (d :: rest) rfl

theorem Ends.append (h : Ends value rest) (hback : EndsOutside rest ∨ NoValue back) :
    Ends value (rest ++ back) where
  digit := h.digit.append hback
  fraction hnone := (h.fraction hnone).append hback

theorem not_outside_of_isDigit (h : a.isDigit) : ¬ Outside a := by
  intro houtside
  rw [houtside.digit] at h
  cases h

theorem exists_getLast_digits (front : List Char) (digits : DigitString) :
    ∃ c ∈ (front ++ digits.chars).getLast?, ¬ Outside c := by
  refine ⟨digits.chars.getLast digits.ne_nil, ?_, ?_⟩
  · rw [List.getLast?_append_of_ne_nil _ digits.ne_nil]
    exact List.getLast?_eq_some_getLast digits.ne_nil
  · exact not_outside_of_isDigit (digits.isDigit _ (List.getLast_mem digits.ne_nil))

theorem exists_getLast_value (front : List Char) (value : Value) :
    ∃ c ∈ (front ++ value.text).getLast?, ¬ Outside c := by
  rw [Value.text]
  cases value.fraction with
  | none =>
      rw [Option.elim_none, List.append_nil]
      exact exists_getLast_digits front value.integer
  | some digits =>
      rw [Option.elim_some, List.append_cons, ← List.append_assoc]
      exact exists_getLast_digits _ digits

/-- Where no digits are found, none are found in front of other text. -/
theorem integer_eq_nil_append (h : (scanValue (a :: tail)).integer = [])
    (hback : EndsOutside (a :: tail) ∨ NoValue back) :
    (scanValue (a :: (tail ++ back))).integer = [] := by
  rw [integer_scanValue_eq_nil_iff] at h ⊢
  cases ha : isMinus a with
  | true =>
      rw [ha, if_pos rfl] at h
      rw [if_pos rfl]
      have hsign : ∃ c ∈ [a].getLast?, ¬ Outside c := by
        refine ⟨a, rfl, fun houtside => ?_⟩
        rw [houtside.minus] at ha
        cases ha
      exact h.append (hback.imp_left fun hends => EndsOutside.of_append hends hsign)
  | false =>
      rw [ha, if_neg (by decide)] at h
      rw [if_neg (by decide)]
      exact h

/-- Where a value is found, it is found in front of other text. -/
theorem ends_append {sign : Option Minus}
    (htext : a :: tail = signText sign ++ value.text ++ rest) (h : Ends value rest)
    (hback : EndsOutside (a :: tail) ∨ NoValue back) :
    a :: (tail ++ back) = signText sign ++ value.text ++ (rest ++ back) ∧
      Ends value (rest ++ back) := by
  constructor
  · rw [← List.cons_append, htext, List.append_assoc]
  · apply h.append
    rw [htext] at hback
    exact hback.imp_left fun hends => hends.of_append (exists_getLast_value _ value)

end Values

section Locality

variable {front back rest tail : List Char} {a : Char}

theorem endsOutside_of_suffix (hsuffix : a :: tail <:+ front)
    (h : ∀ c ∈ front.getLast?, Outside c) : EndsOutside (a :: tail) := by
  obtain ⟨before, rfl⟩ := hsuffix
  have hne : a :: tail ≠ [] := List.cons_ne_nil a tail
  have hlast := List.getLast?_eq_some_getLast hne
  refine ⟨_, hlast, h _ ?_⟩
  rw [List.getLast?_append_of_ne_nil _ hne]
  exact hlast

theorem percentEnd_append (h : rest ≠ [] ∨ percentEnd back = none) :
    percentEnd (rest ++ back) = (percentEnd rest).map (· ++ back) := by
  cases rest with
  | nil => exact h.resolve_left (absurd rfl)
  | cons c rest =>
      rw [List.cons_append, percentEnd, percentEnd]
      split <;> rfl

/-- No unit goes on into the text. -/
def NoUnit (back : List Char) : Prop :=
  ∀ c ∈ back.head?, c ≠ ' ' ∧ ∀ unit : Celsius, c ∉ unit.text

theorem celsiusEnd_append (h : NoUnit back) :
    celsiusEnd (rest ++ back) = (celsiusEnd rest).map (· ++ back) := by
  cases hrest : celsiusEnd rest with
  | some rest' =>
      obtain ⟨spaces, unit, rfl⟩ := celsiusEnd_eq_some_iff.mp hrest
      exact celsiusEnd_eq_some_iff.mpr ⟨spaces, unit, List.append_assoc _ _ _⟩
  | none =>
      rw [Option.map_none, Option.eq_none_iff_forall_not_mem]
      intro rest' hrest'
      obtain ⟨spaces, unit, htext⟩ := celsiusEnd_eq_some_iff.mp hrest'
      have hnone : ∀ more, rest ≠ List.replicate spaces ' ' ++ unit.text ++ more := by
        intro more hunit
        have hfound : celsiusEnd rest = some more :=
          celsiusEnd_eq_some_iff.mpr ⟨spaces, unit, hunit⟩
        rw [hrest] at hfound
        cases hfound
      -- The unit ends in what follows, or it stands in the rest as a whole.
      rcases List.append_eq_append_iff.mp htext with ⟨more, hunit, hback⟩ | ⟨more, hunit, -⟩
      · cases more with
        | nil => exact hnone [] (by simpa using hunit.symm)
        | cons c more =>
            obtain ⟨hspace, hletter⟩ := h c (by rw [hback]; rfl)
            have hc : c ∈ List.replicate spaces ' ' ++ unit.text := by
              rw [hunit]
              exact List.mem_append_right _ List.mem_cons_self
            rcases List.mem_append.mp hc with hc | hc
            · exact hspace (List.eq_of_mem_replicate hc)
            · exact hletter unit hc
      · exact hnone more hunit

theorem percentageStep_append
    (h : EndsOutside (a :: tail) ∨ NoValue back ∧ percentEnd back = none) :
    percentageStep a (tail ++ back) =
      ((percentageStep a tail).1, (percentageStep a tail).2 ++ back) := by
  have hvalue : EndsOutside (a :: tail) ∨ NoValue back := h.imp_right And.left
  rcases scanned (a :: tail) with hempty | ⟨sign, value, rest, htext, hends⟩
  · rw [percentageStep_of_empty hempty,
      percentageStep_of_empty (integer_eq_nil_append hempty hvalue)]
  · obtain ⟨htext', hends'⟩ := ends_append htext hends hvalue
    have hrest : rest ≠ [] ∨ percentEnd back = none := by
      refine h.imp (fun houtside => ?_) And.right
      rw [htext] at houtside
      exact (houtside.of_append (exists_getLast_value _ value)).ne_nil
    rw [percentageStep_of_value htext hends, percentageStep_of_value htext' hends',
      percentEnd_append hrest]
    cases percentEnd rest <;> rfl

theorem temperatureStep_append (h : EndsOutside (a :: tail)) (hback : NoUnit back) :
    temperatureStep a (tail ++ back) =
      ((temperatureStep a tail).1, (temperatureStep a tail).2 ++ back) := by
  rcases scanned (a :: tail) with hempty | ⟨sign, value, rest, htext, hends⟩
  · rw [temperatureStep_of_empty hempty,
      temperatureStep_of_empty (integer_eq_nil_append hempty (.inl h))]
  · obtain ⟨htext', hends'⟩ := ends_append htext hends (.inl h)
    rw [temperatureStep_of_value htext hends, temperatureStep_of_value htext' hends',
      celsiusEnd_append hback]
    cases celsiusEnd rest <;> rfl

theorem local_percentages
    (h : (∀ c ∈ front.getLast?, Outside c) ∨ NoValue back ∧ percentEnd back = none) :
    percentages.Local front back :=
  fun _ _ hsuffix => percentageStep_append (h.imp_left (endsOutside_of_suffix hsuffix))

theorem local_temperatures (h : ∀ c ∈ front.getLast?, Outside c) (hback : NoUnit back) :
    temperatures.Local front back :=
  fun _ _ hsuffix => temperatureStep_append (endsOutside_of_suffix hsuffix h) hback

end Locality

/-! ## Words that are written already -/

/-- The characters of the words that are written for numbers. -/
def numberWords : List Char := [
  '零', '一', '二', '三', '四', '五', '六', '七', '八', '九',
  '十', '百', '千', '万', '点', '度', '负', '下', '分', '之']

/-- A text that could be part of a reading. -/
def Spoken (words : List Char) : Prop := ∀ c ∈ words, c ∈ numberWords

section Words

variable {words front : List Char}

theorem spoken_of_all (h : words.all (fun c => numberWords.contains c) = true) : Spoken words := by
  intro c hc
  simpa using List.all_eq_true.mp h c hc

theorem spoken_nil : Spoken [] := spoken_of_all (by decide)

theorem spoken_point : Spoken ['点'] := spoken_of_all (by decide)

theorem Spoken.append {words' : List Char} (h : Spoken words) (h' : Spoken words') :
    Spoken (words ++ words') := List.forall_mem_append.mpr ⟨h, h'⟩

theorem spoken_ite {p : Prop} [Decidable p] {words' : List Char} (h : Spoken words)
    (h' : Spoken words') : Spoken (if p then words else words') := by
  split
  · exact h
  · exact h'

theorem digitToWord_mem (d : Nat) : digitToWord d ∈ numberWords := by
  rw [digitToWord, List.getD_eq_getElem?_getD]
  cases hword : digitWords[d]? with
  | none => decide
  | some word => exact spoken_of_all (by decide) word (List.mem_of_getElem? hword)

theorem spoken_readDigitByDigit (digits : List Char) : Spoken (readDigitByDigit digits) := by
  intro c hc
  obtain ⟨d, -, rfl⟩ := List.mem_map.mp hc
  exact digitToWord_mem d

theorem spoken_sectionPlace {written : List Char × Bool} {place : Nat × Option Char}
    (hwritten : Spoken written.1) (hplace : Spoken place.2.toList) :
    Spoken (sectionPlace written place).1 := by
  rw [sectionPlace]
  split
  · exact hwritten
  · have hzero : Spoken (if written.2 then ['零'] else []) :=
      spoken_ite (spoken_of_all (by decide)) spoken_nil
    have hword : Spoken (digitToWord place.1 :: place.2.toList) :=
      List.forall_mem_cons.mpr ⟨digitToWord_mem _, hplace⟩
    exact (hwritten.append hzero).append hword

theorem spoken_foldl_sectionPlace {places : List (Nat × Option Char)} {written : List Char × Bool}
    (hplaces : ∀ place ∈ places, Spoken place.2.toList) (hwritten : Spoken written.1) :
    Spoken (places.foldl sectionPlace written).1 := by
  induction places generalizing written with
  | nil => exact hwritten
  | cons place places ih =>
      rw [List.forall_mem_cons] at hplaces
      exact ih hplaces.2 (spoken_sectionPlace hwritten hplaces.1)

theorem spoken_formatSection (n : Nat) : Spoken (formatSection n) := by
  apply spoken_foldl_sectionPlace _ spoken_nil
  simp only [List.forall_mem_cons]
  refine ⟨spoken_of_all (by decide), spoken_of_all (by decide), spoken_of_all (by decide),
    spoken_nil, ?_⟩
  exact fun _ h => absurd h (by simp)

/-- The end of a cardinal. -/
theorem spoken_dropPrefix (h : Spoken words) :
    Spoken (match words.dropPrefix? "一十".toList with
      | some rest => '十' :: rest
      | none => if words = [] then [digitToWord 0] else words) := by
  split
  · rename_i rest hdrop
    obtain ⟨prefixed, rfl, -⟩ := List.dropPrefix?_eq_some_iff.mp hdrop
    have hrest : Spoken rest := fun c hc => h c (List.mem_append_right _ hc)
    have hten : Spoken ['十'] := spoken_of_all (by decide)
    exact hten.append hrest
  · exact spoken_ite (spoken_of_all (by decide)) h

theorem spoken_formatCardinal (n : Nat) : Spoken (formatCardinal n) := by
  have hgap : Spoken (if n % 10000 > 0 ∧ n % 10000 < 1000 then ['零'] else []) :=
    spoken_ite (spoken_of_all (by decide)) spoken_nil
  have hmyriad : Spoken ['万'] := spoken_of_all (by decide)
  have hhigh := (spoken_formatSection (n / 10000)).append (hmyriad.append hgap)
  have hout := spoken_ite (p := n / 10000 > 0) hhigh spoken_nil
  rw [formatCardinal]
  exact spoken_dropPrefix (spoken_ite (hout.append (spoken_formatSection _)) hout)

theorem spoken_formatInteger (digits : List Char) : Spoken (formatInteger digits) := by
  rw [formatInteger]
  split
  · exact spoken_readDigitByDigit digits
  · split
    · exact spoken_formatCardinal _
    · exact spoken_readDigitByDigit digits

theorem spoken_valueWords (integer fraction : List Char) :
    Spoken (valueWords integer fraction) := by
  have hfraction := spoken_point.append (spoken_readDigitByDigit fraction)
  exact (spoken_formatInteger integer).append (spoken_ite spoken_nil hfraction)

theorem spoken_pointedWords (parts : List DigitString) : Spoken (pointedWords parts) := by
  intro c hc
  obtain ⟨digits, -, hc⟩ := List.mem_flatMap.mp hc
  exact spoken_point.append (spoken_readDigitByDigit digits.chars) c hc

theorem Temperature.spoken_words (temperature : Temperature) : Spoken temperature.words := by
  have hsign : Spoken (if temperature.sign.isSome then "零下".toList else []) :=
    spoken_ite (spoken_of_all (by decide)) spoken_nil
  have hdegrees : Spoken ['度'] := spoken_of_all (by decide)
  exact (hsign.append (spoken_valueWords _ _)).append hdegrees

theorem Percentage.spoken_words (percentage : Percentage) : Spoken percentage.words := by
  have hsign : Spoken (if percentage.sign.isSome then "负百分之".toList else "百分之".toList) :=
    spoken_ite (spoken_of_all (by decide)) (spoken_of_all (by decide))
  exact hsign.append (spoken_valueWords _ _)

/-- None of the scanners stops at the character. -/
def isPlainWord (c : Char) : Bool :=
  !c.isDigit && c != '.' && !isMinus c && c != '年' && !(c == '%' || c == '\uFF05')

theorem isPlainWord_of_mem {c : Char} (h : c ∈ numberWords) : isPlainWord c = true := by
  have hall : numberWords.all isPlainWord = true := by decide
  exact List.all_eq_true.mp hall c h

theorem outside_of_mem {c : Char} (h : c ∈ numberWords) : Outside c := by
  have hplain := isPlainWord_of_mem h
  simp only [isPlainWord, Bool.and_eq_true, Bool.not_eq_true', bne_iff_ne] at hplain
  exact ⟨hplain.1.1.1.1, hplain.1.1.1.2, hplain.1.1.2⟩

theorem ne_year_of_mem {c : Char} (h : c ∈ numberWords) : c ≠ '年' := by
  have hplain := isPlainWord_of_mem h
  simp only [isPlainWord, Bool.and_eq_true, bne_iff_ne] at hplain
  exact hplain.1.2

theorem percentEnd_word {c : Char} (h : c ∈ numberWords) (rest : List Char) :
    percentEnd (c :: rest) = none := by
  have hplain := isPlainWord_of_mem h
  simp only [isPlainWord, Bool.and_eq_true] at hplain
  have hmark := hplain.2
  rw [Bool.not_eq_true'] at hmark
  rw [percentEnd, if_neg (by rw [hmark]; decide)]

theorem Spoken.digit (h : Spoken words) : ∀ c ∈ words, c.isDigit = false :=
  fun c hc => (outside_of_mem (h c hc)).digit

theorem Spoken.head {c : Char} {back : List Char} (h : Spoken words) (hne : words ≠ [])
    (hc : c ∈ (words ++ back).head?) : c ∈ numberWords := by
  obtain ⟨d, words, rfl⟩ := List.exists_cons_of_ne_nil hne
  exact h c (Option.some.inj hc ▸ List.mem_cons_self)

theorem normalizePercentages_words (h : Spoken words) (back : List Char) :
    normalizePercentages (words ++ back) = words ++ normalizePercentages back := by
  induction words with
  | nil => rfl
  | cons c words ih =>
      obtain ⟨hc, hwords⟩ := List.forall_mem_cons.mp h
      have houtside := outside_of_mem hc
      have hempty : (scanValue (c :: (words ++ back))).integer = [] := by
        rw [integer_scanValue_eq_nil_iff, houtside.minus, if_neg (by decide)]
        exact fun d hd => Option.some.inj hd ▸ houtside.digit
      have hstep : percentages.step c (words ++ back) = ([c], words ++ back) :=
        percentageStep_of_empty hempty
      have htail := ih hwords
      rw [normalizePercentages] at htail ⊢
      rw [List.cons_append, Scanner.run_cons, hstep, htail]
      rfl

/-- Words part the text for percentages. -/
theorem normalizePercentages_around (h : Spoken words) (hne : words ≠ [])
    (front back : List Char) : normalizePercentages (front ++ words ++ back) =
      normalizePercentages front ++ words ++ normalizePercentages back := by
  have hlocal : percentages.Local front (words ++ back) := by
    refine local_percentages (.inr ⟨fun c hc => ?_, ?_⟩)
    · have hout := outside_of_mem (h.head hne hc)
      exact ⟨hout.digit, hout.point⟩
    · obtain ⟨c, words, rfl⟩ := List.exists_cons_of_ne_nil hne
      exact percentEnd_word (h c List.mem_cons_self) (words ++ back)
  have hwords := normalizePercentages_words h back
  rw [normalizePercentages] at hwords ⊢
  rw [List.append_assoc, Scanner.run_append hlocal, hwords, List.append_assoc]
  rfl

/-- Words part the text for plain digits. -/
theorem normalizePlainDigits_around (h : Spoken words) (hne : words ≠ [])
    (front back : List Char) : normalizePlainDigits (front ++ words ++ back) =
      normalizePlainDigits front ++ words ++ normalizePlainDigits back := by
  have hapart : Apart (words ++ back) := by
    intro c hc
    have hword := h.head hne hc
    exact ⟨(outside_of_mem hword).digit, (outside_of_mem hword).point, ne_year_of_mem hword⟩
  have hback := (reads_normalizePlainDigits back).chars_append h.digit
  rw [List.append_assoc, List.append_assoc]
  exact normalizePlainDigits_of_reads ((reads_normalizePlainDigits front).append hback hapart)

end Words

end Dengjen.Pinyin
