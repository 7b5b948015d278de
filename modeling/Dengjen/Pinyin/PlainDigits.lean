import Dengjen.Pinyin.NumberScanners

/-!
# Plain digits in a text

The third scanner reads every run of digits. A run behind a digit and a point is a
fraction, and its point, which is written already, is taken back. `Reads` says what
the scanner writes without its lookbehind: a number is digits with all the fractions
behind them, and four digits before 年 are a year.

## Implementation notes

The scanner carries the text it has passed, last character first, and what it has
written.
-/

namespace Dengjen.Pinyin

/-- The digits of a year. -/
def yearDigits : Nat := 4

/-- What is written behind a run of digits between `before` and `after`. -/
def writeRun (before out run after : List Char) : List Char :=
  let isYear := byteLength run == yearDigits && after.head? == some '年'
  let isFraction := before.head? == some '.' && before.tail.head?.any Char.isDigit
  if isFraction then out.dropLast ++ '点' :: readDigitByDigit run
  else if isYear then out ++ readDigitByDigit run
  else out ++ formatInteger run

theorem length_dropWhile_lt {c : Char} {rest : List Char} :
    (rest.dropWhile Char.isDigit).length < (c :: rest).length :=
  Nat.lt_succ_of_le (List.dropWhile_suffix _).length_le

/-- The loop of `normalize_plain_digits` behind the characters `before`. -/
def plainDigitsFrom (before out : List Char) : List Char → List Char
  | [] => out
  | current :: rest =>
      if current.isDigit then
        let run := current :: rest.takeWhile Char.isDigit
        let after := rest.dropWhile Char.isDigit
        plainDigitsFrom (run.reverse ++ before) (writeRun before out run after) after
      else plainDigitsFrom (current :: before) (out ++ [current]) rest
termination_by text => text.length
decreasing_by
  · exact length_dropWhile_lt
  · exact Nat.lt_succ_self _

/-- Reads the numbers of a text that are neither temperatures nor percentages. -/
def normalizePlainDigits (text : List Char) : List Char := plainDigitsFrom [] [] text

/-- Reads all numbers of a text. -/
def normalizeNumbers (text : List Char) : List Char :=
  normalizePlainDigits (normalizePercentages (normalizeTemperatures text))

/-! ## Numbers and years -/

/-- The parts behind the points, as they are written. -/
def pointedText (parts : List DigitString) : List Char :=
  parts.flatMap fun digits => '.' :: digits.chars

/-- The parts behind the points, as they are read. -/
def pointedWords (parts : List DigitString) : List Char :=
  parts.flatMap fun digits => '点' :: readDigitByDigit digits.chars

/-- Digits, and any number of points with digits behind them. -/
structure Number where
  integer : DigitString
  parts : List DigitString

/-- A number does not go on behind its last digit. -/
structure Closed (rest : List Char) : Prop where
  digit : NoDigit rest
  fraction : NoFraction rest

namespace Number

/-- A number as it is written. -/
def text (number : Number) : List Char := number.integer.chars ++ pointedText number.parts

/-- A number as it is read. -/
def words (number : Number) : List Char :=
  formatInteger number.integer.chars ++ pointedWords number.parts

/-- A number of four digits in front of the word for year. -/
def IsYear (number : Number) (rest : List Char) : Prop :=
  number.parts = [] ∧ number.integer.chars.length = yearDigits ∧ rest.head? = some '年'

end Number

/-- What is written for a text. -/
inductive Reads : List Char → List Char → Prop
  | nil : Reads [] []
  | char {c rest out} (h : c.isDigit = false) (tail : Reads rest out) : Reads (c :: rest) (c :: out)
  | number (number : Number) {rest out} (hclosed : Closed rest) (hyear : ¬ number.IsYear rest)
      (tail : Reads rest out) : Reads (number.text ++ rest) (number.words ++ out)
  | year (digits : DigitString) {rest out} (hlength : digits.chars.length = yearDigits)
      (tail : Reads ('年' :: rest) out) :
      Reads (digits.chars ++ '年' :: rest) (readDigitByDigit digits.chars ++ out)

section

variable {before out rest text : List Char}

/-! ## The loop over a number -/

theorem plainDigitsFrom_char {c : Char} (h : c.isDigit = false) :
    plainDigitsFrom before out (c :: rest) = plainDigitsFrom (c :: before) (out ++ [c]) rest := by
  rw [plainDigitsFrom, if_neg (by simp [h])]

theorem plainDigitsFrom_digits (digits : DigitString) (h : NoDigit rest) :
    plainDigitsFrom before out (digits.chars ++ rest) =
      plainDigitsFrom (digits.chars.reverse ++ before) (writeRun before out digits.chars rest)
        rest := by
  obtain ⟨c, chars, hchars⟩ := List.exists_cons_of_ne_nil digits.ne_nil
  have hc : c.isDigit = true := digits.isDigit c (hchars ▸ List.mem_cons_self)
  have htake := takeWhile_digits digits h
  have hdrop := dropWhile_digits digits h
  rw [hchars, List.cons_append, List.takeWhile_cons_of_pos hc] at htake
  rw [hchars, List.cons_append, List.dropWhile_cons_of_pos hc] at hdrop
  rw [hchars, List.cons_append, plainDigitsFrom, if_pos hc]
  dsimp only
  rw [htake, hdrop]

theorem any_head_reverse_append (digits : DigitString) (before : List Char) :
    (digits.chars.reverse ++ before).head?.any Char.isDigit := by
  obtain ⟨c, chars, hchars⟩ :=
    List.exists_cons_of_ne_nil (List.reverse_ne_nil_iff.mpr digits.ne_nil)
  rw [hchars]
  apply digits.isDigit c
  rw [← List.mem_reverse, hchars]
  exact List.mem_cons_self

theorem noDigit_pointedText_append (parts : List DigitString) (h : NoDigit rest) :
    NoDigit (pointedText parts ++ rest) := by
  cases parts with
  | nil => exact h
  | cons digits parts =>
      rintro c hc
      obtain rfl := Option.some.inj hc
      rfl

theorem writeRun_of_fraction {run after : List Char} (hbefore : before.head?.any Char.isDigit) :
    writeRun ('.' :: before) (out ++ ['.']) run after = out ++ '点' :: readDigitByDigit run := by
  simp [writeRun, hbefore]

/-- The fractions behind a digit. -/
theorem plainDigitsFrom_pointed (parts : List DigitString) (hclosed : Closed rest)
    (hbefore : before.head?.any Char.isDigit) :
    plainDigitsFrom before out (pointedText parts ++ rest) =
      plainDigitsFrom ((pointedText parts).reverse ++ before) (out ++ pointedWords parts) rest := by
  induction parts generalizing before out with
  | nil => simp [pointedText, pointedWords]
  | cons digits parts ih =>
      have htext : pointedText (digits :: parts) ++ rest =
          '.' :: (digits.chars ++ (pointedText parts ++ rest)) := by
        simp [pointedText]
      rw [htext, plainDigitsFrom_char rfl,
        plainDigitsFrom_digits digits (noDigit_pointedText_append parts hclosed.digit),
        writeRun_of_fraction hbefore, ih (any_head_reverse_append digits _)]
      simp [pointedText, pointedWords]

theorem writeRun_of_not_fraction {run after : List Char}
    (h : (before.head? == some '.' && before.tail.head?.any Char.isDigit) = false) :
    writeRun before out run after =
      if byteLength run == yearDigits && after.head? == some '年' then out ++ readDigitByDigit run
      else out ++ formatInteger run := by
  rw [writeRun, if_neg (by rw [h]; decide)]

/-- What stands before a text makes no fraction of the digits that the text starts with. -/
structure Fresh (before text : List Char) : Prop where
  digit : text.head?.any Char.isDigit →
    (before.head? == some '.' && before.tail.head?.any Char.isDigit) = false
  fraction : before.head?.any Char.isDigit → NoFraction text

theorem Fresh.start (text : List Char) : Fresh [] text where
  digit _ := rfl
  fraction h := by cases h

theorem Fresh.char {c : Char} (hc : c.isDigit = false) (h : Fresh before (c :: rest)) :
    Fresh (c :: before) rest where
  digit hdigit := by
    obtain ⟨d, hd, hdigit⟩ := (Option.any_eq_true _ _).mp hdigit
    by_contra hfraction
    rw [Bool.not_eq_false, Bool.and_eq_true] at hfraction
    obtain ⟨hpoint, hbefore⟩ := hfraction
    obtain rfl : c = '.' := by simpa using hpoint
    rw [h.fraction hbefore rest rfl d hd] at hdigit
    cases hdigit
  fraction hdigit := by
    change c.isDigit = true at hdigit
    rw [hc] at hdigit
    cases hdigit

theorem Closed.fresh (h : Closed rest) (before : List Char) : Fresh before rest where
  digit hdigit := by
    obtain ⟨c, hc, hdigit⟩ := (Option.any_eq_true _ _).mp hdigit
    rw [h.digit c hc] at hdigit
    cases hdigit
  fraction _ := h.fraction

theorem any_head_append (digits : DigitString) (rest : List Char) :
    (digits.chars ++ rest).head?.any Char.isDigit := by
  obtain ⟨c, chars, hchars⟩ := List.exists_cons_of_ne_nil digits.ne_nil
  rw [hchars]
  exact digits.isDigit c (hchars ▸ List.mem_cons_self)

theorem head_pointedText_ne {parts : List DigitString} (hparts : parts ≠ []) :
    (pointedText parts ++ rest).head? ≠ some '年' := by
  obtain ⟨digits, parts, rfl⟩ := List.exists_cons_of_ne_nil hparts
  intro h
  exact absurd (Option.some.inj h) (by decide)

/-- The loop over a number that is not a year. -/
theorem plainDigitsFrom_number {number : Number} (hclosed : Closed rest)
    (hyear : ¬ number.IsYear rest) (hfresh : Fresh before (number.text ++ rest)) :
    plainDigitsFrom before out (number.text ++ rest) =
      plainDigitsFrom (number.text.reverse ++ before) (out ++ number.words) rest := by
  have htext : number.text ++ rest =
      number.integer.chars ++ (pointedText number.parts ++ rest) := by
    rw [Number.text, List.append_assoc]
  have hwritten : writeRun before out number.integer.chars (pointedText number.parts ++ rest) =
      out ++ formatInteger number.integer.chars := by
    rw [htext] at hfresh
    rw [writeRun_of_not_fraction (hfresh.digit (any_head_append _ _)), if_neg]
    rw [Bool.and_eq_true, beq_iff_eq, beq_iff_eq, number.integer.byteLength_eq]
    rintro ⟨hlength, hhead⟩
    by_cases hparts : number.parts = []
    · rw [hparts] at hhead
      exact hyear ⟨hparts, hlength, hhead⟩
    · exact head_pointedText_ne hparts hhead
  rw [htext, plainDigitsFrom_digits _ (noDigit_pointedText_append _ hclosed.digit), hwritten,
    plainDigitsFrom_pointed _ hclosed (any_head_reverse_append _ _)]
  simp [Number.text, Number.words]

theorem closed_year (rest : List Char) : Closed ('年' :: rest) where
  digit c hc := by
    obtain rfl := Option.some.inj hc
    rfl
  fraction tail h := absurd (List.cons.inj h).1 (by decide)

theorem plainDigitsFrom_year {digits : DigitString} (hlength : digits.chars.length = yearDigits)
    (hfresh : Fresh before (digits.chars ++ '年' :: rest)) :
    plainDigitsFrom before out (digits.chars ++ '年' :: rest) =
      plainDigitsFrom (digits.chars.reverse ++ before) (out ++ readDigitByDigit digits.chars)
        ('年' :: rest) := by
  rw [plainDigitsFrom_digits digits (closed_year rest).digit,
    writeRun_of_not_fraction (hfresh.digit (any_head_append _ _)), if_pos]
  rw [Bool.and_eq_true, beq_iff_eq, beq_iff_eq, digits.byteLength_eq]
  exact ⟨hlength, rfl⟩

/-- The loop writes what `Reads` says, where no number is under way. -/
theorem plainDigitsFrom_of_reads {words : List Char} (h : Reads text words) :
    ∀ before out, Fresh before text → plainDigitsFrom before out text = out ++ words := by
  induction h with
  | nil =>
      intro before out _
      rw [plainDigitsFrom, List.append_nil]
  | char hc _ ih =>
      intro before out hfresh
      rw [plainDigitsFrom_char hc, ih _ _ (hfresh.char hc), List.append_assoc]
      rfl
  | number number hclosed hyear _ ih =>
      intro before out hfresh
      rw [plainDigitsFrom_number hclosed hyear hfresh, ih _ _ (hclosed.fresh _), List.append_assoc]
  | year digits hlength _ ih =>
      intro before out hfresh
      rw [plainDigitsFrom_year hlength hfresh, ih _ _ ((closed_year _).fresh _), List.append_assoc]

theorem normalizePlainDigits_of_reads {words : List Char} (h : Reads text words) :
    normalizePlainDigits text = words :=
  plainDigitsFrom_of_reads h [] [] (Fresh.start text)

/-! ## Every text is read -/

theorem exists_pointed (h : NoDigit text) : ∃ parts rest,
    text = pointedText parts ++ rest ∧ Closed rest := by
  induction hlen : text.length using Nat.strong_induction_on generalizing text with
  | _ n ih =>
      obtain ⟨fraction, rest, htext, hdigit, hfraction⟩ := exists_fraction h
      cases fraction with
      | none => exact ⟨[], rest, htext, hdigit, hfraction rfl⟩
      | some digits =>
          have hshort : rest.length < n := by
            rw [← hlen, htext]
            simp
          obtain ⟨parts, rest', hrest, hclosed⟩ := ih _ hshort hdigit rfl
          refine ⟨digits :: parts, rest', ?_, hclosed⟩
          rw [htext, hrest]
          simp [pointedText]

theorem exists_reads (text : List Char) : ∃ words, Reads text words := by
  induction hlen : text.length using Nat.strong_induction_on generalizing text with
  | _ n ih =>
      cases text with
      | nil => exact ⟨[], .nil⟩
      | cons c tail =>
          cases hc : c.isDigit with
          | false =>
              obtain ⟨words, hwords⟩ := ih _ (hlen ▸ Nat.lt_succ_self _) tail rfl
              exact ⟨c :: words, .char hc hwords⟩
          | true =>
              have hdigits : (c :: tail).takeWhile Char.isDigit ≠ [] := by
                rw [List.takeWhile_cons_of_pos hc]
                exact List.cons_ne_nil _ _
              obtain ⟨integer, -, hinteger⟩ := exists_digits hdigits
              obtain ⟨parts, rest, hafter, hclosed⟩ :=
                exists_pointed (noDigit_dropWhile (c :: tail))
              have htext : c :: tail = (Number.mk integer parts).text ++ rest := by
                rw [hinteger, hafter, Number.text, List.append_assoc]
              have hshort : rest.length < n := by
                have hpos : 0 < (Number.mk integer parts).integer.chars.length :=
                  List.length_pos_iff.mpr integer.ne_nil
                rw [← hlen, htext, Number.text, List.length_append, List.length_append]
                omega
              obtain ⟨words, hwords⟩ := ih _ hshort rest rfl
              rw [htext]
              by_cases hyear : (Number.mk integer parts).IsYear rest
              · obtain ⟨hparts, hlength, hhead⟩ := hyear
                obtain ⟨rest, rfl⟩ := List.head?_eq_some_iff.mp hhead
                obtain rfl : parts = [] := hparts
                refine ⟨readDigitByDigit integer.chars ++ words, ?_⟩
                simpa [Number.text, pointedText] using Reads.year integer hlength hwords
              · exact ⟨_, .number _ hclosed hyear hwords⟩

theorem reads_normalizePlainDigits (text : List Char) :
    Reads text (normalizePlainDigits text) := by
  obtain ⟨words, hwords⟩ := exists_reads text
  rwa [normalizePlainDigits_of_reads hwords]

/-! ## Texts side by side -/

/-- No number goes on into the text. -/
def Apart (back : List Char) : Prop := ∀ c ∈ back.head?, c.isDigit = false ∧ c ≠ '.' ∧ c ≠ '年'

variable {front back words : List Char}

theorem Closed.append (h : Closed rest) (hback : Apart back) : Closed (rest ++ back) where
  digit := by
    cases rest with
    | nil => exact fun c hc => (hback c hc).1
    | cons d rest => exact h.digit
  fraction tail htail := by
    match rest, h with
    | [], _ =>
        obtain rfl : back = '.' :: tail := htail
        exact absurd rfl (hback '.' rfl).2.1
    | [d], _ =>
        obtain rfl : back = tail := (List.cons.inj htail).2
        exact fun c hc => (hback c hc).1
    | d :: e :: rest, h =>
        obtain ⟨rfl, rfl⟩ := List.cons.inj htail
        exact h.fraction (e :: rest) rfl

theorem not_isYear_append {number : Number} (h : ¬ number.IsYear rest) (hback : Apart back) :
    ¬ number.IsYear (rest ++ back) := by
  rintro ⟨hparts, hlength, hhead⟩
  cases rest with
  | nil => exact (hback '年' hhead).2.2 rfl
  | cons c rest => exact h ⟨hparts, hlength, hhead⟩

theorem Reads.append (hfront : Reads front words) (hback : Reads back out) (h : Apart back) :
    Reads (front ++ back) (words ++ out) := by
  induction hfront with
  | nil => exact hback
  | char hc _ ih => exact .char hc ih
  | number number hclosed hyear _ ih =>
      rw [List.append_assoc, List.append_assoc]
      exact .number number (hclosed.append h) (not_isYear_append hyear h) ih
  | year digits hlength _ ih =>
      rw [List.append_assoc, List.append_assoc]
      exact .year digits hlength ih

theorem Reads.chars_append (h : Reads text out) (hfront : ∀ c ∈ front, c.isDigit = false) :
    Reads (front ++ text) (front ++ out) := by
  induction front with
  | nil => exact h
  | cons c front ih =>
      rw [List.forall_mem_cons] at hfront
      exact .char hfront.1 (ih hfront.2)

end

end Dengjen.Pinyin
