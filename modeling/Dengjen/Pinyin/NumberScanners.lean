import Dengjen.General.Scanner
import Dengjen.Pinyin.Numbers
import Mathlib.Data.List.TakeWhile

/-!
# Temperatures and percentages in a text

`normalize_numbers` runs three scanners one after the other. The first two, for
temperatures and percentages, share the grammar of a value, an optional minus sign,
digits and an optional fraction, and differ in the unit they look for behind it.

## Implementation notes

A scanner's position is the text that is left.
-/

namespace Dengjen.Pinyin

/-- A hyphen or a minus sign. -/
def isMinus (c : Char) : Bool := c == '-' || c == '\u2212'

/-- A value at the start of a text: `rest` is what is left behind `value_end`. -/
structure ScannedValue where
  negative : Bool
  integer : List Char
  fraction : List Char
  rest : List Char
  deriving DecidableEq, Repr

/-- The digits behind a point and what follows them, if there are any. -/
def scanFraction (text : List Char) : List Char × List Char :=
  match text with
  | '.' :: tail =>
      if (tail.takeWhile Char.isDigit).isEmpty then ([], text)
      else (tail.takeWhile Char.isDigit, tail.dropWhile Char.isDigit)
  | _ => ([], text)

/-- The longest value that a text starts with, digits or not. -/
def scanValue (text : List Char) : ScannedValue :=
  let negative := text.head?.any isMinus
  let body := if negative then text.tail else text
  let (fraction, rest) := scanFraction (body.dropWhile Char.isDigit)
  { negative := negative
    integer := body.takeWhile Char.isDigit
    fraction := fraction
    rest := rest }

/-- The integer as it is read, then the digits of the fraction one by one. -/
def valueWords (integer fraction : List Char) : List Char :=
  formatInteger integer ++ if fraction.isEmpty then [] else '点' :: readDigitByDigit fraction

/-- What follows spaces and a sign of degrees Celsius. -/
def celsiusEnd (text : List Char) : Option (List Char) :=
  match text.dropWhile (· == ' ') with
  | '\u2103' :: rest => some rest
  | '°' :: 'C' :: rest => some rest
  | _ => none

/-- A value before a sign for degrees is read as a temperature; one before something else is
kept. -/
def temperatureStep (current : Char) (rest : List Char) : List Char × List Char :=
  let value := scanValue (current :: rest)
  if value.integer.isEmpty then ([current], rest)
  else
    match celsiusEnd value.rest with
    | none => ((current :: rest).take ((current :: rest).length - value.rest.length), value.rest)
    | some rest' =>
        ((if value.negative then "零下".toList else []) ++
          valueWords value.integer value.fraction ++ ['度'], rest')

/-- What follows a percent sign. -/
def percentEnd (text : List Char) : Option (List Char) :=
  match text with
  | c :: rest => if c == '%' || c == '\uFF05' then some rest else none
  | [] => none

/-- A value before a percent sign is read as a percentage. -/
def percentageStep (current : Char) (rest : List Char) : List Char × List Char :=
  let value := scanValue (current :: rest)
  if value.integer.isEmpty then ([current], rest)
  else
    match percentEnd value.rest with
    | none => ([current], rest)
    | some rest' =>
        ((if value.negative then "负百分之".toList else "百分之".toList) ++
          valueWords value.integer value.fraction, rest')

/-! ## Values -/

/-- The characters that make a value negative. -/
inductive Minus
  | hyphen
  | minusSign
  deriving DecidableEq, Repr

/-- The character of a sign. -/
def Minus.char : Minus → Char
  | .hyphen => '-'
  | .minusSign => '\u2212'

/-- The text of an optional sign. -/
def signText (sign : Option Minus) : List Char := sign.toList.map Minus.char

/-- Digits, and maybe a point and more digits. -/
structure Value where
  integer : DigitString
  fraction : Option DigitString

namespace Value

/-- The digits behind the point, if any. -/
def fractionChars (value : Value) : List Char := value.fraction.elim [] DigitString.chars

/-- A value as it is written. -/
def text (value : Value) : List Char :=
  value.integer.chars ++ value.fraction.elim [] fun digits => '.' :: digits.chars

/-- A value as it is read. -/
def words (value : Value) : List Char := valueWords value.integer.chars value.fractionChars

end Value

/-- The ways to write degrees Celsius. -/
inductive Celsius
  | sign
  | letters
  deriving DecidableEq, Repr

/-- A unit as it is written. -/
def Celsius.text : Celsius → List Char
  | .sign => ['\u2103']
  | .letters => ['°', 'C']

/-- No digit follows. -/
def NoDigit (rest : List Char) : Prop := ∀ c ∈ rest.head?, c.isDigit = false

/-- No point with a digit behind it follows. -/
def NoFraction (rest : List Char) : Prop := ∀ tail, rest = '.' :: tail → NoDigit tail

/-- A value that is scanned as a whole in front of `rest`. -/
structure Ends (value : Value) (rest : List Char) : Prop where
  digit : NoDigit rest
  fraction : value.fraction = none → NoFraction rest

section Scanning

variable {text rest tail : List Char}

theorem takeWhile_digits (digits : DigitString) (h : NoDigit rest) :
    (digits.chars ++ rest).takeWhile Char.isDigit = digits.chars := by
  rw [List.takeWhile_append_of_pos digits.isDigit]
  cases rest with
  | nil => rw [List.takeWhile_nil, List.append_nil]
  | cons c rest => rw [List.takeWhile_cons_of_neg (by simp [h c rfl]), List.append_nil]

theorem dropWhile_digits (digits : DigitString) (h : NoDigit rest) :
    (digits.chars ++ rest).dropWhile Char.isDigit = rest := by
  rw [List.dropWhile_append_of_pos digits.isDigit]
  cases rest with
  | nil => rfl
  | cons c rest => rw [List.dropWhile_cons_of_neg (by simp [h c rfl])]

theorem isMinus_char (minus : Minus) : isMinus minus.char = true := by
  cases minus <;> decide

theorem isMinus_of_isDigit {c : Char} (h : c.isDigit) : isMinus c = false := by
  rw [isMinus, Bool.or_eq_false_iff, beq_eq_false_iff_ne, beq_eq_false_iff_ne]
  constructor
  · rintro rfl
    exact absurd h (by decide)
  · rintro rfl
    exact absurd h (by decide)

theorem scanFraction_eq {fraction : Option DigitString} (hdigit : NoDigit rest)
    (hfraction : fraction = none → NoFraction rest) :
    scanFraction (fraction.elim [] (fun digits => '.' :: digits.chars) ++ rest) =
      (fraction.elim [] DigitString.chars, rest) := by
  cases fraction with
  | none =>
      simp only [Option.elim_none, List.nil_append]
      unfold scanFraction
      split
      · rename_i tail
        have hnone : (tail.takeWhile Char.isDigit).isEmpty = true := by
          cases tail with
          | nil => rfl
          | cons c tail =>
              rw [List.takeWhile_cons_of_neg (by simp [hfraction rfl _ rfl c rfl])]
              rfl
        rw [if_pos hnone]
      · rfl
  | some digits =>
      have hsome : ¬ digits.chars.isEmpty = true := by simpa using digits.ne_nil
      simp only [Option.elim_some, List.cons_append, scanFraction, takeWhile_digits digits hdigit,
        dropWhile_digits digits hdigit, if_neg hsome]

/-- A value is scanned as a whole. -/
theorem scanValue_eq (sign : Option Minus) (value : Value) (h : Ends value rest) :
    scanValue (signText sign ++ value.text ++ rest) =
      ⟨sign.isSome, value.integer.chars, value.fractionChars, rest⟩ := by
  have hbody : value.text ++ rest = value.integer.chars ++
      (value.fraction.elim [] (fun digits => '.' :: digits.chars) ++ rest) := by
    rw [Value.text, List.append_assoc]
  have hfraction :
      NoDigit (value.fraction.elim [] (fun digits => '.' :: digits.chars) ++ rest) := by
    cases value.fraction with
    | none => exact h.digit
    | some digits =>
        rintro c hc
        obtain rfl := Option.some.inj hc
        rfl
  have hscan := scanFraction_eq h.digit h.fraction
  cases sign with
  | none =>
      have hhead : (value.text ++ rest).head?.any isMinus = false := by
        obtain ⟨c, chars, hchars⟩ := List.exists_cons_of_ne_nil value.integer.ne_nil
        have hdigit := value.integer.isDigit c (hchars ▸ List.mem_cons_self)
        rw [hbody, hchars]
        exact isMinus_of_isDigit hdigit
      change scanValue (value.text ++ rest) = _
      simp only [scanValue, hhead]
      rw [hbody, if_neg (by decide), takeWhile_digits _ hfraction, dropWhile_digits _ hfraction,
        hscan]
      rfl
  | some minus =>
      have hhead : (minus.char :: (value.text ++ rest)).head?.any isMinus = true :=
        isMinus_char minus
      change scanValue (minus.char :: (value.text ++ rest)) = _
      simp only [scanValue, hhead, if_true, List.tail_cons]
      rw [hbody, takeWhile_digits _ hfraction, dropWhile_digits _ hfraction, hscan]
      rfl

theorem noDigit_dropWhile (text : List Char) : NoDigit (text.dropWhile Char.isDigit) := by
  induction text with
  | nil => exact fun c hc => by cases hc
  | cons d text ih =>
      cases hd : d.isDigit with
      | true =>
          rw [List.dropWhile_cons_of_pos hd]
          exact ih
      | false =>
          rw [List.dropWhile_cons_of_neg (by simp [hd])]
          rintro c hc
          rwa [← Option.some.inj hc]

/-- The digits that a text starts with, if it starts with any. -/
theorem exists_digits (h : text.takeWhile Char.isDigit ≠ []) :
    ∃ digits : DigitString, digits.chars = text.takeWhile Char.isDigit ∧
      text = digits.chars ++ text.dropWhile Char.isDigit := by
  refine ⟨⟨_, h, fun c hc => List.mem_takeWhile_imp hc⟩, rfl, ?_⟩
  exact (List.takeWhile_append_dropWhile).symm

/-- The fraction of a text, if it has one. -/
theorem exists_fraction (h : NoDigit text) :
    ∃ (fraction : Option DigitString) (rest : List Char),
      text = fraction.elim [] (fun digits => '.' :: digits.chars) ++ rest ∧
      NoDigit rest ∧ (fraction = none → NoFraction rest) := by
  by_cases hpoint : ∃ tail, text = '.' :: tail ∧ tail.takeWhile Char.isDigit ≠ []
  · obtain ⟨tail, rfl, hdigits⟩ := hpoint
    obtain ⟨digits, -, htail⟩ := exists_digits hdigits
    refine ⟨some digits, tail.dropWhile Char.isDigit, ?_, noDigit_dropWhile tail, ?_⟩
    · rw [Option.elim_some, List.cons_append, ← htail]
    · intro hnone
      cases hnone
  · refine ⟨none, text, rfl, h, ?_⟩
    rintro - tail rfl c hc
    by_contra hdigit
    apply hpoint
    refine ⟨tail, rfl, ?_⟩
    cases tail with
    | nil => cases hc
    | cons d tail =>
        obtain rfl := Option.some.inj hc
        rw [List.takeWhile_cons_of_pos (by simpa using hdigit)]
        exact List.cons_ne_nil _ _

theorem takeWhile_digits_eq_nil_iff : text.takeWhile Char.isDigit = [] ↔ NoDigit text := by
  cases text with
  | nil => exact iff_of_true rfl fun c hc => absurd hc (by simp)
  | cons a text =>
      cases ha : a.isDigit with
      | true =>
          rw [List.takeWhile_cons_of_pos ha]
          refine iff_of_false (List.cons_ne_nil _ _) fun h => ?_
          rw [h a rfl] at ha
          cases ha
      | false =>
          rw [List.takeWhile_cons_of_neg (by simp [ha])]
          exact iff_of_true rfl fun c hc => Option.some.inj hc ▸ ha

theorem integer_scanValue_eq_nil_iff {a : Char} : (scanValue (a :: text)).integer = [] ↔
    NoDigit (if isMinus a then text else a :: text) := takeWhile_digits_eq_nil_iff

theorem exists_minus {c : Char} (h : isMinus c) : ∃ minus : Minus, minus.char = c := by
  rw [isMinus, Bool.or_eq_true, beq_iff_eq, beq_iff_eq] at h
  rcases h with rfl | rfl
  · exact ⟨.hyphen, rfl⟩
  · exact ⟨.minusSign, rfl⟩

/-- A text is its sign, if it has one, and what is searched for digits. -/
theorem exists_body (text : List Char) : ∃ (sign : Option Minus) (body : List Char),
    text = signText sign ++ body ∧ (scanValue text).integer = body.takeWhile Char.isDigit := by
  cases hsign : text.head?.any isMinus with
  | true =>
      obtain ⟨c, hc, hminus⟩ := (Option.any_eq_true _ _).mp hsign
      obtain ⟨minus, rfl⟩ := exists_minus hminus
      refine ⟨some minus, text.tail, (List.cons_head?_tail hc).symm, ?_⟩
      simp only [scanValue, hsign, if_true]
  | false =>
      refine ⟨none, text, rfl, ?_⟩
      simp only [scanValue, hsign, Bool.false_eq_true, if_false]

/-- A text that is scanned as a value starts with one. -/
theorem exists_value (h : (scanValue text).integer ≠ []) :
    ∃ (sign : Option Minus) (value : Value) (rest : List Char),
      text = signText sign ++ value.text ++ rest ∧ Ends value rest := by
  obtain ⟨sign, body, htext, hinteger⟩ := exists_body text
  rw [hinteger] at h
  obtain ⟨integer, -, hbody⟩ := exists_digits h
  obtain ⟨fraction, rest, hafter, hdigit, hpoint⟩ := exists_fraction (noDigit_dropWhile body)
  refine ⟨sign, ⟨integer, fraction⟩, rest, ?_, hdigit, hpoint⟩
  rw [htext, hbody, hafter]
  simp [Value.text]

theorem signText_append_text_ne_nil (sign : Option Minus) (value : Value) :
    signText sign ++ value.text ≠ [] := by
  rw [Value.text, ← List.append_assoc]
  exact List.append_ne_nil_of_left_ne_nil
    (List.append_ne_nil_of_right_ne_nil _ value.integer.ne_nil) _

theorem suffix_of_cons_eq_append {c : Char} {front : List Char} (hne : front ≠ [])
    (h : c :: text = front ++ rest) : rest <:+ text := by
  obtain ⟨d, front, rfl⟩ := List.exists_cons_of_ne_nil hne
  exact ⟨front, (List.cons.inj h).2.symm⟩

theorem celsiusEnd_eq_some_iff : celsiusEnd text = some rest ↔
    ∃ (spaces : Nat) (unit : Celsius), text = List.replicate spaces ' ' ++ unit.text ++ rest := by
  constructor
  · intro h
    have hspaces : List.replicate (text.takeWhile (· == ' ')).length ' ' =
        text.takeWhile (· == ' ') := by
      symm
      rw [List.eq_replicate_iff]
      exact ⟨rfl, fun c hc => by simpa using List.mem_takeWhile_imp hc⟩
    have htext : ∀ unit : Celsius, text.dropWhile (· == ' ') = unit.text ++ rest →
        text = List.replicate (text.takeWhile (· == ' ')).length ' ' ++ unit.text ++ rest := by
      intro unit hunit
      rw [hspaces, List.append_assoc, ← hunit, List.takeWhile_append_dropWhile]
    unfold celsiusEnd at h
    split at h
    · rename_i rest' hunit
      obtain rfl := Option.some.inj h
      exact ⟨_, .sign, htext .sign hunit⟩
    · rename_i rest' hunit
      obtain rfl := Option.some.inj h
      exact ⟨_, .letters, htext .letters hunit⟩
    · cases h
  · rintro ⟨spaces, unit, rfl⟩
    have hspaces : ∀ c ∈ List.replicate spaces ' ', (c == ' ') = true := by
      intro c hc
      rw [List.eq_of_mem_replicate hc]
      rfl
    rw [celsiusEnd, List.append_assoc, List.dropWhile_append_of_pos hspaces]
    cases unit <;> rfl

theorem suffix_of_celsiusEnd (h : celsiusEnd text = some rest) : rest <:+ text := by
  obtain ⟨spaces, unit, rfl⟩ := celsiusEnd_eq_some_iff.mp h
  exact List.suffix_append _ _

end Scanning

/-! ## Steps -/

/-- The sign of a percentage. -/
inductive PercentSign
  | ascii
  | fullwidth
  deriving DecidableEq, Repr

/-- The character of a percent sign. -/
def PercentSign.char : PercentSign → Char
  | .ascii => '%'
  | .fullwidth => '\uFF05'

/-- A value in degrees Celsius. -/
structure Temperature where
  sign : Option Minus
  value : Value
  spaces : Nat
  unit : Celsius

/-- A temperature as it is written. -/
def Temperature.text (temperature : Temperature) : List Char :=
  signText temperature.sign ++ temperature.value.text ++
    (List.replicate temperature.spaces ' ' ++ temperature.unit.text)

/-- A temperature as it is read. -/
def Temperature.words (temperature : Temperature) : List Char :=
  (if temperature.sign.isSome then "零下".toList else []) ++ temperature.value.words ++ ['度']

/-- A value with its sign and its percent sign. -/
structure Percentage where
  sign : Option Minus
  value : Value
  mark : PercentSign

/-- A percentage as it is written. -/
def Percentage.text (percentage : Percentage) : List Char :=
  signText percentage.sign ++ percentage.value.text ++ [percentage.mark.char]

/-- A percentage as it is read. -/
def Percentage.words (percentage : Percentage) : List Char :=
  (if percentage.sign.isSome then "负百分之".toList else "百分之".toList) ++ percentage.value.words

section Steps

variable {a : Char} {text tail rest back : List Char}

theorem percentEnd_eq_some_iff :
    percentEnd text = some rest ↔ ∃ mark : PercentSign, text = mark.char :: rest := by
  constructor
  · intro h
    unfold percentEnd at h
    split at h
    · rename_i c rest'
      split at h
      · rename_i hmark
        obtain rfl := Option.some.inj h
        rw [Bool.or_eq_true, beq_iff_eq, beq_iff_eq] at hmark
        rcases hmark with rfl | rfl
        · exact ⟨.ascii, rfl⟩
        · exact ⟨.fullwidth, rfl⟩
      · cases h
    · cases h
  · rintro ⟨mark, rfl⟩
    cases mark <;> rfl

theorem suffix_of_percentEnd (h : percentEnd text = some rest) : rest <:+ text := by
  obtain ⟨mark, rfl⟩ := percentEnd_eq_some_iff.mp h
  exact List.suffix_cons _ _

/-- Either the step finds no digits, or it finds a value. -/
theorem scanned (text : List Char) : (scanValue text).integer = [] ∨
    ∃ (sign : Option Minus) (value : Value) (rest : List Char),
      text = signText sign ++ value.text ++ rest ∧ Ends value rest := by
  by_cases h : (scanValue text).integer = []
  · exact .inl h
  · exact .inr (exists_value h)

theorem temperatureStep_of_empty (h : (scanValue (a :: tail)).integer = []) :
    temperatureStep a tail = ([a], tail) := by
  rw [temperatureStep, if_pos (by rw [h]; rfl)]

theorem percentageStep_of_empty (h : (scanValue (a :: tail)).integer = []) :
    percentageStep a tail = ([a], tail) := by
  rw [percentageStep, if_pos (by rw [h]; rfl)]

variable {sign : Option Minus} {value : Value}

theorem temperatureStep_of_value (htext : a :: tail = signText sign ++ value.text ++ rest)
    (h : Ends value rest) : temperatureStep a tail =
      match celsiusEnd rest with
      | none => (signText sign ++ value.text, rest)
      | some rest' =>
          ((if sign.isSome then "零下".toList else []) ++ value.words ++ ['度'], rest') := by
  have hinteger : ¬ value.integer.chars.isEmpty = true := by simpa using value.integer.ne_nil
  simp only [temperatureStep, htext, scanValue_eq sign value h, if_neg hinteger]
  rw [List.length_append, Nat.add_sub_cancel, List.take_left]
  rfl

theorem percentageStep_of_value (htext : a :: tail = signText sign ++ value.text ++ rest)
    (h : Ends value rest) : percentageStep a tail =
      match percentEnd rest with
      | none => ([a], tail)
      | some rest' =>
          ((if sign.isSome then "负百分之".toList else "百分之".toList) ++ value.words, rest') := by
  have hinteger : ¬ value.integer.chars.isEmpty = true := by simpa using value.integer.ne_nil
  simp only [percentageStep, htext, scanValue_eq sign value h, if_neg hinteger]
  rfl

end Steps

/-! ## The scanners -/

/-- The scanner for temperatures. -/
def temperatures : Scanner Char Char where
  step := temperatureStep
  suffix current tail := by
    rcases scanned (current :: tail) with hempty | ⟨sign, value, rest, htext, hends⟩
    · rw [temperatureStep_of_empty hempty]
    · have hrest : rest <:+ tail :=
        suffix_of_cons_eq_append (signText_append_text_ne_nil sign value) htext
      rw [temperatureStep_of_value htext hends]
      cases hunit : celsiusEnd rest with
      | none => exact hrest
      | some rest' => exact (suffix_of_celsiusEnd hunit).trans hrest

/-- The scanner for percentages. -/
def percentages : Scanner Char Char where
  step := percentageStep
  suffix current tail := by
    rcases scanned (current :: tail) with hempty | ⟨sign, value, rest, htext, hends⟩
    · rw [percentageStep_of_empty hempty]
    · have hrest : rest <:+ tail :=
        suffix_of_cons_eq_append (signText_append_text_ne_nil sign value) htext
      rw [percentageStep_of_value htext hends]
      cases hmark : percentEnd rest with
      | none => exact List.suffix_refl _
      | some rest' => exact (suffix_of_percentEnd hmark).trans hrest

/-- Reads the temperatures of a text. -/
def normalizeTemperatures (text : List Char) : List Char := temperatures.run text

/-- Reads the percentages of a text. -/
def normalizePercentages (text : List Char) : List Char := percentages.run text

end Dengjen.Pinyin
