import Dengjen.General.Numerals
import Mathlib.Data.Nat.Digits.Lemmas

/-!
# Integers in Chinese

A run of digits is read as a cardinal when it has at most eight digits and no leading
zero, and digit by digit otherwise. The cardinal is the numeral of the value of the
digits, and no two runs of digits are read alike.

## Implementation notes

A text is the list of its characters.
-/

namespace Dengjen.Pinyin

open Numerals

/-! ## The readings -/

/-- The words of the digits. -/
def digitWords : List Char := "零一二三四五六七八九".toList

/-- The word of a digit. -/
def digitToWord (d : Nat) : Char := digitWords.getD d '零'

/-- The most digits that are read as one number. -/
def maxCardinalDigits : Nat := 8

/-- `to_digit(10)`. -/
def toDigit (c : Char) : Option Nat := if c.isDigit then some (c.toNat - '0'.toNat) else none

/-- Digits read one by one. -/
def readDigitByDigit (digits : List Char) : List Char := (digits.filterMap toDigit).map digitToWord

/-- What is written so far, and whether a zero waits for the next digit. -/
def sectionPlace (written : List Char × Bool) (place : Nat × Option Char) : List Char × Bool :=
  if place.1 = 0 then (written.1, !written.1.isEmpty)
  else
    (written.1 ++ (if written.2 then ['零'] else []) ++ digitToWord place.1 :: place.2.toList, false)

/-- A number below ten thousand in words. -/
def formatSection (n : Nat) : List Char :=
  let places :=
    [(n / 1000, some '千'), (n / 100 % 10, some '百'), (n / 10 % 10, some '十'), (n % 10, none)]
  (places.foldl sectionPlace ([], false)).1

/-- A number of eight digits in words. -/
def formatCardinal (n : Nat) : List Char :=
  let high := n / 10000
  let low := n % 10000
  let out :=
    if high > 0 then
      formatSection high ++ '万' :: (if low > 0 ∧ low < 1000 then ['零'] else [])
    else []
  let out := if low > 0 ∨ high = 0 then out ++ formatSection low else out
  match out.dropPrefix? "一十".toList with
  | some rest => '十' :: rest
  | none => if out = [] then [digitToWord 0] else out

/-- One more digit of a `u32`, while it fits. -/
def parseDigit (n : Nat) (c : Char) : Option Nat := do
  let d ← toDigit c
  if n * 10 + d < 2 ^ 32 then some (n * 10 + d) else none

/-- `parse::<u32>()`. -/
def parseU32 (text : List Char) : Option Nat :=
  let digits := if text.head? = some '+' then text.tail else text
  if digits = [] then none else digits.foldlM parseDigit 0

/-- `str::len`, in bytes. -/
def byteLength (text : List Char) : Nat := (text.map Char.utf8Size).sum

/-- A number in words, or its digits one by one where it is long or starts with a zero. -/
def formatInteger (digits : List Char) : List Char :=
  let hasLeadingZero := byteLength digits > 1 ∧ digits.head? = some '0'
  if hasLeadingZero ∨ byteLength digits > maxCardinalDigits then readDigitByDigit digits
  else
    match parseU32 digits with
    | some n => formatCardinal n
    | none => readDigitByDigit digits

/-! ## The words of the numerals -/

/-- The word of a place of a section, from ten up. -/
def placeWord : Nat → Char
  | 3 => '千'
  | 2 => '百'
  | _ => '十'

/-- The words as the digits, units and separators they stand for. -/
def chinese : Lexicon Char where
  digit := digitToWord
  unit := placeWord
  myriad := '万'
  meaning c :=
    if c = '十' then some (.unit 1)
    else if c = '百' then some (.unit 2)
    else if c = '千' then some (.unit 3)
    else if c = '万' then some .myriad
    else (digitWords.idxOf? c).map .digit
  meaning_digit := by decide
  meaning_unit place hpos hlt :=
    match place, hpos, hlt with
    | 1, _, _ => rfl
    | 2, _, _ => rfl
    | 3, _, _ => rfl
  meaning_myriad := rfl

/-! ## Sections and cardinals -/

/-- The digits of a number below a place, with the words of their places. -/
def placesBelow (n : Nat) : Nat → List (Nat × Option Char)
  | 0 => []
  | place + 1 =>
      (n / 10 ^ place % 10, if place = 0 then none else some (placeWord place)) ::
        placesBelow n place

/-- The gap behind what is written of a section. -/
def Represents (written : List Char × Bool) : Gap → Prop
  | .leading => written = ([], false)
  | .closed => written.1 ≠ [] ∧ written.2 = false
  | .skipped => written.1 ≠ [] ∧ written.2 = true

theorem represents_skip {written : List Char × Bool} {gap : Gap} (h : Represents written gap) :
    Represents (written.1, !written.1.isEmpty) gap.skip := by
  cases gap with
  | leading =>
      rw [Represents] at h
      rw [h]
      rfl
  | closed | skipped => exact ⟨h.1, by simp [h.1]⟩

theorem zeroBehind_of_represents {written : List Char × Bool} {gap : Gap}
    (h : Represents written gap) :
    (if written.2 then ['零'] else []) = chinese.zeroBehind gap := by
  cases gap with
  | leading =>
      rw [Represents] at h
      rw [h]
      rfl
  | closed | skipped =>
      rw [h.2]
      rfl

/-- What is written place by place are the terms of the number. -/
theorem exists_foldl_sectionPlace (n place : Nat) {written : List Char × Bool} {gap : Gap}
    (h : Represents written gap) : ∃ text,
      ((placesBelow n place).foldl sectionPlace written).1 = written.1 ++ text ∧
        chinese.Terms gap place text (n % 10 ^ place) := by
  induction place generalizing written gap with
  | zero =>
      rw [Nat.pow_zero, Nat.mod_one]
      exact ⟨[], (List.append_nil _).symm, .done⟩
  | succ place ih =>
      have hmod : n % 10 ^ (place + 1) = n / 10 ^ place % 10 * 10 ^ place + n % 10 ^ place := by
        rw [Nat.mod_pow_succ, Nat.add_comm (n % 10 ^ place), Nat.mul_comm (10 ^ place)]
      rw [placesBelow, List.foldl_cons, sectionPlace, hmod]
      by_cases hdigit : n / 10 ^ place % 10 = 0
      · obtain ⟨text, htext, hterms⟩ := ih (represents_skip h)
        refine ⟨text, ?_, ?_⟩
        · rw [if_pos hdigit, htext]
        · rw [hdigit, Nat.zero_mul, Nat.zero_add]
          exact .skip hterms
      · have hclosed : Represents (written.1 ++ (if written.2 then ['零'] else []) ++
            digitToWord (n / 10 ^ place % 10) ::
              (if place = 0 then none else some (placeWord place)).toList, false) .closed :=
          ⟨by simp, rfl⟩
        obtain ⟨text, htext, hterms⟩ := ih hclosed
        have hunit : (if place = 0 then none else some (placeWord place)).toList =
            chinese.unitWord place := by
          rw [Lexicon.unitWord]
          split <;> rfl
        refine ⟨chinese.zeroBehind gap ++
          digitToWord (n / 10 ^ place % 10) :: (chinese.unitWord place ++ text), ?_, ?_⟩
        · rw [if_neg hdigit, htext, zeroBehind_of_represents h, hunit]
          simp only [List.append_assoc, List.cons_append]
        · exact .term (Nat.pos_of_ne_zero hdigit) (Nat.mod_lt _ (by decide)) hterms

theorem terms_formatSection {n : Nat} (h : n < 10000) :
    chinese.Terms .leading 4 (formatSection n) n := by
  have hleading : Represents ([], false) .leading := rfl
  obtain ⟨text, htext, hterms⟩ := exists_foldl_sectionPlace n 4 hleading
  have hplaces : placesBelow n 4 =
      [(n / 1000, some '千'), (n / 100 % 10, some '百'), (n / 10 % 10, some '十'), (n % 10, none)] := by
    have hthousands : n / 1000 % 10 = n / 1000 := Nat.mod_eq_of_lt (by omega)
    simp [placesBelow, placeWord, hthousands]
  rw [hplaces, List.nil_append] at htext
  have hbelow : n < 10 ^ 4 := h
  rw [Nat.mod_eq_of_lt hbelow] at hterms
  rw [formatSection, htext]
  exact hterms

/-- How a cardinal ends: a leading ten is shortened, and what is empty is zero. -/
theorem dropPrefix_eq_shortened (out : List Char) :
    (match out.dropPrefix? "一十".toList with
      | some rest => '十' :: rest
      | none => if out = [] then [digitToWord 0] else out) =
      if out = [] then [digitToWord 0] else chinese.shortened out := by
  have hten : "一十".toList = [chinese.digit 1, chinese.unit 1] := by decide
  rw [hten]
  match out with
  | [] => rfl
  | [first] =>
      by_cases hfirst : first = chinese.digit 1
      · rw [hfirst]
        rfl
      · simp [List.dropPrefix?, hfirst, Lexicon.shortened]
  | first :: second :: rest =>
      by_cases hfirst : first = chinese.digit 1
      · by_cases hsecond : second = chinese.unit 1
        · simp [List.dropPrefix?, hfirst, hsecond, Lexicon.shortened]
          rfl
        · simp [List.dropPrefix?, hfirst, hsecond, Lexicon.shortened]
      · simp [List.dropPrefix?, hfirst, Lexicon.shortened]

/-- What is written behind the myriads. -/
theorem terms_low {low : Nat} (h : low < 10000) : chinese.Terms .closed 4
    ((if low > 0 ∧ low < 1000 then ['零'] else []) ++ if low > 0 then formatSection low else []) low := by
  by_cases hpos : low > 0
  · have hclosed := (terms_formatSection h).closed hpos
    by_cases hlt : low < 1000
    · have hlt' : low < 10 ^ 3 := hlt
      rw [if_pos ⟨hpos, hlt⟩, if_pos hpos]
      rw [if_pos hlt'] at hclosed
      exact hclosed
    · have hlt' : ¬ low < 10 ^ 3 := hlt
      rw [if_neg (fun hand => hlt hand.2), if_pos hpos]
      rw [if_neg hlt'] at hclosed
      exact hclosed
  · obtain rfl : low = 0 := by omega
    exact .zero .closed 4

/-- A cardinal below the myriads, before a leading ten is shortened. -/
theorem numeral_formatCardinal_small {n : Nat} (h : n < 10000) :
    chinese.Numeral (formatCardinal n) n := by
  have hhigh : n / 10000 = 0 := Nat.div_eq_of_lt h
  have hnot : ¬ n / 10000 > 0 := by omega
  have hlow : n % 10000 = n := Nat.mod_eq_of_lt h
  have hread : n % 10000 > 0 ∨ n / 10000 = 0 := .inr hhigh
  rw [formatCardinal, dropPrefix_eq_shortened, if_neg hnot, if_pos hread, hlow]
  by_cases hzero : n = 0
  · subst hzero
    exact .zero
  · have hpos := Nat.pos_of_ne_zero hzero
    have hterms := terms_formatSection h
    rw [List.nil_append, if_neg (hterms.ne_nil hpos)]
    exact .units hpos hterms

/-- A cardinal with myriads. -/
theorem numeral_formatCardinal_large {n : Nat} (hle : 10000 ≤ n) (h : n < 100000000) :
    chinese.Numeral (formatCardinal n) n := by
  have hpos : n / 10000 > 0 := Nat.div_pos hle (by decide)
  have hhigh : n / 10000 < 10000 := by omega
  have hlow : n % 10000 < 10000 := Nat.mod_lt _ (by decide)
  have hnumeral := Lexicon.Numeral.myriads hpos (terms_formatSection hhigh) (terms_low hlow)
  rw [Nat.div_add_mod'] at hnumeral
  rw [formatCardinal, dropPrefix_eq_shortened, if_pos hpos]
  by_cases hlowPos : n % 10000 > 0
  · have hread : n % 10000 > 0 ∨ n / 10000 = 0 := .inl hlowPos
    rw [if_pos hlowPos] at hnumeral
    rw [if_pos hread, List.append_assoc, List.cons_append, if_neg]
    · exact hnumeral
    · simp
  · have hread : ¬ (n % 10000 > 0 ∨ n / 10000 = 0) := by omega
    rw [if_neg hlowPos, List.append_nil] at hnumeral
    rw [if_neg hread, if_neg]
    · exact hnumeral
    · simp

/-- A cardinal is the numeral of its number. -/
theorem numeral_formatCardinal {n : Nat} (h : n < 100000000) :
    chinese.Numeral (formatCardinal n) n := by
  rcases Nat.lt_or_ge n 10000 with hsmall | hlarge
  · exact numeral_formatCardinal_small hsmall
  · exact numeral_formatCardinal_large hlarge h

/-! ## Runs of digits -/

/-- A nonempty run of ASCII digits. -/
structure DigitString where
  chars : List Char
  ne_nil : chars ≠ []
  isDigit : ∀ c ∈ chars, c.isDigit

/-- The value of a digit. -/
def digitValue (c : Char) : Nat := c.toNat - '0'.toNat

namespace DigitString

variable (digits : DigitString)

/-- The number that the digits stand for. -/
def value : Nat := Nat.ofDigits 10 (digits.chars.reverse.map digitValue)

/-- The runs that are read as cardinals. -/
def IsCardinal : Prop :=
  digits.chars.length ≤ 8 ∧ (digits.chars.head? = some '0' → digits.chars = ['0'])

end DigitString

theorem digitValue_lt {c : Char} (h : c.isDigit) : digitValue c < 10 := by
  have hrange := Char.isDigit_iff_toNat.mp h
  simp only [Char.reduceToNat] at hrange
  simp only [digitValue, Char.reduceToNat]
  omega

theorem digitValue_injective {c c' : Char} (h : c.isDigit) (h' : c'.isDigit)
    (heq : digitValue c = digitValue c') : c = c' := by
  have hrange := Char.isDigit_iff_toNat.mp h
  have hrange' := Char.isDigit_iff_toNat.mp h'
  simp only [Char.reduceToNat] at hrange hrange'
  simp only [digitValue, Char.reduceToNat] at heq
  apply Char.toNat_inj.mp
  omega

theorem map_map_of_leftInverse {α β : Type} {f : α → β} {g : β → α} {xs : List α}
    (h : ∀ x ∈ xs, g (f x) = x) : (xs.map f).map g = xs := by
  rw [List.map_map]
  exact (List.map_congr_left h).trans (List.map_id xs)

theorem toDigit_eq {c : Char} (h : c.isDigit) : toDigit c = some (digitValue c) := if_pos h

namespace DigitString

variable {digits digits' : DigitString}

theorem readDigitByDigit_eq (digits : DigitString) : readDigitByDigit digits.chars =
    (digits.chars.map digitValue).map digitToWord := by
  have hfilter : ∀ chars : List Char, (∀ c ∈ chars, c.isDigit) →
      chars.filterMap toDigit = chars.map digitValue := by
    intro chars hchars
    induction chars with
    | nil => rfl
    | cons c rest ih =>
        rw [List.forall_mem_cons] at hchars
        rw [List.filterMap_cons_some (toDigit_eq hchars.1), ih hchars.2, List.map_cons]
  rw [readDigitByDigit, hfilter digits.chars digits.isDigit]

theorem byteLength_eq (digits : DigitString) : byteLength digits.chars = digits.chars.length := by
  have hsum : ∀ chars : List Char, (∀ c ∈ chars, c.isDigit) → byteLength chars = chars.length := by
    intro chars hchars
    induction chars with
    | nil => rfl
    | cons c rest ih =>
        rw [List.forall_mem_cons] at hchars
        have hsize : c.utf8Size = 1 := by
          have hrange := Char.isDigit_iff_toNat.mp hchars.1
          rw [Char.utf8Size_eq_one_iff, UInt32.le_iff_toNat_le]
          exact hrange.2.trans (by decide)
        rw [byteLength, List.map_cons, List.sum_cons, hsize, List.length_cons, Nat.add_comm,
          ← ih hchars.2, byteLength]
  exact hsum digits.chars digits.isDigit

theorem parseDigit_eq {n : Nat} {c : Char} (hc : c.isDigit) (hsmall : n * 10 + digitValue c < 2 ^ 32) :
    parseDigit n c = some (n * 10 + digitValue c) := by
  rw [parseDigit, toDigit_eq hc]
  exact if_pos hsmall

theorem foldlM_parseDigit {chars : List Char} (hchars : ∀ c ∈ chars, c.isDigit)
    (hsmall : Nat.ofDigits 10 (chars.reverse.map digitValue) < 2 ^ 32) :
    chars.foldlM parseDigit 0 = some (Nat.ofDigits 10 (chars.reverse.map digitValue)) := by
  induction chars using List.reverseRecOn with
  | nil => rfl
  | append_singleton front c ih =>
      rw [List.forall_mem_append, List.forall_mem_singleton] at hchars
      have hc := hchars.2
      have hvalue : Nat.ofDigits 10 ((front ++ [c]).reverse.map digitValue) =
          Nat.ofDigits 10 (front.reverse.map digitValue) * 10 + digitValue c := by
        rw [List.reverse_concat, List.map_cons, Nat.ofDigits_cons, Nat.add_comm, Nat.mul_comm]
      rw [hvalue] at hsmall ⊢
      have hfront : Nat.ofDigits 10 (front.reverse.map digitValue) < 2 ^ 32 := by omega
      rw [List.foldlM_append, ih hchars.1 hfront]
      change List.foldlM parseDigit _ [c] = _
      rw [List.foldlM_cons, parseDigit_eq hc hsmall]
      rfl

theorem map_digitValue_lt (digits : DigitString) : ∀ d ∈ digits.chars.map digitValue, d < 10 := by
  rw [List.forall_mem_map]
  exact fun c hc => digitValue_lt (digits.isDigit c hc)

theorem reverse_map_digitValue_lt (digits : DigitString) :
    ∀ d ∈ digits.chars.reverse.map digitValue, d < 10 := by
  rw [List.map_reverse]
  exact fun d hd => digits.map_digitValue_lt d (List.mem_reverse.mp hd)

theorem value_lt (digits : DigitString) : digits.value < 10 ^ digits.chars.length := by
  have hlt := Nat.ofDigits_lt_base_pow_length (by decide) digits.reverse_map_digitValue_lt
  rwa [List.length_map, List.length_reverse] at hlt

theorem value_lt_of_length (h : digits.chars.length ≤ 8) : digits.value < 100000000 := by
  calc
    digits.value < 10 ^ digits.chars.length := digits.value_lt
    _ ≤ 10 ^ 8 := Nat.pow_le_pow_right (by decide) h

theorem parseU32_eq (h : digits.chars.length ≤ 8) : parseU32 digits.chars = some digits.value := by
  have hplus : digits.chars.head? ≠ some '+' := by
    intro hhead
    exact absurd (digits.isDigit '+' (List.mem_of_mem_head? hhead)) (by decide)
  have hsmall : digits.value < 2 ^ 32 := (value_lt_of_length h).trans (by decide)
  rw [parseU32, if_neg hplus, if_neg digits.ne_nil]
  exact foldlM_parseDigit digits.isDigit hsmall

theorem formatInteger_of_cardinal (h : digits.IsCardinal) :
    formatInteger digits.chars = formatCardinal digits.value := by
  obtain ⟨hlength, hzero⟩ := h
  have hnot : ¬ ((digits.chars.length > 1 ∧ digits.chars.head? = some '0') ∨
      digits.chars.length > maxCardinalDigits) := by
    rintro (⟨hlong, hhead⟩ | hlong)
    · rw [hzero hhead] at hlong
      exact absurd hlong (by decide)
    · exact absurd hlength (Nat.not_le.mpr hlong)
  rw [formatInteger, byteLength_eq, if_neg hnot, parseU32_eq hlength]

/-- A run that is not read as a cardinal begins with a zero and goes on, or is long. -/
theorem not_isCardinal_iff : ¬ digits.IsCardinal ↔
    (digits.chars.length > 1 ∧ digits.chars.head? = some '0') ∨ digits.chars.length > 8 := by
  rw [IsCardinal, not_and_or, Classical.not_imp, Nat.not_le, or_comm]
  refine or_congr_left ?_
  rw [and_comm]
  refine and_congr_left fun hhead => ?_
  match hchars : digits.chars with
  | [] => exact absurd hchars digits.ne_nil
  | [c] => simp_all
  | c :: c' :: rest => simp

theorem length_of_not_cardinal (h : ¬ digits.IsCardinal) : 2 ≤ digits.chars.length := by
  rcases not_isCardinal_iff.mp h with ⟨hlong, -⟩ | hlong
  · exact hlong
  · omega

theorem formatInteger_of_not_cardinal (h : ¬ digits.IsCardinal) :
    formatInteger digits.chars = (digits.chars.map digitValue).map digitToWord := by
  rw [formatInteger, byteLength_eq]
  exact (if_pos (not_isCardinal_iff.mp h)).trans (readDigitByDigit_eq digits)

/-! ## Faithful readings -/

/-- What a reading of a run of digits is to be: the numeral of its value where it is read as a
cardinal, and its digits one by one elsewhere. -/
structure Denotes (digits : DigitString) (text : List Char) : Prop where
  cardinal : digits.IsCardinal →
    chinese.Numeral text digits.value ∧ chinese.evaluate text = some digits.value
  spelled : ¬ digits.IsCardinal → text = (digits.chars.map digitValue).map digitToWord

theorem denotes_formatInteger (digits : DigitString) :
    digits.Denotes (formatInteger digits.chars) := by
  constructor
  · intro h
    have hnumeral := numeral_formatCardinal (value_lt_of_length h.1)
    rw [formatInteger_of_cardinal h]
    exact ⟨hnumeral, Lexicon.evaluate_numeral hnumeral⟩
  · exact formatInteger_of_not_cardinal

theorem chars_eq_of_map (h : digits.chars.map digitValue = digits'.chars.map digitValue) :
    digits.chars = digits'.chars := by
  have hback (digits : DigitString) :
      (digits.chars.map digitValue).map (fun d => Char.ofNat (d + '0'.toNat)) = digits.chars := by
    apply map_map_of_leftInverse
    intro c hc
    have hrange := Char.isDigit_iff_toNat.mp (digits.isDigit c hc)
    rw [digitValue, Nat.sub_add_cancel hrange.1, Char.ofNat_toNat]
  rw [← hback digits, h, hback digits']

theorem map_digitToWord_injective {xs ys : List Nat} (hxs : ∀ d ∈ xs, d < 10)
    (hys : ∀ d ∈ ys, d < 10) (h : xs.map digitToWord = ys.map digitToWord) : xs = ys := by
  have hidx : ∀ d < 10, digitWords.idxOf (digitToWord d) = d := by decide
  have hback {xs : List Nat} (hxs : ∀ d ∈ xs, d < 10) :
      (xs.map digitToWord).map digitWords.idxOf = xs :=
    map_map_of_leftInverse fun d hd => hidx d (hxs d hd)
  rw [← hback hxs, h, hback hys]

/-- Without a leading zero the digits are those of the value. -/
theorem digits_value (hhead : digits.chars.head? ≠ some '0') :
    Nat.digits 10 digits.value = digits.chars.reverse.map digitValue := by
  apply Nat.digits_ofDigits 10 (by decide)
  · exact digits.reverse_map_digitValue_lt
  · intro hne hzero
    rw [List.getLast_map, List.getLast_reverse] at hzero
    have hfirst := digits.isDigit _ (List.head_mem digits.ne_nil)
    have hchar : digits.chars.head digits.ne_nil = '0' :=
      digitValue_injective hfirst (by decide) hzero
    exact hhead (hchar ▸ List.head?_eq_some_head digits.ne_nil)

theorem value_ne_zero (hhead : digits.chars.head? ≠ some '0') : digits.value ≠ 0 := by
  intro hzero
  have hdigits := digits_value hhead
  rw [hzero, Nat.digits_zero] at hdigits
  exact digits.ne_nil (by simpa using hdigits.symm)

/-- Without a leading zero the value determines the digits. -/
theorem chars_eq_of_value (h : digits.IsCardinal) (h' : digits'.IsCardinal)
    (hvalue : digits.value = digits'.value) : digits.chars = digits'.chars := by
  have hzero (digits : DigitString) (hchars : digits.chars = ['0']) : digits.value = 0 := by
    rw [value, hchars]
    decide
  by_cases hhead : digits.chars.head? = some '0'
  · have hchars := h.2 hhead
    by_cases hhead' : digits'.chars.head? = some '0'
    · rw [hchars, h'.2 hhead']
    · exact absurd (hvalue.symm.trans (hzero digits hchars)) (value_ne_zero hhead')
  · by_cases hhead' : digits'.chars.head? = some '0'
    · exact absurd (hvalue.trans (hzero digits' (h'.2 hhead'))) (value_ne_zero hhead)
    · have hdigits := digits_value hhead
      rw [hvalue, digits_value hhead', List.map_reverse, List.map_reverse, List.reverse_inj] at hdigits
      exact (chars_eq_of_map hdigits).symm

/-- Digits one by one stand for the last of them at most, and a cardinal below ten is one digit. -/
theorem formatInteger_ne (h : digits.IsCardinal) (h' : ¬ digits'.IsCardinal) :
    formatInteger digits.chars ≠ formatInteger digits'.chars := by
  intro heq
  have hshort : ∀ n < 10, (formatCardinal n).length = 1 := by decide
  have hlast : (digits'.chars.map digitValue).getLast?.getD 0 < 10 := by
    cases hget : (digits'.chars.map digitValue).getLast? with
    | none => decide
    | some d => exact digits'.map_digitValue_lt d (List.mem_of_getLast? hget)
  have hvalue : digits.value < 10 := by
    have hevaluate := ((denotes_formatInteger digits).cardinal h).2
    rw [heq, formatInteger_of_not_cardinal h'] at hevaluate
    rw [← Option.some.inj (hevaluate.symm.trans (chinese.evaluate_digits _ digits'.map_digitValue_lt))]
      at hlast
    exact hlast
  have hlength := congrArg List.length heq
  rw [formatInteger_of_cardinal h, hshort _ hvalue, formatInteger_of_not_cardinal h',
    List.length_map, List.length_map] at hlength
  exact absurd (length_of_not_cardinal h') (by omega)

/-- Integers are read faithfully, and no two runs of digits are read alike. -/
theorem formatInteger_faithful :
    (∀ digits : DigitString, digits.Denotes (formatInteger digits.chars)) ∧
      Function.Injective fun digits : DigitString => formatInteger digits.chars := by
  refine ⟨denotes_formatInteger, fun digits digits' heq => ?_⟩
  have hchars : digits.chars = digits'.chars := by
    by_cases h : digits.IsCardinal <;> by_cases h' : digits'.IsCardinal
    · have hevaluate := ((denotes_formatInteger digits).cardinal h).2
      have hevaluate' := ((denotes_formatInteger digits').cardinal h').2
      rw [show formatInteger digits.chars = formatInteger digits'.chars from heq] at hevaluate
      exact chars_eq_of_value h h' (Option.some.inj (hevaluate.symm.trans hevaluate'))
    · exact absurd heq (formatInteger_ne h h')
    · exact absurd heq.symm (formatInteger_ne h' h)
    · have hwords := (formatInteger_of_not_cardinal h).symm.trans
        (heq.trans (formatInteger_of_not_cardinal h'))
      exact chars_eq_of_map (map_digitToWord_injective digits.map_digitValue_lt
        digits'.map_digitValue_lt hwords)
  cases digits
  cases digits'
  cases hchars
  rfl

end DigitString

/-- Zeros at the end of the upper section are not marked, those before the first digit of the lower
one are. -/
example : formatInteger "20001000".toList = "二千万一千".toList ∧
    formatInteger "10050".toList = "一万零五十".toList := by decide

end Dengjen.Pinyin
