import Mathlib.Algebra.Order.Ring.Nat

/-!
# Numerals in sections of four places

A number below 100 000 000 is written in two sections of four places with a word for
10 000 between them. In a section each digit but zero is written with the word of its
place, from the highest place down. Skipped places are marked by one zero before the
next digit of the section, but not before the first digit of all, and not when the
section ends with them. One ten at the very start is written as ten.

The digits, places and the myriad are words of any alphabet, told apart by their
meanings. Reading a numeral word by word gives its number, so no numeral is ambiguous.
-/

namespace Dengjen.Numerals

/-- What a word of a numeral stands for. -/
inductive Symbol
  | digit (d : Nat)
  | unit (place : Nat)
  | myriad
  deriving DecidableEq

/-- The words for the digits, for the places above the last one of a section, and for 10 000. -/
structure Lexicon (α : Type*) where
  digit : Nat → α
  unit : Nat → α
  myriad : α
  meaning : α → Option Symbol
  meaning_digit : ∀ d < 10, meaning (digit d) = some (.digit d)
  meaning_unit : ∀ place, 0 < place → place < 4 → meaning (unit place) = some (.unit place)
  meaning_myriad : meaning myriad = some .myriad

/-- What stands before a place: nothing yet, a word, or places that were skipped behind a word. -/
inductive Gap
  | leading
  | closed
  | skipped

namespace Gap

/-- Behind one more place that is skipped. -/
def skip : Gap → Gap
  | leading => leading
  | closed | skipped => skipped

end Gap

/-! ## The grammar -/

namespace Lexicon

variable {α : Type*} (words : Lexicon α)

/-- A digit zero is written for places that were skipped. -/
def zeroBehind : Gap → List α
  | .leading | .closed => []
  | .skipped => [words.digit 0]

/-- The word of a place, of which the last has none. -/
def unitWord (place : Nat) : List α := if place = 0 then [] else [words.unit place]

/-- The digits of a value at the places below `place`, from the highest down. -/
inductive Terms : Gap → Nat → List α → Nat → Prop
  | done {gap} : Terms gap 0 [] 0
  | skip {gap place text value} (tail : Terms gap.skip place text value) :
      Terms gap (place + 1) text value
  | term {gap place digit text value} (hpos : 0 < digit) (hlt : digit < 10)
      (tail : Terms .closed place text value) :
      Terms gap (place + 1)
        (words.zeroBehind gap ++ words.digit digit :: (words.unitWord place ++ text))
        (digit * 10 ^ place + value)

variable [DecidableEq α]

/-- One ten at the start is ten. -/
def shortened : List α → List α
  | first :: second :: rest =>
      if first = words.digit 1 ∧ second = words.unit 1 then second :: rest
      else first :: second :: rest
  | text => text

/-- The numerals of the numbers below 100 000 000. -/
inductive Numeral : List α → Nat → Prop
  | zero : Numeral [words.digit 0] 0
  | units {text value} (hpos : 0 < value) (h : words.Terms .leading 4 text value) :
      Numeral (words.shortened text) value
  | myriads {text text' high low} (hpos : 0 < high) (hhigh : words.Terms .leading 4 text high)
      (hlow : words.Terms .closed 4 text' low) :
      Numeral (words.shortened (text ++ words.myriad :: text')) (high * 10000 + low)

end Lexicon

/-! ## Reading -/

/-- What is read so far: the myriads, the sum behind them, and a digit whose place is not read. -/
structure Reading where
  myriads : Nat
  sum : Nat
  digit : Nat

namespace Reading

/-- Reads one more symbol. -/
def read (reading : Reading) : Symbol → Reading
  | .digit d => { reading with digit := d }
  | .unit place =>
      let digit := if reading.digit = 0 then 1 else reading.digit
      ⟨reading.myriads, reading.sum + digit * 10 ^ place, 0⟩
  | .myriad => ⟨reading.sum + reading.digit, 0, 0⟩

/-- What has been read, as a number. -/
def value (reading : Reading) : Nat := reading.myriads * 10000 + (reading.sum + reading.digit)

end Reading

namespace Lexicon

variable {α : Type*} (words : Lexicon α)

/-- Reads a text word by word. -/
def run (reading : Reading) (text : List α) : Option Reading :=
  text.foldlM (fun reading word => (words.meaning word).map reading.read) reading

/-- The number that a text stands for. -/
def evaluate (text : List α) : Option Nat := (words.run ⟨0, 0, 0⟩ text).map Reading.value

variable {words} {gap : Gap} {place value : Nat} {text text' : List α} {reading : Reading}

theorem run_cons {word : α} {symbol : Symbol} (h : words.meaning word = some symbol)
    (reading : Reading) (text : List α) :
    words.run reading (word :: text) = words.run (reading.read symbol) text := by
  rw [run, List.foldlM_cons, h]
  rfl

theorem run_append (reading : Reading) (text text' : List α) :
    words.run reading (text ++ text') =
      (words.run reading text).bind fun reading => words.run reading text' :=
  List.foldlM_append

/-- A zero is read over. -/
theorem run_zeroBehind (gap : Gap) (hdigit : reading.digit = 0) (text : List α) :
    words.run reading (words.zeroBehind gap ++ text) = words.run reading text := by
  cases gap with
  | leading | closed => rfl
  | skipped =>
      have hread : reading.read (.digit 0) = reading := by
        cases reading
        cases hdigit
        rfl
      rw [zeroBehind, List.singleton_append, run_cons (words.meaning_digit 0 (by decide)), hread]

/-- The terms of a section add up to its value. -/
theorem exists_run_terms (h : words.Terms gap place text value) (hplace : place ≤ 4)
    (reading : Reading) (hdigit : reading.digit = 0) :
    ∃ next, words.run reading text = some next ∧ next.myriads = reading.myriads ∧
      next.sum + next.digit = reading.sum + value := by
  induction h generalizing reading with
  | done => exact ⟨reading, rfl, rfl, by rw [hdigit]⟩
  | skip _ ih => exact ih (Nat.le_of_succ_le hplace) reading hdigit
  | @term gap place digit text value hpos hlt tail ih =>
      rw [run_zeroBehind gap hdigit, run_cons (words.meaning_digit digit hlt)]
      by_cases hlast : place = 0
      · subst hlast
        cases tail
        exact ⟨_, rfl, rfl, by simp [Reading.read]⟩
      · have hunit := words.meaning_unit place (Nat.pos_of_ne_zero hlast) hplace
        rw [unitWord, if_neg hlast, List.singleton_append, run_cons hunit]
        have hread : (reading.read (.digit digit)).read (.unit place) =
            ⟨reading.myriads, reading.sum + digit * 10 ^ place, 0⟩ := by
          simp [Reading.read, hpos.ne']
        obtain ⟨next, hrun, hmyriads, hsum⟩ := ih (Nat.le_of_succ_le hplace)
          ⟨reading.myriads, reading.sum + digit * 10 ^ place, 0⟩ rfl
        refine ⟨next, hread ▸ hrun, hmyriads, ?_⟩
        rw [hsum, Nat.add_assoc]

theorem evaluate_shortened [DecidableEq α] (text : List α) :
    words.evaluate (words.shortened text) = words.evaluate text := by
  rw [evaluate, evaluate]
  fun_cases shortened words text with
  | case1 first second rest hten =>
      obtain ⟨rfl, rfl⟩ := hten
      have hunit := words.meaning_unit 1 (by decide) (by decide)
      rw [run_cons hunit, run_cons (words.meaning_digit 1 (by decide)), run_cons hunit]
      rfl
  | case2 => rfl
  | case3 => rfl

/-- Reading a numeral gives its number. -/
theorem evaluate_numeral [DecidableEq α] (h : words.Numeral text value) :
    words.evaluate text = some value := by
  cases h with
  | zero =>
      rw [evaluate, run_cons (words.meaning_digit 0 (by decide))]
      rfl
  | @units text _ _ h =>
      obtain ⟨next, hrun, hmyriads, hsum⟩ := exists_run_terms h (Nat.le_refl 4) ⟨0, 0, 0⟩ rfl
      rw [evaluate_shortened, evaluate, hrun, Option.map_some, Reading.value, hmyriads, hsum]
      simp
  | @myriads text text' high low _ hhigh hlow =>
      obtain ⟨upper, hupper, -, hsumUpper⟩ :=
        exists_run_terms hhigh (Nat.le_refl 4) ⟨0, 0, 0⟩ rfl
      obtain ⟨next, hrun, hmyriads, hsum⟩ :=
        exists_run_terms hlow (Nat.le_refl 4) ⟨upper.sum + upper.digit, 0, 0⟩ rfl
      have hread : upper.read .myriad = ⟨upper.sum + upper.digit, 0, 0⟩ := rfl
      rw [evaluate_shortened, evaluate, run_append, hupper, Option.bind_some,
        run_cons words.meaning_myriad, hread, hrun, Option.map_some, Reading.value, hmyriads, hsum,
        hsumUpper]
      simp

/-- Of digits without places only the last one is left. -/
theorem run_digits (digits : List Nat) (hdigits : ∀ d ∈ digits, d < 10) (reading : Reading) :
    words.run reading (digits.map words.digit) =
      some { reading with digit := digits.getLast?.getD reading.digit } := by
  induction digits generalizing reading with
  | nil => rfl
  | cons d rest ih =>
      rw [List.forall_mem_cons] at hdigits
      rw [List.map_cons, run_cons (words.meaning_digit d hdigits.1), ih hdigits.2]
      cases rest with
      | nil => rfl
      | cons next rest => rw [List.getLast?_cons_cons]; rfl

theorem evaluate_digits (digits : List Nat) (hdigits : ∀ d ∈ digits, d < 10) :
    words.evaluate (digits.map words.digit) = some (digits.getLast?.getD 0) := by
  rw [evaluate, run_digits digits hdigits]
  simp [Reading.value]

/-! ## From one gap to another -/

theorem Terms.lt (h : words.Terms gap place text value) : value < 10 ^ place := by
  induction h with
  | done => exact Nat.one_pos
  | @skip gap place text value _ ih =>
      rw [Nat.pow_succ]
      omega
  | @term gap place digit text value _ hlt _ ih =>
      calc
        digit * 10 ^ place + value < digit * 10 ^ place + 10 ^ place := Nat.add_lt_add_left ih _
        _ = (digit + 1) * 10 ^ place := (Nat.succ_mul ..).symm
        _ ≤ 10 * 10 ^ place := Nat.mul_le_mul_right _ hlt
        _ = 10 ^ (place + 1) := Nat.pow_succ'.symm

/-- Zero is written as nothing. -/
theorem Terms.zero (gap : Gap) (place : Nat) : words.Terms gap place [] 0 := by
  induction place generalizing gap with
  | zero => exact .done
  | succ place ih => exact .skip (ih gap.skip)

theorem Terms.ne_nil (h : words.Terms gap place text value) (hpos : 0 < value) : text ≠ [] := by
  induction h with
  | done => exact absurd hpos (Nat.lt_irrefl 0)
  | skip _ ih => exact ih hpos
  | term _ _ _ _ => exact List.append_ne_nil_of_right_ne_nil _ (List.cons_ne_nil _ _)

/-- Behind skipped places the first digit has a zero before it. -/
theorem Terms.skipped (h : words.Terms .leading place text value) (hpos : 0 < value) :
    words.Terms .skipped place (words.digit 0 :: text) value := by
  induction place generalizing text with
  | zero =>
      cases h
      exact absurd hpos (Nat.lt_irrefl 0)
  | succ place ih =>
      cases h with
      | skip tail => exact .skip (ih tail)
      | term hdigit hlt tail => exact .term hdigit hlt tail

/-- Behind a word only skipped places are marked. -/
theorem Terms.closed (h : words.Terms .leading (place + 1) text value) (hpos : 0 < value) :
    words.Terms .closed (place + 1)
      (if value < 10 ^ place then words.digit 0 :: text else text) value := by
  cases h with
  | skip tail =>
      rw [if_pos tail.lt]
      exact .skip (tail.skipped hpos)
  | @term _ _ digit text value hdigit hlt tail =>
      have hle : 10 ^ place ≤ digit * 10 ^ place + value :=
        Nat.le_add_right_of_le (Nat.le_mul_of_pos_left _ hdigit)
      rw [if_neg (Nat.not_lt.mpr hle)]
      exact .term hdigit hlt tail

end Lexicon

end Dengjen.Numerals
