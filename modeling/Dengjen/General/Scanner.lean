import Mathlib.Data.List.Basic
import Mathlib.Data.List.Infix

/-!
# Scanners

A scanner reads a list from left to right. Each step consumes an element and maybe
more behind it, and emits a piece of the result. Where the steps over a front do not
depend on what follows it, the front and the rest are scanned in turn. A scanner
that copies what it does not recognise transcribes its input.
-/

namespace Dengjen

variable {α β : Type*}

/-- One step sees the first element and all that follows it. -/
structure Scanner (α β : Type*) where
  step : α → List α → List β × List α
  suffix : ∀ a rest, (step a rest).2 <:+ rest

/-- What is recognised is replaced by its reading, the rest is copied. -/
inductive Transcribes (recognised : List α → List α → Prop) : List α → List α → Prop
  | copied (text) : Transcribes recognised text text
  | piece (before) {piece reading rest out} (h : recognised piece reading)
      (tail : Transcribes recognised rest out) :
      Transcribes recognised (before ++ piece ++ rest) (before ++ reading ++ out)

namespace Scanner

theorem length_step_lt (scanner : Scanner α β) (a : α) (rest : List α) :
    (scanner.step a rest).2.length < (a :: rest).length :=
  Nat.lt_succ_of_le (scanner.suffix a rest).length_le

/-- Steps through a text to its end. -/
def run (scanner : Scanner α β) : List α → List β
  | [] => []
  | a :: rest => (scanner.step a rest).1 ++ scanner.run (scanner.step a rest).2
termination_by text => text.length
decreasing_by exact scanner.length_step_lt a rest

variable {scanner : Scanner α β} {front rest : List α}

@[simp] theorem run_nil : scanner.run [] = [] := by rw [run]

theorem run_cons (a : α) (rest : List α) :
    scanner.run (a :: rest) = (scanner.step a rest).1 ++ scanner.run (scanner.step a rest).2 := by
  rw [run]

theorem run_of_step {a : α} {tail text rest : List α} {out : List β} (htext : text = a :: tail)
    (hstep : scanner.step a tail = (out, rest)) : scanner.run text = out ++ scanner.run rest := by
  rw [htext, run_cons, hstep]

/-- No step over the front depends on what follows it. -/
def Local (scanner : Scanner α β) (front rest : List α) : Prop :=
  ∀ a tail, a :: tail <:+ front →
    scanner.step a (tail ++ rest) =
      ((scanner.step a tail).1, (scanner.step a tail).2 ++ rest)

theorem run_append (h : scanner.Local front rest) :
    scanner.run (front ++ rest) = scanner.run front ++ scanner.run rest := by
  induction hlen : front.length using Nat.strong_induction_on generalizing front with
  | _ n ih =>
      cases front with
      | nil => simp
      | cons a tail =>
          have hstep := h a tail (List.suffix_refl _)
          have htail := scanner.suffix a tail
          have hlocal : scanner.Local (scanner.step a tail).2 rest := by
            intro b more hmore
            exact h b more (hmore.trans (htail.trans (List.suffix_cons a tail)))
          have hshort : (scanner.step a tail).2.length < n := hlen ▸ scanner.length_step_lt a tail
          rw [List.cons_append, run_cons, hstep, ih _ hshort hlocal rfl, run_cons,
            List.append_assoc]

end Scanner

namespace Transcribes

variable {recognised : List α → List α → Prop} {text out : List α}

theorem append_copied (h : Transcribes recognised text out) (front : List α) :
    Transcribes recognised (front ++ text) (front ++ out) := by
  cases h with
  | copied => exact .copied (front ++ text)
  | piece before h tail =>
      simp only [← List.append_assoc]
      exact .piece (front ++ before) h tail

/-- A text without a recognised piece is copied. -/
theorem eq_of_none (h : Transcribes recognised text out)
    (hnone : ∀ piece reading, recognised piece reading → ¬ piece <:+: text) : out = text := by
  cases h with
  | copied => rfl
  | piece before h tail => exact absurd (List.infix_append _ _ _) (hnone _ _ h)

/-- The last element is the text's own, or it ends a reading. -/
theorem getLast {good : α → Prop} (h : Transcribes recognised text out)
    (hgood : ∀ piece reading, recognised piece reading → ∃ a ∈ reading.getLast?, good a)
    (htext : ∀ a ∈ text.getLast?, good a) : ∀ a ∈ out.getLast?, good a := by
  induction h with
  | copied => exact htext
  | @piece before piece reading rest out h _ ih =>
      have hout : ∀ a ∈ out.getLast?, good a := by
        apply ih
        intro a ha
        apply htext
        rw [List.getLast?_append, ha]
        rfl
      intro a ha
      rw [List.getLast?_append] at ha
      cases hlast : out.getLast? with
      | some b =>
          rw [hlast, Option.some_or] at ha
          exact hout a (hlast.trans ha)
      | none =>
          obtain ⟨b, hb, hgoodb⟩ := hgood piece reading h
          rw [hlast, Option.none_or, List.getLast?_append, hb, Option.some_or] at ha
          exact Option.some.inj ha ▸ hgoodb

end Transcribes

/-- A scanner whose steps copy or recognise what they consume transcribes. -/
theorem Scanner.transcribes {scanner : Scanner α α} {recognised : List α → List α → Prop}
    (hstep : ∀ a rest, ∃ piece, a :: rest = piece ++ (scanner.step a rest).2 ∧
      ((scanner.step a rest).1 = piece ∨ recognised piece (scanner.step a rest).1))
    (text : List α) : Transcribes recognised text (scanner.run text) := by
  induction hlen : text.length using Nat.strong_induction_on generalizing text with
  | _ n ih =>
      cases text with
      | nil =>
          rw [run_nil]
          exact .copied []
      | cons a rest =>
          obtain ⟨piece, hpiece, hcases⟩ := hstep a rest
          have htail := ih _ (hlen ▸ scanner.length_step_lt a rest) _ rfl
          rw [run_cons, hpiece]
          rcases hcases with hcopied | hrecognised
          · rw [hcopied]
            exact htail.append_copied piece
          · exact .piece [] hrecognised htail

end Dengjen
