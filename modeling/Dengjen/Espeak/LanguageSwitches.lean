import Dengjen.General.ByteOffsets
import Dengjen.General.Delimited

/-!
# Language switches and stress

eSpeak-ng puts the name of a language in parentheses where it changes in the middle of an
utterance. `strip_language_switches` searches the rest of the text for them and splits it
at the byte offsets it finds.
-/

namespace Dengjen.Espeak

open ByteOffsets Delimited

/-- The loop of `strip_language_switches`, `none` where `split_at` panics. -/
def stripLanguageSwitchesFrom (stripped rest : List Char) : Option (List Char) :=
  match find '(' rest with
  | none => some (stripped ++ rest)
  | some openAt =>
      match _hopen : splitAt rest openAt with
      | none => none
      | some (head, fromOpen) =>
          match find ')' fromOpen with
          | none => some (stripped ++ head ++ fromOpen)
          | some closeAt =>
              match _hclose : splitAt fromOpen (closeAt + 1) with
              | none => none
              | some (_, rest') => stripLanguageSwitchesFrom (stripped ++ head) rest'
termination_by rest.length
decreasing_by exact Nat.lt_of_lt_of_le (length_lt_of_splitAt _hclose) (length_le_of_splitAt _hopen)

/-- A text without its language switches. -/
def stripLanguageSwitches (text : List Char) : Option (List Char) :=
  stripLanguageSwitchesFrom [] text

/-- A text without its stress marks. -/
def stripStressMarkers (text : List Char) : List Char :=
  text.filter fun c => c ≠ 'ˈ' ∧ c ≠ 'ˌ'

/-- The search for an opening parenthesis stops at a character boundary. -/
theorem stripLanguageSwitchesFrom_open {front : List Char} (hfront : '(' ∉ front)
    (stripped back : List Char) :
    stripLanguageSwitchesFrom stripped (front ++ '(' :: back) =
      match find ')' ('(' :: back) with
      | none => some (stripped ++ front ++ '(' :: back)
      | some closeAt =>
          (splitAt ('(' :: back) (closeAt + 1)).bind fun parts =>
            stripLanguageSwitchesFrom (stripped ++ front) parts.2 := by
  rw [stripLanguageSwitchesFrom, find_append_cons hfront]
  dsimp only
  split
  · next hopen =>
      rw [splitAt_byteSize] at hopen
      cases hopen
  · next head fromOpen hopen =>
      rw [splitAt_byteSize] at hopen
      cases hopen
      split
      · rfl
      · split
        · next hclose => rw [hclose, Option.bind_none]
        · next hclose => rw [hclose, Option.bind_some]

theorem stripLanguageSwitchesFrom_unclosed {front back : List Char} (hfront : '(' ∉ front)
    (hback : ')' ∉ back) (stripped : List Char) :
    stripLanguageSwitchesFrom stripped (front ++ '(' :: back) =
      some (stripped ++ (front ++ '(' :: back)) := by
  have hclosing : ')' ∉ '(' :: back := by simp [hback]
  rw [stripLanguageSwitchesFrom_open hfront, find_eq_none hclosing, List.append_assoc]

theorem stripLanguageSwitchesFrom_span {front inner : List Char} (hfront : '(' ∉ front)
    (hinner : ')' ∉ inner) (stripped rest : List Char) :
    stripLanguageSwitchesFrom stripped (front ++ '(' :: (inner ++ ')' :: rest)) =
      stripLanguageSwitchesFrom (stripped ++ front) rest := by
  have hclosing : ')' ∉ '(' :: inner := by simp [hinner]
  have hfind : find ')' ('(' :: (inner ++ ')' :: rest)) = some (byteSize ('(' :: inner)) :=
    find_append_cons hclosing rest
  have hsplit : splitAt ('(' :: (inner ++ ')' :: rest)) (byteSize ('(' :: inner) + 1) =
      some ('(' :: inner ++ [')'], rest) := splitAt_byteSize_succ rfl ('(' :: inner) rest
  rw [stripLanguageSwitchesFrom_open hfront, hfind]
  dsimp only
  rw [hsplit, Option.bind_some]

/-- The loop finds and splits at character boundaries, and leaves out the spans. -/
theorem stripLanguageSwitchesFrom_eq {rest out : List Char} (h : Stripped '(' ')' rest out)
    (stripped : List Char) : stripLanguageSwitchesFrom stripped rest = some (stripped ++ out) := by
  induction h generalizing stripped with
  | plain rest h => rw [stripLanguageSwitchesFrom, find_eq_none h]
  | unclosed front back hfront hback => exact stripLanguageSwitchesFrom_unclosed hfront hback _
  | span front inner hfront hinner tail ih =>
      rw [stripLanguageSwitchesFrom_span hfront hinner, ih, List.append_assoc]

theorem stripLanguageSwitches_eq {text out : List Char} (h : Stripped '(' ')' text out) :
    stripLanguageSwitches text = some out :=
  stripLanguageSwitchesFrom_eq h []

theorem stripped_stripStressMarkers {text out : List Char} (h : Stripped '(' ')' text out) :
    Stripped '(' ')' (stripStressMarkers text) (stripStressMarkers out) :=
  h.filter rfl rfl

/-- The spans from an opening parenthesis to the nearest closing one are taken out, and nothing
else; after that there is none left, and the stress markers may be taken out before or after. -/
theorem stripLanguageSwitches_spec (text : List Char) :
    ∃ out, stripLanguageSwitches text = some out ∧
      (∀ out', Stripped '(' ')' text out' ↔ out' = out) ∧ ¬ ['(', ')'].Sublist out ∧
      stripLanguageSwitches out = some out ∧
      stripLanguageSwitches (stripStressMarkers text) = some (stripStressMarkers out) := by
  obtain ⟨out, h⟩ := exists_stripped '(' ')' text
  refine ⟨out, stripLanguageSwitches_eq h, fun out' => ⟨fun h' => ?_, fun heq => heq ▸ h⟩,
    h.not_sublist, stripLanguageSwitches_eq (.of_not_sublist h.not_sublist),
    stripLanguageSwitches_eq (stripped_stripStressMarkers h)⟩
  exact Option.some.inj ((stripLanguageSwitches_eq h').symm.trans (stripLanguageSwitches_eq h))

end Dengjen.Espeak
