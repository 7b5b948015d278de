import Mathlib.Data.List.Forall2

/-!
# Diacritization

Nakdimon predicts for each character of a text without points the number of a class
in each of three tables. `merge_diacritics` writes the points behind the letters that
may carry them. Class 0 is the mask token and adds nothing, and the first entry of
each table is rafe, which stands for no point and is taken out at the end.
-/

namespace Dengjen.Hebrew

/-- The class of no point. -/
def rafe : Char := '\u05BF'
/-- The point inside a letter. -/
def dageshLetter : Char := '\u05BC'
/-- The point of shin. -/
def shinYemanit : Char := '\u05C1'
/-- The point of sin. -/
def shinSmalit : Char := '\u05C2'

/-- The characters from one to another. -/
def charsBetween (first last : Char) : List Char :=
  (List.range' first.toNat (last.toNat + 1 - first.toNat)).map Char.ofNat

/-- Patah is there twice, as in the table that the model was trained with. -/
def niqqudClasses : List Char := rafe :: charsBetween '\u05B0' '\u05BC' ++ ['\u05B7']

/-- The classes of the points of shin and sin. -/
def sinClasses : List Char := [rafe, shinYemanit, shinSmalit]

/-- The classes of the point inside a letter. -/
def dageshClasses : List Char := [rafe, dageshLetter]

/-- Hebrew points and marks without maqaf, paseq, sof pasuq and nun hafukha. -/
def isNiqqud (c : Char) : Bool :=
  '\u05B0' ≤ c ∧ c ≤ '\u05C7' ∧ c ≠ '\u05BE' ∧ c ≠ '\u05C0' ∧ c ≠ '\u05C3' ∧ c ≠ '\u05C6'

/-- A text without points. -/
def removeNiqqud (text : String) : String :=
  String.ofList (text.toList.filter fun c => !isNiqqud c)

/-- The letters that may have a point inside. -/
def canDagesh (letter : Char) : Bool :=
  ("\u05D1\u05D2\u05D3\u05D4\u05D5\u05D6\u05D8\u05D9\u05DB\u05DC\u05DE\u05E0\u05E1\u05E4\u05E6\u05E7" ++
    "\u05E9\u05EA\u05DA\u05E3").toList.contains letter

/-- The letter that is shin or sin. -/
def canSin (letter : Char) : Bool := letter = '\u05E9'

/-- The letters that may have a vowel. -/
def canNiqqud (letter : Char) : Bool :=
  ("\u05D0\u05D1\u05D2\u05D3\u05D4\u05D5\u05D6\u05D7\u05D8\u05D9\u05DB\u05DC\u05DE\u05E0\u05E1\u05E2" ++
    "\u05E4\u05E6\u05E7\u05E8\u05E9\u05EA\u05DA\u05DF").toList.contains letter

/-- `usize::checked_sub` leaves class 0 without a character. -/
def classChar (ids : List Nat) (classes : List Char) (i : Nat) : Option Char :=
  match ids[i]? with
  | some (id + 1) => classes[id]?
  | _ => none

/-- The point that a letter gets of one table. -/
def point (allowed : Char → Bool) (classes : List Char) (ids : List Nat) (letter : Char) (i : Nat) :
    Option Char :=
  if allowed letter then classChar ids classes i else none

/-- A letter with what the model predicts for it. -/
def withPoints (niqqudIds dageshIds sinIds : List Nat) (letter : Char) (i : Nat) : List Char :=
  letter :: (point canDagesh dageshClasses dageshIds letter i).toList ++
    (point canSin sinClasses sinIds letter i).toList ++
    (point canNiqqud niqqudClasses niqqudIds letter i).toList

/-- The letters with the points of their classes. -/
def mergeDiacritics (letters : List Char) (niqqudIds dageshIds sinIds : List Nat) : String :=
  let out := letters.zipIdx.flatMap fun (letter, i) =>
    withPoints niqqudIds dageshIds sinIds letter i
  String.ofList (out.filter (· ≠ rafe))

/-! ## Letters with their points -/

variable {letter : Char} {letters : List Char} {allowed : Char → Bool} {classes : List Char}
  {niqqudIds dageshIds sinIds : List Nat}

/-- A point of a table that the letter may carry. -/
def Carries (letter : Char) (allowed : Char → Bool) (classes : List Char) (point : Option Char) :
    Prop :=
  ∀ mark ∈ point, allowed letter ∧ mark ∈ classes ∧ mark ≠ rafe

/-- A letter, at most one dagesh, at most one dot of shin or sin and at most one vowel point. -/
def Pointed (letter : Char) (text : List Char) : Prop :=
  ∃ dagesh sin niqqud : Option Char,
    text = letter :: dagesh.toList ++ sin.toList ++ niqqud.toList ∧
    Carries letter canDagesh dageshClasses dagesh ∧ Carries letter canSin sinClasses sin ∧
    Carries letter canNiqqud niqqudClasses niqqud

theorem mem_classes_of_classChar {ids : List Nat} {i : Nat} {mark : Char}
    (h : classChar ids classes i = some mark) : mark ∈ classes := by
  rw [classChar] at h
  split at h
  · exact List.mem_of_getElem? h
  · cases h

theorem carries_point (ids : List Nat) (letter : Char) (i : Nat) :
    Carries letter allowed classes
      ((point allowed classes ids letter i).filter fun mark => mark ≠ rafe) := by
  intro mark hmark
  obtain ⟨hpoint, hrafe⟩ := Option.filter_eq_some_iff.mp hmark
  obtain ⟨hallowed, hchar⟩ := Option.ite_none_right_eq_some.mp hpoint
  exact ⟨hallowed, mem_classes_of_classChar hchar, by simpa using hrafe⟩

theorem pointed_withPoints (h : letter ≠ rafe) (i : Nat) :
    Pointed letter ((withPoints niqqudIds dageshIds sinIds letter i).filter (· ≠ rafe)) := by
  refine ⟨_, _, _, ?_, carries_point dageshIds letter i, carries_point sinIds letter i,
    carries_point niqqudIds letter i⟩
  rw [withPoints, List.filter_append, List.filter_append, List.filter_cons_of_pos (by simpa using h)]
  simp only [Option.toList_filter]

theorem isNiqqud_of_mem_classes :
    ∀ mark ∈ dageshClasses ++ sinClasses ++ niqqudClasses, isNiqqud mark :=
  List.all_eq_true.mp (by decide)

/-- Without the points a letter is left, and none of the points is a rafe. -/
theorem Pointed.points {text : List Char} (h : Pointed letter text) :
    ∃ points, text = letter :: points ∧ ∀ mark ∈ points, isNiqqud mark ∧ mark ≠ rafe := by
  obtain ⟨dagesh, sin, niqqud, rfl, hdagesh, hsin, hniqqud⟩ := h
  refine ⟨dagesh.toList ++ sin.toList ++ niqqud.toList, by simp, ?_⟩
  have hmem {mark : Char} := isNiqqud_of_mem_classes mark
  intro mark hmark
  simp only [List.mem_append, Option.mem_toList] at hmark hmem
  rcases hmark with (hmark | hmark) | hmark
  · obtain ⟨-, hclass, hrafe⟩ := hdagesh mark hmark
    exact ⟨hmem (.inl (.inl hclass)), hrafe⟩
  · obtain ⟨-, hclass, hrafe⟩ := hsin mark hmark
    exact ⟨hmem (.inl (.inr hclass)), hrafe⟩
  · obtain ⟨-, hclass, hrafe⟩ := hniqqud mark hmark
    exact ⟨hmem (.inr hclass), hrafe⟩

theorem filter_isNiqqud_flatten {groups : List (List Char)} (h : List.Forall₂ Pointed letters groups)
    (hletters : ∀ letter ∈ letters, isNiqqud letter = false) :
    groups.flatten.filter (fun c => !isNiqqud c) = letters := by
  induction h with
  | nil => rfl
  | cons hpointed _ ih =>
      obtain ⟨hletter, hrest⟩ := List.forall_mem_cons.mp hletters
      obtain ⟨points, rfl, hpoints⟩ := hpointed.points
      have hnone : points.filter (fun c => !isNiqqud c) = [] :=
        List.filter_eq_nil_iff.mpr fun mark hmark => by simp [(hpoints mark hmark).1]
      rw [List.flatten_cons, List.filter_append, ih hrest,
        List.filter_cons_of_pos (by simp [hletter]), hnone]
      rfl

theorem forall₂_pointed (niqqudIds dageshIds sinIds : List Nat)
    (hletters : ∀ letter ∈ letters, letter ≠ rafe) (start : Nat) :
    List.Forall₂ Pointed letters ((letters.zipIdx start).map fun (letter, i) =>
      (withPoints niqqudIds dageshIds sinIds letter i).filter (· ≠ rafe)) := by
  induction letters generalizing start with
  | nil => exact .nil
  | cons letter rest ih =>
      obtain ⟨hletter, hrest⟩ := List.forall_mem_cons.mp hletters
      exact .cons (pointed_withPoints hletter start) (ih hrest (start + 1))

/-- The text is the letters with points that each may carry, and no rafe among them. -/
structure AddsPoints (letters : List Char) (merged : String) : Prop where
  removed : removeNiqqud merged = String.ofList letters
  unmarked : rafe ∉ merged.toList
  pointed : ∃ groups, List.Forall₂ Pointed letters groups ∧ merged.toList = groups.flatten

/-- Diacritization only adds points, whatever the model predicts. -/
theorem addsPoints_mergeDiacritics (letters : List Char) (niqqudIds dageshIds sinIds : List Nat)
    (hletters : ∀ letter ∈ letters, isNiqqud letter = false) :
    AddsPoints letters (mergeDiacritics letters niqqudIds dageshIds sinIds) := by
  have hrafe : ∀ letter ∈ letters, letter ≠ rafe := by
    intro letter hmem heq
    have hniqqud := hletters letter hmem
    rw [heq] at hniqqud
    exact absurd hniqqud (by decide)
  have hgroups := forall₂_pointed niqqudIds dageshIds sinIds hrafe 0
  have hmerged : (mergeDiacritics letters niqqudIds dageshIds sinIds).toList =
      (letters.zipIdx.map fun (letter, i) =>
        (withPoints niqqudIds dageshIds sinIds letter i).filter (· ≠ rafe)).flatten := by
    rw [mergeDiacritics, String.toList_ofList, List.filter_flatMap, List.flatMap_def]
  constructor
  · rw [removeNiqqud, hmerged, filter_isNiqqud_flatten hgroups hletters]
  · rw [mergeDiacritics, String.toList_ofList]
    simp
  · exact ⟨_, hgroups, hmerged⟩

/-- Shin with a dagesh and a dot, and a final mem that may carry nothing. -/
theorem addsPoints_shin_mem :
    AddsPoints ['\u05E9', '\u05DD'] (mergeDiacritics ['\u05E9', '\u05DD'] [9, 9] [2, 2] [2, 7]) :=
  addsPoints_mergeDiacritics ['\u05E9', '\u05DD'] [9, 9] [2, 2] [2, 7]
    (List.forall_mem_cons.mpr ⟨by decide, List.forall_mem_singleton.mpr (by decide)⟩)

end Dengjen.Hebrew
