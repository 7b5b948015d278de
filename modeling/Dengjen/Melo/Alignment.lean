import Dengjen.Text.Tokenizers
import Mathlib.Data.List.Forall2

/-!
# Phones and tones side by side

The phones and the tones of a sentence are two lists that are extended in the
same places. Position by position they are the frame, and for each piece of
each pair the piece with the tone of the pair and a blank with the blank tone.
-/

namespace Dengjen.Melo

open GreedySegmentation

section Loop

variable (phoneIdMap : HashMap String (List Int)) (toneId blankId blankTone : Int)

/-- No position is written in one list alone. -/
theorem length_mapChunkLoop (longest : Nat) (chars : List Char) (covered : Nat) :
    (mapChunkLoop phoneIdMap longest toneId blankId blankTone chars covered).1.length =
      (mapChunkLoop phoneIdMap longest toneId blankId blankTone chars covered).2.length := by
  fun_induction mapChunkLoop phoneIdMap longest toneId blankId blankTone chars covered with
  | case1 => rfl
  | case2 _ _ _ ih => exact ih
  | case3 _ _ _ _ _ _ phones tones hrest ih =>
      rw [hrest] at ih
      simpa using ih
  | case4 _ _ _ _ ih => exact ih

/-- The loop writes a piece with the tone of its pair and a blank with the blank tone. -/
theorem isGreedyLoop_zip :
    IsGreedyLoop (pieceId (firstPhoneId phoneIdMap))
      (fun id => [(id, toneId), (blankId, blankTone)])
      fun chars covered =>
        let ids := mapChunkLoop phoneIdMap (longestEntry phoneIdMap) toneId blankId blankTone
          chars covered
        ids.1.zip ids.2 where
  nil covered := by cases covered <;> rfl
  covered _ _ _ := rfl
  unmatched current rest h := by
    dsimp only
    rw [mapChunkLoop, longestMatch_of_unmatched_cons h]
  longest current rest width id h := by
    dsimp only
    rw [mapChunkLoop, longestMatch_of_bound h fun key _ => length_le_longestEntry key]
    rfl

end Loop

/-- Lists that are extended in parallel are zipped block by block. -/
theorem zip_flatten_map {α β γ : Type*} {f : α → List β × List γ} {xs : List α}
    (h : ∀ x ∈ xs, (f x).1.length = (f x).2.length) :
    ((xs.map f).map Prod.fst).flatten.length = ((xs.map f).map Prod.snd).flatten.length ∧
      ((xs.map f).map Prod.fst).flatten.zip ((xs.map f).map Prod.snd).flatten =
        xs.flatMap fun x => (f x).1.zip (f x).2 := by
  induction xs with
  | nil => exact ⟨rfl, rfl⟩
  | cons x rest ih =>
      rw [List.forall_mem_cons] at h
      obtain ⟨hlength, hzip⟩ := ih h.2
      simp only [List.map_cons, List.flatten_cons, List.flatMap_cons, List.length_append]
      exact ⟨by rw [h.1, hlength], by rw [List.zip_append h.1, hzip]⟩

section Alignment

variable (phoneIdMap : HashMap String (List Int)) (toneIdMap : HashMap String Int)

/-- The tone of the blanks. -/
def blankTone : Int := (toneIdMap.lookup "_").getD 0

/-- The id of a tone; one that is missing is read as the blank tone. -/
def toneId (toneSymbol : String) : Int := (toneIdMap.lookup toneSymbol).getD (blankTone toneIdMap)

/-- The id that a phone of the frame has, or 0. -/
def frameId (entry : String) : Int := (firstPhoneId phoneIdMap entry).getD 0

/-- What is written for the pieces of one pair. -/
def alignedPieces (toneSymbol : String) (segments : List (List Char × Int)) : List (Int × Int) :=
  segments.flatMap fun segment =>
    [(segment.2, toneId toneIdMap toneSymbol), (frameId phoneIdMap "_", blankTone toneIdMap)]

/-- Phones and tones that stand side by side: the frame around the pieces of the pairs, each pair
cut into the longest pieces of its own text. -/
structure Aligned (pairs : List (String × String)) (phoneIds toneIds : List Int) : Prop where
  length_eq : phoneIds.length = toneIds.length
  first : phoneIds.head? = some (frameId phoneIdMap "^") ∧ toneIds.head? = some (blankTone toneIdMap)
  last : phoneIds.getLast? = some (frameId phoneIdMap "$") ∧
    toneIds.getLast? = some (blankTone toneIdMap)
  pieces : ∃ segmentations : List (List (List Char × Int)),
    List.Forall₂ (fun pair segments =>
      Segments (pieceId (firstPhoneId phoneIdMap)) pair.1.toList segments) pairs segmentations ∧
    phoneIds.zip toneIds =
      (frameId phoneIdMap "^", blankTone toneIdMap) ::
        ((pairs.zip segmentations).flatMap fun (pair, segments) =>
          alignedPieces phoneIdMap toneIdMap pair.2 segments) ++
        [(frameId phoneIdMap "$", blankTone toneIdMap)]

end Alignment

variable {phoneIdMap : HashMap String (List Int)} {toneIdMap : HashMap String Int}

/-- The ids of one pair. -/
def chunkIds (phoneIdMap : HashMap String (List Int)) (toneIdMap : HashMap String Int)
    (pair : String × String) : List Int × List Int :=
  mapChunkLoop phoneIdMap (longestEntry phoneIdMap) (toneId toneIdMap pair.2)
    (frameId phoneIdMap "_") (blankTone toneIdMap) pair.1.toList 0

theorem zip_chunkIds {pair : String × String} {segments : List (List Char × Int)}
    (h : Segments (pieceId (firstPhoneId phoneIdMap)) pair.1.toList segments) :
    (chunkIds phoneIdMap toneIdMap pair).1.zip (chunkIds phoneIdMap toneIdMap pair).2 =
      alignedPieces phoneIdMap toneIdMap pair.2 segments :=
  (isGreedyLoop_zip phoneIdMap _ _ _).loop_eq h

/-- Every pair has its own segmentation, and its ids are those of the pieces. -/
theorem exists_segmentations (pairs : List (String × String)) :
    ∃ segmentations : List (List (List Char × Int)),
      List.Forall₂ (fun pair segments =>
        Segments (pieceId (firstPhoneId phoneIdMap)) pair.1.toList segments) pairs segmentations ∧
      (pairs.flatMap fun pair =>
        (chunkIds phoneIdMap toneIdMap pair).1.zip (chunkIds phoneIdMap toneIdMap pair).2) =
        (pairs.zip segmentations).flatMap fun (pair, segments) =>
          alignedPieces phoneIdMap toneIdMap pair.2 segments := by
  induction pairs with
  | nil => exact ⟨[], .nil, rfl⟩
  | cons pair rest ih =>
      obtain ⟨segments, hsegments⟩ :=
        exists_segments (pieceId (firstPhoneId phoneIdMap)) pair.1.toList
      obtain ⟨segmentations, hrest, hids⟩ := ih
      refine ⟨segments :: segmentations, .cons hsegments hrest, ?_⟩
      rw [List.flatMap_cons, List.zip_cons_cons, List.flatMap_cons, zip_chunkIds hsegments, hids]

/-- Phones and tones stay aligned, whatever is missing from the maps. -/
theorem aligned_mapPhoneTonePairsToIds (phoneIdMap : HashMap String (List Int))
    (toneIdMap : HashMap String Int) (pairs : List (String × String)) :
    Aligned phoneIdMap toneIdMap pairs
      (mapPhoneTonePairsToIds phoneIdMap toneIdMap pairs).1
      (mapPhoneTonePairsToIds phoneIdMap toneIdMap pairs).2 := by
  obtain ⟨segmentations, hsegmentations, hids⟩ :=
    exists_segmentations pairs
  obtain ⟨hlength, hzip⟩ := @zip_flatten_map _ _ _ (chunkIds phoneIdMap toneIdMap) pairs
    fun pair _ => length_mapChunkLoop ..
  have heq : mapPhoneTonePairsToIds phoneIdMap toneIdMap pairs =
      (frameId phoneIdMap "^" ::
          ((pairs.map (chunkIds phoneIdMap toneIdMap)).map Prod.fst).flatten ++
          [frameId phoneIdMap "$"],
        blankTone toneIdMap ::
          ((pairs.map (chunkIds phoneIdMap toneIdMap)).map Prod.snd).flatten ++
          [blankTone toneIdMap]) := rfl
  rw [heq]
  constructor
  · simp only [List.cons_append, List.length_cons, List.length_append, hlength]
  · exact ⟨rfl, rfl⟩
  · exact ⟨List.getLast?_concat .., List.getLast?_concat ..⟩
  · refine ⟨segmentations, hsegmentations, ?_⟩
    rw [List.cons_append, List.cons_append, List.zip_cons_cons, List.zip_append hlength, hzip, hids]
    rfl

end Dengjen.Melo
