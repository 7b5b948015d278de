import Dengjen.Piper.ChunkPlanning

/-!
# The order of the chunks

A chunk that is not the last ends at its padded end, which is where the next one is
planned from. The width is at least one frame for every chunk size, so the cursor moves
towards the end of the frames and passes it after finitely many chunks.
-/

namespace Dengjen.Piper.Streaming

open Iteration TransitionSystem

/-- The ends of the closed mel slices, in order. -/
def closedEnds (items : List (Slice × Slice)) : List Int := items.filterMap fun item => item.1.stop

/-- The closed ends increase, the last slice and no other is open, and none starts past the
frames. -/
structure MovesForward (numFrames : Nat) (items : List (Slice × Slice)) : Prop where
  increasing : (closedEnds items).Pairwise (· < ·)
  lastOpen : ∃ closed last, items = closed ++ [last] ∧ last.1.stop = none ∧
    ∀ item ∈ closed, item.1.stop.isSome
  starts : ∀ item ∈ items, item.1.start ≤ numFrames

theorem MovesForward.last {numFrames : Nat} {start : Int} (audio : Slice)
    (hstart : start ≤ numFrames) : MovesForward numFrames [(⟨start, none⟩, audio)] where
  increasing := .nil
  lastOpen := ⟨[], _, rfl, rfl, nofun⟩
  starts := List.forall_mem_singleton.mpr hstart

theorem MovesForward.cons {numFrames : Nat} {start stop : Int} {items : List (Slice × Slice)}
    (h : MovesForward numFrames items) (audio : Slice) (hstart : start ≤ numFrames)
    (hstop : ∀ later ∈ closedEnds items, stop < later) :
    MovesForward numFrames ((⟨start, some stop⟩, audio) :: items) where
  increasing := List.pairwise_cons.mpr ⟨hstop, h.increasing⟩
  lastOpen := by
    obtain ⟨closed, last, rfl, hlast, hclosed⟩ := h.lastOpen
    exact ⟨_ :: closed, last, rfl, hlast, List.forall_mem_cons.mpr ⟨rfl, hclosed⟩⟩
  starts := List.forall_mem_cons.mpr ⟨hstart, h.starts⟩

variable {numFrames chunkSize padding hop : Nat}

/-- A chunk starts no later than where it is planned from. -/
theorem next_item (numFrames chunkSize padding hop cursor emitted : Nat) :
    ∃ start audio, start ≤ (cursor : Int) ∧
      (chunkerAt numFrames chunkSize padding hop cursor emitted).next.1 =
        some (⟨start, if numFrames ≤ cursor + chunkWidth chunkSize emitted + padding + 44 then none
          else some (cursor + chunkWidth chunkSize emitted + padding : Nat)⟩, audio) := by
  have hwidth : (chunkerAt numFrames chunkSize padding hop cursor emitted).currentChunkWidth =
      chunkWidth chunkSize emitted := currentChunkWidth_eq _
  simp only [AdaptiveMelChunker.next, hwidth]
  simp only [chunkerAt, AdaptiveMelChunker.new, isFinal_iff]
  simp only [apply_ite Prod.fst, Nat.cast_add]
  refine ⟨_, _, ?_, rfl⟩
  split <;> omega

theorem closedEnds_cons_closed (start stop : Int) (audio : Slice) (items : List (Slice × Slice)) :
    closedEnds ((⟨start, some stop⟩, audio) :: items) = stop :: closedEnds items :=
  List.filterMap_cons_some rfl

/-- The chunks that are planned from a cursor within the frames. -/
theorem drains_forward {cursor emitted : Nat} (hcursor : cursor ≤ numFrames) :
    ∃ items, Drains AdaptiveMelChunker.next
        (chunkerAt numFrames chunkSize padding hop cursor emitted) items ∧
      MovesForward numFrames items ∧ ∀ stop ∈ closedEnds items, (cursor : Int) < stop := by
  -- The frames behind the cursor decrease with each chunk.
  induction hn : numFrames - cursor using Nat.strong_induction_on generalizing cursor emitted with
  | _ k ih =>
      obtain ⟨start, audio, hstart, hitem⟩ :=
        next_item numFrames chunkSize padding hop cursor emitted
      have hstate := @next_state numFrames chunkSize padding hop cursor emitted
      have hstart' : start ≤ numFrames := by omega
      have hwidth := chunkWidth_pos chunkSize emitted
      split at hitem
      · next hlast =>
          rw [if_pos hlast] at hstate
          exact ⟨_, .yield (Prod.ext hitem hstate) (.done rfl), .last audio hstart', nofun⟩
      · next hmore =>
          rw [if_neg hmore] at hstate
          obtain ⟨items, hdrain, hforward, hends⟩ :=
            @ih _ (by omega) (cursor + chunkWidth chunkSize emitted + padding) (emitted + 1)
              (by omega) rfl
          refine ⟨_, .yield (Prod.ext hitem hstate) hdrain, hforward.cons audio hstart' hends, ?_⟩
          rw [closedEnds_cons_closed, List.forall_mem_cons]
          refine ⟨by omega, fun stop hstop => ?_⟩
          have hlater := hends stop hstop
          omega

/-! ## Calls that do not overflow -/

/-- One call of a chunker; its label is what the call yields. -/
def AdaptiveMelChunker.Call (chunker : AdaptiveMelChunker) (item : Option (Slice × Slice))
    (chunker' : AdaptiveMelChunker) : Prop :=
  chunker.checkedNext = some (item, chunker')

/-- What the calls of a chunker yield until one yields nothing, when no operation overflows. -/
inductive Plans : AdaptiveMelChunker → List (Slice × Slice) → Prop
  | done {chunker chunker'} (h : chunker.Call none chunker') : Plans chunker []
  | yield {chunker item chunker' items} (h : chunker.Call (some item) chunker')
      (tail : Plans chunker' items) : Plans chunker (item :: items)

/-- No operation of any call of the chunker overflows. -/
def ChunksWithoutOverflow (chunker : AdaptiveMelChunker) : Prop :=
  ∀ chunker', Reachable (· = chunker) AdaptiveMelChunker.Call chunker' → chunker'.checkedNext.isSome

theorem ChunksWithoutOverflow.call {chunker : AdaptiveMelChunker}
    (h : ChunksWithoutOverflow chunker) :
    chunker.Call chunker.next.1 chunker.next.2 ∧ ChunksWithoutOverflow chunker.next.2 := by
  obtain ⟨result, hresult⟩ := Option.isSome_iff_exists.mp (h chunker (.of_init rfl))
  have hcall : chunker.Call chunker.next.1 chunker.next.2 := by
    rw [AdaptiveMelChunker.Call, hresult, ← next_of_checkedNext hresult]
  refine ⟨hcall, fun chunker' hreach => h chunker' ?_⟩
  obtain ⟨_, items, rfl, run⟩ := hreach
  exact ⟨chunker, _, rfl, .cons hcall run⟩

theorem plans_of_drains {chunker : AdaptiveMelChunker} {items : List (Slice × Slice)}
    (hdrain : Drains AdaptiveMelChunker.next chunker items)
    (hfits : ChunksWithoutOverflow chunker) : Plans chunker items := by
  induction hdrain with
  | done h => exact .done (h ▸ hfits.call.1)
  | yield h tail ih =>
      obtain ⟨hcall, hfits'⟩ := hfits.call
      rw [h] at hcall hfits'
      exact .yield hcall (ih hfits')

/-- Between two chunks the cursor is within the frames and bounds their count. -/
def Within (numFrames chunkSize padding hop : Nat) (chunker : AdaptiveMelChunker) : Prop :=
  chunker.cursor = none ∨
    ∃ cursor emitted, chunker = chunkerAt numFrames chunkSize padding hop cursor emitted ∧
      emitted ≤ cursor ∧ cursor ≤ numFrames

theorem Within.call {chunker chunker' : AdaptiveMelChunker} {item : Option (Slice × Slice)}
    (h : Within numFrames chunkSize padding hop chunker) (hcall : chunker.Call item chunker') :
    Within numFrames chunkSize padding hop chunker' := by
  have hnext : chunker' = chunker.next.2 := by rw [next_of_checkedNext hcall]
  rcases h with hdone | ⟨cursor, emitted, rfl, hcount, hcursor⟩
  · refine .inl ?_
    rw [hnext, AdaptiveMelChunker.next, hdone]
    exact hdone
  · have hwidth := chunkWidth_pos chunkSize emitted
    rw [hnext, next_state]
    split
    · exact .inl rfl
    · exact .inr ⟨_, _, rfl, by omega, by omega⟩

/-- Nothing overflows when a padded chunk behind the last frame fits, with its padding doubled or
in samples. -/
theorem chunksWithoutOverflow_of_le (hend : numFrames + maxChunkSize + padding * 2 ≤ isizeMax)
    (hhop : padding * hop ≤ isizeMax) :
    ChunksWithoutOverflow (.new numFrames chunkSize padding hop) := by
  rintro chunker ⟨_, items, rfl, run⟩
  have hstart : Within numFrames chunkSize padding hop (.new numFrames chunkSize padding hop) :=
    .inr ⟨0, 0, rfl, le_refl 0, Nat.zero_le numFrames⟩
  rcases run.preserves (fun _ _ _ h hcall => h.call hcall) hstart with
    hdone | ⟨cursor, emitted, rfl, hcount, hcursor⟩
  · rw [AdaptiveMelChunker.checkedNext, hdone]
    rfl
  · have hcap : chunkWidth chunkSize emitted ≤ maxChunkSize := Nat.min_le_right _ _
    have hmax : isizeMax < usizeMax := by decide
    refine (isSome_checkedNext_iff rfl).mpr ((operationsFit_chunkerAt (by omega) _ _).mpr ?_)
    exact ⟨by omega, by omega, fun _ => ⟨by omega, hhop⟩, fun _ => by omega⟩

/-- The chunker yields finitely many chunks whose closed ends increase, whose last one and no
other is open, and none of which starts past the frames. -/
theorem chunks_move_forward
    (hfits : ChunksWithoutOverflow (.new numFrames chunkSize padding hop)) :
    ∃ items, Plans (.new numFrames chunkSize padding hop) items ∧ MovesForward numFrames items := by
  obtain ⟨items, hdrain, hforward, -⟩ :=
    @drains_forward numFrames chunkSize padding hop 0 0 (Nat.zero_le numFrames)
  exact ⟨items, plans_of_drains hdrain hfits, hforward⟩

/-- A thousand frames in chunks of size zero. -/
theorem zero_sized_chunks_move_forward :
    ∃ items, Plans (.new 1000 0 0 10) items ∧ MovesForward 1000 items :=
  chunks_move_forward (chunksWithoutOverflow_of_le (by decide) (by decide))

end Dengjen.Piper.Streaming
