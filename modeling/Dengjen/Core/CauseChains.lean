import Dengjen.Core.Error
import Mathlib.Data.List.Basic

/-!
# Chains of causes

The chain of an error is what `source` leads to, from cause to cause. A cause that
is attached to an error with a cause goes in front of the earlier ones, by a
`StackedCause` whose `source` is the earlier cause: the new cause's own `source` is
not reached any more.
-/

namespace Dengjen

namespace StdError

/-- The texts of an error and of everything behind it. -/
def chain : StdError → List String
  | root text => [text]
  | chained text behind => text :: behind.chain
  | stacked cause earlier => cause.display :: earlier.chain

/-- The chain goes on at the source. -/
theorem chain_eq (error : StdError) :
    error.chain = error.display :: (error.source.map chain).getD [] := by
  cases error <;> rfl

theorem chain_eq_singleton_iff (error : StdError) :
    error.chain = [error.display] ↔ error.source = none := by
  rw [chain_eq]
  cases error.source with
  | none => simp
  | some behind => simp [chain_eq behind]

/-- Without their sources, causes are shorter than with them. -/
theorem length_le_length_flatMap_chain (causes : List StdError) :
    causes.length ≤ (causes.flatMap chain).length := by
  induction causes with
  | nil => exact Nat.le_refl 0
  | cons cause rest ih =>
      rw [List.flatMap_cons, chain_eq, List.length_append]
      simp only [List.length_cons]
      omega

theorem map_display_eq_flatMap_chain_iff (causes : List StdError) :
    causes.map display = causes.flatMap chain ↔ ∀ cause ∈ causes, cause.source = none := by
  constructor
  · intro h
    induction causes with
    | nil => exact nofun
    | cons cause rest ih =>
        rw [List.map_cons, List.flatMap_cons, chain_eq, List.cons_append, List.cons.injEq] at h
        have hlength := congrArg List.length h.2
        have hrest := length_le_length_flatMap_chain rest
        rw [List.length_append, List.length_map] at hlength
        have hnil : (cause.source.map chain).getD [] = [] := List.eq_nil_of_length_eq_zero (by omega)
        have hsource : cause.source = none := by
          rw [← chain_eq_singleton_iff, chain_eq, hnil]
        rw [hnil, List.nil_append] at h
        exact List.forall_mem_cons.mpr ⟨hsource, ih h.2⟩
  · intro h
    rw [List.map_eq_flatMap]
    apply List.flatMap_congr
    intro cause hmem
    exact ((chain_eq_singleton_iff cause).mpr (h cause hmem)).symm

/-- The text of a chain names one error after the other. -/
theorem chainText_eq_chain (error : StdError) :
    error.chainText = String.join (error.chain.map fun text => ": " ++ text) := by
  induction error with
  | root text => simp [chainText, chain]
  | chained text behind ih => simp [chainText, chain, ih]
  | stacked cause earlier _ ih => simp [chainText, chain, ih]

end StdError

namespace DengjenError

open StdError

/-- The texts of the causes behind an error, newest first. -/
def causes (error : DengjenError) : List String := (error.source.map chain).getD []

theorem causeChain_eq (error : DengjenError) :
    error.causeChain = String.join (error.causes.map fun text => ": " ++ text) := by
  rw [causeChain, causes]
  cases error.source with
  | none => rfl
  | some cause => exact chainText_eq_chain cause

/-- An error with causes attached, one after the other. -/
def withSources (error : DengjenError) (attached : List StdError) : DengjenError :=
  attached.foldl withSource error

/-! ## What an attached cause leaves as it is -/

section Kept

variable (error : DengjenError) (cause : StdError) (attached : List StdError)

@[simp] theorem kind_withSource : (error.withSource cause).kind = error.kind := by
  cases error <;> rfl

@[simp] theorem display_withSource : (error.withSource cause).display = error.display := by
  cases error <;> rfl

theorem kind_withSources : (error.withSources attached).kind = error.kind := by
  induction attached generalizing error with
  | nil => rfl
  | cons cause rest ih => exact (ih (error.withSource cause)).trans (kind_withSource error cause)

theorem display_withSources : (error.withSources attached).display = error.display := by
  induction attached generalizing error with
  | nil => rfl
  | cons cause rest ih =>
      exact (ih (error.withSource cause)).trans (display_withSource error cause)

end Kept

/-! ## The chain of an error with several causes -/

/-- The chain of an error whose causes were all kept with their sources. -/
def allCauses (error : DengjenError) (attached : List StdError) : List String :=
  attached.reverse.flatMap chain ++ error.causes

/-- Attaching causes hides none of them, and nothing of the error. -/
structure KeepsAll (error : DengjenError) (attached : List StdError) : Prop where
  causes : (error.withSources attached).causes = allCauses error attached
  kind : (error.withSources attached).kind = error.kind
  category : (error.withSources attached).category = error.category
  message : (error.withSources attached).message = error.message
  display : (error.withSources attached).display = error.display

/-- The causes that find an earlier one when they are attached. -/
def stackedCauses (error : DengjenError) (attached : List StdError) : List StdError :=
  if error.source = none then attached.tail else attached

section Attached

variable (error : DengjenError) (earlier cause : StdError) (attached : List StdError)

theorem causes_caused_withSources :
    ((caused error earlier).withSources attached).causes =
      attached.reverse.map StdError.display ++ earlier.chain := by
  induction attached generalizing earlier with
  | nil => rfl
  | cons cause rest ih =>
      have h := ih (.stacked cause earlier)
      rw [List.reverse_cons, List.map_append, List.append_assoc]
      exact h

theorem causes_caused_withSources_iff :
    ((caused error earlier).withSources attached).causes =
        allCauses (caused error earlier) attached ↔
      ∀ cause ∈ attached, cause.source = none := by
  have hearlier : (caused error earlier).causes = earlier.chain := rfl
  rw [causes_caused_withSources, allCauses, hearlier, List.append_left_inj,
    map_display_eq_flatMap_chain_iff]
  simp only [List.mem_reverse]

theorem withSources_cons (h : error.source = none) :
    error.withSources (cause :: attached) = (caused error cause).withSources attached := by
  cases error <;> first | rfl | cases h

theorem allCauses_cons (h : error.source = none) :
    allCauses error (cause :: attached) = allCauses (caused error cause) attached := by
  have hcauses : error.causes = [] := by rw [causes, h]; rfl
  have hcaused : (caused error cause).causes = cause.chain := rfl
  simp [allCauses, hcauses, hcaused]

theorem causes_withSources_iff :
    (error.withSources attached).causes = allCauses error attached ↔
      ∀ cause ∈ stackedCauses error attached, cause.source = none := by
  cases hsource : error.source with
  | none =>
      rw [stackedCauses, if_pos hsource]
      cases attached with
      | nil => simp [withSources, allCauses]
      | cons cause rest =>
          rw [withSources_cons error cause rest hsource, allCauses_cons error cause rest hsource]
          exact causes_caused_withSources_iff error cause rest
  | some earlier =>
      rw [stackedCauses, if_neg (by simp [hsource])]
      cases error with
      | caused inner cause => exact causes_caused_withSources_iff inner cause attached
      | _ => cases hsource

end Attached

/-- Attaching causes loses nothing exactly when no cause that is put in front of an earlier one
has a source of its own. -/
theorem keepsAll_iff (error : DengjenError) (attached : List StdError) :
    KeepsAll error attached ↔
      ∀ cause ∈ stackedCauses error attached, cause.source = none := by
  have hkind := kind_withSources error attached
  constructor
  · intro h
    exact (causes_withSources_iff error attached).mp h.causes
  · intro h
    exact {
      causes := (causes_withSources_iff error attached).mpr h
      kind := hkind
      category := by rw [category, hkind, category]
      message := by rw [message, hkind, message]
      display := display_withSources error attached }

/-- The third error, the source of the second cause, is behind no error any more. -/
theorem second_cause_hidden :
    ¬ KeepsAll (.operationError "op") [.root "first", .chained "second" (.root "third")] := by
  intro h
  have hcauses : ["second", "first"] = ["second", "third", "first"] := h.causes
  exact absurd hcauses (by decide)

end DengjenError

end Dengjen
