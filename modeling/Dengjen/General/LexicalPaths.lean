import Mathlib.Data.List.Infix

/-!
# Lexical paths

A path is a list of components and leads from one place to another, where a place
is the list of the names below the root. No link is followed.
-/

namespace LexicalPaths

variable {Name : Type*}

/-- The components of a path. -/
inductive Component (Name : Type*)
  | rootDir
  | curDir
  | parentDir
  | normal (name : Name)
  deriving DecidableEq

namespace Component

/-- Where a component leads to. The parent of the root is the root. -/
def walk (place : List Name) : Component Name → List Name
  | rootDir => []
  | curDir => place
  | parentDir => place.dropLast
  | normal name => place ++ [name]

/-- The components that lead no higher. -/
def Descends : Component Name → Prop
  | curDir | normal _ => True
  | rootDir | parentDir => False

instance : DecidablePred (Descends : Component Name → Prop)
  | curDir | normal _ => inferInstanceAs (Decidable True)
  | rootDir | parentDir => inferInstanceAs (Decidable False)

theorem Descends.prefix_walk {component : Component Name} (h : component.Descends)
    (place : List Name) : place <+: component.walk place := by
  cases component with
  | rootDir => cases h
  | curDir => exact List.prefix_rfl
  | parentDir => cases h
  | normal name => exact List.prefix_append place [name]

end Component

/-- Where a path leads from a place, read as it is written. -/
def walk (place : List Name) (components : List (Component Name)) : List Name :=
  components.foldl Component.walk place

variable (place : List Name) (components : List (Component Name))

@[simp] theorem walk_nil : walk place [] = place := rfl

@[simp] theorem walk_cons (component : Component Name) :
    walk place (component :: components) = walk (component.walk place) components := rfl

@[simp] theorem walk_append (rest : List (Component Name)) :
    walk place (components ++ rest) = walk (walk place components) rest :=
  List.foldl_append

/-- An absolute path leads to one place from everywhere. -/
theorem walk_rootDir (otherPlace : List Name) :
    walk place (.rootDir :: components) = walk otherPlace (.rootDir :: components) := rfl

/-- A `.` anywhere changes nothing. -/
theorem walk_filter_curDir [DecidableEq Name] :
    walk place (components.filter (· ≠ .curDir)) = walk place components := by
  induction components generalizing place with
  | nil => rfl
  | cons component rest ih =>
      by_cases hcur : component = .curDir
      · rw [List.filter_cons_of_neg (by simpa using hcur), ih, hcur]
        rfl
      · rw [List.filter_cons_of_pos (by simpa using hcur), walk_cons, walk_cons, ih]

variable {components} in
/-- A path of descending components stays below the place it starts from. -/
theorem prefix_walk (h : ∀ component ∈ components, component.Descends) :
    place <+: walk place components := by
  induction components generalizing place with
  | nil => exact List.prefix_rfl
  | cons component rest ih =>
      obtain ⟨hhead, hrest⟩ := List.forall_mem_cons.mp h
      exact (hhead.prefix_walk place).trans (ih (component.walk place) hrest)

/-- A place lies below `top` when two of its entries do. -/
theorem prefix_of_prefix_concat {top : List Name} {first second : Name} (hne : first ≠ second)
    (hfirst : top <+: place ++ [first]) (hsecond : top <+: place ++ [second]) :
    top <+: place := by
  rcases List.prefix_concat_iff.mp hfirst with rfl | h
  · have heq : place ++ [first] = place ++ [second] :=
      hsecond.eq_of_length (by simp)
    exact absurd (List.append_cancel_left heq) (by simpa using hne)
  · exact h

end LexicalPaths
