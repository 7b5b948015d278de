import Mathlib.Data.Option.Basic
import Mathlib.Logic.Function.Basic

/-!
# Files and their names

Names lead to files and files hold bytes. A file keeps its identity when it is
renamed and outlives the last name that leads to it, and a new file is never one
that was there before. Creating a file fails when its name leads to one already, so
no two clients create the same file.
-/

namespace Files

/-- Names lead only to files that have been created. -/
structure Store (Name Byte : Type*) where
  entry : Name → Option Nat
  content : Nat → List Byte
  /-- The file that the next creation makes. -/
  next : Nat
  created : ∀ {name file}, entry name = some file → file < next

namespace Store

variable {Name Byte : Type*}

/-- What a reader of a name sees. -/
def read (s : Store Name Byte) (name : Name) : Option (List Byte) := (s.entry name).map s.content

/-- Appends bytes to a file, whatever name it has. -/
def append (s : Store Name Byte) (file : Nat) (bytes : List Byte) : Store Name Byte :=
  { s with content := Function.update s.content file (s.content file ++ bytes) }

section Append

variable {s : Store Name Byte} {name : Name} {file other : Nat} {bytes : List Byte}

@[simp] theorem entry_append : (s.append file bytes).entry = s.entry := rfl

@[simp] theorem next_append : (s.append file bytes).next = s.next := rfl

theorem content_append_self : (s.append file bytes).content file = s.content file ++ bytes :=
  Function.update_self ..

theorem content_append_of_ne (h : other ≠ file) :
    (s.append file bytes).content other = s.content other :=
  Function.update_of_ne h ..

theorem read_of_entry (h : s.entry name = some file) : s.read name = some (s.content file) := by
  rw [read, h]
  rfl

theorem read_append_of_ne (h : s.entry name ≠ some file) :
    (s.append file bytes).read name = s.read name := by
  rw [read, read, entry_append]
  cases hentry : s.entry name with
  | none => rfl
  | some other =>
      have hne : other ≠ file := fun heq => h (heq ▸ hentry)
      exact congrArg some (content_append_of_ne hne)

end Append

variable [DecidableEq Name]

/-- A name leads to a new and empty file. -/
def create (s : Store Name Byte) (name : Name) : Store Name Byte where
  entry := Function.update s.entry name (some s.next)
  content := Function.update s.content s.next []
  next := s.next + 1
  created := by
    intro other file h
    by_cases heq : other = name
    · rw [heq, Function.update_self] at h
      exact Option.some.inj h ▸ Nat.lt_succ_self s.next
    · rw [Function.update_of_ne heq] at h
      exact Nat.lt_succ_of_lt (s.created h)

/-- Create a file under a name that leads nowhere yet. -/
def createNew (s : Store Name Byte) (name : Name) : Option (Nat × Store Name Byte) :=
  if s.entry name = none then some (s.next, s.create name) else none

/-- Names of the same file are left alone. -/
def move (s : Store Name Byte) (source target : Name) : Store Name Byte :=
  if s.entry target = s.entry source then s
  else
    { s with
      entry := Function.update (Function.update s.entry target (s.entry source)) source none
      created := by
        intro name file h
        by_cases hsource : name = source
        · rw [hsource, Function.update_self] at h
          cases h
        · rw [Function.update_of_ne hsource] at h
          by_cases htarget : name = target
          · rw [htarget, Function.update_self] at h
            exact s.created h
          · rw [Function.update_of_ne htarget] at h
            exact s.created h }

/-- Give a file another name, in the place of what that name led to. -/
def rename (s : Store Name Byte) (source target : Name) : Option (Store Name Byte) :=
  if s.entry source = none then none else some (s.move source target)

/-- A name leads nowhere; the file that it led to stays with those who have it open. -/
def remove (s : Store Name Byte) (name : Name) : Store Name Byte where
  entry := Function.update s.entry name none
  content := s.content
  next := s.next
  created := by
    intro other file h
    by_cases heq : other = name
    · rw [heq, Function.update_self] at h
      cases h
    · rw [Function.update_of_ne heq] at h
      exact s.created h

variable {s : Store Name Byte} {name other source target : Name} {file : Nat}

/-! ## Where names lead -/

theorem entry_create_self : (s.create name).entry name = some s.next := Function.update_self ..

theorem entry_create_of_ne (h : other ≠ name) : (s.create name).entry other = s.entry other :=
  Function.update_of_ne h ..

theorem entry_remove_self : (s.remove name).entry name = none := Function.update_self ..

theorem entry_remove_of_ne (h : other ≠ name) : (s.remove name).entry other = s.entry other :=
  Function.update_of_ne h ..

/-- After a creation a name leads to the new file only if it is its name. -/
theorem entry_create_eq_some (h : (s.create name).entry other = some file) :
    (other = name ∧ file = s.next) ∨ (other ≠ name ∧ s.entry other = some file) := by
  by_cases heq : other = name
  · subst heq
    exact .inl ⟨rfl, (Option.some.inj (entry_create_self.symm.trans h)).symm⟩
  · exact .inr ⟨heq, entry_create_of_ne heq ▸ h⟩

theorem entry_remove_eq_some (h : (s.remove name).entry other = some file) :
    other ≠ name ∧ s.entry other = some file := by
  by_cases heq : other = name
  · subst heq
    rw [entry_remove_self] at h
    cases h
  · exact ⟨heq, entry_remove_of_ne heq ▸ h⟩

theorem entry_move_target (h : source ≠ target) :
    (s.move source target).entry target = s.entry source := by
  rw [move]
  split
  · next heq => exact heq
  · exact (Function.update_of_ne h.symm ..).trans (Function.update_self ..)

theorem entry_move_of_ne (hsource : name ≠ source) (htarget : name ≠ target) :
    (s.move source target).entry name = s.entry name := by
  rw [move]
  split
  · rfl
  · exact (Function.update_of_ne hsource ..).trans (Function.update_of_ne htarget ..)

theorem entry_move_source (h : s.entry target ≠ s.entry source) :
    (s.move source target).entry source = none := by
  rw [move, if_neg h]
  exact Function.update_self ..

/-! ## What files hold -/

theorem content_create_of_lt (h : file < s.next) : (s.create name).content file = s.content file :=
  Function.update_of_ne (Nat.ne_of_lt h) ..

theorem content_create_self : (s.create name).content s.next = [] := Function.update_self ..

@[simp] theorem next_create : (s.create name).next = s.next + 1 := rfl

@[simp] theorem content_remove : (s.remove name).content = s.content := rfl

@[simp] theorem next_remove : (s.remove name).next = s.next := rfl

@[simp] theorem content_move : (s.move source target).content = s.content := by
  rw [move]
  split <;> rfl

@[simp] theorem next_move : (s.move source target).next = s.next := by
  rw [move]
  split <;> rfl

/-! ## What readers of other names see -/

theorem read_create_of_ne (h : other ≠ name) : (s.create name).read other = s.read other := by
  rw [read, read, entry_create_of_ne h]
  cases hentry : s.entry other with
  | none => rfl
  | some file => exact congrArg some (content_create_of_lt (s.created hentry))

theorem read_remove_of_ne (h : other ≠ name) : (s.remove name).read other = s.read other := by
  rw [read, read, entry_remove_of_ne h, content_remove]

end Store

end Files
