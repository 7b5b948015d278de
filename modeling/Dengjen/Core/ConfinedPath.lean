import Dengjen.General.LexicalPaths
import Dengjen.Core.Error

/-!
# Paths confined to a directory

A `Path` is what `std::path` sees of it, its components, and a place is the list of
the directories that lead to it. `resolve_within` joins a string onto a directory
and refuses those that would leave it.
-/

namespace Dengjen

open LexicalPaths

/-- On Unix no path has a drive prefix. -/
abbrev Component := LexicalPaths.Component String

/-- A path as its components. -/
structure Path where
  components : List Component
  deriving DecidableEq

namespace Path

/-- The component between two separators. Repeated separators and `.` make none. -/
def component : List Char → Option Component
  | [] | ['.'] => none
  | ['.', '.'] => some .parentDir
  | part => some (.normal (String.ofList part))

/-- Only at the start does a `.` count. -/
def new (text : String) : Path :=
  match text.toList.splitOn '/' with
  | [] :: part :: parts => ⟨.rootDir :: (part :: parts).filterMap component⟩
  | ['.'] :: parts => ⟨.curDir :: parts.filterMap component⟩
  | parts => ⟨parts.filterMap component⟩

/-- The path begins at the root. -/
def isAbsolute (path : Path) : Prop := path.components.head? = some .rootDir

instance (path : Path) : Decidable path.isAbsolute := inferInstanceAs (Decidable (_ = _))

/-- An absolute path stays what it is; another one goes below the base. -/
def join (base path : Path) : Path :=
  if path.isAbsolute then path
  else if base.components = [] then path
  else ⟨base.components ++ path.components.filter (· ≠ .curDir)⟩

/-- The path without its last component. -/
def parent (path : Path) : Option Path :=
  match path.components.getLast? with
  | none | some .rootDir => none
  | some _ => some ⟨path.components.dropLast⟩

/-- The last component, where it is a name. -/
def fileName (path : Path) : Option String :=
  match path.components.getLast? with
  | some (.normal name) => some name
  | _ => none

/-- The name up to its last dot, unless that is its first character. -/
def fileStem (path : Path) : Option String :=
  path.fileName.map fun name =>
    match name.toList.reverse.dropWhile (· ≠ '.') with
    | _ :: last :: before => String.ofList (last :: before).reverse
    | _ => name

/-- The path of another name in the same directory. -/
def withFileName (path : Path) (name : Path) : Path :=
  match path.fileName with
  | some _ => (path.parent.getD ⟨[]⟩).join name
  | none => path.join name

theorem separator_notMem {separator : Char} {chars part : List Char}
    (h : part ∈ chars.splitOn separator) : separator ∉ part := by
  induction chars generalizing part with
  | nil =>
      cases List.mem_singleton.mp h
      exact List.not_mem_nil
  | cons c rest ih =>
      rw [List.splitOn_cons_eq_if_modifyHead] at h
      split at h
      · rcases List.mem_cons.mp h with rfl | hrest
        · exact List.not_mem_nil
        · exact ih hrest
      · next hc =>
          cases hparts : rest.splitOn separator with
          | nil => exact absurd hparts (List.splitOn_ne_nil separator rest)
          | cons first others =>
              rw [hparts, List.modifyHead_cons] at h
              rw [hparts] at ih
              rcases List.mem_cons.mp h with rfl | hother
              · rw [List.mem_cons, not_or]
                exact ⟨fun heq => hc (beq_iff_eq.mpr heq.symm), ih List.mem_cons_self⟩
              · exact ih (List.mem_cons_of_mem first hother)

/-- Every component but a first one comes from a part between separators. -/
theorem component_of_mem_new {text : String} {c : Component} (h : c ∈ (new text).components) :
    c = .rootDir ∨ c = .curDir ∨ ∃ part ∈ text.toList.splitOn '/', component part = some c := by
  rw [new] at h
  split at h
  · next part parts heq =>
      rcases List.mem_cons.mp h with hroot | hrest
      · exact .inl hroot
      · obtain ⟨part', hpart', hc⟩ := List.mem_filterMap.mp hrest
        exact .inr (.inr ⟨part', heq ▸ List.mem_cons_of_mem [] hpart', hc⟩)
  · next parts heq =>
      rcases List.mem_cons.mp h with hcur | hrest
      · exact .inr (.inl hcur)
      · obtain ⟨part', hpart', hc⟩ := List.mem_filterMap.mp hrest
        exact .inr (.inr ⟨part', heq ▸ List.mem_cons_of_mem ['.'] hpart', hc⟩)
  · obtain ⟨part', hpart', hc⟩ := List.mem_filterMap.mp h
    exact .inr (.inr ⟨part', hpart', hc⟩)

/-- The names in a path hold no separator. -/
theorem slash_notMem_of_mem_new {text name : String}
    (h : .normal name ∈ (new text).components) : '/' ∉ name.toList := by
  rcases component_of_mem_new h with hroot | hcur | ⟨part, hpart, hname⟩
  · cases hroot
  · cases hcur
  · have hslash : '/' ∉ part := separator_notMem hpart
    rw [component.eq_def] at hname
    split at hname <;> cases hname
    rwa [String.toList_ofList]

/-- A string without separators is one name, unless it is empty or consists of one or two dots. -/
theorem new_of_slash_notMem {text : String} (hslash : '/' ∉ text.toList)
    (hempty : text.toList ≠ []) (hdot : text.toList ≠ ['.']) (hdots : text.toList ≠ ['.', '.']) :
    new text = ⟨[.normal text]⟩ := by
  have hcomponent : component text.toList = some (.normal text) := by
    rw [component.eq_def]
    split
    · exact absurd ‹_› hempty
    · exact absurd ‹_› hdot
    · exact absurd ‹_› hdots
    · rw [String.ofList_toList]
  rw [new, List.splitOn_eq_singleton hslash]
  split
  · next heq => cases (List.cons.inj heq).2
  · next heq => exact absurd (List.cons.inj heq).1 hdot
  · simp only [List.filterMap_cons, hcomponent, List.filterMap_nil]

/-- The place of a path, lexically, for a program whose current directory is `cwd`. -/
def locate (cwd : List String) (path : Path) : List String := walk cwd path.components

variable (cwd : List String) (base path : Path)

theorem locate_of_isAbsolute {path : Path} (h : path.isAbsolute) (otherCwd : List String) :
    path.locate cwd = path.locate otherCwd := by
  obtain ⟨components⟩ := path
  cases components with
  | nil => cases h
  | cons component rest =>
      cases Option.some.inj h
      exact walk_rootDir cwd rest otherCwd

@[simp] theorem locate_join :
    (base.join path).locate cwd = path.locate (base.locate cwd) := by
  rw [join]
  split
  · next habs => exact locate_of_isAbsolute cwd habs _
  · split
    · next hempty =>
        simp only [locate, hempty, walk_nil]
    · simp only [locate, walk_append, walk_filter_curDir]

theorem withFileName_eq_join {path : Path} {name : String} (h : path.fileName = some name)
    (otherName : Path) :
    path.withFileName otherName = (path.parent.getD ⟨[]⟩).join otherName := by
  rw [withFileName, h]

/-- What names a file lies in a directory. -/
theorem parent_of_fileName {path : Path} {name : String} (h : path.fileName = some name) :
    path.parent = some ⟨path.components.dropLast⟩ := by
  rw [fileName] at h
  rw [parent]
  split at h
  · next hlast => rw [hlast]
  · cases h

end Path

/-- `path` is in the directory `dir`, lexically. -/
def Inside (cwd : List String) (dir path : Path) : Prop := dir.locate cwd <+: path.locate cwd

/-- A string that names no path inside `dir`: an absolute one, or one that climbs out. -/
def Leaves (cwd : List String) (dir : Path) (value : String) : Prop :=
  (Path.new value).isAbsolute ∨ ¬ Inside cwd dir (dir.join (Path.new value))

section Confined

instance (cwd : List String) (dir path : Path) : Decidable (Inside cwd dir path) :=
  inferInstanceAs (Decidable (_ <+: _))

instance (cwd : List String) (dir : Path) (value : String) : Decidable (Leaves cwd dir value) :=
  inferInstanceAs (Decidable (_ ∨ _))

variable (cwd : List String) (dir : Path) {path : Path} {value : String}

theorem inside_join (h : ∀ component ∈ path.components, component.Descends) :
    Inside cwd dir (dir.join path) := by
  rw [Inside, Path.locate_join]
  exact prefix_walk _ h

/-- A string of descending components stays inside every directory. -/
theorem not_leaves (h : ∀ component ∈ (Path.new value).components, component.Descends) :
    ¬ Leaves cwd dir value := by
  rintro (habs | houtside)
  · exact h _ (List.mem_of_mem_head? habs)
  · exact houtside (inside_join cwd dir h)

/-- A single name descends. -/
theorem descends_normal (name : String) :
    ∀ component ∈ (⟨[.normal name]⟩ : Path).components, component.Descends := by
  intro component hmem
  cases List.mem_singleton.mp hmem
  trivial

theorem Inside.trans {cwd : List String} {dir path inner : Path} (h : Inside cwd dir path)
    (hinner : Inside cwd path inner) : Inside cwd dir inner := List.IsPrefix.trans h hinner

end Confined

/-! ## `resolve_within` -/

namespace ConfinedPath

/-- A relative path that would leave the directory it is joined onto. -/
structure PathEscapesBase where
  relative : String
  deriving DecidableEq

/-- The text of the error. -/
def PathEscapesBase.display (error : PathEscapesBase) : String :=
  s!"`{error.relative}` must be a relative path inside its base directory"

/-- The components that leave a directory. -/
def escapes : Component → Bool
  | .parentDir | .rootDir => true
  | .curDir | .normal _ => false

/-- A path below the base, or the error that it is none. -/
def resolveWithin (baseDir : Path) (relative : String) : Except PathEscapesBase Path :=
  if (Path.new relative).components.any escapes || relative.isEmpty then .error ⟨relative⟩
  else .ok (baseDir.join (Path.new relative))

theorem descends_of_not_escapes {component : Component} (h : ¬ escapes component) :
    component.Descends := by
  cases component with
  | rootDir => exact h rfl
  | curDir => trivial
  | parentDir => exact h rfl
  | normal name => trivial

/-- What is accepted is joined and leads no higher. -/
theorem resolveWithin_eq_ok {baseDir path : Path} {relative : String}
    (h : resolveWithin baseDir relative = .ok path) :
    path = baseDir.join (Path.new relative) ∧
      ∀ component ∈ (Path.new relative).components, component.Descends := by
  rw [resolveWithin] at h
  split at h
  · cases h
  · next hfine =>
      cases h
      rw [Bool.or_eq_true, not_or] at hfine
      constructor
      · rfl
      · intro component hmem
        apply descends_of_not_escapes
        intro hescapes
        exact hfine.1 (List.any_eq_true.mpr ⟨component, hmem, hescapes⟩)

end ConfinedPath

namespace ConfigPath

/-- The error names the field. -/
def resolveWithin (baseDir : Path) (field relative : String) : DengjenResult Path :=
  (ConfinedPath.resolveWithin baseDir relative).mapError fun _ => .invalidConfiguration
    s!"`{field}` must be a relative path inside the voice directory, got `{relative}`"

theorem resolveWithin_eq_ok {baseDir path : Path} {field relative : String}
    (h : resolveWithin baseDir field relative = .ok path) :
    ConfinedPath.resolveWithin baseDir relative = .ok path := by
  rw [resolveWithin] at h
  cases hresolved : ConfinedPath.resolveWithin baseDir relative with
  | error error =>
      rw [hresolved] at h
      cases h
  | ok resolved =>
      rw [hresolved, Except.mapError.eq_def] at h
      exact congrArg Except.ok (Except.ok.inj h)

variable (cwd : List String)

/-- An accepted string names a path in the directory. -/
theorem inside_of_resolveWithin {baseDir path : Path} {field relative : String}
    (h : resolveWithin baseDir field relative = .ok path) : Inside cwd baseDir path := by
  obtain ⟨rfl, hdescends⟩ := ConfinedPath.resolveWithin_eq_ok (resolveWithin_eq_ok h)
  exact inside_join cwd baseDir hdescends

/-- An accepted string does not leave the directory. -/
theorem not_leaves_of_resolveWithin {baseDir path : Path} {field relative : String}
    (h : resolveWithin baseDir field relative = .ok path) : ¬ Leaves cwd baseDir relative := by
  obtain ⟨-, hdescends⟩ := ConfinedPath.resolveWithin_eq_ok (resolveWithin_eq_ok h)
  exact not_leaves cwd baseDir hdescends

end ConfigPath

end Dengjen
