import Dengjen.General.Files

/-!
# Files that are written before they are shown

A client writes a new file under a name that nobody else uses, and then gives it a
public name in the place of what that name led to. Where every client does so, a
public name never leads to a file that is not yet whole: it leads to what it led to
at first, or to what a client has written.
-/

namespace Files

variable {ι Name Byte : Type*}

/-- A file with its private name, and the bytes it still lacks. -/
structure Draft (Name Byte : Type*) where
  name : Name
  file : Nat
  rest : List Byte

/-- The drafts of all clients: none is public, and no client's is another's. -/
structure Drafted (isPublic : Name → Prop) (whole : ι → List Byte) (s₀ s : Store Name Byte)
    (draft : ι → Option (Draft Name Byte)) : Prop where
  held : ∀ {i d}, draft i = some d → s.entry d.name = some d.file
  hidden : ∀ {i d}, draft i = some d → ¬ isPublic d.name
  only : ∀ {i d name}, draft i = some d → s.entry name = some d.file → name = d.name
  alone : ∀ {i j d e}, draft i = some d → draft j = some e → d.file = e.file → i = j
  completes : ∀ {i d}, draft i = some d → s.content d.file ++ d.rest = whole i
  /-- A private name that was there at first is nobody's draft. -/
  others : ∀ {name}, ¬ isPublic name → s₀.entry name ≠ none →
    s.read name = s₀.read name ∧ ∀ i d, draft i = some d → d.name ≠ name
  /-- Any other private name is somebody's draft. -/
  accounted : ∀ {name}, ¬ isPublic name → s₀.entry name = none → s.entry name ≠ none →
    ∃ i d, draft i = some d ∧ d.name = name

/-- What the name leads to, if anything, is as it should be. -/
def Shows (good : List Byte → Prop) (s : Store Name Byte) (name : Name) : Prop :=
  ∀ file, s.entry name = some file → good (s.content file)

namespace Drafted

variable {isPublic : Name → Prop} {whole : ι → List Byte} {s₀ s : Store Name Byte}
  {draft : ι → Option (Draft Name Byte)} {i j : ι} {d : Draft Name Byte} {name : Name} {file : Nat}
  {good : List Byte → Prop}

theorem init (s : Store Name Byte) (hnone : ∀ i, draft i = none) :
    Drafted isPublic whole s s draft where
  held h := absurd ((hnone _).symm.trans h) nofun
  hidden h := absurd ((hnone _).symm.trans h) nofun
  only h := absurd ((hnone _).symm.trans h) nofun
  alone h := absurd ((hnone _).symm.trans h) nofun
  completes h := absurd ((hnone _).symm.trans h) nofun
  others _ _ := ⟨rfl, fun _ _ h => absurd ((hnone _).symm.trans h) nofun⟩
  accounted _ hnew hentry := absurd hnew hentry

theorem name_ne (h : Drafted isPublic whole s₀ s draft) (hd : draft i = some d)
    (hpublic : isPublic name) : d.name ≠ name := by
  rintro rfl
  exact h.hidden hd hpublic

/-- No draft is found under a public name. -/
theorem file_ne (h : Drafted isPublic whole s₀ s draft) (hd : draft i = some d)
    (hpublic : isPublic name) : s.entry name ≠ some d.file := by
  intro hentry
  exact h.hidden hd (h.only hd hentry ▸ hpublic)

theorem entry_ne (h : Drafted isPublic whole s₀ s draft) (hi : draft i = some d)
    {e : Draft Name Byte} (hj : draft j = some e) (hne : j ≠ i) : e.name ≠ d.name := by
  intro hname
  have hfile : some e.file = some d.file := by
    rw [← h.held hi, ← h.held hj, hname]
  exact hne (h.alone hj hi (Option.some.inj hfile))

/-- What public names lead to is nobody's draft, and stays as it is while drafts grow. -/
theorem shows_append (h : Drafted isPublic whole s₀ s draft) (hd : draft i = some d)
    (hpublic : isPublic name) {bytes : List Byte} (hshows : Shows good s name) :
    Shows good (s.append d.file bytes) name := by
  intro file hentry
  have hne : file ≠ d.file := fun hfile => h.file_ne hd hpublic (hfile ▸ hentry)
  rw [Store.content_append_of_ne hne]
  exact hshows file hentry

section Steps

variable [DecidableEq ι]

theorem update_cases {x : Option (Draft Name Byte)}
    (h : Function.update draft i x j = some d) :
    (j = i ∧ x = some d) ∨ (j ≠ i ∧ draft j = some d) := by
  by_cases hji : j = i
  · rw [hji, Function.update_self] at h
    exact .inl ⟨hji, h⟩
  · rw [Function.update_of_ne hji] at h
    exact .inr ⟨hji, h⟩

/-- The client writes some of what is left. -/
theorem append (h : Drafted isPublic whole s₀ s draft) (hd : draft i = some d)
    {bytes rest : List Byte} (hrest : d.rest = bytes ++ rest) :
    Drafted isPublic whole s₀ (s.append d.file bytes)
      (Function.update draft i (some ⟨d.name, d.file, rest⟩)) := by
  constructor
  · intro j e he
    rcases update_cases he with ⟨-, heq⟩ | ⟨-, he⟩
    · cases heq
      exact (h.held hd :)
    · exact h.held he
  · intro j e he
    rcases update_cases he with ⟨-, heq⟩ | ⟨-, he⟩
    · cases heq
      exact (h.hidden hd :)
    · exact h.hidden he
  · intro j e name he hentry
    rcases update_cases he with ⟨-, heq⟩ | ⟨-, he⟩
    · cases heq
      exact (h.only hd hentry :)
    · exact h.only he hentry
  · intro j k e f he hf hfile
    rcases update_cases he with ⟨rfl, heq⟩ | ⟨-, he⟩
    · cases heq
      rcases update_cases hf with ⟨rfl, -⟩ | ⟨-, hf⟩
      · rfl
      · exact h.alone hd hf hfile
    · rcases update_cases hf with ⟨hki, heq⟩ | ⟨-, hf⟩
      · cases heq
        exact (h.alone he hd hfile).trans hki.symm
      · exact h.alone he hf hfile
  · intro j e he
    rcases update_cases he with ⟨rfl, heq⟩ | ⟨hji, he⟩
    · cases heq
      rw [Store.content_append_self, List.append_assoc, ← hrest]
      exact h.completes hd
    · have hfile : e.file ≠ d.file := fun hfile => hji (h.alone he hd hfile)
      rw [Store.content_append_of_ne hfile]
      exact h.completes he
  · intro name hprivate hentry
    obtain ⟨hread, hothers⟩ := h.others hprivate hentry
    have hname : s.entry name ≠ some d.file :=
      fun hname => hothers i d hd (h.only hd hname).symm
    refine ⟨(Store.read_append_of_ne hname).trans hread, fun j e he => ?_⟩
    rcases update_cases he with ⟨-, heq⟩ | ⟨-, he⟩
    · cases heq
      exact hothers i d hd
    · exact hothers j e he
  · intro name hprivate hfirst hentry
    obtain ⟨j, e, he, hname⟩ := h.accounted hprivate hfirst hentry
    by_cases hji : j = i
    · subst hji
      cases Option.some.inj (hd.symm.trans he)
      exact ⟨j, _, Function.update_self .., hname⟩
    · exact ⟨j, e, (Function.update_of_ne hji ..).trans he, hname⟩

/-- A step that takes a draft from its name, and changes nothing else but where public names
lead. -/
theorem release (h : Drafted isPublic whole s₀ s draft) (hd : draft i = some d)
    {t : Store Name Byte} (hcontent : t.content = s.content)
    (hprivate : ∀ name, ¬ isPublic name → name ≠ d.name → t.entry name = s.entry name)
    (hpublic : ∀ name file, isPublic name → t.entry name = some file →
      file = d.file ∨ s.entry name = some file)
    (hname : t.entry d.name = none) :
    Drafted isPublic whole s₀ t (Function.update draft i none) := by
  have hcases : ∀ {j e}, Function.update draft i none j = some e → j ≠ i ∧ draft j = some e := by
    intro j e he
    rcases update_cases he with ⟨-, heq⟩ | he
    · cases heq
    · exact he
  constructor
  · intro j e he
    obtain ⟨hji, he⟩ := hcases he
    rw [hprivate _ (h.hidden he) (h.entry_ne hd he hji)]
    exact h.held he
  · exact fun he => h.hidden (hcases he).2
  · intro j e name he hentry
    obtain ⟨hji, he⟩ := hcases he
    by_cases hshown : isPublic name
    · rcases hpublic name _ hshown hentry with hfile | hold
      · exact absurd (h.alone he hd hfile) hji
      · exact h.only he hold
    · refine h.only he (hprivate name hshown ?_ ▸ hentry)
      rintro rfl
      rw [hname] at hentry
      cases hentry
  · exact fun he hf => h.alone (hcases he).2 (hcases hf).2
  · intro j e he
    rw [hcontent]
    exact h.completes (hcases he).2
  · intro name hhidden hentry
    obtain ⟨hread, hothers⟩ := h.others hhidden hentry
    refine ⟨?_, fun j e he => hothers j e (hcases he).2⟩
    rw [← hread, Store.read, Store.read, hcontent, hprivate name hhidden (hothers i d hd).symm]
  · intro name hhidden hfirst hentry
    have hne : name ≠ d.name := by
      rintro rfl
      exact hentry hname
    rw [hprivate name hhidden hne] at hentry
    obtain ⟨j, e, he, heq⟩ := h.accounted hhidden hfirst hentry
    have hji : j ≠ i := by
      rintro rfl
      cases Option.some.inj (hd.symm.trans he)
      exact hne heq.symm
    exact ⟨j, e, (Function.update_of_ne hji ..).trans he, heq⟩

variable [DecidableEq Name]

theorem create (h : Drafted isPublic whole s₀ s draft) (hnone : draft i = none)
    (hprivate : ¬ isPublic name) (hnew : s.entry name = none) :
    Drafted isPublic whole s₀ (s.create name)
      (Function.update draft i (some ⟨name, s.next, whole i⟩)) := by
  have hold : ∀ {j e}, draft j = some e → e.name ≠ name ∧ e.file < s.next := by
    intro j e he
    refine ⟨?_, s.created (h.held he)⟩
    rintro rfl
    rw [h.held he] at hnew
    cases hnew
  constructor
  · intro j e he
    rcases update_cases he with ⟨-, heq⟩ | ⟨-, he⟩
    · cases heq
      exact Store.entry_create_self
    · rw [Store.entry_create_of_ne (hold he).1]
      exact h.held he
  · intro j e he
    rcases update_cases he with ⟨-, heq⟩ | ⟨-, he⟩
    · cases heq
      exact hprivate
    · exact h.hidden he
  · intro j e other he hentry
    rcases update_cases he with ⟨-, heq⟩ | ⟨-, he⟩
    · cases heq
      rcases Store.entry_create_eq_some hentry with ⟨hother, -⟩ | ⟨-, hentry⟩
      · exact hother
      · exact absurd (s.created hentry) (Nat.lt_irrefl _)
    · rcases Store.entry_create_eq_some hentry with ⟨-, hfile⟩ | ⟨-, hentry⟩
      · exact absurd (hold he).2 (hfile ▸ Nat.lt_irrefl _)
      · exact h.only he hentry
  · intro j k e f he hf hfile
    rcases update_cases he with ⟨rfl, heq⟩ | ⟨-, he⟩
    · cases heq
      rcases update_cases hf with ⟨rfl, -⟩ | ⟨-, hf⟩
      · rfl
      · exact absurd (hold hf).2 (hfile ▸ Nat.lt_irrefl _)
    · rcases update_cases hf with ⟨-, heq⟩ | ⟨-, hf⟩
      · cases heq
        exact absurd (hold he).2 (hfile ▸ Nat.lt_irrefl _)
      · exact h.alone he hf hfile
  · intro j e he
    rcases update_cases he with ⟨rfl, heq⟩ | ⟨-, he⟩
    · cases heq
      exact congrArg (· ++ whole j) Store.content_create_self
    · rw [Store.content_create_of_lt (hold he).2]
      exact h.completes he
  · intro other hother hentry
    obtain ⟨hread, hothers⟩ := h.others hother hentry
    have hne : other ≠ name := by
      rintro rfl
      cases hfirst : s₀.entry other with
      | none => exact hentry hfirst
      | some file =>
          rw [Store.read_of_entry hfirst, Store.read, hnew] at hread
          cases hread
    refine ⟨(Store.read_create_of_ne hne).trans hread, fun j e he => ?_⟩
    rcases update_cases he with ⟨-, heq⟩ | ⟨-, he⟩
    · cases heq
      exact hne.symm
    · exact hothers j e he
  · intro other hother hfirst hentry
    by_cases heq : other = name
    · exact ⟨i, _, Function.update_self .., heq.symm⟩
    · rw [Store.entry_create_of_ne heq] at hentry
      obtain ⟨j, e, he, hname⟩ := h.accounted hother hfirst hentry
      have hji : j ≠ i := by
        rintro rfl
        rw [hnone] at he
        cases he
      exact ⟨j, e, (Function.update_of_ne hji ..).trans he, hname⟩

/-- The client gives its file a public name. -/
theorem publish (h : Drafted isPublic whole s₀ s draft) (hd : draft i = some d)
    (htarget : isPublic name) :
    Drafted isPublic whole s₀ (s.move d.name name) (Function.update draft i none) := by
  have hne := h.name_ne hd htarget
  refine h.release hd Store.content_move ?_ ?_ ?_
  · intro other hprivate hother
    exact Store.entry_move_of_ne hother fun heq => hprivate (heq ▸ htarget)
  · intro other file hpublic hentry
    by_cases heq : other = name
    · rw [heq, Store.entry_move_target hne, h.held hd] at hentry
      exact .inl (Option.some.inj hentry).symm
    · exact .inr (Store.entry_move_of_ne (h.name_ne hd hpublic).symm heq ▸ hentry)
  · exact Store.entry_move_source (h.held hd ▸ h.file_ne hd htarget)

/-- The client takes its file away. -/
theorem discard (h : Drafted isPublic whole s₀ s draft) (hd : draft i = some d) :
    Drafted isPublic whole s₀ (s.remove d.name) (Function.update draft i none) := by
  refine h.release hd Store.content_remove ?_ ?_ Store.entry_remove_self
  · exact fun _ _ hne => Store.entry_remove_of_ne hne
  · exact fun _ _ _ hentry => .inr (Store.entry_remove_eq_some hentry).2

end Steps

section Shown

variable [DecidableEq Name]

/-- A public name is taken away. -/
theorem withdraw (h : Drafted isPublic whole s₀ s draft) (hpublic : isPublic name) :
    Drafted isPublic whole s₀ (s.remove name) draft where
  held hd := by
    rw [Store.entry_remove_of_ne (h.name_ne hd hpublic)]
    exact h.held hd
  hidden := h.hidden
  only hd hentry := h.only hd (Store.entry_remove_eq_some hentry).2
  alone := h.alone
  completes := h.completes
  others hhidden hentry := by
    obtain ⟨hread, hothers⟩ := h.others hhidden hentry
    refine ⟨(Store.read_remove_of_ne ?_).trans hread, hothers⟩
    rintro rfl
    exact hhidden hpublic
  accounted {other} hhidden hfirst hentry := by
    refine h.accounted hhidden hfirst ?_
    have hne : other ≠ name := by
      rintro rfl
      exact hhidden hpublic
    rwa [Store.entry_remove_of_ne hne] at hentry

/-- A whole draft that is published is shown under its new name. -/
theorem shows_publish (h : Drafted isPublic whole s₀ s draft) (hd : draft i = some d)
    (htarget : isPublic name) (hrest : d.rest = []) (hgood : good (whole i)) :
    Shows good (s.move d.name name) name := by
  intro file hentry
  rw [Store.entry_move_target (h.name_ne hd htarget), h.held hd] at hentry
  cases hentry
  rw [Store.content_move]
  have hwhole := h.completes hd
  rw [hrest, List.append_nil] at hwhole
  exact hwhole ▸ hgood

theorem shows_publish_of_ne (h : Drafted isPublic whole s₀ s draft) (hd : draft i = some d)
    {other : Name} (hpublic : isPublic other) (hne : other ≠ name)
    (hshows : Shows good s other) : Shows good (s.move d.name name) other := by
  intro file hentry
  rw [Store.entry_move_of_ne (h.name_ne hd hpublic).symm hne] at hentry
  rw [Store.content_move]
  exact hshows file hentry

end Shown

end Drafted

section Shows

variable [DecidableEq Name] {good : List Byte → Prop} {s : Store Name Byte} {name other : Name}

theorem Shows.create (h : Shows good s name) (hne : name ≠ other) :
    Shows good (s.create other) name := by
  intro file hentry
  rw [Store.entry_create_of_ne hne] at hentry
  rw [Store.content_create_of_lt (s.created hentry)]
  exact h file hentry

theorem Shows.remove (h : Shows good s name) : Shows good (s.remove other) name :=
  fun file hentry => h file (Store.entry_remove_eq_some hentry).2

theorem shows_remove_self : Shows good (s.remove name) name := by
  intro file hentry
  rw [Store.entry_remove_self] at hentry
  cases hentry

end Shows

end Files
