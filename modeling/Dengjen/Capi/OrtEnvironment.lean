import Dengjen.Capi.FfiError
import Dengjen.Core.ConfinedPath
import Dengjen.General.CriticalSections

/-!
# The onnxruntime environment

A library built with `ort-dylib` takes onnxruntime from the path that
`libdengjenSetOrtDylibPath` has set, or from the default place, when the first voice
is loaded. `ORT_CONFIG_LOCK` serializes setting the path and initializing the
environment, each of which may happen once.

## Implementation notes

What `ort` makes of a path is arbitrary, and committing an environment may panic. A
poisoned lock is taken as a healthy one, so nothing is kept of it. The place that the
environment was last taken from is recorded, though the code does not.
-/

namespace Dengjen.Capi.OrtEnvironment

open TransitionSystem CriticalSections Relation

/-- The statics of the library, with the place that onnxruntime was taken from. -/
structure Ort where
  dylibPath : Option String
  environment : Option (Except String Unit)
  takenFrom : Option (Option String)

/-- Nothing is stored yet. -/
def Ort.new : Ort := ⟨none, none, none⟩

/-- A call of `set_ort_dylib_path` or `init_ort_environment`. -/
inductive Request
  | setPath (path : Option String)
  | initEnvironment

/-- What a call answers. -/
inductive Answer
  | setPath (result : DengjenFFIResult Unit)
  | initEnvironment (result : DengjenResult Unit)
  | panicked

/-- Where a call is. -/
inductive Stage
  | called
  | checksPath (path : String)
  | checksEnvironment (path : String)
  | storesPath (path : String)
  | getsOrInits
  | builds
  | commits (takenFrom : Option String)
  | stores (takenFrom : Option String) (result : Except String Unit)
  | leaving (answer : Answer)
  | returned (answer : Answer)

/-- The error of a second path. -/
def alreadySet (current : String) : DengjenFFIError :=
  ⟨ErrorCodes.operationError, s!"the onnxruntime path is already set to `{current}`"⟩

/-- The error of a path that comes too late. -/
def alreadyInitialized : DengjenFFIError :=
  ⟨ErrorCodes.operationError,
    "onnxruntime is already initialized; set its path before loading a voice"⟩

/-- The text of a library that could not be loaded. -/
def failedToLoad (path error : String) : String :=
  s!"Failed to load onnxruntime from `{path}`: {error}"

/-- `PathBuf`s are compared by their components. -/
def SamePath (path other : String) : Prop := Path.new path = Path.new other

instance (path other : String) : Decidable (SamePath path other) :=
  inferInstanceAs (Decidable (_ = _))

/-- What a commit comes to. -/
def committedOrError (committed : Bool) : Except String Unit :=
  if committed then .ok () else .error "Failed to initialize onnxruntime"

/-- What the initialization of the environment returns of the stored result. -/
def initialized (result : Except String Unit) : DengjenResult Unit :=
  result.mapError .operationError

/-- A step of a call that holds the lock. -/
inductive Inside : Stage × Ort → Stage × Ort → Prop
  | pathIsSet {ort path current} (h : ort.dylibPath = some current) :
      Inside (.checksPath path, ort)
        (.leaving (.setPath (if SamePath current path then .ok () else .error (alreadySet current))),
          ort)
  | pathIsUnset {ort path} (h : ort.dylibPath = none) :
      Inside (.checksPath path, ort) (.checksEnvironment path, ort)
  | isInitialized {ort path} (h : ort.environment.isSome) :
      Inside (.checksEnvironment path, ort) (.leaving (.setPath (.error alreadyInitialized)), ort)
  | isNotInitialized {ort path} (h : ort.environment = none) :
      Inside (.checksEnvironment path, ort) (.storesPath path, ort)
  | storePath {ort path} (h : ort.dylibPath = none) :
      Inside (.storesPath path, ort)
        (.leaving (.setPath (.ok ())), { ort with dylibPath := some path })
  | pathStored {ort path current} (h : ort.dylibPath = some current) :
      Inside (.storesPath path, ort)
        (.leaving (.setPath (.error ⟨ErrorCodes.operationError,
          "the onnxruntime path is already set"⟩)), ort)
  | get {ort result} (h : ort.environment = some result) :
      Inside (.getsOrInits, ort) (.leaving (.initEnvironment (initialized result)), ort)
  | init {ort} (h : ort.environment = none) : Inside (.getsOrInits, ort) (.builds, ort)
  | initFrom {ort path} (h : ort.dylibPath = some path) :
      Inside (.builds, ort) (.commits (some path), ort)
  | initFromError {ort path} (error : String) (h : ort.dylibPath = some path) :
      Inside (.builds, ort) (.stores (some path) (.error (failedToLoad path error)), ort)
  | initDefault {ort} (h : ort.dylibPath = none) : Inside (.builds, ort) (.commits none, ort)
  | commit {ort takenFrom} (committed : Bool) :
      Inside (.commits takenFrom, ort) (.stores takenFrom (committedOrError committed), ort)
  | panic {ort stage} (h : stage = .builds ∨ ∃ takenFrom, stage = .commits takenFrom) :
      Inside (stage, ort) (.leaving .panicked, ort)
  | store {ort takenFrom result} :
      Inside (.stores takenFrom result, ort)
        (.leaving (.initEnvironment (initialized result)),
          { ort with environment := some result, takenFrom := some takenFrom })

/-- A call takes the lock, unless its path is null. -/
inductive Enter : Request → Stage → Stage → Prop
  | setPath (path) : Enter (.setPath (some path)) .called (.checksPath path)
  | initEnvironment : Enter .initEnvironment .called .getsOrInits

/-- A call that has its answer lets the lock go. -/
inductive Leave : Stage → Stage → Prop
  | mk (answer) : Leave (.leaving answer) (.returned answer)

/-- What needs no lock: a missing path is refused at once. -/
inductive Outside : Request → Stage → Stage → Prop
  | null : Outside (.setPath none) .called
      (.returned (.setPath (.error (.nullPointer "path_ptr"))))

/-- The calls, cut at the lock that they share. -/
def threads {ι : Type*} (requests : ι → Request) : Threads ι Ort Stage where
  outside i := Outside (requests i)
  enter i := Enter (requests i)
  inside _ := Inside
  leave _ := Leave

/-! ### What a section does -/

/-- The environment is taken from the path that is set, if any. -/
structure Ort.WellFormed (ort : Ort) : Prop where
  environment_iff : ort.environment.isSome ↔ ort.takenFrom.isSome
  takenFrom : ∀ takenFrom, ort.takenFrom = some takenFrom → takenFrom = ort.dylibPath

/-- The path is set once, and not after the environment, which is initialized once. -/
inductive Ort.Extends : Ort → Ort → Prop
  | refl (ort) : Extends ort ort
  | path {ort} (path) (hpath : ort.dylibPath = none) (h : ort.environment = none) :
      Extends ort { ort with dylibPath := some path }
  | environment {ort} (result) (h : ort.environment = none) :
      Extends ort { ort with environment := some result, takenFrom := some ort.dylibPath }

/-- What an answer says of the statics. -/
def Answer.Holds (ort : Ort) : Request → Answer → Prop
  | .setPath (some path), .setPath (.ok ()) => ∃ stored, ort.dylibPath = some stored ∧
      SamePath stored path ∧ ∀ takenFrom, ort.takenFrom = some takenFrom → takenFrom = some stored
  | .setPath none, .setPath (.error error) => error = .nullPointer "path_ptr"
  | .setPath (some path), .setPath (.error error) =>
      (∃ stored, ort.dylibPath = some stored ∧ ¬ SamePath stored path ∧
        error = alreadySet stored) ∨
      (ort.dylibPath = none ∧ ort.takenFrom = some none ∧ error = alreadyInitialized)
  | .initEnvironment, .initEnvironment result => ∃ stored, ort.environment = some stored ∧
      result = initialized stored
  | .initEnvironment, .panicked => True
  | _, _ => False

/-- What a call that holds the lock knows, from the statics it found. -/
inductive Knows (ort : Ort) : Request → Stage × Ort → Prop
  | checksPath (path) : Knows ort (.setPath (some path)) (.checksPath path, ort)
  | checksEnvironment (path) (hpath : ort.dylibPath = none) :
      Knows ort (.setPath (some path)) (.checksEnvironment path, ort)
  | storesPath (path) (hpath : ort.dylibPath = none) (h : ort.environment = none) :
      Knows ort (.setPath (some path)) (.storesPath path, ort)
  | getsOrInits : Knows ort .initEnvironment (.getsOrInits, ort)
  | builds (h : ort.environment = none) : Knows ort .initEnvironment (.builds, ort)
  | commits (h : ort.environment = none) : Knows ort .initEnvironment (.commits ort.dylibPath, ort)
  | stores (result) (h : ort.environment = none) :
      Knows ort .initEnvironment (.stores ort.dylibPath result, ort)
  | leaving {request answer ort'} (hextends : ort.Extends ort')
      (hholds : answer.Holds ort' request) : Knows ort request (.leaving answer, ort')

variable {ort ort' ort₀ : Ort} {request : Request} {stage stage' : Stage} {answer : Answer}

theorem Ort.WellFormed.takenFrom_eq_none (h : ort.WellFormed) (henv : ort.environment = none) :
    ort.takenFrom = none := by
  have := h.environment_iff
  rw [henv] at this
  cases htaken : ort.takenFrom with
  | none => rfl
  | some takenFrom => simp [htaken] at this

theorem Ort.Extends.wellFormed (h : ort.WellFormed) (hext : ort.Extends ort') :
    ort'.WellFormed := by
  cases hext with
  | refl => exact h
  | path path hpath henv =>
      refine ⟨h.environment_iff, fun takenFrom htaken => ?_⟩
      rw [h.takenFrom_eq_none henv] at htaken
      cases htaken
  | environment result henv =>
      refine ⟨by simp, fun takenFrom htaken => ?_⟩
      exact (Option.some.inj htaken).symm

/-- What an answer says stays true. -/
theorem Answer.Holds.extends (h : answer.Holds ort request) (hwf : ort.WellFormed)
    (hext : ort.Extends ort') : answer.Holds ort' request := by
  cases hext with
  | refl => exact h
  | path path hpath henv =>
      match request, answer, h with
      | .setPath (some _), .setPath (.ok ()), ⟨stored, hstored, _⟩ =>
          rw [hpath] at hstored
          cases hstored
      | .setPath none, .setPath (.error _), h => exact h
      | .setPath (some _), .setPath (.error _), .inl ⟨stored, hstored, _⟩ =>
          rw [hpath] at hstored
          cases hstored
      | .setPath (some _), .setPath (.error _), .inr ⟨_, htaken, _⟩ =>
          rw [hwf.takenFrom_eq_none henv] at htaken
          cases htaken
      | .initEnvironment, .initEnvironment _, h => exact h
      | .initEnvironment, .panicked, h => exact h
  | environment result henv =>
      match request, answer, h with
      | .setPath (some _), .setPath (.ok ()), ⟨stored, hstored, hsame, _⟩ =>
          exact ⟨stored, hstored, hsame, fun _ htaken => hstored ▸ (Option.some.inj htaken).symm⟩
      | .setPath none, .setPath (.error _), h => exact h
      | .setPath (some _), .setPath (.error _), .inl h => exact .inl h
      | .setPath (some _), .setPath (.error _), .inr ⟨hpath, _, herror⟩ =>
          exact .inr ⟨hpath, congrArg some hpath, herror⟩
      | .initEnvironment, .initEnvironment _, ⟨stored, hstored, _⟩ =>
          rw [henv] at hstored
          cases hstored
      | .initEnvironment, .panicked, h => exact h

theorem Knows.inside (h : Knows ort request (stage, ort')) (hwf : ort.WellFormed)
    {after : Stage × Ort} (hinside : Inside (stage, ort') after) : Knows ort request after := by
  cases h with
  | checksPath path =>
      cases hinside with
      | @pathIsSet _ _ current hset =>
          refine .leaving (.refl _) ?_
          split
          · next hsame => exact ⟨current, hset, hsame, fun _ ht => (hwf.takenFrom _ ht).trans hset⟩
          · next hdiffer => exact .inl ⟨current, hset, hdiffer, rfl⟩
      | pathIsUnset hunset => exact .checksEnvironment path hunset
      | panic hpanic => simp at hpanic
  | checksEnvironment path hpath =>
      cases hinside with
      | isInitialized hsome =>
          obtain ⟨takenFrom, htaken⟩ := Option.isSome_iff_exists.mp (hwf.environment_iff.mp hsome)
          refine .leaving (.refl _) (.inr ⟨hpath, ?_, rfl⟩)
          rw [htaken, hwf.takenFrom _ htaken, hpath]
      | isNotInitialized hnone => exact .storesPath path hpath hnone
      | panic hpanic => simp at hpanic
  | storesPath path hpath henv =>
      cases hinside with
      | storePath =>
          refine .leaving (.path path hpath henv) ⟨path, rfl, rfl, fun _ htaken => ?_⟩
          rw [hwf.takenFrom_eq_none henv] at htaken
          cases htaken
      | pathStored hset =>
          rw [hpath] at hset
          cases hset
      | panic hpanic => simp at hpanic
  | getsOrInits =>
      cases hinside with
      | get hsome => exact .leaving (.refl _) ⟨_, hsome, rfl⟩
      | init hnone => exact .builds hnone
      | panic hpanic => simp at hpanic
  | builds henv =>
      cases hinside with
      | initFrom hset => exact hset ▸ .commits henv
      | initFromError error hset => exact hset ▸ .stores _ henv
      | initDefault hunset => exact hunset ▸ .commits henv
      | panic => exact .leaving (.refl _) trivial
  | commits henv =>
      cases hinside with
      | commit => exact .stores _ henv
      | panic => exact .leaving (.refl _) trivial
  | stores result henv =>
      cases hinside with
      | store => exact .leaving (.environment result henv) ⟨result, rfl, rfl⟩
      | panic hpanic => simp at hpanic
  | leaving =>
      cases hinside with
      | panic hpanic => simp at hpanic

theorem Knows.extends (h : Knows ort request (stage, ort₀))
    (hinside : Inside (stage, ort₀) (stage', ort')) : ort₀.Extends ort' := by
  cases h with
  | storesPath path hpath henv =>
      cases hinside with
      | storePath => exact .path path hpath henv
      | pathStored | panic => exact .refl _
  | stores result henv =>
      cases hinside with
      | store => exact .environment result henv
      | panic => exact .refl _
  | checksPath | checksEnvironment | getsOrInits | builds | commits | leaving =>
      cases hinside <;> exact .refl _

/-! ### Any number of calls -/

variable {ι : Type*} {requests : ι → Request} {i : ι}
  {s t : State ι Ort Stage} {labels : List ι}

theorem knows_of_partial {before after : Stage × Ort} (hwf : before.2.WellFormed)
    (h : Partial (threads requests) i before after) : Knows before.2 (requests i) after := by
  obtain ⟨stage, henter, hrun⟩ := h
  have hstart : Knows before.2 (requests i) (stage, before.2) := by
    obtain ⟨stage₀, ort⟩ := before
    simp only [threads] at henter
    generalize requests i = request at henter
    cases henter with
    | setPath path => exact .checksPath path
    | initEnvironment => exact .getsOrInits
  induction hrun with
  | refl => exact hstart
  | tail _ hinside ih => exact ih.inside hwf hinside

theorem section_spec {before after : Stage × Ort} (hwf : before.2.WellFormed)
    (h : Section (threads requests) i before after) :
    before.2.Extends after.2 ∧
      ∃ answer, after.1 = .returned answer ∧ answer.Holds after.2 (requests i) := by
  obtain ⟨stage, hpart, hleave⟩ := h
  have hknows := knows_of_partial hwf hpart
  obtain ⟨stage', ort'⟩ := after
  simp only [threads] at hleave
  cases hleave with
  | mk answer =>
      generalize requests i = request at hknows
      cases hknows with
      | leaving hextends hholds => exact ⟨hextends, answer, rfl, hholds⟩

variable [DecidableEq ι]

/-- The answer of a call holds, once it has returned. -/
def Answered (ort : Ort) (request : Request) (stage : Stage) : Prop :=
  ∀ answer, stage = .returned answer → answer.Holds ort request

/-- What the statics and the calls have to do with each other. -/
structure Invariant (requests : ι → Request) (ort : Ort) (thread : ι → Stage) : Prop where
  wellFormed : ort.WellFormed
  answered : ∀ i, Answered ort (requests i) (thread i)

theorem Invariant.atomicStep {before after : Free ι Ort Stage}
    (h : Invariant requests before.1 before.2) (hstep : AtomicStep (threads requests) before i after) :
    Invariant requests after.1 after.2 := by
  cases hstep with
  | outside hout =>
      refine ⟨h.wellFormed, (Function.forall_update_iff _ (Answered before.1 <| requests ·)).mpr
        ⟨fun answer hanswer => ?_, fun j _ => h.answered j⟩⟩
      simp only [threads] at hout
      generalize requests i = request at hout ⊢
      generalize before.2 i = stage at hout
      cases hout with
      | null =>
          cases hanswer
          exact rfl
  | @whole _ shared hsection =>
      obtain ⟨hextends, answer', hstage, hholds⟩ := section_spec h.wellFormed hsection
      refine ⟨hextends.wellFormed h.wellFormed,
        (Function.forall_update_iff _ (Answered shared <| requests ·)).mpr
        ⟨fun answer hanswer => ?_, fun j _ answer hanswer => ?_⟩⟩
      · obtain rfl := Stage.returned.inj (hstage.symm.trans hanswer)
        exact hholds
      · exact (h.answered j answer hanswer).extends h.wellFormed hextends

/-- Nothing is stored, and no call has begun. -/
def Starts (before : Free ι Ort Stage) : Prop := before = (.new, fun _ => .called)

theorem Invariant.of_reachable {before : Free ι Ort Stage}
    (h : Reachable Starts (AtomicStep (threads requests)) before) :
    Invariant requests before.1 before.2 := by
  refine h.invariant ?_ fun _ _ _ => Invariant.atomicStep
  rintro _ rfl
  exact ⟨⟨by simp [Ort.new], by simp [Ort.new]⟩, nofun⟩

theorem Invariant.of_explained (h : Explained (threads requests) Starts s) :
    Invariant requests s.shared s.thread := by
  cases h with
  | free h => exact .of_reachable h
  | @held shared thread i before h hpart hothers =>
      have hbefore := Invariant.of_reachable h
      have hknows := knows_of_partial hbefore.wellFormed hpart
      have hextends : before.1.Extends shared := by
        generalize thread i = stage at hknows
        generalize requests i = request at hknows
        cases hknows with
        | leaving hextends => exact hextends
        | checksPath | checksEnvironment | storesPath | getsOrInits | builds | commits | stores =>
            exact .refl _
      refine ⟨hextends.wellFormed hbefore.wellFormed, fun j answer hj => ?_⟩
      by_cases hji : j = i
      · subst hji
        simp only at hj
        rw [hj] at hknows
        generalize requests j = request at hknows
        cases hknows
      · simp only [hothers j hji] at hj
        exact (hbefore.answered j answer hj).extends hbefore.wellFormed hextends

/-- What has been set or stored stays, and no path is set after the environment. -/
structure Ort.Later (ort ort' : Ort) : Prop where
  dylibPath : ∀ path, ort.dylibPath = some path → ort'.dylibPath = some path
  environment : ∀ result, ort.environment = some result → ort'.environment = some result
  frozen : ort.environment.isSome → ort'.dylibPath = ort.dylibPath

theorem Ort.Later.refl (ort : Ort) : ort.Later ort :=
  ⟨fun _ => id, fun _ => id, fun _ => rfl⟩

theorem Ort.Later.trans {ort₁ ort₂ ort₃ : Ort} (h : ort₁.Later ort₂) (h' : ort₂.Later ort₃) :
    ort₁.Later ort₃ where
  dylibPath path hpath := h'.dylibPath path (h.dylibPath path hpath)
  environment result hresult := h'.environment result (h.environment result hresult)
  frozen hsome := by
    obtain ⟨result, hresult⟩ := Option.isSome_iff_exists.mp hsome
    rw [h'.frozen (by rw [h.environment result hresult]; rfl), h.frozen hsome]

theorem Ort.Extends.later (h : ort.Extends ort') : ort.Later ort' := by
  cases h with
  | refl => exact .refl _
  | path path hpath henv =>
      exact ⟨by simp [hpath], fun _ => id, by simp [henv]⟩
  | environment result henv => exact ⟨fun _ => id, by simp [henv], fun _ => rfl⟩

theorem later_of_step (h : Explained (threads requests) Starts s)
    (hstep : Step (threads requests) s i t) : s.shared.Later t.shared := by
  cases hstep with
  | outside | enter | leave => exact .refl _
  | inside hheld hinside =>
      cases h with
      | free => cases hheld
      | held h hpart =>
          cases hheld
          have hknows := knows_of_partial (Invariant.of_reachable h).wellFormed hpart
          exact (hknows.extends hinside).later

/-- In any interleaving of any number of calls: whole calls, one after the other, explain the state
but for the one that holds the lock; every answer is right from then on, the environment is taken
from the path that is set, and neither is changed again. -/
theorem ort_path_precedes_environment
    (h : Reachable (Unlocked Starts) (Step (threads requests)) s) :
    Explained (threads requests) Starts s ∧
    (∀ i answer, s.thread i = .returned answer → answer.Holds s.shared (requests i)) ∧
    s.shared.WellFormed ∧
    ∀ labels t, Run (Step (threads requests)) s labels t → s.shared.Later t.shared := by
  have hinv := Invariant.of_explained (explained_of_reachable h)
  refine ⟨explained_of_reachable h, hinv.answered, hinv.wellFormed, fun labels t run => ?_⟩
  have hkeeps : ∀ u label v, Explained (threads requests) Starts u ∧ s.shared.Later u.shared →
      Step (threads requests) u label v →
        Explained (threads requests) Starts v ∧ s.shared.Later v.shared := by
    rintro u _ v ⟨hexplained, hlater⟩ hstep
    exact ⟨hexplained.step hstep, hlater.trans (later_of_step hexplained hstep)⟩
  exact (run.preserves hkeeps ⟨explained_of_reachable h, .refl _⟩).2

/-- One call sets a path, and another one loads a voice after it. -/
def setThenLoad : Bool → Request
  | true => .setPath (some "/lib/onnxruntime.so")
  | false => .initEnvironment

theorem ort_path_precedes_environment_setThenLoad :
    ∃ s : State Bool Ort Stage, Reachable (Unlocked Starts) (Step (threads setThenLoad)) s ∧
      s.thread false = .returned (.initEnvironment (.ok ())) ∧
      (∀ takenFrom, s.shared.takenFrom = some takenFrom →
        takenFrom = some "/lib/onnxruntime.so") := by
  have start : Reachable (Unlocked Starts) (Step (threads setThenLoad))
      (.initial .new fun _ => .called) := .of_init ⟨rfl, rfl⟩
  have set₁ := start.next (.enter (i := true) rfl (Enter.setPath "/lib/onnxruntime.so"))
  have set₂ := set₁.next (.inside (i := true) rfl (Inside.pathIsUnset rfl))
  have set₃ := set₂.next (.inside (i := true) rfl (Inside.isNotInitialized rfl))
  have set₄ := set₃.next (.inside (i := true) rfl (Inside.storePath rfl))
  have set₅ := set₄.next (.leave (i := true) rfl (Leave.mk _))
  have load₁ := set₅.next (.enter (i := false) rfl Enter.initEnvironment)
  have load₂ := load₁.next (.inside (i := false) rfl (Inside.init rfl))
  have load₃ := load₂.next (.inside (i := false) rfl (Inside.initFrom rfl))
  have load₄ := load₃.next (.inside (i := false) rfl (Inside.commit true))
  have load₅ := load₄.next (.inside (i := false) rfl Inside.store)
  have load₆ := load₅.next (.leave (i := false) rfl (Leave.mk _))
  obtain ⟨stored, hstored, -, htaken⟩ :=
    (ort_path_precedes_environment load₆).2.1 true (.setPath (.ok ())) rfl
  exact ⟨_, load₆, rfl, fun takenFrom h => (htaken takenFrom h).trans hstored.symm⟩

end Dengjen.Capi.OrtEnvironment
