import Dengjen.Core.Texts
import Dengjen.General.Drafts
import Dengjen.General.TransitionSystem

/-!
# The extraction of the native library

`NativeLibraryLoader.extractResource` writes the library that the class path holds
into a directory that all programs of one user share, under a name that starts with
its hash, and returns the path that is then loaded. Any number of programs, with
libraries of several versions, may do so at once, each may fail at any step and stop
at any time, and the directory may hold what earlier ones left behind.

## Implementation notes

A path is the name in the directory. What the file system answers is part of a step.
Where a store cannot move a file atomically, `Files.move` deletes the target and renames
the file, or copies it where it cannot be renamed either. A target that is being copied is
not whole yet, and stays so when the program stops. Others may delete a target at any time.
-/

namespace Dengjen.Bindings.NativeLibrary

open Files TransitionSystem

/-! ## Names -/

/-- `HexFormat.of().formatHex` -/
def formatHex (bytes : List UInt8) : String := hex bytes

/-- The name that the library of this content is extracted to. -/
def targetName (sha256 : List UInt8 → List UInt8) (resourcePath : String) (content : List UInt8) :
    String :=
  formatHex (sha256 content) ++ "-" ++ resourcePath.map fun c => if c = '/' then '_' else c

/-- A name that `Files.createTempFile` makes for this program. -/
def partialName (random : UInt64) : String := "partial-" ++ toString random ++ ".tmp"

/-- No temporary name starts as a hash does. -/
theorem partialName_ne (random : UInt64) (sha256 : List UInt8 → List UInt8)
    (resourcePath : String) (content : List UInt8) :
    partialName random ≠ targetName sha256 resourcePath content := by
  intro heq
  have hfirst : (targetName sha256 resourcePath content).toList.head? = some 'p' := by
    rw [← heq, partialName, String.toList_append, String.toList_append]
    rfl
  rw [targetName] at hfirst
  simp only [String.toList_append] at hfirst
  cases hhex : (formatHex (sha256 content)).toList with
  | nil => simp [hhex] at hfirst
  | cons c rest =>
      have hc : c ∈ hexDigits := mem_hexDigits (hhex ▸ List.mem_cons_self)
      rw [hhex] at hfirst
      cases Option.some.inj hfirst
      exact absurd hc (by decide)

/-! ## The calls -/

/-- What a call may throw. -/
inductive Exception
  | illegalState (message : String)
  | io (message : String)
  deriving DecidableEq

/-- A call, with what its class path holds. -/
structure Call where
  resourcePath : String
  resource : Option (List UInt8)

/-- The exception of a class path without a library for the platform. -/
def noResource (resourcePath : String) : Exception :=
  .illegalState ("no native library found on the classpath at '" ++ resourcePath ++
    "' -- add a runtimeOnly dependency on the matching " ++
    "io.github.zirekhq:dengjen-tts:<version>:<classifier> " ++
    "artifact, or set -Ddengjen.native.library.path to a library you built yourself")

/-- Where a call is. -/
inductive Phase
  | called
  | hashed
  /-- `isRegularFile` has said yes. -/
  | found
  /-- `readAllBytes` has opened the file. -/
  | reading (file : Nat)
  | creating
  | writing (draft : Draft String UInt8)
  | written (draft : Draft String UInt8)
  /-- The atomic move is not supported. -/
  | replacing (draft : Draft String UInt8)
  /-- The target is deleted. -/
  | replaced (draft : Draft String UInt8)
  /-- The target is a new file, which lacks these bytes. -/
  | copying (draft : Draft String UInt8) (copy : Nat) (rest : List UInt8)
  | failed (draft : Draft String UInt8) (error : Exception)
  | returned (result : Except Exception String)
  /-- The exception left a partial file behind. -/
  | littered (draft : Draft String UInt8) (error : Exception)

/-- The partial file that a call has to its name. -/
def Phase.draft : Phase → Option (Draft String UInt8)
  | writing draft | written draft | replacing draft | replaced draft | copying draft _ _
  | failed draft _ | littered draft _ => some draft
  | _ => none

/-- What the lines of a call do, and how they may fail. -/
inductive Action
  | getResource
  | isRegularFile
  | openTarget
  | readTarget
  | readFails (message : String)
  | createTempFile (random : UInt64)
  | createFails (message : String)
  | write (count : Nat)
  | writeFails (message : String)
  | close
  | moveAtomically
  | moveUnsupported
  | moveFails (message : String)
  | deleteTarget
  | rename
  | createTarget
  | copy (count : Nat)
  | copyFails (message : String)
  | deleteSource
  | deletePartial
  | deleteFails (message : String)

/-- The directory, and where each call is. -/
structure State (ι : Type*) where
  files : Store String UInt8
  phase : ι → Phase

/-- A call goes on, or somebody else deletes the target of one. -/
inductive Label (ι : Type*)
  | advance (call : ι) (action : Action)
  | delete (call : ι)

/-- The calls of all programs, and the hash they use. -/
structure Setting (ι : Type*) where
  sha256 : List UInt8 → List UInt8
  calls : ι → Call

namespace Setting

variable {ι : Type*} (setting : Setting ι)

/-- What a call finds on its class path. -/
def content (call : ι) : List UInt8 := (setting.calls call).resource.getD []

/-- The path that a call returns, which names the hash of its library. -/
def target (call : ι) : String :=
  targetName setting.sha256 (setting.calls call).resourcePath (setting.content call)

/-- The bytes have the hash of a call's library. -/
def hashes (call : ι) (bytes : List UInt8) : Prop :=
  formatHex (setting.sha256 bytes) = formatHex (setting.sha256 (setting.content call))

instance (call : ι) (bytes : List UInt8) : Decidable (setting.hashes call bytes) :=
  inferInstanceAs (Decidable (_ = _))

/-- One step of one call: what becomes of the files, and of the call. -/
inductive Advances (files : Store String UInt8) (call : ι) :
    Phase → Action → Store String UInt8 → Phase → Prop
  | noResource (h : (setting.calls call).resource = none) :
      Advances files call .called .getResource files
        (.returned (.error (noResource (setting.calls call).resourcePath)))
  | getResource {bytes} (h : (setting.calls call).resource = some bytes) :
      Advances files call .called .getResource files .hashed
  | resourceFails (message) :
      Advances files call .called (.readFails message) files (.returned (.error (.io message)))
  | absent (h : files.entry (setting.target call) = none) :
      Advances files call .hashed .isRegularFile files .creating
  | present (h : files.entry (setting.target call) ≠ none) :
      Advances files call .hashed .isRegularFile files .found
  | vanished (h : files.entry (setting.target call) = none) :
      Advances files call .found .openTarget files (.returned (.error (.io (setting.target call))))
  | openTarget {file} (h : files.entry (setting.target call) = some file) :
      Advances files call .found .openTarget files (.reading file)
  | extracted {file} (h : setting.hashes call (files.content file)) :
      Advances files call (.reading file) .readTarget files (.returned (.ok (setting.target call)))
  | damaged {file} (h : ¬ setting.hashes call (files.content file)) :
      Advances files call (.reading file) .readTarget files .creating
  | openFails (message) :
      Advances files call .found (.readFails message) files (.returned (.error (.io message)))
  | readFails (message) {file} :
      Advances files call (.reading file) (.readFails message) files
        (.returned (.error (.io message)))
  | createTempFile (random) (h : files.entry (partialName random) = none) :
      Advances files call .creating (.createTempFile random) (files.create (partialName random))
        (.writing ⟨partialName random, files.next, setting.content call⟩)
  | createFails (message) :
      Advances files call .creating (.createFails message) files (.returned (.error (.io message)))
  | write (count) {draft} :
      Advances files call (.writing draft) (.write count)
        (files.append draft.file (draft.rest.take count))
        (.writing ⟨draft.name, draft.file, draft.rest.drop count⟩)
  | writeFails (message) {draft} :
      Advances files call (.writing draft) (.writeFails message) files (.failed draft (.io message))
  | close {draft} (h : draft.rest = []) :
      Advances files call (.writing draft) .close files (.written draft)
  | moveAtomically {draft} :
      Advances files call (.written draft) .moveAtomically
        (files.move draft.name (setting.target call)) (.returned (.ok (setting.target call)))
  | moveUnsupported {draft} :
      Advances files call (.written draft) .moveUnsupported files (.replacing draft)
  | moveFails (message) {draft} :
      Advances files call (.written draft) (.moveFails message) files (.failed draft (.io message))
  | deleteTarget {draft} :
      Advances files call (.replacing draft) .deleteTarget (files.remove (setting.target call))
        (.replaced draft)
  | replaceFails (message) {draft} :
      Advances files call (.replacing draft) (.moveFails message) files
        (.failed draft (.io message))
  | rename {draft} :
      Advances files call (.replaced draft) .rename (files.move draft.name (setting.target call))
        (.returned (.ok (setting.target call)))
  | renameFails (message) {draft} :
      Advances files call (.replaced draft) (.moveFails message) files (.failed draft (.io message))
  | createTarget {draft} (h : files.entry (setting.target call) = none) :
      Advances files call (.replaced draft) .createTarget (files.create (setting.target call))
        (.copying draft files.next (setting.content call))
  | copy (count) {draft copy rest} :
      Advances files call (.copying draft copy rest) (.copy count)
        (files.append copy (rest.take count)) (.copying draft copy (rest.drop count))
  | copyFails (message) {draft copy rest} :
      Advances files call (.copying draft copy rest) (.copyFails message)
        (files.remove (setting.target call)) (.failed draft (.io message))
  | deleteSource {draft copy} :
      Advances files call (.copying draft copy []) .deleteSource (files.remove draft.name)
        (.returned (.ok (setting.target call)))
  | deletePartial {draft error} :
      Advances files call (.failed draft error) .deletePartial (files.remove draft.name)
        (.returned (.error error))
  | deleteFails (message) {draft error} :
      Advances files call (.failed draft error) (.deleteFails message) files
        (.littered draft (.io message))

/-- A call goes on, or somebody deletes a target. -/
inductive Step [DecidableEq ι] : State ι → Label ι → State ι → Prop
  | advance {s call action files phase}
      (h : setting.Advances s.files call (s.phase call) action files phase) :
      Step s (.advance call action) ⟨files, Function.update s.phase call phase⟩
  | delete {s} (call) :
      Step s (.delete call) { s with files := s.files.remove (setting.target call) }

/-- The steps in a directory where files are moved atomically. -/
def AtomicStep [DecidableEq ι] : State ι → Label ι → State ι → Prop :=
  restrict (fun _ label => ∀ call, label ≠ .advance call .moveUnsupported) setting.Step

/-- The directory as it was, and no call begun. -/
def Init (files₀ : Store String UInt8) (s : State ι) : Prop :=
  s.files = files₀ ∧ ∀ call, s.phase call = .called

/-! ## What a target shows -/

/-- The name belongs to a call's library. -/
def IsTarget (name : String) : Prop := ∃ call, name = setting.target call

variable {setting} {files files' files₀ : Store String UInt8} {call other : ι} {s t : State ι}
  {draft : ι → Option (Draft String UInt8)} {d : Draft String UInt8} {phase phase' : Phase}
  {action : Action}

theorem partialName_private (random : UInt64) : ¬ setting.IsTarget (partialName random) := by
  rintro ⟨call, heq⟩
  exact partialName_ne _ _ _ _ heq

/-- The target is named after the hash. -/
theorem hashes_of_target_eq (h : setting.target other = setting.target call) :
    setting.hashes call (setting.content other) := by
  have hhash : ∀ (hash rest : String), '-' ∉ hash.toList →
      (hash ++ "-" ++ rest).toList.takeWhile (· ≠ '-') = hash.toList := by
    intro hash rest hnot
    rw [String.toList_append, String.toList_append, List.append_assoc]
    rw [List.takeWhile_append_of_pos]
    · simp
    · intro c hc
      exact decide_eq_true fun heq => hnot (heq ▸ hc)
  have hnot : ∀ bytes, '-' ∉ (formatHex bytes).toList :=
    fun bytes hmem => absurd (mem_hexDigits hmem) (by decide)
  rw [target, target, targetName, targetName] at h
  have hhashes := congrArg (fun name => name.toList.takeWhile (· ≠ '-')) h
  rw [hhash _ _ (hnot _), hhash _ _ (hnot _)] at hhashes
  exact String.toList_inj.mp hhashes

/-- What a step on the files keeps of every target: one that shows its library goes on to, and
another one is left as it is or shows it. -/
structure Effect (setting : Setting ι) (files files' : Store String UInt8) : Prop where
  kept : ∀ call, Shows (setting.hashes call) files (setting.target call) →
    Shows (setting.hashes call) files' (setting.target call)
  seen : ∀ call, (files'.entry (setting.target call) = files.entry (setting.target call) ∧
      files'.read (setting.target call) = files.read (setting.target call)) ∨
    Shows (setting.hashes call) files' (setting.target call)

theorem Effect.refl (files : Store String UInt8) : setting.Effect files files :=
  ⟨fun _ h => h, fun _ => .inl ⟨rfl, rfl⟩⟩

theorem Effect.create (files : Store String UInt8) (random : UInt64) :
    setting.Effect files (files.create (partialName random)) := by
  have hne : ∀ call, setting.target call ≠ partialName random :=
    fun call heq => partialName_private random ⟨call, heq.symm⟩
  constructor
  · exact fun call h => h.create (hne call)
  · exact fun call => .inl ⟨Store.entry_create_of_ne (hne call), Store.read_create_of_ne (hne call)⟩

theorem Effect.append (h : Drafted setting.IsTarget setting.content files₀ files draft)
    (hd : draft call = some d) (bytes : List UInt8) :
    setting.Effect files (files.append d.file bytes) := by
  constructor
  · exact fun call => h.shows_append hd ⟨call, rfl⟩
  · exact fun call => .inl ⟨rfl, Store.read_append_of_ne (h.file_ne hd ⟨call, rfl⟩)⟩

theorem Effect.publish (h : Drafted setting.IsTarget setting.content files₀ files draft)
    (hd : draft call = some d) (hrest : d.rest = []) :
    setting.Effect files (files.move d.name (setting.target call)) := by
  have hshows : ∀ other, setting.target other = setting.target call →
      Shows (setting.hashes other) (files.move d.name (setting.target call))
        (setting.target other) := by
    intro other heq
    rw [heq]
    exact h.shows_publish hd ⟨call, rfl⟩ hrest (hashes_of_target_eq heq.symm)
  constructor
  · intro other hother
    by_cases heq : setting.target other = setting.target call
    · exact hshows other heq
    · exact h.shows_publish_of_ne hd ⟨other, rfl⟩ heq hother
  · intro other
    by_cases heq : setting.target other = setting.target call
    · exact .inr (hshows other heq)
    · have hentry : (files.move d.name (setting.target call)).entry (setting.target other) =
          files.entry (setting.target other) :=
        Store.entry_move_of_ne (h.name_ne hd ⟨other, rfl⟩).symm heq
      refine .inl ⟨hentry, ?_⟩
      rw [Store.read, Store.read, hentry, Store.content_move]

theorem Effect.discard (h : Drafted setting.IsTarget setting.content files₀ files draft)
    (hd : draft call = some d) : setting.Effect files (files.remove d.name) := by
  have hne : ∀ other, setting.target other ≠ d.name :=
    fun other => (h.name_ne hd ⟨other, rfl⟩).symm
  constructor
  · exact fun other hother => hother.remove
  · exact fun other => .inl ⟨Store.entry_remove_of_ne (hne other), Store.read_remove_of_ne (hne other)⟩

theorem Effect.withdraw (files : Store String UInt8) (call : ι) :
    setting.Effect files (files.remove (setting.target call)) := by
  constructor
  · exact fun other hother => hother.remove
  · intro other
    by_cases heq : setting.target other = setting.target call
    · exact .inr (heq ▸ shows_remove_self)
    · exact .inl ⟨Store.entry_remove_of_ne heq, Store.read_remove_of_ne heq⟩

/-! ## Every step keeps what calls rely on -/

/-- What a call has made sure of. -/
def Sound (setting : Setting ι) (files : Store String UInt8) (call : ι) : Phase → Prop
  | .reading file => files.entry (setting.target call) = some file ∨
      Shows (setting.hashes call) files (setting.target call)
  | .written draft => draft.rest = []
  | .replacing _ | .replaced _ | .copying .. => False
  | .returned (.ok path) => path = setting.target call ∧
      Shows (setting.hashes call) files (setting.target call)
  | _ => True

theorem Sound.frame (h : setting.Sound files call phase) (heffect : setting.Effect files files') :
    setting.Sound files' call phase := by
  cases phase with
  | reading file =>
      rcases h with hentry | hshows
      · rcases heffect.seen call with ⟨hsame, -⟩ | hshows
        · exact .inl (hsame.trans hentry)
        · exact .inr hshows
      · exact .inr (heffect.kept call hshows)
  | returned result =>
      cases result with
      | error error => trivial
      | ok path => exact ⟨h.1, heffect.kept call h.2⟩
  | _ => exact h

/-- What the directory and the calls have to do with each other. -/
structure Invariant (setting : Setting ι) (files₀ : Store String UInt8) (s : State ι) : Prop where
  drafted : Drafted setting.IsTarget setting.content files₀ s.files fun call => (s.phase call).draft
  sound : ∀ call, setting.Sound s.files call (s.phase call)
  shown : ∀ call, s.files.read (setting.target call) = files₀.read (setting.target call) ∨
    Shows (setting.hashes call) s.files (setting.target call)

theorem Invariant.init (h : Init files₀ s) : setting.Invariant files₀ s := by
  obtain ⟨rfl, hphase⟩ := h
  constructor
  · exact .init _ fun call => by rw [hphase]; rfl
  · intro call
    rw [hphase]
    trivial
  · exact fun call => .inl rfl

variable [DecidableEq ι]

theorem draft_update (phase : ι → Phase) (call : ι) (phase' : Phase) :
    (fun other => (Function.update phase call phase' other).draft) =
      Function.update (fun other => (phase other).draft) call phase'.draft := by
  funext other
  by_cases heq : other = call
  · rw [heq, Function.update_self, Function.update_self]
  · rw [Function.update_of_ne heq, Function.update_of_ne heq]

/-- A step is sound for the call that takes it, and has an effect that the others can bear. -/
theorem Invariant.advance (h : setting.Invariant files₀ s)
    (hdrafted : Drafted setting.IsTarget setting.content files₀ files'
      (Function.update (fun other => (s.phase other).draft) call phase'.draft))
    (heffect : setting.Effect s.files files') (hsound : setting.Sound files' call phase') :
    setting.Invariant files₀ ⟨files', Function.update s.phase call phase'⟩ := by
  constructor
  · dsimp only
    rw [draft_update]
    exact hdrafted
  · intro other
    dsimp only
    by_cases heq : other = call
    · rw [heq, Function.update_self]
      exact hsound
    · rw [Function.update_of_ne heq]
      exact (h.sound other).frame heffect
  · intro other
    rcases heffect.seen other with ⟨-, hread⟩ | hshows
    · rcases h.shown other with hsame | hshows
      · exact .inl (hread.trans hsame)
      · exact .inr (heffect.kept other hshows)
    · exact .inr hshows

/-- A step that leaves the files alone, with the draft as it was. -/
theorem Invariant.goOn (h : setting.Invariant files₀ s)
    (hdraft : phase'.draft = (s.phase call).draft) (hsound : setting.Sound s.files call phase') :
    setting.Invariant files₀ ⟨s.files, Function.update s.phase call phase'⟩ := by
  refine h.advance ?_ (.refl _) hsound
  rw [hdraft, Function.update_eq_self_iff.mpr rfl]
  exact h.drafted

omit [DecidableEq ι] in
/-- Others may delete a target at any time. -/
theorem Invariant.delete (h : setting.Invariant files₀ s) (call : ι) :
    setting.Invariant files₀ { s with files := s.files.remove (setting.target call) } where
  drafted := h.drafted.withdraw ⟨call, rfl⟩
  sound other := (h.sound other).frame (.withdraw _ call)
  shown other := by
    have heffect : setting.Effect s.files (s.files.remove (setting.target call)) :=
      .withdraw s.files call
    rcases heffect.seen other with ⟨-, hread⟩ | hshows
    · exact (h.shown other).imp hread.trans (heffect.kept other)
    · exact .inr hshows

theorem Invariant.step_advance (h : setting.Invariant files₀ s)
    (hadvance : setting.Advances s.files call (s.phase call) action files' phase')
    (hatomic : action ≠ .moveUnsupported) :
    setting.Invariant files₀ ⟨files', Function.update s.phase call phase'⟩ := by
  have hsound := h.sound call
  have hdraft : (s.phase call).draft = (fun other => (s.phase other).draft) call := rfl
  generalize hphase : s.phase call = before at hadvance hsound hdraft
  cases hadvance with
  | noResource | resourceFails | absent | present | vanished | openFails | readFails
  | createFails | getResource | damaged | writeFails | moveFails | deleteFails =>
      refine h.goOn ?_ ?_
      · rw [hphase]
        rfl
      · trivial
  | moveUnsupported => exact absurd rfl hatomic
  -- No call is in the middle of a move that is not atomic.
  | deleteTarget | replaceFails | rename | renameFails | createTarget | copy | copyFails
  | deleteSource => exact hsound.elim
  | openTarget hentry => exact h.goOn (by rw [hphase]; rfl) (.inl hentry)
  | @extracted file hhash =>
      refine h.goOn (by rw [hphase]; rfl) ⟨rfl, ?_⟩
      rcases hsound with hentry | hshows
      · intro other hother
        rw [hentry] at hother
        cases hother
        exact hhash
      · exact hshows
  | createTempFile random hnew =>
      exact h.advance (h.drafted.create hdraft.symm (partialName_private random) hnew)
        (.create _ random) trivial
  | @write count draft =>
      exact h.advance (h.drafted.append hdraft.symm (List.take_append_drop count _).symm)
        (.append h.drafted hdraft.symm _) trivial
  | close hrest => exact h.goOn (by rw [hphase]; rfl) hrest
  | moveAtomically =>
      have heffect := Effect.publish h.drafted hdraft.symm hsound
      refine h.advance (h.drafted.publish hdraft.symm ⟨call, rfl⟩) heffect ⟨rfl, ?_⟩
      exact h.drafted.shows_publish hdraft.symm ⟨call, rfl⟩ hsound (hashes_of_target_eq rfl)
  | deletePartial =>
      exact h.advance (h.drafted.discard hdraft.symm) (.discard h.drafted hdraft.symm) trivial

theorem Invariant.step (h : setting.Invariant files₀ s) {label : Label ι}
    (hstep : setting.AtomicStep s label t) : setting.Invariant files₀ t := by
  obtain ⟨hatomic, hstep⟩ := hstep
  cases hstep with
  | @advance call action files phase hadvance =>
      refine h.step_advance hadvance ?_
      rintro rfl
      exact hatomic call rfl
  | delete call => exact h.delete call

/-! ## Where no target is deleted -/

/-- What a call has seen of its target, or moved there, is still there. -/
def Present (setting : Setting ι) (files : Store String UInt8) (call : ι) : Phase → Prop
  | .reading _ | .returned (.ok _) => files.entry (setting.target call) ≠ none
  | _ => True

/-- Every call's own part of the directory, where no target is taken away. -/
structure Kept (setting : Setting ι) (files₀ : Store String UInt8) (s : State ι) : Prop where
  invariant : setting.Invariant files₀ s
  present : ∀ call, setting.Present s.files call (s.phase call)

omit [DecidableEq ι] in
/-- No call takes a target away. -/
theorem Invariant.entry_ne_none (h : setting.Invariant files₀ s)
    (hadvance : setting.Advances s.files call (s.phase call) action files' phase') (other : ι)
    (hentry : s.files.entry (setting.target other) ≠ none) :
    files'.entry (setting.target other) ≠ none := by
  have hsound := h.sound call
  have hdraft : (s.phase call).draft = (fun other => (s.phase other).draft) call := rfl
  generalize s.phase call = before at hadvance hdraft hsound
  cases hadvance with
  | createTempFile random hnew =>
      rw [Store.entry_create_of_ne fun heq => partialName_private random ⟨other, heq.symm⟩]
      exact hentry
  | moveAtomically =>
      by_cases heq : setting.target other = setting.target call
      · rw [heq, Store.entry_move_target (h.drafted.name_ne hdraft.symm ⟨call, rfl⟩),
          h.drafted.held hdraft.symm]
        nofun
      · rw [Store.entry_move_of_ne (h.drafted.name_ne hdraft.symm ⟨other, rfl⟩).symm heq]
        exact hentry
  | deletePartial =>
      rw [Store.entry_remove_of_ne (h.drafted.name_ne hdraft.symm ⟨other, rfl⟩).symm]
      exact hentry
  | deleteTarget | rename | createTarget | copy | copyFails | deleteSource => exact hsound.elim
  | _ => exact hentry

omit [DecidableEq ι] in
theorem Kept.present_of_advances (h : setting.Kept files₀ s)
    (hadvance : setting.Advances s.files call (s.phase call) action files' phase') :
    setting.Present files' call phase' := by
  have hsound := h.invariant.sound call
  have hdraft : (s.phase call).draft = (fun other => (s.phase other).draft) call := rfl
  have hpresent := h.present call
  generalize s.phase call = before at hadvance hdraft hpresent hsound
  cases hadvance with
  | openTarget hentry =>
      rw [Present, hentry]
      nofun
  | extracted => exact hpresent
  | moveAtomically =>
      rw [Present, Store.entry_move_target (h.invariant.drafted.name_ne hdraft.symm ⟨call, rfl⟩),
        h.invariant.drafted.held hdraft.symm]
      nofun
  | rename | deleteSource => exact hsound.elim
  | _ => trivial

theorem Kept.step (h : setting.Kept files₀ s) {label : Label ι}
    (hstep : restrict (fun _ label => ∀ call, label ≠ .delete call) setting.AtomicStep s label t) :
    setting.Kept files₀ t := by
  obtain ⟨hkept, hatomic⟩ := hstep
  refine ⟨h.invariant.step hatomic, fun other => ?_⟩
  cases hatomic.2 with
  | delete call => exact absurd rfl (hkept call)
  | @advance call action files phase hadvance =>
      dsimp only
      by_cases heq : other = call
      · rw [heq, Function.update_self]
        exact h.present_of_advances hadvance
      · rw [Function.update_of_ne heq]
        have hpresent := h.present other
        have hentry := h.invariant.entry_ne_none hadvance other
        cases hphase : s.phase other with
        | reading file =>
            rw [hphase] at hpresent
            exact hentry hpresent
        | returned result =>
            cases result with
            | error error => trivial
            | ok path =>
                rw [hphase] at hpresent
                exact hentry hpresent
        | _ => trivial

/-! ## The directory at any time -/

/-- What a caller may rely on. -/
structure ExtractsSafely (setting : Setting ι) (files₀ : Store String UInt8) (s : State ι) :
    Prop where
  /-- A path that was returned never leads to another library. -/
  returned : ∀ call path, s.phase call = .returned (.ok path) → path = setting.target call ∧
    ∀ bytes, s.files.read path = some bytes → setting.hashes call bytes
  /-- A target leads to what it led to before the calls, or to a whole library. -/
  whole : ∀ call, s.files.read (setting.target call) = files₀.read (setting.target call) ∨
    ∀ bytes, s.files.read (setting.target call) = some bytes → setting.hashes call bytes
  /-- Nothing else in the directory is touched. -/
  untouched : ∀ name, ¬ setting.IsTarget name → files₀.entry name ≠ none →
    s.files.read name = files₀.read name
  /-- A partial file is left only by a call that did not end, or could not remove it. -/
  tidy : ∀ name, ¬ setting.IsTarget name → files₀.entry name = none → s.files.entry name ≠ none →
    ∃ call draft, (s.phase call).draft = some draft ∧ draft.name = name

theorem read_of_shows {good : List UInt8 → Prop} {name : String} (h : Shows good files name) :
    ∀ bytes, files.read name = some bytes → good bytes := by
  intro bytes hread
  obtain ⟨file, hentry, rfl⟩ := Option.map_eq_some_iff.mp hread
  exact h file hentry

omit [DecidableEq ι] in
theorem Invariant.extractsSafely (h : setting.Invariant files₀ s) :
    setting.ExtractsSafely files₀ s where
  returned call path hphase := by
    obtain ⟨rfl, hshows⟩ : path = setting.target call ∧ _ := hphase ▸ h.sound call
    exact ⟨rfl, read_of_shows hshows⟩
  whole call := (h.shown call).imp_right read_of_shows
  untouched _ hprivate hentry := (h.drafted.others hprivate hentry).1
  tidy _ hprivate hfirst hentry := h.drafted.accounted hprivate hfirst hentry

/-- In a directory where files are moved atomically, however the calls of all programs interleave,
fail or stop, and whatever targets others delete: every path that was returned leads to a library
with the hash of the one on that call's class path, or to nothing; and not to nothing where nobody
deletes a target. -/
theorem extraction_safe (setting : Setting ι) (files₀ : Store String UInt8) :
    (∀ s, Reachable (Init files₀) setting.AtomicStep s → setting.ExtractsSafely files₀ s) ∧
    ∀ s, Reachable (Init files₀)
        (restrict (fun _ label => ∀ call, label ≠ .delete call) setting.AtomicStep) s →
      ∀ call path, s.phase call = .returned (.ok path) →
        ∃ bytes, s.files.read path = some bytes ∧ setting.hashes call bytes := by
  constructor
  · intro s hs
    have hinvariant : setting.Invariant files₀ s :=
      hs.invariant (fun _ => .init) fun _ _ _ h hstep => h.step hstep
    exact hinvariant.extractsSafely
  · intro s hs call path hphase
    have hkept : setting.Kept files₀ s := by
      refine hs.invariant ?_ fun _ _ _ h hstep => h.step hstep
      intro s h
      refine ⟨.init h, fun call => ?_⟩
      rw [h.2 call]
      trivial
    obtain ⟨rfl, hgood⟩ := hkept.invariant.extractsSafely.returned call path hphase
    have hpresent : s.files.entry (setting.target call) ≠ none := by
      have hpresent := hkept.present call
      rwa [hphase] at hpresent
    obtain ⟨file, hentry⟩ := Option.ne_none_iff_exists'.mp hpresent
    exact ⟨_, Store.read_of_entry hentry, hgood _ (Store.read_of_entry hentry)⟩

end Setting

end Dengjen.Bindings.NativeLibrary
