import Dengjen.Audio.WaveWriter

/-!
# WAV files are written atomically

Each call owns the file it created: no other call has created it, no name but the
call's leads to it, and it holds what the call has written so far. So the destination
leads to what it led to at first, or to the complete file of a call that has renamed
it.
-/

namespace Dengjen.Audio

open Files TransitionSystem

variable {ι Process Writer : Type*}

/-! ## What a call owns -/

namespace Setting

section Definitions

variable (setting : Setting ι Process Writer)

/-- What a call has done of its work. -/
def Sound (content : Nat → List UInt8) (writer : ι) : Phase → Prop
  | .encoded bytes => setting.encoding writer = .ok bytes
  | .named bytes temp => setting.encoding writer = .ok bytes ∧ temp ≠ setting.path
  | .writing _ file rest => setting.encoding writer = .ok (content file ++ rest)
  | .written _ file => setting.encoding writer = .ok (content file)
  | .returned (.ok _) file => ∃ f, file = some f ∧ setting.encoding writer = .ok (content f)
  | _ => True

/-- A call's file is its own, and is found under no name but the call's. -/
structure Owner (files₀ files : Store Path UInt8) (writer : ι) (phase : Phase) : Prop where
  new : ∀ {file}, phase.file = some file → files₀.next ≤ file ∧ file < files.next
  held : ∀ {file temp}, phase.file = some file → phase.temp = some temp →
    files.entry temp = some file
  found : ∀ {file name}, phase.file = some file → files.entry name = some file →
    phase.place setting.path = some name
  apart : ∀ {temp}, phase.temp = some temp → temp ≠ setting.path
  sound : setting.Sound files.content writer phase

/-- What the files and the writers have to do with each other. -/
structure Invariant (files₀ : Store Path UInt8) (s : State ι Process) : Prop where
  owner : ∀ writer, setting.Owner files₀ s.files writer (s.phase writer)
  alone : ∀ {writer other file}, (s.phase writer).file = some file →
    (s.phase other).file = some file → writer = other
  next_le : files₀.next ≤ s.files.next
  kept : ∀ {file}, file < files₀.next → s.files.content file = files₀.content file
  target : s.files.entry setting.path = files₀.entry setting.path ∨
    ∃ writer file, (s.phase writer).file = some file ∧ s.files.entry setting.path = some file

end Definitions

variable {setting : Setting ι Process Writer} {files₀ files files' : Store Path UInt8}
  {s t u : State ι Process} {label : Label ι} {writer other : ι} {phase phase' : Phase}

theorem Sound.congr {content content' : Nat → List UInt8}
    (h : setting.Sound content writer phase)
    (hsame : ∀ file, phase.file = some file → content' file = content file) :
    setting.Sound content' writer phase := by
  cases phase with
  | writing temp file rest | written temp file =>
      rw [Sound, hsame file rfl]
      exact h
  | returned result file =>
      cases result with
      | error _ => trivial
      | ok _ =>
          obtain ⟨f, hfile, hencoding⟩ := h
          exact ⟨f, hfile, by rwa [hsame f hfile]⟩
  | _ => exact h

/-- A step that leaves a call's file alone and takes no name from it but the destination's. -/
theorem Owner.frame (h : setting.Owner files₀ files writer phase)
    (hnext : files.next ≤ files'.next)
    (hcontent : ∀ file, phase.file = some file → files'.content file = files.content file)
    (hfound : ∀ file name, phase.file = some file → files'.entry name = some file →
      files.entry name = some file)
    (hheld : ∀ file temp, phase.file = some file → phase.temp = some temp →
      files'.entry temp = some file) :
    setting.Owner files₀ files' writer phase where
  new hfile := ⟨(h.new hfile).1, lt_of_lt_of_le (h.new hfile).2 hnext⟩
  held hfile htemp := hheld _ _ hfile htemp
  found hfile hentry := h.found hfile (hfound _ _ hfile hentry)
  apart := h.apart
  sound := h.sound.congr hcontent

/-- A call that goes on with the file it has. -/
theorem Owner.goOn (h : setting.Owner files₀ files writer phase)
    (hfile : phase'.file = phase.file) (htemp : phase'.temp = phase.temp)
    (hplace : ∀ name, phase.place setting.path = some name →
      phase'.place setting.path = some name)
    (hsound : setting.Sound files.content writer phase') :
    setting.Owner files₀ files writer phase' where
  new hf := h.new (hfile ▸ hf)
  held hf ht := h.held (hfile ▸ hf) (htemp ▸ ht)
  found hf hentry := hplace _ (h.found (hfile ▸ hf) hentry)
  apart ht := h.apart (htemp ▸ ht)
  sound := hsound

/-- While a call holds a temporary name, the destination does not lead to its file. -/
theorem Owner.entry_path_ne (h : setting.Owner files₀ files writer phase) {temp : Path} {file : Nat}
    (htemp : phase.temp = some temp) (hplace : phase.place setting.path = some temp)
    (hfile : phase.file = some file) : files.entry setting.path ≠ some file := by
  intro hentry
  have hpath : some temp = some setting.path := hplace.symm.trans (h.found hfile hentry)
  exact h.apart htemp (Option.some.inj hpath)

/-- A call whose file the destination leads to has returned. -/
theorem Owner.returned (h : setting.Owner files₀ files writer phase) {file : Nat}
    (hfile : phase.file = some file) (hentry : files.entry setting.path = some file) :
    phase = .returned (.ok ()) (some file) ∧ setting.encoding writer = .ok (files.content file) := by
  have hplace := h.found hfile hentry
  cases phase with
  | called | encoded _ | named _ _ => cases hfile
  | writing _ _ _ | written _ _ | failed _ _ _ =>
      exact absurd (Option.some.inj hplace) (h.apart rfl)
  | returned result created =>
      cases hfile
      cases result with
      | error _ => cases hplace
      | ok _ =>
          obtain ⟨f, hf, hencoding⟩ := h.sound
          cases hf
          exact ⟨rfl, hencoding⟩

end Setting

/-! ## Every step keeps what calls own -/

namespace Setting

variable {setting : Setting ι Process Writer} {files₀ files' : Store Path UInt8}
  {s t u : State ι Process} {labels : List (Label ι)} {label : Label ι} {action : Action}
  {writer other : ι} {phase phase' : Phase}

theorem Invariant.init (h : Init files₀ s) : setting.Invariant files₀ s where
  owner writer := by
    rw [h.2 writer]
    exact ⟨nofun, nofun, nofun, nofun, trivial⟩
  alone hfile := by
    rw [h.2] at hfile
    cases hfile
  next_le := h.1 ▸ le_rfl
  kept _ := h.1 ▸ rfl
  target := .inl (h.1 ▸ rfl)

theorem Invariant.other_file_ne (h : setting.Invariant files₀ s) {file f : Nat}
    (hown : (s.phase writer).file = some file) (hne : other ≠ writer)
    (hfile : (s.phase other).file = some f) : f ≠ file := by
  intro heq
  exact hne (h.alone hfile (heq ▸ hown))

/-- The names that calls hold differ. -/
theorem Invariant.other_temp_ne (h : setting.Invariant files₀ s) {file f : Nat} {temp name : Path}
    (hown : (s.phase writer).file = some file) (hentry : s.files.entry temp = some file)
    (hne : other ≠ writer) (hfile : (s.phase other).file = some f)
    (htemp : (s.phase other).temp = some name) : name ≠ temp := by
  intro heq
  have hheld := (h.owner other).held hfile htemp
  rw [heq, hentry] at hheld
  exact h.other_file_ne hown hne hfile (Option.some.inj hheld).symm

theorem Invariant.destination (h : setting.Invariant files₀ s) :
    s.files.read setting.path = files₀.read setting.path ∨
    ∃! writer, ∃ file bytes, s.phase writer = .returned (.ok ()) (some file) ∧
      s.files.entry setting.path = some file ∧ setting.encoding writer = .ok bytes ∧
      s.files.read setting.path = some bytes := by
  rcases h.target with hinitial | ⟨writer, file, hfile, hentry⟩
  · apply Or.inl
    rw [Store.read, Store.read, hinitial]
    cases hentry : files₀.entry setting.path with
    | none => rfl
    | some file => exact congrArg some (h.kept (files₀.created hentry))
  · obtain ⟨hphase, hencoding⟩ := (h.owner writer).returned hfile hentry
    refine .inr ⟨writer, ⟨file, _, hphase, hentry, hencoding, Store.read_of_entry hentry⟩, ?_⟩
    rintro other ⟨file', bytes, hother, hentry', -, -⟩
    have heq : file' = file := Option.some.inj (hentry'.symm.trans hentry)
    exact h.alone (by rw [hother, heq]; rfl) hfile

section Preserved

variable [DecidableEq ι]

/-- The invariant after a step of one call, from what the step does to it and to the others. -/
theorem Invariant.moveTo (h : setting.Invariant files₀ s) (counter : Process → UInt64)
    (hwriter : setting.Owner files₀ files' writer phase')
    (hothers : ∀ other, other ≠ writer → setting.Owner files₀ files' other (s.phase other))
    (halone : ∀ other file, other ≠ writer → phase'.file = some file →
      (s.phase other).file ≠ some file)
    (hnext : s.files.next ≤ files'.next)
    (hkept : ∀ file, file < files₀.next → files'.content file = s.files.content file)
    (htarget : files'.entry setting.path = s.files.entry setting.path ∨
      ∃ file, phase'.file = some file ∧ files'.entry setting.path = some file)
    (hfile : ∀ file, (s.phase writer).file = some file → phase'.file = some file) :
    setting.Invariant files₀ ((⟨files', counter, s.phase⟩ : State ι Process).moveTo writer phase')
    where
  owner other := by
    by_cases heq : other = writer
    · subst heq
      simpa only [State.moveTo, Function.update_self] using hwriter
    · simpa only [State.moveTo, Function.update_of_ne heq] using hothers other heq
  alone {one other file} hone hother := by
    by_cases heq : one = writer <;> by_cases heq' : other = writer
    · rw [heq, heq']
    · subst heq
      simp only [State.moveTo, Function.update_self, Function.update_of_ne heq'] at hone hother
      exact absurd hother (halone other file heq' hone)
    · subst heq'
      simp only [State.moveTo, Function.update_self, Function.update_of_ne heq] at hone hother
      exact absurd hone (halone one file heq hother)
    · simp only [State.moveTo, Function.update_of_ne heq, Function.update_of_ne heq'] at hone hother
      exact h.alone hone hother
  next_le := h.next_le.trans hnext
  kept hlt := (hkept _ hlt).trans (h.kept hlt)
  target := by
    have hself : ∀ file, phase'.file = some file →
        (Function.update s.phase writer phase' writer).file = some file := by
      intro file hnew
      rwa [Function.update_self]
    rcases htarget with hsame | ⟨file, hnew, hentry⟩
    · rcases h.target with hinitial | ⟨owner, file, howner, hentry⟩
      · exact .inl (hsame.trans hinitial)
      · refine .inr ⟨owner, file, ?_, hsame.trans hentry⟩
        by_cases heq : owner = writer
        · subst heq
          exact hself file (hfile file howner)
        · simpa only [State.moveTo, Function.update_of_ne heq] using howner
    · exact .inr ⟨writer, file, hself file hnew, hentry⟩

/-- A step of one call that leaves the files as they are. -/
theorem Invariant.goOn (h : setting.Invariant files₀ s) (counter : Process → UInt64)
    (hphase : s.phase writer = phase) (hfile : phase'.file = phase.file)
    (htemp : phase'.temp = phase.temp)
    (hplace : ∀ name, phase.place setting.path = some name →
      phase'.place setting.path = some name)
    (hsound : setting.Sound s.files.content writer phase') :
    setting.Invariant files₀ ({ s with counter }.moveTo writer phase') := by
  subst hphase
  apply h.moveTo counter
  · exact (h.owner writer).goOn hfile htemp hplace hsound
  · intro other _
    exact h.owner other
  · intro other file hne hnew hother
    exact hne (h.alone hother (hfile ▸ hnew))
  · exact le_rfl
  · intro file _
    rfl
  · exact .inl rfl
  · intro file hold
    exact hfile ▸ hold

theorem Invariant.create (h : setting.Invariant files₀ s) {bytes : List UInt8} {temp : Path}
    (hphase : s.phase writer = .named bytes temp) (hentry : s.files.entry temp = none) :
    setting.Invariant files₀ ({ s with files := s.files.create temp }.moveTo writer
      (.writing temp s.files.next bytes)) := by
  have hsound := (h.owner writer).sound
  rw [hphase] at hsound
  obtain ⟨hencoding, hapart⟩ := hsound
  have hold : ∀ other file, (s.phase other).file = some file → file ≠ s.files.next :=
    fun other file hfile => Nat.ne_of_lt ((h.owner other).new hfile).2
  apply h.moveTo s.counter
  · constructor
    · intro file hfile
      cases hfile
      exact ⟨h.next_le, Nat.lt_succ_self _⟩
    · intro file name hfile hname
      cases hfile
      cases hname
      exact Store.entry_create_self
    · intro file name hfile hname
      cases hfile
      rcases Store.entry_create_eq_some hname with ⟨rfl, -⟩ | ⟨-, hbefore⟩
      · rfl
      · exact absurd (s.files.created hbefore) (lt_irrefl _)
    · intro name hname
      cases hname
      exact hapart
    · rw [Sound, Store.content_create_self]
      exact hencoding
  · intro other _
    refine (h.owner other).frame (Nat.le_succ _) ?_ ?_ ?_
    · intro file hfile
      exact Store.content_create_of_lt ((h.owner other).new hfile).2
    · intro file name hfile hname
      rcases Store.entry_create_eq_some hname with ⟨-, hnext⟩ | ⟨-, hbefore⟩
      · exact absurd hnext (hold other file hfile)
      · exact hbefore
    · intro file name hfile hname
      have hheld := (h.owner other).held hfile hname
      have hne : name ≠ temp := by
        intro heq
        rw [heq, hentry] at hheld
        cases hheld
      exact (Store.entry_create_of_ne hne).trans hheld
  · intro other file _ hnew hfile
    exact hold other file hfile (Option.some.inj hnew).symm
  · exact Nat.le_succ _
  · intro file hlt
    exact Store.content_create_of_lt (lt_of_lt_of_le hlt h.next_le)
  · exact .inl (Store.entry_create_of_ne hapart.symm)
  · intro file hfile
    rw [hphase] at hfile
    cases hfile

theorem Invariant.write (h : setting.Invariant files₀ s) {temp : Path} {file : Nat}
    {rest : List UInt8} (hphase : s.phase writer = .writing temp file rest) (count : Nat) :
    setting.Invariant files₀ ({ s with files := s.files.append file (rest.take count) }.moveTo
      writer (.writing temp file (rest.drop count))) := by
  have howner := h.owner writer
  have hown : (s.phase writer).file = some file := by rw [hphase]; rfl
  have hother {other f} (hne : other ≠ writer) (hf : (s.phase other).file = some f) : f ≠ file :=
    h.other_file_ne hown hne hf
  apply h.moveTo s.counter
  · rw [hphase] at howner
    constructor
    · exact howner.new
    · exact howner.held
    · exact howner.found
    · exact howner.apart
    · rw [Sound, Store.content_append_self, List.append_assoc, List.take_append_drop]
      exact howner.sound
  · intro other hne
    refine (h.owner other).frame le_rfl ?_ (fun _ _ _ hname => hname) ?_
    · intro f hf
      exact Store.content_append_of_ne (hother hne hf)
    · intro f name hf hname
      exact (h.owner other).held hf hname
  · intro other f hne hnew hf
    exact hother hne hf (Option.some.inj hnew).symm
  · exact le_rfl
  · intro f hlt
    exact Store.content_append_of_ne (Nat.ne_of_lt (lt_of_lt_of_le hlt (howner.new hown).1))
  · exact .inl rfl
  · intro f hf
    rw [hphase] at hf
    exact hf

/-- The file gets the destination's name and loses its own. -/
theorem Invariant.rename (h : setting.Invariant files₀ s) {temp : Path} {file : Nat}
    (hphase : s.phase writer = .written temp file) :
    setting.Invariant files₀ ({ s with files := s.files.move temp setting.path }.moveTo writer
      (.returned (.ok ()) (some file))) := by
  have howner := h.owner writer
  have hown : (s.phase writer).file = some file := by rw [hphase]; rfl
  rw [hphase] at howner
  have hapart : temp ≠ setting.path := howner.apart rfl
  have htemp : s.files.entry temp = some file := howner.held rfl rfl
  have hpath : s.files.entry setting.path ≠ s.files.entry temp :=
    htemp ▸ howner.entry_path_ne rfl rfl rfl
  have hmoved : (s.files.move temp setting.path).entry setting.path = some file :=
    (Store.entry_move_target hapart).trans htemp
  have hcases : ∀ {name f}, (s.files.move temp setting.path).entry name = some f →
      (name = setting.path ∧ f = file) ∨ (name ≠ temp ∧ s.files.entry name = some f) := by
    intro name f hname
    by_cases heq : name = setting.path
    · subst heq
      exact .inl ⟨rfl, Option.some.inj (hname.symm.trans hmoved)⟩
    · by_cases heq' : name = temp
      · rw [heq', Store.entry_move_source hpath] at hname
        cases hname
      · exact .inr ⟨heq', Store.entry_move_of_ne heq' heq ▸ hname⟩
  have hother {other f} (hne : other ≠ writer) (hf : (s.phase other).file = some f) : f ≠ file :=
    h.other_file_ne hown hne hf
  apply h.moveTo s.counter
  · constructor
    · intro f hf
      rw [Store.next_move]
      exact howner.new hf
    · intro f name _ hname
      cases hname
    · intro f name hf hname
      cases hf
      rcases hcases hname with ⟨rfl, -⟩ | ⟨hne, hbefore⟩
      · rfl
      · exact absurd (Option.some.inj (howner.found rfl hbefore)).symm hne
    · intro name hname
      cases hname
    · refine ⟨file, rfl, ?_⟩
      rw [Store.content_move]
      exact howner.sound
  · intro other hne
    refine (h.owner other).frame (le_of_eq Store.next_move.symm) ?_ ?_ ?_
    · intro f _
      rw [Store.content_move]
    · intro f name hf hname
      rcases hcases hname with ⟨-, heq⟩ | ⟨-, hbefore⟩
      · exact absurd heq (hother hne hf)
      · exact hbefore
    · intro f name hf hname
      have hheld := (h.owner other).held hf hname
      have hname_ne : name ≠ temp := h.other_temp_ne hown htemp hne hf hname
      exact (Store.entry_move_of_ne hname_ne ((h.owner other).apart hname)).trans hheld
  · intro other f hne hnew hf
    exact hother hne hf (Option.some.inj hnew).symm
  · exact le_of_eq Store.next_move.symm
  · intro f _
    rw [Store.content_move]
  · exact .inr ⟨file, rfl, hmoved⟩
  · intro f hf
    rw [hphase] at hf
    exact hf

theorem Invariant.remove (h : setting.Invariant files₀ s) {temp : Path} {file : Nat}
    {error : WaveWriterError} (hphase : s.phase writer = .failed temp file error) :
    setting.Invariant files₀ ({ s with files := s.files.remove temp }.moveTo writer
      (.returned (.error error) (some file))) := by
  have howner := h.owner writer
  have hown : (s.phase writer).file = some file := by rw [hphase]; rfl
  rw [hphase] at howner
  have htemp : s.files.entry temp = some file := howner.held rfl rfl
  have hother {other f} (hne : other ≠ writer) (hf : (s.phase other).file = some f) : f ≠ file :=
    h.other_file_ne hown hne hf
  apply h.moveTo s.counter
  · constructor
    · exact howner.new
    · intro f name _ hname
      cases hname
    · intro f name hf hname
      obtain ⟨hne, hbefore⟩ := Store.entry_remove_eq_some hname
      exact absurd (Option.some.inj (howner.found hf hbefore)).symm hne
    · intro name hname
      cases hname
    · trivial
  · intro other hne
    refine (h.owner other).frame le_rfl (fun _ _ => rfl) ?_ ?_
    · intro f name _ hname
      exact (Store.entry_remove_eq_some hname).2
    · intro f name hf hname
      have hheld := (h.owner other).held hf hname
      have hname_ne : name ≠ temp := h.other_temp_ne hown htemp hne hf hname
      exact (Store.entry_remove_of_ne hname_ne).trans hheld
  · intro other f hne hnew hf
    exact hother hne hf (Option.some.inj hnew).symm
  · exact le_rfl
  · intro f _
    rfl
  · exact .inl (Store.entry_remove_of_ne (howner.apart rfl).symm)
  · intro f hf
    rw [hphase] at hf
    exact hf

end Preserved

section Runs

variable [DecidableEq ι] [DecidableEq Process]

theorem Invariant.step (h : setting.Invariant files₀ s) (hstep : setting.next s label = some t) :
    setting.Invariant files₀ t := by
  obtain ⟨writer, action⟩ := label
  have hsound := (h.owner writer).sound
  cases stepped_of_next hstep with
  | refused error hphase herror => exact h.goOn s.counter hphase rfl rfl nofun trivial
  | encoded bytes hphase hbytes => exact h.goOn s.counter hphase rfl rfl nofun hbytes
  | named bytes pid unique counter hphase =>
      rw [hphase] at hsound
      exact h.goOn counter hphase rfl rfl nofun
        ⟨hsound, tempSiblingPath_ne setting.path pid unique⟩
  | created bytes temp hphase hentry => exact h.create hphase hentry
  | notCreated bytes temp source hphase => exact h.goOn s.counter hphase rfl rfl nofun trivial
  | wrote temp file count rest hphase => exact h.write hphase count
  | notWritten temp file rest source hphase =>
      exact h.goOn s.counter hphase rfl rfl (fun _ => id) trivial
  | closed temp file hphase =>
      rw [hphase, Sound, List.append_nil] at hsound
      exact h.goOn s.counter hphase rfl rfl (fun _ => id) hsound
  | renamed temp file hphase => exact h.rename hphase
  | notRenamed temp file source hphase =>
      exact h.goOn s.counter hphase rfl rfl (fun _ => id) trivial
  | removed temp file error hphase => exact h.remove hphase

/-- A call that has returned does nothing more, and the others do not touch it. -/
theorem returned_step {result : Except WaveWriterError Unit} {file : Option Nat}
    (hphase : s.phase writer = .returned result file) (hstep : setting.next s label = some t) :
    t.phase writer = .returned result file := by
  obtain ⟨actor, action⟩ := label
  have hne : writer ≠ actor := by
    intro heq
    subst heq
    rw [next] at hstep
    simp only [hphase] at hstep
    cases hstep
  cases stepped_of_next hstep <;> exact (Function.update_of_ne hne ..).trans hphase

theorem returned_run {result : Except WaveWriterError Unit} {file : Option Nat}
    (run : Run (steps setting.next) s labels t) (hphase : s.phase writer = .returned result file) :
    t.phase writer = .returned result file :=
  run.preserves (fun _ _ _ h hstep => returned_step h hstep) hphase

/-- A step that changes what the destination holds is a call's last, and the call succeeds. -/
theorem Invariant.returned_of_read_ne (h : setting.Invariant files₀ s)
    (hstep : setting.next s ⟨writer, action⟩ = some t)
    (hread : t.files.read setting.path ≠ s.files.read setting.path) :
    ∃ file, t.phase writer = .returned (.ok ()) file := by
  have howner := h.owner writer
  cases stepped_of_next hstep with
  | refused _ _ _ | encoded _ _ _ | named _ _ _ _ _ | notCreated _ _ _ _ | notWritten _ _ _ _ _
  | closed _ _ _ | notRenamed _ _ _ _ => exact absurd rfl hread
  | created bytes temp hphase _ =>
      rw [hphase] at howner
      exact absurd (Store.read_create_of_ne howner.sound.2.symm) hread
  | wrote temp file count rest hphase =>
      rw [hphase] at howner
      exact absurd (Store.read_append_of_ne (howner.entry_path_ne rfl rfl rfl)) hread
  | renamed temp file hphase => exact ⟨some file, Function.update_self ..⟩
  | removed temp file error hphase =>
      rw [hphase] at howner
      exact absurd (Store.read_remove_of_ne (howner.apart rfl).symm) hread

/-- Only a call's own file changes, and a call changes it only while it has it open. -/
theorem content_of_step (hstep : setting.next s ⟨writer, action⟩ = some t) {file : Nat}
    (hcontent : t.files.content file ≠ s.files.content file) :
    (t.phase writer).file = some file := by
  cases stepped_of_next hstep with
  | refused _ _ _ | encoded _ _ _ | named _ _ _ _ _ | notCreated _ _ _ _ | notWritten _ _ _ _ _
  | closed _ _ _ | notRenamed _ _ _ _ | removed _ _ _ _ => exact absurd rfl hcontent
  | created bytes temp _ _ =>
      have heq : file = s.files.next := by
        by_contra hne
        exact hcontent (Function.update_of_ne hne ..)
      simp only [heq, State.moveTo, Function.update_self]
      rfl
  | wrote temp other count rest _ =>
      have heq : file = other := by
        by_contra hne
        exact hcontent (Store.content_append_of_ne hne)
      simp only [heq, State.moveTo, Function.update_self]
      rfl
  | renamed temp other _ => exact absurd (congrFun Store.content_move file) hcontent

/-- What any number of calls that write to one path at once keep to. -/
structure WritesAtomically (setting : Setting ι Process Writer) (files₀ : Store Path UInt8) :
    Prop where
  /-- The destination is as it was, or holds all that one call wrote. -/
  destination : ∀ s, Reachable (Init files₀) (steps setting.next) s →
    s.files.read setting.path = files₀.read setting.path ∨
    ∃! writer, ∃ file bytes, s.phase writer = .returned (.ok ()) (some file) ∧
      s.files.entry setting.path = some file ∧ setting.encoding writer = .ok bytes ∧
      s.files.read setting.path = some bytes
  /-- No step of a call that ends with an error has changed the destination. -/
  unchanged : ∀ s writer action t labels u error file,
    Reachable (Init files₀) (steps setting.next) s → steps setting.next s ⟨writer, action⟩ t →
    Run (steps setting.next) t labels u → u.phase writer = .returned (.error error) file →
    t.files.read setting.path = s.files.read setting.path
  /-- No name leads to the file that a call created before it ended with an error. -/
  removed : ∀ s writer error file name, Reachable (Init files₀) (steps setting.next) s →
    s.phase writer = .returned (.error error) (some file) → s.files.entry name ≠ some file
  /-- A call writes to no file but the one it created, which no other call did. -/
  own : ∀ s writer action t file, Reachable (Init files₀) (steps setting.next) s →
    steps setting.next s ⟨writer, action⟩ t → t.files.content file ≠ s.files.content file →
    (t.phase writer).file = some file ∧
      ∀ other, other ≠ writer → (t.phase other).file ≠ some file

theorem Invariant.of_reachable (h : Reachable (Init files₀) (steps setting.next) s) :
    setting.Invariant files₀ s :=
  h.invariant (fun _ => Invariant.init) fun _ _ _ => Invariant.step

theorem writesAtomically (setting : Setting ι Process Writer) (files₀ : Store Path UInt8) :
    setting.WritesAtomically files₀ where
  destination s hs := (Invariant.of_reachable hs).destination
  unchanged s writer action t labels u error file hs hstep run hphase := by
    by_contra hread
    obtain ⟨file', hreturned⟩ := (Invariant.of_reachable hs).returned_of_read_ne hstep hread
    have hok := returned_run run hreturned
    rw [hphase] at hok
    cases hok
  removed s writer error file name hs hphase hentry := by
    have howner := (Invariant.of_reachable hs).owner writer
    rw [hphase] at howner
    cases howner.found rfl hentry
  own s writer action t file hs hstep hcontent := by
    have hfile := content_of_step hstep hcontent
    have ht : setting.Invariant files₀ t := (Invariant.of_reachable hs).step hstep
    exact ⟨hfile, fun other hne hother => hne (ht.alone hother hfile)⟩

/-! ## A call that nothing fails for -/

theorem run_of_written {temp : Path} {file : Nat} (hphase : s.phase writer = .written temp file)
    (hentry : s.files.entry temp = some file) (hapart : temp ≠ setting.path) :
    ∃ labels t, Run (steps setting.next) s labels t ∧
      t.files.read setting.path = some (s.files.content file) := by
  have hrename : s.files.rename temp setting.path = some (s.files.move temp setting.path) := by
    rw [Store.rename, if_neg (by rw [hentry]; nofun)]
  have hstep : steps setting.next s ⟨writer, .rename⟩
      ({ s with files := s.files.move temp setting.path }.moveTo writer
        (.returned (.ok ()) (some file))) := by
    simp only [steps, next, hphase, hrename]
    rfl
  refine ⟨_, _, .single hstep, ?_⟩
  have hcontent : (s.files.move temp setting.path).content = s.files.content := Store.content_move
  rw [← hcontent]
  exact Store.read_of_entry ((Store.entry_move_target hapart).trans hentry)

theorem run_of_writing {temp : Path} {file : Nat} {rest : List UInt8}
    (hphase : s.phase writer = .writing temp file rest) (hentry : s.files.entry temp = some file)
    (hapart : temp ≠ setting.path) :
    ∃ labels t, Run (steps setting.next) s labels t ∧
      t.files.read setting.path = some (s.files.content file ++ rest) := by
  have hclose : ∀ u : State ι Process, u.phase writer = .writing temp file [] →
      u.files.entry temp = some file → ∃ labels t, Run (steps setting.next) u labels t ∧
        t.files.read setting.path = some (u.files.content file) := by
    intro u hu hu_entry
    have hstep : steps setting.next u ⟨writer, .close⟩ (u.moveTo writer (.written temp file)) := by
      rw [steps, next, hu]
    obtain ⟨labels, t, run, hread⟩ := run_of_written (s := u.moveTo writer (.written temp file))
      (Function.update_self ..) hu_entry hapart
    exact ⟨_, t, .cons hstep run, hread⟩
  cases rest with
  | nil => simpa only [List.append_nil] using hclose s hphase hentry
  | cons byte rest =>
      let bytes := byte :: rest
      let u : State ι Process :=
        { s with files := s.files.append file (bytes.take bytes.length) }.moveTo writer
          (.writing temp file (bytes.drop bytes.length))
      have hstep : steps setting.next s ⟨writer, .write bytes.length⟩ u := by
        rw [steps, next, hphase]
        exact if_pos ⟨Nat.succ_pos _, le_rfl⟩
      have hu : u.phase writer = .writing temp file [] := by
        simp only [u, State.moveTo, Function.update_self, List.drop_length]
      obtain ⟨labels, t, run, hread⟩ := hclose u hu hentry
      refine ⟨_, t, .cons hstep run, hread.trans ?_⟩
      simp only [u, State.moveTo, Store.content_append_self, List.take_length, bytes]

/-- A call that no step fails for, with a free temporary name, ends with its whole encoding at the
destination. -/
theorem exists_run_of_ok (hphase : s.phase writer = .called) {bytes : List UInt8}
    (hbytes : setting.encoding writer = .ok bytes)
    (hfree : ∀ pid unique, s.files.entry (tempSiblingPath setting.path pid unique) = none) :
    ∃ labels t, Run (steps setting.next) s labels t ∧ t.files.read setting.path = some bytes := by
  let process := (setting.calls writer).process
  let temp := tempSiblingPath setting.path (setting.pid process) (s.counter process)
  let encoded := s.moveTo writer (.encoded bytes)
  let named : State ι Process :=
    { encoded with counter := Function.update s.counter process (s.counter process + 1) }.moveTo
      writer (.named bytes temp)
  let created : State ι Process :=
    { named with files := s.files.create temp }.moveTo writer (.writing temp s.files.next bytes)
  have hencode : steps setting.next s ⟨writer, .encode⟩ encoded := by
    rw [steps, next, hphase, hbytes]
  have htakeName : steps setting.next encoded ⟨writer, .takeName⟩ named := by
    simp only [steps, next, encoded, State.moveTo, Function.update_self]
    rfl
  have hcreateNew : s.files.createNew temp = some (s.files.next, s.files.create temp) :=
    if_pos (hfree _ _)
  have hcreate : steps setting.next named ⟨writer, .create⟩ created := by
    simp only [steps, next, named, State.moveTo, Function.update_self, encoded, hcreateNew]
    rfl
  have hapart : temp ≠ setting.path := tempSiblingPath_ne _ _ _
  obtain ⟨labels, t, run, hread⟩ := run_of_writing (s := created) (Function.update_self ..)
    Store.entry_create_self hapart
  refine ⟨_, t, .cons hencode (.cons htakeName (.cons hcreate run)), hread.trans ?_⟩
  simp only [created, State.moveTo, Store.content_create_self, List.nil_append]

end Runs

end Setting

end Dengjen.Audio
