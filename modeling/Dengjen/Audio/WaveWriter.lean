import Dengjen.General.TransitionSystem
import Dengjen.General.Files
import Dengjen.Core.ConfinedPath

/-!
# Writing WAV files

A call of `write_wave_samples_to_file` encodes its samples in memory, writes them to
a new file beside the destination and renames that file. When a step fails after the
file was created, the file is removed. Any number of calls, in any processes, may
write to the same destination at once, and each step of each may fail.

## Implementation notes

The name of a temporary file is taken from a counter that wraps around, and two
processes may have the same number in different namespaces: what keeps two calls
apart is `create_new`. A call that returned an error or is about to keeps the file it
created in its phase, so that the file can still be spoken about.
-/

namespace Dengjen.Audio

open Files TransitionSystem

/-- Why a file was not written. -/
structure WaveWriterError where
  message : String
  deriving DecidableEq

/-- The bytes of a sample. -/
def pcmI16SampleWidth : Nat := 2

/-- `riff_wave::WaveWriter`. Which error it returns is never looked at. -/
structure RiffWave (Buffer Writer : Type*) where
  new : (channels sampleRate bitsPerSample : Nat) → Buffer → Option Writer
  writeSampleI16 : Writer → Int16 → Option Writer
  /-- The buffer with the finished header. -/
  syncHeader : Writer → Option Buffer

section Buffer

variable {Buffer Writer : Type*} (riffWave : RiffWave Buffer Writer)

/-- Encodes samples, in a format that a WAVE header has room for. -/
def writeWaveSamplesToBuffer (buffer : Buffer) (samples : List Int16)
    (sampleRate numChannels sampleWidth : Nat) : Except WaveWriterError Buffer := do
  if sampleWidth ≠ pcmI16SampleWidth then
    throw ⟨s!"unsupported sample width {sampleWidth}: samples are written as 16-bit PCM"⟩
  if numChannels = 0 ∨ 65535 < numChannels then
    throw ⟨s!"unsupported channel count {numChannels}: expected 1..=65535"⟩
  let some writer := riffWave.new numChannels sampleRate (pcmI16SampleWidth * 8) buffer
    | throw ⟨"could not open the RIFF/WAVE stream for writing"⟩
  let some writer := samples.foldlM riffWave.writeSampleI16 writer
    | throw ⟨"could not append a PCM sample to the WAVE stream"⟩
  let some buffer := riffWave.syncHeader writer
    | throw ⟨"could not finalize the RIFF/WAVE chunk sizes"⟩
  return buffer

end Buffer

/-! ## Temporary names -/

/-- The name of a temporary file beside the path. -/
def tempName (path : Path) (pid : UInt32) (unique : UInt64) : String :=
  "." ++ path.fileName.getD "" ++ s!".{pid}.{unique}.tmp"

/-- A file name has no separator. -/
def tempSiblingPath (path : Path) (pid : UInt32) (unique : UInt64) : Path :=
  path.withFileName ⟨[.normal (tempName path pid unique)]⟩

theorem fileName_join_normal (base : Path) (name : String) :
    (base.join ⟨[.normal name]⟩).fileName = some name := by
  have hrelative : ¬ Path.isAbsolute ⟨[.normal name]⟩ := by
    intro habsolute
    cases habsolute
  rw [Path.join, if_neg hrelative]
  split
  · rfl
  · simp [Path.fileName]

theorem fileName_tempSiblingPath (path : Path) (pid : UInt32) (unique : UInt64) :
    (tempSiblingPath path pid unique).fileName = some (tempName path pid unique) := by
  rw [tempSiblingPath, Path.withFileName]
  split <;> exact fileName_join_normal ..

/-- A temporary file is not the destination: its name is longer. -/
theorem tempSiblingPath_ne (path : Path) (pid : UInt32) (unique : UInt64) :
    tempSiblingPath path pid unique ≠ path := by
  intro heq
  have hname : path.fileName = some (tempName path pid unique) := by
    conv_lhs => rw [← heq]
    exact fileName_tempSiblingPath path pid unique
  have hdot : ".".length = 1 := rfl
  have hlonger : (tempName path pid unique).length =
      (tempName path pid unique).length + 1 + s!".{pid}.{unique}.tmp".length := by
    conv_lhs => rw [tempName, hname, Option.getD_some, String.length_append, String.length_append]
    rw [hdot, Nat.add_comm 1]
  omega

/-! ## The calls -/

/-- One call and the process that makes it. -/
structure Call (Process : Type*) where
  process : Process
  samples : List Int16
  sampleRate : Nat
  numChannels : Nat
  sampleWidth : Nat

/-- Where a call is. -/
inductive Phase
  | called
  | encoded (bytes : List UInt8)
  | named (bytes : List UInt8) (temp : Path)
  /-- In `write_all`, with the bytes that are left to write. -/
  | writing (temp : Path) (file : Nat) (rest : List UInt8)
  | written (temp : Path) (file : Nat)
  /-- Before `remove_file`. -/
  | failed (temp : Path) (file : Nat) (error : WaveWriterError)
  | returned (result : Except WaveWriterError Unit) (file : Option Nat)

/-- What the lines of a call do, and how they may fail. -/
inductive Action
  | encode
  | takeName
  | create
  | createFails (source : String)
  | write (count : Nat)
  | writeFails (source : String)
  | close
  | rename
  | renameFails (source : String)
  | remove

/-- A step and the call that takes it. -/
structure Label (ι : Type*) where
  writer : ι
  action : Action

/-- The files, the counters of the processes, and where each call is. -/
structure State (ι Process : Type*) where
  files : Store Path UInt8
  /-- `TEMP_FILE_COUNTER` of each process. -/
  counter : Process → UInt64
  phase : ι → Phase

/-- What the calls are made of: the WAVE encoder, how paths print, process numbers, and the
calls with their destination. -/
structure Setting (ι Process Writer : Type*) where
  riffWave : RiffWave (List UInt8) Writer
  display : Path → String
  pid : Process → UInt32
  path : Path
  calls : ι → Call Process

variable {ι Process Writer : Type*}

/-- One call has gone on. -/
def State.moveTo [DecidableEq ι] (s : State ι Process) (writer : ι) (phase : Phase) : State ι Process :=
  { s with phase := Function.update s.phase writer phase }

namespace Setting

variable (setting : Setting ι Process Writer)

/-- The error of a file that cannot be created. -/
def couldNotCreate (temp : Path) (source : String) : WaveWriterError :=
  ⟨s!"could not create wave file `{setting.display temp}`: {source}"⟩

/-- The error of bytes that cannot be written. -/
def couldNotWrite (temp : Path) (source : String) : WaveWriterError :=
  ⟨s!"could not write wave bytes to `{setting.display temp}`: {source}"⟩

/-- The error of a file that cannot be moved into place. -/
def couldNotFinalize (source : String) : WaveWriterError :=
  ⟨s!"could not finalize wave file `{setting.display setting.path}`: {source}"⟩

/-- The complete encoding of a call's samples. -/
def encoding (writer : ι) : Except WaveWriterError (List UInt8) :=
  let call := setting.calls writer
  writeWaveSamplesToBuffer setting.riffWave [] call.samples call.sampleRate call.numChannels
    call.sampleWidth

section Step

variable [DecidableEq ι] [DecidableEq Process]

/-- One step of one call of `write_wave_samples_to_file`. Removing a file succeeds. -/
def next (s : State ι Process) (label : Label ι) : Option (State ι Process) :=
  let writer := label.writer
  let process := (setting.calls writer).process
  match label.action, s.phase writer with
  | .encode, .called =>
      match setting.encoding writer with
      | .error error => some (s.moveTo writer (.returned (.error error) none))
      | .ok bytes => some (s.moveTo writer (.encoded bytes))
  | .takeName, .encoded bytes =>
      let temp := tempSiblingPath setting.path (setting.pid process) (s.counter process)
      let counter := Function.update s.counter process (s.counter process + 1)
      some ({ s with counter }.moveTo writer (.named bytes temp))
  | .create, .named bytes temp =>
      (s.files.createNew temp).map fun (file, files) =>
        { s with files }.moveTo writer (.writing temp file bytes)
  | .createFails source, .named _ temp =>
      some (s.moveTo writer (.returned (.error (setting.couldNotCreate temp source)) none))
  | .write count, .writing temp file rest =>
      if 0 < count ∧ count ≤ rest.length then
        some ({ s with files := s.files.append file (rest.take count) }.moveTo writer
          (.writing temp file (rest.drop count)))
      else none
  | .writeFails source, .writing temp file (_ :: _) =>
      some (s.moveTo writer (.failed temp file (setting.couldNotWrite temp source)))
  | .close, .writing temp file [] => some (s.moveTo writer (.written temp file))
  | .rename, .written temp file =>
      (s.files.rename temp setting.path).map fun files =>
        { s with files }.moveTo writer (.returned (.ok ()) (some file))
  | .renameFails source, .written temp file =>
      some (s.moveTo writer (.failed temp file (setting.couldNotFinalize source)))
  | .remove, .failed temp file error =>
      some ({ s with files := s.files.remove temp }.moveTo writer
        (.returned (.error error) (some file)))
  | _, _ => none

end Step

/-- No call has begun. -/
def Init (files₀ : Store Path UInt8) (s : State ι Process) : Prop :=
  s.files = files₀ ∧ ∀ writer, s.phase writer = .called

end Setting

namespace Phase

/-- The file that the call has created. -/
def file : Phase → Option Nat
  | writing _ file _ | written _ file | failed _ file _ => some file
  | returned _ file => file
  | _ => none

/-- The temporary name, as long as it leads to the file. -/
def temp : Phase → Option Path
  | writing temp _ _ | written temp _ | failed temp _ _ => some temp
  | _ => none

/-- The only name that may lead to the file. -/
def place (path : Path) : Phase → Option Path
  | returned (.ok _) _ => some path
  | phase => phase.temp

end Phase

namespace Setting

/-! ## What a step does -/

variable [DecidableEq ι] (setting : Setting ι Process Writer)

/-- What a call can do. -/
inductive Stepped (s : State ι Process) (writer : ι) : Action → State ι Process → Prop
  | refused (error : WaveWriterError) (hphase : s.phase writer = .called)
      (herror : setting.encoding writer = .error error) :
      Stepped s writer .encode (s.moveTo writer (.returned (.error error) none))
  | encoded (bytes : List UInt8) (hphase : s.phase writer = .called)
      (hbytes : setting.encoding writer = .ok bytes) :
      Stepped s writer .encode (s.moveTo writer (.encoded bytes))
  | named (bytes : List UInt8) (pid : UInt32) (unique : UInt64) (counter : Process → UInt64)
      (hphase : s.phase writer = .encoded bytes) :
      Stepped s writer .takeName
        ({ s with counter }.moveTo writer
          (.named bytes (tempSiblingPath setting.path pid unique)))
  | created (bytes : List UInt8) (temp : Path) (hphase : s.phase writer = .named bytes temp)
      (hentry : s.files.entry temp = none) :
      Stepped s writer .create
        ({ s with files := s.files.create temp }.moveTo writer
          (.writing temp s.files.next bytes))
  | notCreated (bytes : List UInt8) (temp : Path) (source : String)
      (hphase : s.phase writer = .named bytes temp) :
      Stepped s writer (.createFails source)
        (s.moveTo writer (.returned (.error (setting.couldNotCreate temp source)) none))
  | wrote (temp : Path) (file count : Nat) (rest : List UInt8)
      (hphase : s.phase writer = .writing temp file rest) :
      Stepped s writer (.write count)
        ({ s with files := s.files.append file (rest.take count) }.moveTo writer
          (.writing temp file (rest.drop count)))
  | notWritten (temp : Path) (file : Nat) (rest : List UInt8) (source : String)
      (hphase : s.phase writer = .writing temp file rest) :
      Stepped s writer (.writeFails source)
        (s.moveTo writer (.failed temp file (setting.couldNotWrite temp source)))
  | closed (temp : Path) (file : Nat) (hphase : s.phase writer = .writing temp file []) :
      Stepped s writer .close (s.moveTo writer (.written temp file))
  | renamed (temp : Path) (file : Nat) (hphase : s.phase writer = .written temp file) :
      Stepped s writer .rename
        ({ s with files := s.files.move temp setting.path }.moveTo writer
          (.returned (.ok ()) (some file)))
  | notRenamed (temp : Path) (file : Nat) (source : String)
      (hphase : s.phase writer = .written temp file) :
      Stepped s writer (.renameFails source)
        (s.moveTo writer (.failed temp file (setting.couldNotFinalize source)))
  | removed (temp : Path) (file : Nat) (error : WaveWriterError)
      (hphase : s.phase writer = .failed temp file error) :
      Stepped s writer .remove
        ({ s with files := s.files.remove temp }.moveTo writer
          (.returned (.error error) (some file)))

theorem stepped_of_next [DecidableEq Process] {setting : Setting ι Process Writer}
    {s t : State ι Process} {label : Label ι} (h : setting.next s label = some t) :
    setting.Stepped s label.writer label.action t := by
  rw [next] at h
  dsimp only at h
  split at h
  · next haction hphase =>
      split at h
      · next error herror => exact haction ▸ Option.some.inj h ▸ .refused error hphase herror
      · next bytes hbytes => exact haction ▸ Option.some.inj h ▸ .encoded bytes hphase hbytes
  · next bytes haction hphase => exact haction ▸ Option.some.inj h ▸ .named bytes _ _ _ hphase
  · next bytes temp haction hphase =>
      obtain ⟨⟨file, files⟩, hcreated, heq⟩ := Option.map_eq_some_iff.mp h
      obtain ⟨hentry, hnew⟩ := Option.ite_none_right_eq_some.mp hcreated
      cases hnew
      exact haction ▸ heq ▸ .created bytes temp hphase hentry
  · next source bytes temp haction hphase =>
      exact haction ▸ Option.some.inj h ▸ .notCreated bytes temp _ hphase
  · next count temp file rest haction hphase =>
      obtain ⟨-, heq⟩ := Option.ite_none_right_eq_some.mp h
      exact haction ▸ Option.some.inj heq ▸ .wrote temp file _ rest hphase
  · next source temp file _ _ haction hphase =>
      exact haction ▸ Option.some.inj h ▸ .notWritten temp file _ _ hphase
  · next temp file haction hphase => exact haction ▸ Option.some.inj h ▸ .closed temp file hphase
  · next temp file haction hphase =>
      obtain ⟨files, hrenamed, heq⟩ := Option.map_eq_some_iff.mp h
      obtain ⟨-, hmoved⟩ := Option.ite_none_left_eq_some.mp hrenamed
      cases hmoved
      exact haction ▸ heq ▸ .renamed temp file hphase
  · next source temp file haction hphase =>
      exact haction ▸ Option.some.inj h ▸ .notRenamed temp file _ hphase
  · next temp file error haction hphase =>
      exact haction ▸ Option.some.inj h ▸ .removed temp file error hphase
  · cases h

end Setting

end Dengjen.Audio
