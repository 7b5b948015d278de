import Dengjen.Core.Integers
import Dengjen.Core.Model

/-!
# Post-processing of synthesized audio

The rate, volume and pitch of a request are applied by the sonic library and
the tail of a sentence is cleaned up sample by sample; both work on floating
point samples and are parameters here. The checks around them, the appended
silence and the texts of their errors are the source's.
-/

namespace Dengjen.Synth

/-- The sonic stream and the sample operations that `shape_output` calls. A percentage is
turned into the parameter of its range by `percent_to_param` inside the setter. -/
structure AudioOps where
  SonicStream : Type
  newSonicStream : Nat → Nat → Except String SonicStream
  setSpeed : SonicStream → UInt8 → SonicStream
  setVolume : SonicStream → UInt8 → SonicStream
  setPitch : SonicStream → UInt8 → SonicStream
  write : SonicStream → AudioSamples → SonicStream
  flush : SonicStream → SonicStream
  samplesAvailable : SonicStream → Nat
  read : SonicStream → Nat → AudioSamples
  trimTrailingSilence : AudioSamples → Nat → AudioSamples
  fadeOut : AudioSamples → Nat → AudioSamples

/-- The longest silence that may be appended. -/
def maxAppendedSilenceMs : Nat := 60000
/-- The most samples that a silence may have. -/
def maxSilenceSamples : Nat := 64 * 1024 * 1024
/-- How long the end of the samples is faded. -/
def tailFadeMs : Nat := 5
/-- A sample of silence. -/
def zeroSample : F32 := ⟨0⟩

/-- The prosody and the silence that a caller asks for. -/
structure AudioOutputConfig where
  rate : Option UInt8
  volume : Option UInt8
  pitch : Option UInt8
  appendedSilenceMs : Option Nat
  deriving DecidableEq, Repr

namespace AudioOutputConfig

variable (ops : AudioOps)

/-- An `i32::try_from` of an audio dimension. -/
def checkDimension (value : Nat) (what : String) : DengjenResult Nat :=
  if value ≤ i32Max then .ok value
  else .error (.operationError s!"Sonic Error: {what} is out of range")

/-- The dimensions of the samples, which have to fit in those of the library. -/
def sonicStreamDimensions (sampleLen sampleRate numChannels : Nat) :
    DengjenResult (Nat × Nat × Nat) := do
  if numChannels = 0 then
    throw (.operationError "Sonic Error: audio has zero channels")
  let rate ← checkDimension sampleRate "sample rate"
  let channels ← checkDimension numChannels "channel count"
  let frames ← checkDimension (sampleLen / numChannels) "frame count"
  pure (rate, channels, frames)

/-- The samples with the prosody; no samples stay none. -/
def applyToRawSamples (config : AudioOutputConfig) (samples : AudioSamples)
    (sampleRate numChannels : Nat) : DengjenResult AudioSamples := do
  if samples.isEmpty then
    return samples
  let (rate, channels, _) ← sonicStreamDimensions samples.length sampleRate numChannels
  let stream ← (ops.newSonicStream rate channels).mapError fun err =>
    DengjenError.operationError s!"Sonic Error: {err}"
  let stream := config.rate.elim stream (ops.setSpeed stream)
  let stream := (config.volume.filter (· != 0)).elim stream (ops.setVolume stream)
  let stream := config.pitch.elim stream (ops.setPitch stream)
  let stream := ops.flush (ops.write stream samples)
  let availableFrames := ops.samplesAvailable stream
  if availableFrames = 0 then
    throw (.operationError "Sonic Error: failed to apply audio config. Invalid parameter value for rate, volume, or pitch")
  let output := ops.read stream availableFrames
  pure (if config.volume = some 0 then output.map fun _ => zeroSample else output)

/-- The number of samples in a silence, or `none` above the budget or on overflow. -/
def silenceSamples (timeMs sampleRate numChannels : Nat) : Option Nat :=
  if timeMs * sampleRate ≤ usizeMax ∧ timeMs * sampleRate * numChannels ≤ usizeMax ∧
      timeMs * sampleRate * numChannels / 1000 ≤ maxSilenceSamples then
    some (timeMs * sampleRate * numChannels / 1000)
  else none

/-- A silence of a length, in the format of the samples. -/
def generateSilence (config : AudioOutputConfig) (timeMs sampleRate numChannels : Nat) :
    DengjenResult AudioSamples :=
  if maxAppendedSilenceMs < timeMs then
    .error (.invalidConfiguration
      s!"appended_silence_ms {timeMs} exceeds the maximum of {maxAppendedSilenceMs}")
  else
    match silenceSamples timeMs sampleRate numChannels with
    | none => .error (.invalidConfiguration "appended silence exceeds the maximum sample budget")
    | some sampleCount =>
        config.applyToRawSamples ops (List.replicate sampleCount zeroSample) sampleRate numChannels

/-- An audio with the prosody, and with a silence behind it. -/
def apply (config : AudioOutputConfig) (audio : Audio) : DengjenResult Audio := do
  let processed ← config.applyToRawSamples ops audio.samples audio.info.sampleRate
    audio.info.numChannels
  match config.appendedSilenceMs with
  | none => pure { audio with samples := processed }
  | some silenceMs =>
      let silence ← config.generateSilence ops silenceMs audio.info.sampleRate
        audio.info.numChannels
      pure { audio with samples := processed ++ silence }

end AudioOutputConfig

/-- Clean up the tail of a sentence, then apply the request's configuration. -/
def shapeOutput (ops : AudioOps) (outputConfig : Option AudioOutputConfig) (audio : Audio) :
    DengjenResult Audio :=
  let numChannels := audio.info.numChannels
  let samples := ops.trimTrailingSilence audio.samples numChannels
  let samples := ops.fadeOut samples (audio.info.sampleRate * tailFadeMs / 1000 * numChannels)
  match outputConfig with
  | some config => config.apply ops { audio with samples }
  | none => .ok { audio with samples }

end Dengjen.Synth
