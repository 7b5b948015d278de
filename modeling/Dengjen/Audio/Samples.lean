import Dengjen.Core.Model

/-!
# Samples as bytes

Each sample of an `AudioSamples` becomes one 16-bit sample by itself, at a fixed
gain, and is written in two bytes.
-/

namespace Dengjen

/-- The number that the bits stand for. -/
def F32.toFloat32 (value : F32) : Float32 := .ofBits (.ofBitVec value.bits)

/-- `f32::clamp` -/
def clamp (value lower upper : Float32) : Float32 :=
  let value := if value < lower then lower else value
  if value > upper then upper else value

namespace AudioSamples

/-- The least sample. -/
def i16MinAsF32 : Float32 := -32768.0
/-- The greatest sample. -/
def i16MaxAsF32 : Float32 := 32767.0
/-- The gain of the output. -/
def referenceOutputGain : Float32 := 1.25

/-- A sample in 16 bits; one that is no number is silent. -/
def toI16 (sample : F32) : Int16 :=
  if sample.toFloat32.isFinite then
    (clamp (sample.toFloat32 * referenceOutputGain * i16MaxAsF32) i16MinAsF32 i16MaxAsF32).toInt16
  else 0

/-- Samples in 16 bits. -/
def toI16Vec (samples : AudioSamples) : List Int16 := samples.map toI16

/-- `i16::to_le_bytes` -/
def toLeBytes (value : Int16) : List UInt8 :=
  [value.toUInt16.toUInt8, (value.toUInt16 >>> 8).toUInt8]

/-- The bytes of the samples, as events and messages carry them. -/
def asWaveBytes (samples : AudioSamples) : List UInt8 := samples.toI16Vec.flatMap toLeBytes

theorem asWaveBytes_append (samples samples' : AudioSamples) :
    asWaveBytes (samples ++ samples') = asWaveBytes samples ++ asWaveBytes samples' := by
  rw [asWaveBytes, toI16Vec, List.map_append, List.flatMap_append]
  rfl

/-- No sample is written differently in another chunk. -/
theorem asWaveBytes_flatten (chunks : List AudioSamples) :
    asWaveBytes chunks.flatten = chunks.flatMap asWaveBytes := by
  induction chunks with
  | nil => rfl
  | cons chunk chunks ih =>
      rw [List.flatten_cons, asWaveBytes_append, ih, List.flatMap_cons]

end AudioSamples

end Dengjen
