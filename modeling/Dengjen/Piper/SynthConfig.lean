import Dengjen.Core.Model

/-!
# Piper's synthesis parameters

The generic configuration holds Piper's three scales under their keys. Going
back from it, a missing scale gets its factory value and any other key is lost.
-/

namespace Dengjen.Piper

namespace SynthConfig

/-- The name of the parameter that scales the noise. -/
def noiseScale : String := "noise_scale"
/-- The name of the parameter that scales the length. -/
def lengthScale : String := "length_scale"
/-- The name of the parameter that scales the noise of the durations. -/
def noiseW : String := "noise_w"

/-- `0.667` -/
def defaultNoiseScale : F32 := ⟨0x3F2AC083⟩

/-- `1.0` -/
def defaultLengthScale : F32 := ⟨0x3F800000⟩

/-- `0.8` -/
def defaultNoiseW : F32 := ⟨0x3F4CCCCD⟩

end SynthConfig

/-- The settings a voice is spoken with. -/
structure PiperSynthesisConfig where
  speaker : Option Int
  lengthScale : F32
  noiseScale : F32
  noiseW : F32
  deriving DecidableEq, Repr

namespace PiperSynthesisConfig

/-- The settings as the crates share them, with a value for each parameter. -/
def toSynthesisConfig (config : PiperSynthesisConfig) : SynthesisConfig where
  speaker := config.speaker
  parameters := HashMap.fromIter
    [(SynthConfig.lengthScale, config.lengthScale),
     (SynthConfig.noiseScale, config.noiseScale),
     (SynthConfig.noiseW, config.noiseW)]

/-- A configuration as settings; a parameter that is not set has its default. -/
def ofSynthesisConfig (config : SynthesisConfig) : PiperSynthesisConfig where
  speaker := config.speaker
  lengthScale :=
    (config.parameters.lookup SynthConfig.lengthScale).getD SynthConfig.defaultLengthScale
  noiseScale :=
    (config.parameters.lookup SynthConfig.noiseScale).getD SynthConfig.defaultNoiseScale
  noiseW := (config.parameters.lookup SynthConfig.noiseW).getD SynthConfig.defaultNoiseW

/-- The three scales are all that the generic configuration of a voice holds. -/
theorem lookup_toSynthesisConfig (config : PiperSynthesisConfig) (key : String) :
    config.toSynthesisConfig.parameters.lookup key =
      if key = SynthConfig.lengthScale then some config.lengthScale
      else if key = SynthConfig.noiseScale then some config.noiseScale
      else if key = SynthConfig.noiseW then some config.noiseW
      else none := by
  rw [toSynthesisConfig, HashMap.lookup_fromIter]
  by_cases hl : key = SynthConfig.lengthScale
  · subst hl
    rfl
  by_cases hn : key = SynthConfig.noiseScale
  · subst hn
    rfl
  by_cases hw : key = SynthConfig.noiseW
  · subst hw
    rfl
  simp [hl, hn, hw, Ne.symm hl, Ne.symm hn, Ne.symm hw]

/-- Piper's parameters survive the trip through the generic configuration. -/
theorem ofSynthesisConfig_toSynthesisConfig (config : PiperSynthesisConfig) :
    ofSynthesisConfig config.toSynthesisConfig = config := by
  cases config
  simp only [ofSynthesisConfig, lookup_toSynthesisConfig]
  rfl

end PiperSynthesisConfig

end Dengjen.Piper
