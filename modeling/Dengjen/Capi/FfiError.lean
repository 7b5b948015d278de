import Dengjen.Core.Error

/-!
# Errors of the C API

An error crosses the C boundary as a code and a message. The message of a
`DengjenError` is its own followed by the chain of its causes.
-/

namespace Dengjen.Capi

namespace ErrorCodes

/-- The code of a mode that is none of the modes. -/
def invalidSynthesisMode : Int := 16
/-- The code of a resource that could not be loaded. -/
def failedToLoadResource : Int := 17
/-- The code of a text that could not be phonemized. -/
def phonemizationError : Int := 18
/-- The code of an operation that failed. -/
def operationError : Int := 19
/-- The code of a string that is not UTF-8. -/
def invalidUtf8Sequence : Int := 20
/-- The code of an argument that is null. -/
def nullPointer : Int := 22
/-- The code of a model that could not be run. -/
def inferenceError : Int := 23
/-- The code of a configuration that is not valid. -/
def invalidConfiguration : Int := 24
/-- The code of an operation that a voice does not support. -/
def unsupportedOperation : Int := 25

end ErrorCodes

/-- An error as the C API hands it out. -/
structure DengjenFFIError where
  code : Int
  message : String
  deriving DecidableEq, Repr

/-- The result of a function of the C API. -/
abbrev DengjenFFIResult (α : Type*) := Except DengjenFFIError α

namespace DengjenFFIError

/-- The error of a string that is not UTF-8. -/
def invalidUtf8 : DengjenFFIError :=
  ⟨ErrorCodes.invalidUtf8Sequence, "input string is not valid UTF-8"⟩

/-- The error of an unknown synthesis mode. -/
def invalidSynthesisMode : DengjenFFIError :=
  ⟨ErrorCodes.invalidSynthesisMode, "synthesis mode is not a recognized value"⟩

/-- The error of an argument that must not be null. -/
def nullPointer (paramName : String) : DengjenFFIError :=
  ⟨ErrorCodes.nullPointer, s!"parameter `{paramName}` must not be null"⟩

/-- The code of a `DengjenError` is that of its kind, whatever causes it has. -/
def codeOf (error : DengjenError) : Int :=
  match error.kind with
  | .failedToLoadResource _ => ErrorCodes.failedToLoadResource
  | .phonemizationError _ => ErrorCodes.phonemizationError
  | .inferenceError _ => ErrorCodes.inferenceError
  | .invalidConfiguration _ => ErrorCodes.invalidConfiguration
  | .unsupportedOperation _ => ErrorCodes.unsupportedOperation
  | _ => ErrorCodes.operationError

/-- `DengjenFFIError::from`. -/
def ofDengjenError (error : DengjenError) : DengjenFFIError :=
  ⟨codeOf error, error.message ++ error.causeChain⟩

end DengjenFFIError

end Dengjen.Capi
