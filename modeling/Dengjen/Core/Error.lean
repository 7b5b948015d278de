import Mathlib.Logic.Basic

/-!
# Errors and panics

`DengjenError` carries a category, a message and the causes attached to it. A
cause is any `std::error::Error`, seen through its `Display` text and its
`source`. A call that may unwind has an `Outcome`.
-/

namespace Dengjen

/-- A `dyn Error` is its text with the error behind it; `stacked` is `StackedCause`. -/
inductive StdError
  | root (display : String)
  | chained (display : String) (source : StdError)
  | stacked (cause earlier : StdError)
  deriving DecidableEq, Repr

namespace StdError

/-- The text of an error, which shows no cause behind it. -/
def display : StdError → String
  | root text => text
  | chained text _ => text
  | stacked cause _ => cause.display

/-- The error behind an error. -/
def source : StdError → Option StdError
  | root _ => none
  | chained _ behind => some behind
  | stacked _ earlier => some earlier

/-- The text `": newest: older"` of an error and of everything behind it. -/
def chainText : StdError → String
  | root text => ": " ++ text
  | chained text behind => ": " ++ text ++ behind.chainText
  | stacked cause earlier => ": " ++ cause.display ++ earlier.chainText

/-- `chainText` prints one error and goes on with its source. -/
theorem chainText_eq (error : StdError) :
    error.chainText = ": " ++ error.display ++ (error.source.map chainText).getD "" := by
  cases error <;> simp [chainText, display, source]

end StdError

/-- The kinds of failure that callers tell apart. -/
inductive ErrorCategory
  | failedToLoadResource
  | phonemization
  | inference
  | invalidConfiguration
  | unsupportedOperation
  | operation
  deriving DecidableEq, Repr

/-- The errors that the crates share. -/
inductive DengjenError
  | failedToLoadResource (msg : String)
  | phonemizationError (msg : String)
  | inferenceError (msg : String)
  | invalidConfiguration (msg : String)
  | unsupportedOperation (msg : String)
  | operationError (msg : String)
  | caused (error : DengjenError) (cause : StdError)
  deriving DecidableEq, Repr

namespace DengjenError

/-- The category-bearing error, with any attached cause stripped. -/
def kind : DengjenError → DengjenError
  | caused error _ => error.kind
  | other => other

/-- The bare message of the category-bearing error. -/
def message (error : DengjenError) : String :=
  match error.kind with
  | failedToLoadResource msg | phonemizationError msg | inferenceError msg
  | invalidConfiguration msg | unsupportedOperation msg | operationError msg => msg
  | caused _ _ => ""

/-- The cause that was attached. -/
def source : DengjenError → Option StdError
  | caused _ cause => some cause
  | _ => none

/-- The attached causes, newest first, or the empty text when there are none. -/
def causeChain (error : DengjenError) : String :=
  (error.source.map StdError.chainText).getD ""

/-- An attached cause does not show. -/
def display : DengjenError → String
  | failedToLoadResource msg => s!"Failed to load resource: {msg}"
  | phonemizationError msg | inferenceError msg | invalidConfiguration msg
  | unsupportedOperation msg | operationError msg => msg
  | caused error _ => error.display

/-- What kind of failure an error reports, independent of any attached cause. -/
def category (error : DengjenError) : ErrorCategory :=
  match error.kind with
  | failedToLoadResource _ => .failedToLoadResource
  | phonemizationError _ => .phonemization
  | inferenceError _ => .inference
  | invalidConfiguration _ => .invalidConfiguration
  | unsupportedOperation _ => .unsupportedOperation
  | operationError _ | caused _ _ => .operation

/-- Attaches a cause, in front of one that was attached earlier. -/
def withSource (error : DengjenError) (cause : StdError) : DengjenError :=
  match error with
  | caused error earlier => caused error (.stacked cause earlier)
  | other => caused other cause

end DengjenError

/-- The result of a function of the crates. -/
abbrev DengjenResult (α : Type*) := Except DengjenError α

/-- Where `?` let a computation go on, its operand was a value. -/
theorem exists_of_bind_eq_ok.{u} {ε : Type*} {α β : Type u} {result : Except ε α}
    {next : α → Except ε β} {b : β} (h : result >>= next = .ok b) :
    ∃ a, result = .ok a ∧ next a = .ok b := by
  cases result with
  | error error => cases h
  | ok a => exact ⟨a, rfl, h⟩

/-- How a call ends: it returns, or it unwinds with a payload that `panic_message` renders. -/
inductive Outcome (α : Type*)
  | returned (value : α)
  | panicked (message : String)
  deriving DecidableEq, Repr

/-- What `catch_unwind` around a worker makes of a panic. -/
def workerPanic (message : String) : DengjenError :=
  .inferenceError s!"synthesis worker panicked: {message}"

end Dengjen
