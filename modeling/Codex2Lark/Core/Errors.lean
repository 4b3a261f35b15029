import Mathlib.Data.List.Basic

/-!
The exception classes that the modelled code raises or catches, with the part
of Python's class tree that its `except` clauses look at. A coroutine that is
cancelled unwinds with `asyncio.CancelledError`, which is no `Exception`.
-/

namespace Codex2Lark

inductive PyError where
  | lookupError (text : String)
  | valueError (text : String)
  | runtimeError (text : String)
  | permissionError (text : String)
  | typeError (text : String)
  | timeoutError (text : String)
  | integrityError (text : String)
  /-- `WallTimeBudgetExceeded(ValueError)`. -/
  | wallTimeBudgetExceeded (text : String)
  /-- `TaskDeferred(RuntimeError)`. -/
  | taskDeferred (reason : String) (delayMs : Nat)
  /-- `PermanentTaskError(RuntimeError)`. -/
  | permanentTaskError (text : String)
  /-- `asyncio.CancelledError`. -/
  | cancelledError
  /-- `CancelledByPolicyError(asyncio.CancelledError)`. -/
  | cancelledByPolicy (text : String)
  /-- Any other subclass of `Exception` that no clause of the model names. -/
  | other (className text : String)
deriving DecidableEq, Repr

namespace PyError

/-- `type(exc).__name__`. -/
def className : PyError → String
  | .lookupError _ => "LookupError"
  | .valueError _ => "ValueError"
  | .runtimeError _ => "RuntimeError"
  | .permissionError _ => "PermissionError"
  | .typeError _ => "TypeError"
  | .timeoutError _ => "TimeoutError"
  | .integrityError _ => "IntegrityError"
  | .wallTimeBudgetExceeded _ => "WallTimeBudgetExceeded"
  | .taskDeferred _ _ => "TaskDeferred"
  | .permanentTaskError _ => "PermanentTaskError"
  | .cancelledError => "CancelledError"
  | .cancelledByPolicy _ => "CancelledByPolicyError"
  | .other name _ => name

/-- `str(exc)`. -/
def text : PyError → String
  | .lookupError t | .valueError t | .runtimeError t | .permissionError t
  | .typeError t | .timeoutError t | .integrityError t
  | .wallTimeBudgetExceeded t | .permanentTaskError t | .cancelledByPolicy t
  | .other _ t => t
  | .taskDeferred reason _ => reason
  | .cancelledError => ""

/-- `isinstance(exc, Exception)`. -/
def isException : PyError → Bool
  | .cancelledError | .cancelledByPolicy _ => false
  | _ => true

/-- `isinstance(exc, (LookupError, ValueError, RuntimeError))`. -/
def isLookupValueOrRuntime : PyError → Bool
  | .lookupError _ | .valueError _ | .runtimeError _
  | .wallTimeBudgetExceeded _ | .taskDeferred _ _ | .permanentTaskError _ => true
  | _ => false

/-- A computation that returns went through both of its halves. -/
theorem bind_eq_ok {α β : Type} {first : Except PyError α} {next : α → Except PyError β} {b : β} :
    (first >>= next) = .ok b ↔ ∃ a, first = .ok a ∧ next a = .ok b := by
  cases first with
  | ok a => exact ⟨fun h => ⟨a, rfl, h⟩, fun ⟨_, rfl, h⟩ => h⟩
  | error e => exact ⟨nofun, fun ⟨_, h, _⟩ => by cases h⟩

end PyError

end Codex2Lark
