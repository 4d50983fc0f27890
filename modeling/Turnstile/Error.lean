/-!
This module contains the errors that are not tied to one part of the library.
-/

namespace Turnstile

inductive CommonError where
  | invalidEncoding (reason : String)
  | invalidId (reason : String)
  | notFound (kind id : String)
  | timeout (operation : String)
  | internal (message : String)
  deriving DecidableEq, Repr

namespace CommonError

def message : CommonError → String
  | invalidEncoding reason => s!"Invalid encoding: {reason}"
  | invalidId reason => s!"Invalid ID: {reason}"
  | notFound kind id => s!"{kind} not found: {id}"
  | timeout operation => s!"Timeout: {operation}"
  | internal message => s!"Internal error: {message}"

instance : ToString CommonError := ⟨message⟩

end CommonError

end Turnstile
