import Delimited.Buffer.Basic
import Delimited.Dialect

/-!
# Errors of reading

Reading fails because the source cannot be opened or read, for want of memory, or because the
dialect is unusable. The failures of the source keep their own type.
-/

namespace Delimited

/-- Why reading fails, over sources with failures of type `ε`. Specification 10.8, `CsvError`. -/
inductive ReadError (ε : Type) where
  | opening (cause : ε)
  | reading (cause : ε)
  | buffer (error : GrowthError)
  | dialect (error : DialectError)
  deriving DecidableEq, Repr

/-- The wording of an error, given that of the failures of the source. -/
def ReadError.message {ε : Type} (wording : ε → String) : ReadError ε → String
  | .opening cause => "cannot open source: " ++ wording cause
  | .reading cause => "cannot read source: " ++ wording cause
  | .buffer error => error.message
  | .dialect error => error.message

end Delimited
