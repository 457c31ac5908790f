import Linework.Command.Basic
import Linework.Settings.Value

/-!
# Toolkits

What the command line leaves to libraries: to read its arguments, to load the document of a settings
file, to make settings of the table in it, and to show a message in markup. The program is written
over any toolkit, and takes nothing for granted of one but that it answers or raises a failure.
-/

namespace Linework

/-- A failure that a library raises. -/
structure LibraryFault where
  /-- The name of its class. -/
  name : Text
  /-- Whether it is one of a bad value. -/
  isOfValue : Bool
  message : Text
  deriving DecidableEq, Repr

/-- Why a document is not loaded. -/
inductive LoadFault where
  /-- The text is no document. -/
  | malformed (detail : Text)
  /-- Something else went wrong with what is in it. -/
  | raised (fault : LibraryFault)
  deriving DecidableEq, Repr

/-- A field that settings are refused for. -/
structure FieldFault where
  field : Text
  kind : Text
  message : Text
  deriving DecidableEq, Repr

/-- Why a table gives no settings: every field at fault, and all of it in words. -/
structure ValidationFault where
  fields : List FieldFault
  message : Text
  deriving DecidableEq, Repr

structure Toolkit where
  /-- What the arguments ask for. -/
  parse : List Text → Invocation
  /-- The value of a document. -/
  load : Text → Except LoadFault Value
  /-- The settings that a table describes. -/
  validate : List (Value × Value) → Except ValidationFault Settings
  /-- What is shown of a message in markup. -/
  render : Text → Except LibraryFault Text

end Linework
