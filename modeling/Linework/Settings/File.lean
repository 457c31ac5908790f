import Linework.Toolkit
import Linework.Disk.Request

/-!
# Settings files

Settings from a file on a disk. The file is a document that holds a table, or nothing at all. It is
loaded, and its table validated, by a toolkit.
-/

namespace Linework

/-- Why a settings file gives no settings. -/
inductive SettingsFailure where
  | missing (path : Text)
  | unreadable (fault : SystemFault)
  | codec (fault : CodecFault)
  /-- The text is no document. -/
  | malformed (path detail : Text)
  /-- The document cannot be loaded for what is in it. -/
  | raised (fault : LibraryFault)
  | notTable (path : Text)
  | invalid (fault : ValidationFault)
  deriving DecidableEq, Repr

namespace SettingsFailure

open Text

def message : SettingsFailure → Text
  | missing path => lit "Settings file not found: " ++ path
  | unreadable fault => fault.message
  | codec fault => fault.message
  | malformed path detail => lit "Invalid settings file " ++ path ++ lit ": " ++ detail
  | raised fault => fault.message
  | notTable path => lit "Invalid settings file " ++ path ++ lit ": expected a mapping"
  | invalid fault => fault.message

/-- Whether the file can be blamed; the rest are faults of the host, or of a loader that raises
something else than a bad value. -/
def isReported : SettingsFailure → Bool
  | unreadable _ => false
  | raised fault => fault.isOfValue
  | _ => true

end SettingsFailure

namespace Settings

/-- A text with line feeds alone. -/
def plainBreaks : Text → Text
  | [] => []
  | '\r' :: '\n' :: rest => '\n' :: plainBreaks rest
  | '\r' :: rest => '\n' :: plainBreaks rest
  | c :: rest => c :: plainBreaks rest

/-- The settings that a text describes; `path` is what a failure is blamed on. -/
def ofText (kit : Toolkit) (path content : Text) : Except SettingsFailure Settings :=
  match kit.load (plainBreaks content) with
  | .error (.malformed detail) => .error (.malformed path detail)
  | .error (.raised fault) => .error (.raised fault)
  | .ok .null => (kit.validate []).mapError .invalid
  | .ok (.table pairs) => (kit.validate pairs).mapError .invalid
  | .ok _ => .error (.notTable path)

/-- The settings of a file. -/
def ofFile (kit : Toolkit) (d : Disk) (path : Text) : Except SettingsFailure Settings := do
  let host := HostPath.collapse path
  if ¬ HostPath.Takes host then throw (.missing host)
  match d.lookUp host with
  | .error code => throw (.unreadable (.about code host))
  | .ok none => throw (.missing host)
  | .ok (some _) => pure ()
  match d.readBytes host with
  | .error code => throw (.unreadable (.about code host))
  | .ok bytes =>
    match Encoding.utf8.decode bytes with
    | .error fault => throw (.codec fault)
    | .ok content => ofText kit host content

end Settings

end Linework
