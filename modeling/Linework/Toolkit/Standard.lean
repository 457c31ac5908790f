import Linework.Toolkit
import Linework.Toolkit.Arguments
import Linework.Toolkit.Check
import Linework.Toolkit.Markup
import Linework.Toolkit.Yaml.Document

/-!
# The toolkit at hand

The toolkit that the program is run with: YAML documents, lax checks of fields, and messages in
bbcode. It keeps to what the libraries do in ordinary use and does not have all their wording.
-/

namespace Linework

/-- A failure of a document as a failure of its loader. -/
def Yaml.Fault.loading (fault : Yaml.Fault) : LoadFault :=
  match fault with
  | .malformed => .malformed fault.message
  | _ => .raised ⟨fault.name, fault.isBadValue, fault.message⟩

namespace SettingFault

/-- The fault of a field as it is reported. -/
def ofField (field : Text) (fault : SettingFault) : FieldFault := ⟨field, fault.kind, fault.message⟩

/-- What is said of fields: their number, then each with its fault. -/
def tally (fields : List FieldFault) : Text :=
  Text.ofNat 10 fields.length ++
    Text.lit (if fields.length = 1 then " validation error" else " validation errors") ++
    Text.lit " for FilesSettings" ++
    fields.flatMap fun fault => ('\n' : CodePoint) :: fault.field ++ Text.lit "\n  " ++ fault.message

/-- The faults of fields in one. -/
def validation (faults : List (Text × SettingFault)) : ValidationFault :=
  let fields := faults.map fun (field, fault) => ofField field fault
  ⟨fields, tally fields⟩

end SettingFault

/-- A message as it is shown; a tag that cannot be closed is a failure, and so is what is not printed in UTF-8. -/
def Markup.rendered (message : Text) : Except LibraryFault Text :=
  match shown? message, Encoding.utf8.encode message with
  | some shown, .ok _ => .ok shown
  | some _, .error fault => .error ⟨Text.lit "UnicodeEncodeError", true, fault.message⟩
  | none, _ => .error ⟨Text.lit "MarkupError", false, Text.lit "a closing tag doesn't match any open tag"⟩

namespace Toolkit

def standard : Toolkit where
  parse := Arguments.parse
  load content := (Yaml.valueOf content).mapError Yaml.Fault.loading
  validate pairs := (Settings.ofTable pairs).mapError SettingFault.validation
  render := Markup.rendered

end Toolkit

end Linework
