import Linework.SystemFault
import Linework.Text.Codec

/-!
# Failures

Why an operation on files or lines stops. Storages report system faults together with a path;
line edits report the target they did not find; the rest are misuses that no storage sees.
-/

namespace Linework

/-- Why the host does not take a text as a name. -/
inductive NameFault where
  /-- A path that holds the character that ends one. -/
  | nulByte
  /-- The name of an encoding that does. -/
  | nulCharacter
  /-- A text with surrogates. -/
  | surrogates (fault : CodecFault)
  deriving DecidableEq, Repr

namespace NameFault

def message : NameFault → Text
  | nulByte => Text.lit "embedded null byte"
  | nulCharacter => Text.lit "embedded null character"
  | surrogates fault => fault.message

end NameFault

inductive Failure where
  /-- A system fault met by a storage, and the path it is blamed on. -/
  | storage (cause : SystemFault) (path : Option Text)
  /-- A line or a block that is not in a file. -/
  | missingTarget (label path : Text)
  /-- A child that a node does not have. -/
  | unknownNode (segment : Text)
  /-- A directory that was read as a file. -/
  | notFile (segment : Text)
  /-- Lines cannot be split at nothing. -/
  | emptySeparator
  /-- A line that was to open a block and does not. -/
  | noOpener (line : Int) (delimiter content : Text)
  | outOfRange
  /-- A text that the host does not take as a path or as the name of an encoding. -/
  | unusable (fault : NameFault)
  | unknownEncoding (refusal : Text)
  /-- A text that was to be written. -/
  | unencodable (fault : CodecFault)
  /-- Bytes that were to be read. -/
  | undecodable (fault : CodecFault)
  /-- A system fault that no storage took charge of. -/
  | system (fault : SystemFault)
  /-- Raised on purpose by a program. -/
  | raised (text : Text)
  deriving DecidableEq, Repr

namespace Failure

open Text

/-- A system fault, blamed on the given path or else on its own file. -/
def ofFault (fault : SystemFault) (path : Option Text) : Failure := storage fault (path.or fault.file?)

/-- The failure of a number at a path. -/
def ofErrno (code : Errno) (path : Text) : Failure := storage (.about code path) (some path)

/-- The number behind a storage failure. -/
def errno? : Failure → Option Errno
  | storage cause _ => cause.errno?
  | _ => none

/-- A path is added to the message of a storage failure unless it occurs there. -/
def message : Failure → Text
  | storage cause path =>
    match path with
    | none => cause.message
    | some path => if has path cause.message then cause.message else cause.message ++ lit ": " ++ path
  | missingTarget label path => lit "cannot find `" ++ label ++ lit "' in `" ++ path ++ (['\''] : Text)
  | unknownNode segment => lit "unknown memory node `" ++ segment ++ (['\''] : Text)
  | notFile segment => lit "not a memory file `" ++ segment ++ (['\''] : Text)
  | emptySeparator => lit "empty separator"
  | noOpener line delimiter content =>
    lit "line " ++ ofInt line ++ lit " doesn't open a " ++ delimiter ++ lit ": " ++ quoted content
  | outOfRange => lit "list index out of range"
  | unusable fault => fault.message
  | unknownEncoding refusal => refusal
  | unencodable fault => fault.message
  | undecodable fault => fault.message
  | system fault => fault.message
  | raised text => text

end Failure

end Linework
