import Linework.Storage

/-!
# Actions

Everything that can be asked of files, as values: the operations of a storage, and the edits of
lines. An action answers with a value of its own kind.
-/

namespace Linework

inductive Action where
  | touch (path : Text)
  | read (path : Text)
  | readLines (path : Text)
  | write (path content : Text)
  | copy (source destination : Text)
  | makeDir (path : Text)
  | makeParents (path : Text)
  | remove (path : Text)
  | removeTree (path : Text)
  | workingDir
  | join (tokens : List PathToken)
  | expand (path : Text) (base : Option Text)
  | setMode (path : Text) (mode : Int)
  | mode (path : Text)
  | entries (path : Text)
  | hasEntry (path : Text)
  | isDir (path : Text)
  | isExecutable (path : Text)
  | edit (path : Text) (e : Edit)

inductive Answer where
  | nothing
  | text (t : Text)
  | texts (ts : List Text)
  | number (n : Int)
  | flag (b : Bool)
  deriving DecidableEq, Repr

/-- The settings that actions go by. -/
structure Rules where
  /-- For files that are read and written as they are. -/
  files : Settings := {}
  /-- For files that an edit reads and writes. -/
  edited : Settings := {}
  /-- For the lines of an edit. -/
  lines : Settings := {}

namespace Rules

/-- One and the same settings for everything. -/
def uniform (settings : Settings) : Rules := ⟨settings, settings, settings⟩

end Rules

namespace Action

variable {σ : Type} [Storage σ]

/-- An operation without a value of its own. -/
def silently (op : Op σ Unit) : Op σ Answer := do
  op
  return .nothing

def perform (rules : Rules) : Action → Op σ Answer
  | touch path => silently (Storage.touch path)
  | read path => return .text (← Storage.read rules.files.encoding path)
  | readLines path => return .texts (← Storage.readLines rules.files path)
  | write path content => silently (Storage.write rules.files.encoding path content)
  | copy source destination => silently (Storage.copy source destination)
  | makeDir path => silently (Storage.makeDir path)
  | makeParents path => silently (Storage.makeParents path)
  | remove path => silently (Storage.remove path)
  | removeTree path => silently (Storage.removeTree path)
  | workingDir => return .text (← Storage.workingDir)
  | join tokens => return .text (Path.join tokens)
  | expand path base => return .text (← Storage.expand path base)
  | setMode path bits => silently (Storage.setMode path bits)
  | mode path => return .number (← Storage.mode path)
  | entries path => return .texts (← Storage.entries path)
  | hasEntry path => return .flag (← Storage.hasEntry path)
  | isDir path => return .flag (← Storage.isDir path)
  | isExecutable path => return .flag (← Storage.isExecutable path)
  | edit path e => silently (Storage.edit rules.edited rules.lines path e)

end Action

end Linework
