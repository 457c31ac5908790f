import Linework.Edit
import Linework.Path

/-!
# Storages

The operations that files are worked on with, whatever holds them. An operation runs on a
world: a storage and the notes taken so far. A failing operation leaves the world as far as it
had come. Line edits are written once, over these operations.
-/

namespace Linework

/-- A storage at work. -/
structure World (σ : Type) where
  store : σ
  notes : List Note := []

/-- An operation on a storage. -/
abbrev Op (σ α : Type) := EStateM Failure (World σ) α

namespace Op

variable {σ : Type}

def store : Op σ σ := do return (← get).store

def setStore (s : σ) : Op σ Unit := modify fun w => { w with store := s }

def note (n : Note) : Op σ Unit := modify fun w => { w with notes := w.notes ++ [n] }

end Op

class Storage (σ : Type) where
  /-- Creates an empty file, or leaves the file as it is. -/
  touch : Text → Op σ Unit
  read : (encoding path : Text) → Op σ Text
  write : (encoding path content : Text) → Op σ Unit
  copy : (source destination : Text) → Op σ Unit
  makeDir : Text → Op σ Unit
  remove : Text → Op σ Unit
  removeTree : Text → Op σ Unit
  /-- Makes a directory the working directory, to be left again. -/
  enter : Text → Op σ Unit
  leave : Op σ Unit
  workingDir : Op σ Text
  /-- An absolute path, from a base or else from the working directory. -/
  expand : (path : Text) → (base : Option Text) → Op σ Text
  setMode : Text → Int → Op σ Unit
  mode : Text → Op σ Int
  entries : Text → Op σ (List Text)
  hasEntry : Text → Op σ Bool
  isDir : Text → Op σ Bool
  isExecutable : Text → Op σ Bool

namespace Storage

variable {σ : Type} [Storage σ]

/-- Creates the directories that a file at a path needs. -/
def makeParents (path : Text) : Op σ Unit := makeDir (Path.parent path)

/-- The lines of a file, split at the terminator of the settings. -/
def readLines (settings : Settings) (path : Text) : Op σ (List Text) := do
  return Line.split settings.newline.text (← read settings.encoding path)

/-- Edits a file: its lines are read, spliced and written back. Files are read and written by the
settings `files`, and the edit itself goes by `lines`. -/
def edit (files lines : Settings) (path : Text) (e : Edit) : Op σ Unit := do
  if e.creates then touch path
  let old ← readLines files path
  let splice ← MonadExcept.ofExcept (e.splice lines path old)
  match e.note? path splice with
  | some n => Op.note n
  | none => pure ()
  write files.encoding path (splice.apply old).flatten

end Storage

end Linework
