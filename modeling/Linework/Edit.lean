import Linework.Block
import Linework.Settings
import Linework.Note

/-!
# Edits

Structural edits of a list of lines. Each edit finds its place and answers with a splice: a run
of lines and what to put in its stead. Edits at the whole file always find their place; the
others fail when the line, the block or the class they ask for is not there.
-/

namespace Linework

/-- One of the two lines that a target may be looked for. -/
inductive Occurrence where
  | first
  | last
  deriving DecidableEq, Repr

inductive Side where
  | before
  | after
  deriving DecidableEq, Repr

inductive Edit where
  | prepend (contents : List Text)
  | append (contents : List Text)
  | replace (which : Occurrence) (target : Target) (contents : List Text)
  | insert (which : Occurrence) (side : Side) (target : Target) (contents : List Text)
  | remove (target : Target)
  | insertBlockTop (target : Target) (contents : List Text)
  | insertBlockBottom (target : Target) (contents : List Text)
  | removeBlock (target : Target)
  | insertClassBottom (target : Target) (contents : List Text)
  deriving DecidableEq, Repr

/-- Lines to put in the stead of a run of lines. -/
structure Splice where
  start : Nat
  removed : Nat
  added : List Text
  deriving DecidableEq, Repr

namespace Splice

def apply (splice : Splice) (lines : List Text) : List Text :=
  lines.take splice.start ++ splice.added ++ lines.drop (splice.start + splice.removed)

end Splice

namespace Block

/-- The line that a target is on. -/
def find? (which : Occurrence) (target : Target) (lines : List Text) : Option Nat :=
  match which with
  | .first => findFirst? target lines
  | .last => findLast? target lines

/-- The first and the last line of the block that a target opens, `none` when there is no such
block. -/
def span (target : Target) (lines : List Text) : Except Failure (Option (Nat × Nat)) := do
  match findOpening? .block target lines with
  | none => return none
  | some start =>
    match ← matchingEnd .block lines start with
    | none => return none
    | some stop => return some (start, stop.toNat)

/-- The first and the last line of the class or module that a target names. -/
def classSpan (target : Target) (lines : List Text) : Except Failure (Option (Nat × Nat)) := do
  match ← findHeader Delimiter.classHeader target lines with
  | none => return none
  | some start =>
    match ← matchingEnd .classBody lines start with
    | none => return none
    | some stop => return some (start, stop.toNat)

end Block

namespace Edit

/-- The target of an edit, if it looks for one. -/
def target? : Edit → Option Target
  | prepend _ | append _ => none
  | replace _ target _ | insert _ _ target _ | remove target | insertBlockTop target _
  | insertBlockBottom target _ | removeBlock target | insertClassBottom target _ => some target

/-- Whether a file that is missing is created first. -/
def creates : Edit → Bool
  | append _ => true
  | _ => false

/-- The failure of an edit that did not find its target. -/
def missing (target : Target) (path : Text) : Failure := .missingTarget target.label path

/-- Lines added at the end. An unterminated last line is terminated first; where there is nothing
to terminate, an empty line in front of the addition is dropped. -/
def appended (newline : Text) (lines addition : List Text) : Splice :=
  match lines.getLast? with
  | none => ⟨0, 0, addition⟩
  | some last =>
    if !Line.isTerminated last then ⟨lines.length - 1, 1, (last ++ newline) :: addition⟩
    else if addition.head? = some newline then ⟨lines.length, 0, addition.tail⟩
    else ⟨lines.length, 0, addition⟩

/-- Lines for the inside of a block, one level deeper than the line at `index`. -/
def inside (settings : Settings) (newline : Text) (lines : List Text) (index : Nat)
    (contents : List Text) : List Text :=
  Line.indent (Line.indentation (lines.getD index []) ++ settings.unit) (Line.expand newline contents)

/-- The splice of an edit; `path` is what a failure is blamed on. -/
def splice (settings : Settings) (path : Text) (edit : Edit) (lines : List Text) :
    Except Failure Splice := do
  let newline := Line.detect lines settings.newline.text
  match edit with
  | prepend contents => return ⟨0, 0, Line.expand newline contents⟩
  | append contents => return appended newline lines (Line.expand newline contents)
  | replace which target contents =>
    match Block.find? which target lines with
    | none => throw (missing target path)
    | some index => return ⟨index, 1, Line.expand newline contents⟩
  | insert which side target contents =>
    match Block.find? which target lines with
    | none => throw (missing target path)
    | some index =>
      match side with
      | .before => return ⟨index, 0, Line.expand newline contents⟩
      | .after =>
        let line := Line.terminate newline (lines.getD index [])
        return ⟨index, 1, line :: Line.expand newline contents⟩
  | remove target =>
    match Block.find? .first target lines with
    | none => throw (missing target path)
    | some index => return ⟨index, 1, []⟩
  | insertBlockTop target contents =>
    match ← Block.span target lines with
    | none => throw (missing target path)
    | some (start, stop) =>
      if stop = start then throw (missing target path)
      return ⟨start + 1, 0, inside settings newline lines start contents⟩
  | insertBlockBottom target contents =>
    match ← Block.span target lines with
    | none => throw (missing target path)
    | some (start, stop) =>
      if stop = start then throw (missing target path)
      return ⟨stop, 0, inside settings newline lines stop contents⟩
  | removeBlock target =>
    match ← Block.span target lines with
    | none => throw (missing target path)
    | some (start, stop) => return ⟨start, stop + 1 - start, []⟩
  | insertClassBottom target contents =>
    match ← Block.classSpan target lines with
    | none => throw (missing target path)
    | some (start, stop) =>
      if stop = start then throw (missing target path)
      return ⟨stop, 0, inside settings newline lines stop contents⟩

/-- What an edit notes once it has found its place. -/
def note? (path : Text) (splice : Splice) : Edit → Option Note
  | insertBlockTop target _ => some (.blockTop target.quoted path)
  | insertBlockBottom target _ => some (.blockBottom target.quoted path)
  | insertClassBottom target _ => some (.classBottom target.quoted path)
  | removeBlock target =>
    some (.removedBlock target.quoted splice.start (splice.start + splice.removed - 1) path)
  | _ => none

end Edit

end Linework
