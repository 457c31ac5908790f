import Linework.Delimiter
import Linework.Failure

/-!
# Blocks

Finding lines by a target and the ends of a block by depth. The depth of a block is the sum of
what its lines add to it; the block ends at the first line after which the depth is no longer
positive, which may be the line that opened it.
-/

namespace Linework

/-- What locates a line: a text in it, or a pattern that matches somewhere in it. -/
inductive Target where
  | text (t : Text)
  | pattern (p : Pattern)
  deriving DecidableEq, Repr

namespace Target

/-- The target as it was given. -/
def label : Target → Text
  | text t => t
  | pattern p => p.source

/-- The target as a message shows it. -/
def quoted : Target → Text
  | text t => Text.quoted t
  | pattern p => p.quoted

/-- Whether a line contains the target. -/
def isIn (target : Target) (line : Text) : Bool :=
  match target with
  | text t => Text.has t line
  | pattern p => p.matchesIn line

end Target

namespace Block

/-- The first line that contains a target. -/
def findFirst? (target : Target) (lines : List Text) : Option Nat := lines.findIdx? target.isIn

/-- The last line that contains a target. -/
def findLast? (target : Target) (lines : List Text) : Option Nat :=
  (lines.reverse.findIdx? target.isIn).map fun index => lines.length - 1 - index

/-- The first line that contains a target and opens a block. -/
def findOpening? (delimiter : Delimiter) (target : Target) (lines : List Text) : Option Nat :=
  lines.findIdx? fun line => target.isIn line && delimiter.opens line != 0

/-- The first line after which the depth, `depth` to begin with, is not positive. -/
def closing? (delimiter : Delimiter) (depth : Int) : List Text → Option Nat
  | [] => none
  | line :: rest =>
    if depth + delimiter.net line ≤ 0 then some 0
    else (closing? delimiter (depth + delimiter.net line) rest).map (· + 1)

/-- The lines from an index on. An index below zero counts from the end, and all lines follow
once more after the last. -/
def linesFrom? (lines : List Text) (index : Int) : Option (List Text) :=
  if 0 ≤ index then
    if index.toNat < lines.length then some (lines.drop index.toNat) else none
  else if index.natAbs ≤ lines.length then
    some (lines.drop (lines.length - index.natAbs) ++ lines)
  else none

/-- The line that closes the block opened at an index, if it is ever closed. -/
def matchingEnd (delimiter : Delimiter) (lines : List Text) (index : Int) :
    Except Failure (Option Int) :=
  match linesFrom? lines index with
  | none => throw .outOfRange
  | some [] => throw .outOfRange
  | some (line :: rest) =>
    if delimiter.opens line = 0 then throw (.noOpener index delimiter.name line)
    else return (closing? delimiter 0 (line :: rest)).map fun offset => index + offset

/-- The nearest line at or before an index that matches a header. -/
def enclosing (header : Pattern) (lines : List Text) (index : Int) : Except Failure (Option Nat) :=
  if index < 0 then return none
  else if lines.length ≤ index.toNat then throw .outOfRange
  else
    let earlier := (lines.take (index.toNat + 1)).reverse
    return (earlier.findIdx? header.matchesIn).map (index.toNat - ·)

/-- The header a target refers to: the first header line with the target in it, or else the one
nearest to the first line with the target. -/
def findHeader (header : Pattern) (target : Target) (lines : List Text) :
    Except Failure (Option Nat) :=
  match lines.findIdx? fun line => header.matchesIn line && target.isIn line with
  | some index => return some index
  | none =>
    match findFirst? target lines with
    | none => return none
    | some inner => enclosing header lines inner

end Block

end Linework
