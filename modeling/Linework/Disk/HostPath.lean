import Linework.Failure
import Linework.Text.Encoding
import Linework.Text.HostName

/-!
# Host paths

Paths as the host takes them: only `/` separates, and two slashes in front are not the same as
one. Most operations name a path in its collapsed form, without empty pieces and `.` pieces.
-/

namespace Linework

/-- A collapsed path: the slashes in front, and the pieces that name something. -/
structure HostPath where
  root : Text
  parts : List Text
  deriving DecidableEq, Repr

namespace HostPath

/-- The first surrogate that stands for no byte. The refusal names the rest of its run as well. -/
def surrogateFault? (pos : Nat) : Text → Option CodecFault
  | [] => none
  | c :: rest =>
    if c.isSurrogate && !c.isEscaped then
      some (Encoding.refuseSurrogate .utf8 c pos (pos + 1 + (rest.takeWhile CodePoint.isSurrogate).length))
    else surrogateFault? (pos + 1) rest

/-- Why the host does not take a text as a path, if it does not. -/
def fault? (path : Text) : Option NameFault :=
  match surrogateFault? 0 path with
  | some fault => some (.surrogates fault)
  | none => if ('\x00' : CodePoint) ∈ path then some .nulByte else none

/-- The host takes a text as a path. -/
def Takes (path : Text) : Prop := fault? path = none

instance (path : Text) : Decidable (Takes path) := inferInstanceAs (Decidable (fault? path = none))

def isSlash (c : CodePoint) : Bool := c == '/'

/-- The piece that names the directory above. -/
def up : Text := ['.', '.']

/-- The slashes that count in front of a path: two stay two, more are one. -/
def slashes (path : Text) : Text :=
  match (path.takeWhile isSlash).length with
  | 0 => []
  | 2 => ['/', '/']
  | _ => ['/']

/-- The pieces of a path between slashes. -/
def pieces (path : Text) : List Text := Text.pieces isSlash path

/-- The names that are looked up along a path: a directory knows its entries by their bytes. -/
def names (path : Text) : List Text := (pieces path).map Text.listed

def ofText (path : Text) : HostPath :=
  ⟨slashes path, (pieces path).filter fun piece => piece ≠ [] && piece ≠ (['.'] : Text)⟩

def text (path : HostPath) : Text :=
  if path.root = [] ∧ path.parts = [] then ['.'] else path.root ++ List.intercalate (['/'] : Text) path.parts

/-- The collapsed form of a path. -/
def collapse (path : Text) : Text := (ofText path).text

/-- Adds a path to a directory; an absolute path stands for itself. -/
def joined (directory path : Text) : Text :=
  if path.head? = some ('/' : CodePoint) then path
  else if directory = [] || directory.getLast? = some ('/' : CodePoint) then directory ++ path
  else directory ++ ('/' : CodePoint) :: path

/-- Adds a piece to resolved ones, the last of them first. -/
def push (rooted : Bool) (resolved : List Text) (piece : Text) : List Text :=
  if piece = [] || piece = (['.'] : Text) then resolved
  else if piece ≠ up then piece :: resolved
  else match resolved with
    | [] => if rooted then [] else [piece]
    | top :: rest => if top = up then piece :: resolved else rest

/-- A path without `.`, and without `..` where it can be resolved. -/
def normalize (path : Text) : Text :=
  let root := slashes path
  let parts := ((pieces path).foldl (push (root ≠ [])) []).reverse
  (HostPath.mk root parts).text

end HostPath

end Linework
