import Linework.Line

/-!
# Nodes

Entries of a tree that is kept in memory. A node is a directory until it gets content. Its
children are kept in the order of their creation, one for each segment.
-/

namespace Linework

structure Node where
  segment : Text
  mode : Int
  content : Option Text := none
  children : List Node := []

namespace Node

/-- Permissions of a new directory. -/
def directoryMode : Int := 0o755

/-- Permissions of a file that has just been written. -/
def fileMode : Int := 0o644

/-- The name of a root. -/
def rootSegment : Text := ['/']

def fresh (segment : Text) : Node := { segment, mode := directoryMode }

def root : Node := fresh rootSegment

def isFile (node : Node) : Bool := node.content.isSome

def isDirectory (node : Node) : Bool := !node.isFile

def hasChildren (node : Node) : Bool := !node.children.isEmpty

/-- Whether the owner may execute it. -/
def isExecutable (node : Node) : Bool := node.mode / 64 % 2 == 1

/-- The child of a segment. -/
def get? (node : Node) (segment : Text) : Option Node :=
  node.children.find? fun child => child.segment = segment

/-- Puts a child in the place of the one with its segment, or at the end. -/
def put (node child : Node) : Node :=
  { node with
    children :=
      if (node.get? child.segment).isSome then
        node.children.map fun old => if old.segment = child.segment then child else old
      else node.children ++ [child] }

/-- The child of a segment, new where there is none. -/
def getOrFresh (node : Node) (segment : Text) : Node := (node.get? segment).getD (fresh segment)

/-- Takes a child out. -/
def erase (node : Node) (segment : Text) : Node :=
  { node with children := node.children.filter fun child => child.segment ≠ segment }

/-- The segments of the children, in order. -/
def names (node : Node) : List Text := Text.sorted (node.children.map segment)

/-- Makes the node a file that holds `content`. -/
def write (node : Node) (content : Text) : Node := { node with content := some content, mode := fileMode }

def read (node : Node) : Except Failure Text :=
  match node.content with
  | some content => return content
  | none => throw (.notFile node.segment)

/-- The content as lines; the terminator must not be empty. -/
def readLines (node : Node) (newline : Text) : Except Failure (List Text) := do
  Line.split? newline (← node.read)

/-- The nine permission bits of a number; those of a negative one as in two's complement. -/
def permissions (mode : Int) : Int := mode % 512

def setMode (node : Node) (mode : Int) : Node := { node with mode := permissions mode }

/-- Takes the child of a segment out, and answers with it. -/
def unset (node : Node) (segment : Text) : Except Failure (Node × Node) :=
  match node.get? segment with
  | some child => return (child, node.erase segment)
  | none => throw (.unknownNode segment)

/-- A number in octal, as a mode is shown. -/
def octal (n : Int) : Text :=
  (if n < 0 then Text.lit "-" else []) ++ Text.lit "0o" ++ Text.ofNat 8 n.natAbs

/-- A node as a message shows it. -/
def quoted (node : Node) : Text :=
  Text.lit "Node(" ++ Text.quoted node.segment ++ Text.lit ", " ++
    Text.lit (if node.isFile then "file" else "directory") ++ Text.lit ", mode=" ++ octal node.mode ++ ([')'] : Text)

/-- The node that segments lead to. -/
def at? : List Text → Node → Option Node
  | [], node => some node
  | segment :: rest, node => (node.get? segment).bind (at? rest)

/-- Changes the node that segments lead to; nothing where they lead nowhere. -/
def change (f : Node → Node) : List Text → Node → Node
  | [], node => f node
  | segment :: rest, node =>
    match node.get? segment with
    | some child => node.put (change f rest child)
    | none => node

/-- Walks along segments and creates the nodes that are missing. The walk stops at a file that
has segments after it; the flag tells whether it came to the end. -/
def grow : List Text → Node → Node × Bool
  | [], node => (node, true)
  | segment :: rest, node =>
    if node.isFile then (node, false)
    else
      let grown := grow rest (node.getOrFresh segment)
      (node.put grown.1, grown.2)

end Node

end Linework
