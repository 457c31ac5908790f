import Linework.Node
import Linework.Storage

/-!
# Memory

A storage without a disk: a tree of nodes and a working directory in it. Plain relative paths
are walked from the working directory's node; absolute ones, and those that climb, from the
root. A removal cuts a subtree off. Whoever works inside it goes on there, so subtrees that were
cut off are kept, and each working directory knows the tree it is in.
-/

namespace Linework

/-- A working directory. -/
structure Place where
  /-- The cut off tree it is in; none for the tree of the root. -/
  tree : Option Nat := none
  /-- The way to it in its tree. -/
  route : List Text := []
  /-- The segments of the path it was entered by. -/
  dir : List Text := []
  deriving DecidableEq, Repr

structure Memory where
  root : Node := .root
  /-- Subtrees that removals have cut off, the earliest first. -/
  detached : List Node := []
  here : Place := {}
  /-- The working directories to go back to, the nearest first. -/
  saved : List Place := []

/-- A path as it is walked: from a node, along segments. -/
structure Walk where
  tree : Option Nat
  start : List Text
  segments : List Text
  deriving DecidableEq, Repr

namespace Walk

/-- The whole way in the tree. -/
def route (walk : Walk) : List Text := walk.start ++ walk.segments

end Walk

namespace Place

/-- A working directory after the node at `route` has become the root of tree `fresh`. -/
def cut (tree : Option Nat) (route : List Text) (fresh : Nat) (place : Place) : Place :=
  if place.tree = tree ∧ route.isPrefixOf place.route then
    { place with tree := some fresh, route := place.route.drop route.length }
  else place

end Place

namespace Memory

/-- The root of a tree. -/
def tree? (m : Memory) : Option Nat → Option Node
  | none => some m.root
  | some index => m.detached[index]?

/-- Changes a tree. -/
def changeTree (m : Memory) (tree : Option Nat) (f : Node → Node) : Memory :=
  match tree with
  | none => { m with root := f m.root }
  | some index => { m with detached := m.detached.modify index f }

/-- The absolute path of the working directory. -/
def pwd (m : Memory) : Text := Path.ofSegments m.here.dir

/-- The segments a path has from the root. -/
def absoluteSegments (m : Memory) (path : Text) : List Text :=
  if Path.isAbsolute path then Path.segments (Path.normalize path)
  else Path.segments (Path.normalize (Path.joinTexts [m.pwd, path]))

/-- How a path is walked. -/
def walk (m : Memory) (path : Text) : Walk :=
  let segments := Path.segments path
  if Path.up ∈ segments then ⟨none, [], m.absoluteSegments path⟩
  else if Path.isAbsolute path then ⟨none, [], segments⟩
  else ⟨m.here.tree, m.here.route, segments⟩

/-- The node at the end of a walk. -/
def nodeAt? (m : Memory) (walk : Walk) : Option Node := (m.tree? walk.tree).bind (Node.at? walk.route)

def find? (m : Memory) (path : Text) : Option Node := m.nodeAt? (m.walk path)

/-- Changes the node at the end of a walk. -/
def changeAt (m : Memory) (walk : Walk) (f : Node → Node) : Memory :=
  m.changeTree walk.tree (Node.change f walk.route)

/-- Creates the nodes that a walk lacks; the flag tells whether no file stood in the way. -/
def grow (m : Memory) (walk : Walk) : Memory × Bool :=
  let open? := ((m.tree? walk.tree).bind (Node.at? walk.start)).map fun node => (node.grow walk.segments).2
  (m.changeTree walk.tree (Node.change (fun node => (node.grow walk.segments).1) walk.start),
    open?.getD false)

/-- Whether a walk ends at the root or at the working directory. -/
def isFixed (m : Memory) (walk : Walk) : Bool :=
  (walk.tree = none ∧ walk.route = []) ∨ (walk.tree = m.here.tree ∧ walk.route = m.here.route)

/-- Cuts off the child `segment` of the node at `parent`. -/
def cut (m : Memory) (tree : Option Nat) (parent : List Text) (segment : Text) : Memory :=
  match ((m.tree? tree).bind (Node.at? parent)).bind fun node => node.get? segment with
  | none => m
  | some child =>
    let fresh := m.detached.length
    let left := m.changeTree tree (Node.change (fun node => node.erase segment) parent)
    let move := Place.cut tree (parent ++ [segment]) fresh
    { left with
      detached := left.detached ++ [child]
      here := move left.here
      saved := left.saved.map move }

/-- The absolute path of a path, seen from a directory. -/
def expandFrom (directory path : Text) : Text :=
  if Path.isAbsolute path then Path.normalize path
  else Path.normalize (Path.joinTexts [directory, path])

def expand (m : Memory) (path : Text) (base : Option Text) : Text :=
  match base with
  | none => expandFrom m.pwd path
  | some base => expandFrom (expandFrom m.pwd base) path

/-! ## Operations -/

/-- The node at a path. -/
def existing (path : Text) : Op Memory Node := do
  match (← Op.store).find? path with
  | some node => return node
  | none => throw (.ofErrno Errno.noEntry path)

/-- The file at a path. -/
def file (path : Text) : Op Memory Text := do
  match (← existing path).content with
  | some content => return content
  | none => throw (.ofErrno Errno.isDirectory path)

/-- Creates the nodes of a path. -/
def make (path : Text) : Op Memory Walk := do
  let m ← Op.store
  let walk := m.walk path
  let (grown, reached) := m.grow walk
  Op.setStore grown
  if !reached then throw (.ofErrno Errno.notDirectory path)
  return walk

/-- Writes a file. The root, the working directory and directories with entries stay what they
are. -/
def write (path content : Text) : Op Memory Unit := do
  let walk ← make path
  let m ← Op.store
  if m.isFixed walk || (m.nodeAt? walk).any Node.hasChildren then
    throw (.ofErrno Errno.isDirectory path)
  Op.setStore (m.changeAt walk fun node => node.write content)
  Op.note (.wrote content.length path)

def makeDir (path : Text) : Op Memory Unit := do
  let walk ← make path
  if ((← Op.store).nodeAt? walk).any Node.isFile then throw (.ofErrno Errno.entryExists path)

/-- Takes the entry at a path out of its directory. -/
def unlink (path : Text) (allowed : Node → Bool) : Op Memory Unit := do
  let node ← existing path
  let m ← Op.store
  let walk := m.walk path
  match allowed node, walk.segments.getLast? with
  | true, some segment =>
    Op.setStore (m.cut walk.tree (walk.start ++ walk.segments.dropLast) segment)
  | _, _ => throw (.ofErrno Errno.notPermitted path)

def enter (path : Text) : Op Memory Unit := do
  let node ← existing path
  if node.isFile then throw (.ofErrno Errno.notDirectory path)
  let m ← Op.store
  let walk := m.walk path
  Op.setStore
    { m with here := ⟨walk.tree, walk.route, m.absoluteSegments path⟩, saved := m.here :: m.saved }

/-- Goes back to the working directory before the last one entered. -/
def left (m : Memory) : Memory :=
  match m.saved with
  | [] => m
  | place :: rest => { m with here := place, saved := rest }

instance : Storage Memory where
  touch path := do
    match (← Op.store).find? path with
    | some node => if node.isDirectory then throw (.ofErrno Errno.isDirectory path)
    | none => write path []
  read _ path := file path
  write _ path content := write path content
  copy source destination := do write destination (← file source)
  makeDir := makeDir
  remove path := do
    unlink path Node.isFile
    Op.note (.removed path)
  removeTree path := do
    unlink path fun _ => true
    Op.note (.removedTree path)
  enter := enter
  leave := do Op.setStore (← Op.store).left
  workingDir := do return (← Op.store).pwd
  expand path base := do return (← Op.store).expand path base
  setMode path mode := do
    let _ ← existing path
    let m ← Op.store
    Op.setStore (m.changeAt (m.walk path) fun node => node.setMode mode)
  mode path := do return (← existing path).mode
  entries path := do
    let node ← existing path
    if node.isFile then throw (.ofErrno Errno.notDirectory path)
    return node.names
  hasEntry path := do return ((← Op.store).find? path).isSome
  isDir path := do return ((← Op.store).find? path).any Node.isDirectory
  isExecutable path := do return ((← Op.store).find? path).any Node.isExecutable

end Memory

end Linework
