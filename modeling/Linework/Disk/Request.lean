import Linework.Disk.Walk

/-!
# Requests to a disk

The single steps that a host offers: look at an entry, make or remove one, open a file. Each
either answers or is refused with a number, and a refused request changes nothing.
-/

namespace Linework

namespace Disk

/-- Refusals of a look-up that say no more than that nothing is there. -/
def saysAbsent (code : Errno) : Bool :=
  code ∈ [Errno.noEntry, Errno.badDescriptor, Errno.notDirectory, Errno.tooManyLinks]

/-- What a path leads to, `none` where nothing is there. -/
def lookUp (d : Disk) (path : Text) : Except Errno (Option DiskEntry) :=
  match d.resolve true path with
  | .ok found => .ok found.item?
  | .error code => if saysAbsent code then .ok none else .error code

/-- Whether a path leads to a directory. -/
def leadsToDirectory (d : Disk) (path : Text) : Except Errno Bool :=
  match d.resolve true path with
  | .ok found => .ok found.isDirectory
  | .error code => if saysAbsent code then .ok false else .error code

/-- Whether two paths lead to one entry. -/
def leadTogether (d : Disk) (first second : Text) : Bool :=
  match d.locate first, d.locate second with
  | .ok one, .ok other => one = other
  | _, _ => false

def readBytes (d : Disk) (path : Text) : Except Errno (List UInt8) := do
  match ← d.locate path with
  | .entry _ (.file _ bytes) => return bytes
  | _ => throw Errno.isDirectory

/-- Opens a file for writing over at most `links` links, and creates it where nothing is. A path that
ends in a slash, be it the target of a link, asks for a directory, which cannot be opened so. -/
def openOver (d : Disk) : (links : Nat) → Text → Except Errno (Route × Disk)
  | 0, _ => .error Errno.tooManyLinks
  | links + 1, path =>
    let name := Text.dropEndWhile HostPath.isSlash path
    if name ≠ path && name ≠ [] then
      match d.resolve false name with
      | .ok _ => .error Errno.isDirectory
      | .error code => .error code
    else
      match d.resolve false path with
      | .ok (.entry route (.file _ _)) => .ok (route, d)
      | .ok (.entry route (.link target)) =>
        openOver d links (HostPath.joined (Route.text route.dropLast) target)
      | .ok (.missing route) => .ok (route, d.put route (.file fileMode []))
      | .ok _ => .error Errno.isDirectory
      | .error code => .error code

def openFile (d : Disk) (path : Text) : Except Errno (Route × Disk) := d.openOver linkLimit path

/-- Puts bytes into a file, in the place of those it had. -/
def putBytes (d : Disk) (route : Route) (bytes : List UInt8) : Disk :=
  match d.find? route with
  | some (.file mode _) => d.put route (.file mode bytes)
  | _ => d

def makeDirectory (d : Disk) (path : Text) : Except Errno Disk := do
  match ← d.resolve false path with
  | .missing route =>
    let mode := directoryMode ||| (d.modeAt route.dropLast &&& inheritedBit)
    return d.put route (.directory mode)
  | _ => throw Errno.entryExists

def makeLink (d : Disk) (target path : Text) : Except Errno Disk := do
  match ← d.resolve false path with
  | .missing route => return d.put route (.link target)
  | _ => throw Errno.entryExists

/-- Removes a file or a link. -/
def unlink (d : Disk) (path : Text) : Except Errno Disk := do
  match ← d.resolve false path with
  | .missing _ => throw Errno.noEntry
  | .removed _ | .entry _ (.directory _) => throw Errno.isDirectory
  | .entry route _ => return d.erase route

/-- Removes an empty directory. It has to be called by its name, and the way to it has to be there
still. -/
def removeDirectory (d : Disk) (path : HostPath) (route : Route) : Except Errno Disk := do
  let _ ← d.locate { path with parts := path.parts.dropLast }.text
  match path.parts.getLast? with
  | none => throw (if path.root = [] then Errno.invalid else Errno.busy)
  | some name => if name = HostPath.up then throw Errno.notEmpty else return d.erase route

/-- Changes the permissions at a path. -/
def changeMode (d : Disk) (path : Text) (mode : Nat) : Except Errno Disk := do
  match ← d.locate path with
  | .entry route e => return d.put route (e.setMode mode)
  | .removed spot =>
    if spot.live = d.here.live then
      return { d with here.gone := d.here.gone.set (spot.gone.length - 1) mode }
    else return d
  | .missing _ => throw Errno.noEntry

def mode (d : Disk) (path : Text) : Except Errno Nat := do
  match (← d.locate path).item? with
  | some e => return e.mode
  | none => throw Errno.noEntry

/-- The names in the directory at a path, sorted. -/
def list (d : Disk) (path : Text) : Except Errno (List Text) := do
  match ← d.locate path with
  | .entry route (.directory _) => return Text.sorted (d.names route)
  | .removed _ => return []
  | _ => throw Errno.notDirectory

/-- Makes the directory at a path the working directory. -/
def moveTo (d : Disk) (path : Text) : Except Errno Disk := do
  match (← d.locate path).spot? with
  | some spot => return { d with here := spot }
  | none => throw Errno.notDirectory

/-- The absolute path of the working directory, unless it has been removed. -/
def pwd? (d : Disk) : Option Text :=
  if d.here.gone = [] then some (Route.text d.here.live) else none

/-- Whether a path leads to something that may be executed. A directory always may. -/
def grantsExecution (d : Disk) (path : Text) : Bool :=
  match d.locate path with
  | .ok found =>
    match found.item? with
    | some (.directory _) => true
    | some (.file mode _) => mode &&& 0o111 ≠ 0
    | _ => false
  | .error _ => false

end Disk

end Linework
