import Linework.SystemFault
import Linework.Text.Encoding
import Linework.Text.HostName

/-!
# Disks

A disk as a table from routes to entries. A route is the names from the root down, so each entry
has one route and a directory holds what lies one name below it. The working directory may have
been removed: then only a part of the way to it is still on the disk.
-/

namespace Linework

/-- The names from the root down. -/
abbrev Route := List Text

/-- The absolute path of a route. -/
def Route.text (route : Route) : Text := '/' :: List.intercalate ['/'] route

inductive DiskEntry where
  | directory (mode : Nat)
  | file (mode : Nat) (bytes : List UInt8)
  | link (target : Text)
  deriving DecidableEq, Repr

/-- A directory: the part of the way to it that is on the disk, and the permissions of the
directories below that have been removed, the topmost first. -/
structure Spot where
  live : Route
  gone : List Nat := []
  deriving DecidableEq, Repr

/-- What a host takes: the greatest lengths of a name and of a path in bytes, `none` where it takes
any, and the codecs that it has. -/
structure Host where
  nameLimit : Option Nat := some 255
  pathLimit : Option Nat := some 4095
  codecs : Codecs := .standard

structure Disk where
  entries : List (Route × DiskEntry)
  /-- The working directory. -/
  here : Spot
  /-- Paths of the working directories to go back to, the nearest first. -/
  saved : List Text := []
  host : Host := {}

/-- The length of a name or a path on the disk. -/
def Text.byteLength (t : Text) : Nat := t.hostBytes.length

namespace Host

/-- Whether a name is too long. -/
def refusesName (host : Host) (name : Text) : Bool := host.nameLimit.any (· < name.byteLength)

/-- Whether a path is too long. -/
def refusesPath (host : Host) (path : Text) : Bool := host.pathLimit.any (· < path.byteLength)

end Host

namespace DiskEntry

/-- The permissions of an entry; a link grants everything. -/
def mode : DiskEntry → Nat
  | directory mode | file mode _ => mode
  | link _ => 0o777

def setMode (mode : Nat) : DiskEntry → DiskEntry
  | directory _ => directory mode
  | file _ bytes => file mode bytes
  | link target => link target

end DiskEntry

namespace Spot

def root : Spot := ⟨[], []⟩

/-- The directory above. -/
def parent (spot : Spot) : Spot :=
  if spot.gone = [] then ⟨spot.live.dropLast, []⟩ else ⟨spot.live, spot.gone.dropLast⟩

end Spot

namespace Disk

/-- Permissions of a new directory. -/
def directoryMode : Nat := 0o755

/-- Permissions of a new file. -/
def fileMode : Nat := 0o644

/-- The bit that a new directory takes over from the one it is in. -/
def inheritedBit : Nat := 0o2000

/-- The permissions that can be set. -/
def modeLimit : Nat := 0o10000

/-- The most links that are followed on one way. -/
def linkLimit : Nat := 40

/-- The beginnings of a route, from the root down to the route itself. -/
def beginnings (route : Route) : List Route := (List.range (route.length + 1)).map route.take

/-- A disk with nothing on it but a working directory at a route. -/
def atRoute (route : Route) : Disk where
  entries := (beginnings route).map fun r => (r, .directory directoryMode)
  here := ⟨route, []⟩

def find? (d : Disk) (route : Route) : Option DiskEntry :=
  (d.entries.find? fun entry => entry.1 = route).map (·.2)

/-- The permissions of the entry at a route. -/
def modeAt (d : Disk) (route : Route) : Nat := ((d.find? route).map DiskEntry.mode).getD directoryMode

/-- Puts an entry at a route, in the place of the one that was there. -/
def put (d : Disk) (route : Route) (entry : DiskEntry) : Disk :=
  { d with
    entries :=
      if (d.find? route).isSome then
        d.entries.map fun old => if old.1 = route then (route, entry) else old
      else d.entries ++ [(route, entry)] }

/-- The working directory once everything below a route has been removed. -/
def hereBelow (d : Disk) (route : Route) : Spot :=
  if route.isPrefixOf d.here.live then
    let lost := (beginnings d.here.live).drop (route.length + 1)
    ⟨route, lost.map d.modeAt ++ d.here.gone⟩
  else d.here

/-- Takes everything below a route away. -/
def clear (d : Disk) (route : Route) : Disk :=
  { d with
    entries := d.entries.filter fun entry => !(route.isPrefixOf entry.1) || entry.1 = route
    here := d.hereBelow route }

/-- Takes the entry at a route away, which must not hold others. -/
def erase (d : Disk) (route : Route) : Disk :=
  { d with
    entries := d.entries.filter fun entry => entry.1 ≠ route
    here :=
      if d.here.live = route then ⟨route.dropLast, d.modeAt route :: d.here.gone⟩ else d.here }

/-- The names in a directory. -/
def names (d : Disk) (route : Route) : List Text :=
  d.entries.filterMap fun entry => if entry.1.dropLast = route then entry.1.getLast? else none

end Disk

end Linework
