import Linework.Disk.Basic
import Linework.Disk.HostPath

/-!
# Walking a disk

Where a path leads. Each piece is looked up in the directory reached so far; a link is replaced
by its target. A walk may end at an entry, at a directory that was removed, or at a name that is
not there in a directory that is.
-/

namespace Linework

/-- Where a path leads. -/
inductive Found where
  | entry (route : Route) (e : DiskEntry)
  /-- A directory that has been removed. -/
  | removed (spot : Spot)
  /-- A free name in a directory. -/
  | missing (route : Route)
  deriving DecidableEq, Repr

namespace Found

/-- The entry that was found; a removed directory still is one. -/
def item? : Found → Option DiskEntry
  | entry _ e => some e
  | removed spot => some (.directory (spot.gone.getLast?.getD Disk.directoryMode))
  | missing _ => none

def isDirectory (found : Found) : Bool :=
  match found.item? with
  | some (.directory _) => true
  | _ => false

def spot? : Found → Option Spot
  | entry route (.directory _) => some ⟨route, []⟩
  | removed spot => some spot
  | _ => none

end Found

namespace Disk

/-- What stands at a spot. -/
def standing (d : Disk) (spot : Spot) : Found :=
  if spot.gone = [] then
    match d.find? spot.live with
    | some e => .entry spot.live e
    | none => .removed spot
  else .removed spot

/-- Where the walk goes on for a path seen from a spot. -/
def origin (spot : Spot) (path : Text) : Spot := if path.head? = some ('/' : CodePoint) then .root else spot

/-- Walks along pieces; `jump` takes over at a link. A link at the very end is itself the end
unless it is to be followed. -/
def walkWith (d : Disk) (jump : Spot → List Text → Except Errno Found) (follow : Bool) :
    Spot → List Text → Except Errno Found
  | spot, [] => .ok (d.standing spot)
  | spot, piece :: rest =>
    if piece = [] || piece = (['.'] : Text) then walkWith d jump follow spot rest
    else if piece = HostPath.up then walkWith d jump follow spot.parent rest
    else if spot.gone ≠ [] then .error Errno.noEntry
    else if d.host.refusesName piece then .error Errno.nameTooLong
    else
      let route := spot.live ++ [piece]
      match d.find? route with
      | none => if rest = [] then .ok (.missing route) else .error Errno.noEntry
      | some (.directory _) => walkWith d jump follow ⟨route, []⟩ rest
      | some (.file mode bytes) =>
        if rest = [] then .ok (.entry route (.file mode bytes)) else .error Errno.notDirectory
      | some (.link target) =>
        if rest = [] && !follow then .ok (.entry route (.link target))
        else jump (origin spot target) (HostPath.names target ++ rest)

/-- Walks along pieces over at most `links` links. -/
def walk (d : Disk) (follow : Bool) : (links : Nat) → Spot → List Text → Except Errno Found
  | 0 => d.walkWith (fun _ _ => .error Errno.tooManyLinks) follow
  | links + 1 => d.walkWith (walk d follow links) follow

/-- Where a path leads. -/
def resolve (d : Disk) (follow : Bool) (path : Text) : Except Errno Found :=
  if path = [] then .error Errno.noEntry
  else if d.host.refusesPath path then .error Errno.nameTooLong
  else d.walk follow linkLimit (origin d.here path) (HostPath.names path)

/-- Where a path leads when something has to be there. -/
def locate (d : Disk) (path : Text) : Except Errno Found := do
  match ← d.resolve true path with
  | .missing _ => throw Errno.noEntry
  | found => return found

end Disk

end Linework
