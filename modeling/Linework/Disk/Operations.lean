import Linework.Disk.Request
import Linework.Storage

/-!
# Disks as storages

Files on a disk. Parents are created one request at a time, and a file is opened before its text
is turned into bytes, so an operation that fails late may leave directories or an empty file
behind. Most operations name a path in its collapsed form when the host refuses them.
-/

namespace Linework

namespace Disk

/-- A name that the host takes, if there is nothing against it. -/
def refuse : Option NameFault → Op Disk Unit
  | some fault => throw (.unusable fault)
  | none => pure ()

/-- A path that the host takes. -/
def usable (path : Text) : Op Disk Unit := refuse (HostPath.fault? path)

/-- A path in its collapsed form, which the host takes. -/
def hostPath (path : Text) : Op Disk Text := do
  usable (HostPath.collapse path)
  return HostPath.collapse path

/-- The answer to a request. A refusal is blamed on `path`. -/
def answer {α : Type} (path : Text) (request : Disk → Except Errno α) : Op Disk α := do
  match request (← Op.store) with
  | .ok value => return value
  | .error code => throw (.storage (.about code path) (some path))

/-- A request that changes the disk. A refusal is blamed on `path`. -/
def perform (path : Text) (request : Disk → Except Errno Disk) : Op Disk Unit := do
  Op.setStore (← answer path request)

/-- The answer to a question whose refusal is reported as it is. -/
def query {α : Type} (path : Text) (request : Disk → Except Errno α) : Op Disk α := do
  match request (← Op.store) with
  | .ok value => return value
  | .error code => throw (.system (.about code path))

/-- Whether a path leads to something; a path the host does not take leads nowhere. -/
def hasEntry (path : Text) : Op Disk Bool :=
  let path := HostPath.collapse path
  if ¬ HostPath.Takes path then return false
  else return (← query path fun d => d.lookUp path).isSome

def isDir (path : Text) : Op Disk Bool :=
  let path := HostPath.collapse path
  if ¬ HostPath.Takes path then return false
  else query path fun d => d.leadsToDirectory path

/-- A directory that was not made is no failure where there is one. -/
def settle (path : Text) (code : Errno) : Op Disk Unit := do
  if !(← answer path fun d => d.leadsToDirectory path) then answer path fun _ => .error code

/-- Makes the directory at a path, and those above it that are missing. The pieces of the path
are given from the last one up. -/
def makeAll (root : Text) : List Text → Op Disk Unit
  | [] => pure ()
  | piece :: above => do
    let path := (HostPath.mk root (piece :: above).reverse).text
    match (← Op.store).makeDirectory path with
    | .ok made => Op.setStore made
    | .error code =>
      if code = Errno.noEntry then
        makeAll root above
        match (← Op.store).makeDirectory path with
        | .ok made => Op.setStore made
        | .error code =>
          if code = Errno.noEntry then answer path fun _ => .error code else settle path code
      else settle path code

def makeDir (path : Text) : Op Disk Unit := do
  usable (HostPath.collapse path)
  let host := HostPath.ofText path
  makeAll host.root host.parts.reverse

/-- The file that is opened for writing at a path. -/
def opened (path : Text) : Op Disk Route := do
  let (route, d) ← answer path fun d => d.openFile path
  Op.setStore d
  return route

/-- Creates an empty file, unless there is something. What making the parents has put there counts
as well. -/
def touch (path : Text) : Op Disk Unit := do
  if ← isDir path then throw (.ofErrno Errno.isDirectory path)
  makeDir (Path.parent path)
  let host ← hostPath path
  match (← Op.store).locate host with
  | .ok _ => pure ()
  | .error _ => let _ ← opened host

/-- Why the host does not take a text as the name of an encoding, if it does not. -/
def encodingFault? (name : Text) : Option NameFault :=
  match Encoding.encodeUtf8 0 name with
  | .error fault => some (.surrogates fault)
  | .ok _ => if ('\x00' : CodePoint) ∈ name then some .nulCharacter else none

/-- The codec of a name. -/
def codecOf (name : Text) : Op Disk Codec := do
  match (← Op.store).host.codecs name with
  | .ok codec => return codec
  | .error refusal => throw (.unknownEncoding refusal)

def read (encoding path : Text) : Op Disk Text := do
  refuse (encodingFault? encoding)
  let host ← hostPath path
  let bytes ← answer host fun d => d.readBytes host
  match (← codecOf encoding).decode bytes with
  | .ok content => return content
  | .error fault => throw (.undecodable fault)

/-- The file is opened before its codec is looked for, and the text is encoded last. -/
def write (encoding path content : Text) : Op Disk Unit := do
  makeDir (Path.parent path)
  refuse (encodingFault? encoding)
  let host ← hostPath path
  let route ← opened host
  Op.setStore ((← Op.store).putBytes route [])
  match (← codecOf encoding).encode content with
  | .ok bytes => Op.setStore ((← Op.store).putBytes route bytes)
  | .error fault => throw (.unencodable fault)
  Op.note (.wrote content.length path)

/-- Opens the file that is to be a copy. Where only a directory could be, and none is, its absence
is the failure; it is blamed on the source. -/
def openCopy (source destination : Text) : Op Disk Route := do
  let d ← Op.store
  match d.openFile destination, d.locate destination with
  | .ok (route, opened), _ =>
    Op.setStore opened
    return route
  | .error code, .error _ =>
    if code = Errno.isDirectory then throw (.ofFault (.noDirectory destination) (some source))
    answer destination fun _ => .error code
  | .error code, .ok _ => answer destination fun _ => .error code

def copy (source destination : Text) : Op Disk Unit := do
  if !(← hasEntry source) then throw (.ofErrno Errno.noEntry source)
  makeDir (Path.parent destination)
  usable destination
  if (← Op.store).leadTogether source destination then
    throw (.ofFault (.sameFile source destination) (some source))
  let bytes ← answer source fun d => d.readBytes source
  let route ← openCopy source destination
  Op.setStore ((← Op.store).putBytes route bytes)

def remove (path : Text) : Op Disk Unit := do
  let host ← hostPath path
  perform host fun d => d.unlink host
  Op.note (.removed path)

/-- Removes whatever is at a path; what is in a directory goes first. -/
def removeTree (path : Text) : Op Disk Unit := do
  let host ← hostPath path
  let directory ← answer host fun d => d.leadsToDirectory host
  match directory, (← Op.store).resolve false host with
  | true, .ok (.entry route (.directory _)) =>
    Op.setStore ((← Op.store).clear route)
    perform host fun d => d.removeDirectory (HostPath.ofText path) route
  | true, .ok (.removed spot) => perform host fun d => d.removeDirectory (HostPath.ofText path) spot.live
  | _, _ => perform host fun d => d.unlink host
  Op.note (.removedTree path)

/-- The path of the working directory. -/
def workingDir : Op Disk Text := do
  match (← Op.store).pwd? with
  | some path => return path
  | none => throw (.system (.ofErrno Errno.noEntry))

def enter (path : Text) : Op Disk Unit := do
  let previous ← workingDir
  usable path
  perform path fun d => d.moveTo path
  Op.setStore { (← Op.store) with saved := previous :: (← Op.store).saved }

def leave : Op Disk Unit := do
  let d ← Op.store
  match d.saved with
  | [] => pure ()
  | previous :: rest =>
    Op.setStore { d with saved := rest }
    Op.setStore (← query previous fun d => d.moveTo previous)

def expand (path : Text) (base : Option Text) : Op Disk Text := do
  let directory ← match base with
    | none => workingDir
    | some base => pure base
  let joined := HostPath.joined directory path
  if joined.head? = some ('/' : CodePoint) then return HostPath.normalize joined
  return HostPath.normalize (HostPath.joined (← workingDir) joined)

instance : Storage Disk where
  touch := touch
  read := read
  write := write
  copy := copy
  makeDir := makeDir
  remove := remove
  removeTree := removeTree
  enter := enter
  leave := leave
  workingDir := workingDir
  expand := expand
  setMode path mode := do
    usable path
    perform path fun d => d.changeMode path (mode % modeLimit).toNat
  mode path := do
    usable path
    answer path fun d => (d.mode path).map Int.ofNat
  entries path := do
    usable path
    answer path fun d => d.list path
  hasEntry := hasEntry
  isDir := isDir
  isExecutable path := do
    usable path
    return (← Op.store).grantsExecution path

end Disk

end Linework
