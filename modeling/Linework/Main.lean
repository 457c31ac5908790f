import Linework.Command.Run
import Linework.Toolkit.Standard

/-!
# The program

The command line on the disk of the host. The part of the disk that a command can touch is read,
the command is run on it, and what it has changed is written back.
-/

namespace Linework.Main

/-- A text as a string, which has a replacement character in the place of a surrogate. -/
def string (t : Text) : String :=
  String.ofList (t.map fun c => match c with | .scalar c => c | .surrogate _ => '\uFFFD')

/-- What is at a path of the host. Links are followed, and permissions are left to the host. -/
def look (path : String) : IO (Option DiskEntry) := do
  let place := (← IO.currentDir) / path
  if ← place.isDir then return some (.directory Disk.directoryMode)
  if !(← place.pathExists) then return none
  return some (.file Disk.fileMode (← IO.FS.readBinFile place).toList)

/-- The route of the working directory. -/
def here : IO Route := do
  return (HostPath.ofText (Text.lit (← IO.currentDir).toString)).parts

/-- The routes on the way to a path. -/
def routes (here : Route) (path : Text) : List Route :=
  let start := if path.head? = some ('/' : CodePoint) then [] else here
  (HostPath.ofText path).parts.scanl
    (fun route piece => if piece = HostPath.up then route.dropLast else route ++ [piece]) start

/-- The part of the disk that the given paths lead through. -/
def load (paths : List Text) : IO Disk := do
  let here ← here
  let mut d : Disk := { entries := [], here := ⟨here, []⟩ }
  for route in Disk.beginnings here ++ paths.flatMap (routes here) do
    if (d.find? route).isNone then
      if let some entry ← look (string (Route.text route)) then d := d.put route entry
  return d

/-- Writes back what has changed. -/
def store (before after : Disk) : IO Unit := do
  for (route, entry) in after.entries do
    if before.find? route ≠ some entry then
      let path := string (Route.text route)
      match entry with
      | .directory _ => IO.FS.createDir path
      | .file _ bytes => IO.FS.writeBinFile path (ByteArray.mk bytes.toArray)
      | .link _ => pure ()

def usage : String := "Usage: scaffold-files [OPTIONS] COMMAND [ARGS]..."

/-- The paths that an invocation reads or writes. -/
def paths : Invocation → List Text
  | .edit request => request.path :: request.config.toList
  | _ => []

/-- Whether the work is to be told. -/
def isVerbose : Invocation → Bool
  | .edit request => request.verbose
  | _ => false

def run (kit : Toolkit) (args : List String) : IO UInt32 := do
  let invocation := kit.parse (args.map Text.lit)
  let before ← load (paths invocation)
  let (report, world) := invocation.run kit before
  store before world.store
  if isVerbose invocation then
    for note in world.notes do IO.println (string note.message)
  match report.said, report.escape with
  | some said, _ => IO.print (string said)
  | none, some escape => IO.eprintln (string escape.message)
  | none, none =>
    IO.println usage
    for command in Command.all do IO.println ("  " ++ command.name)
  return report.exit.toUInt32

end Linework.Main

def main (args : List String) : IO UInt32 := Linework.Main.run .standard args
