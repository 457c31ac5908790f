import Linework.Disk.Operations
import Linework.Settings.File
import Linework.Pattern.Reader

/-!
# Running commands

From arguments to an edit on a disk, and a report of it. The settings are read before the pattern,
and both before the file is touched. A message is shown as markup, so its tags may spoil it; then
the edit has been done all the same. Libraries come in as a toolkit.
-/

namespace Linework

/-- A failure that the program does not report itself. -/
inductive Escape where
  | failure (f : Failure)
  | settings (f : SettingsFailure)
  | pattern (f : PatternFault)
  /-- A message cannot be shown. -/
  | unshown (fault : LibraryFault)
  deriving DecidableEq, Repr

namespace Escape

def message : Escape → Text
  | failure f => f.message
  | settings f => f.message
  | pattern f => f.cause.message
  | unshown fault => fault.message

end Escape

structure Report where
  exit : Nat
  /-- What the program says, unless it is about its usage. -/
  said : Option Text := none
  escape : Option Escape := none
  deriving DecidableEq, Repr

namespace Report

/-- The version of the program. -/
def version : String := "0.1.0"

/-- The mark in front of what is said of an edit, and a blank. -/
def praiseMark : Text := Text.lit "[green]✓[/green] "

/-- The mark in front of a refusal, and a blank. -/
def blameMark : Text := Text.lit "[red]✗[/red] "

/-- A program that ends with a failure of its own. -/
def escaped (e : Escape) : Report := { exit := 1, escape := some e }

/-- A message in markup and the exit of the program. -/
def saying (kit : Toolkit) (exit : Nat) (message : Text) : Report :=
  match kit.render message with
  | .ok shown => { exit, said := some (shown ++ (['\n'] : Text)) }
  | .error fault => escaped (.unshown fault)

def success (kit : Toolkit) (message : Text) : Report := saying kit 0 (praiseMark ++ message)

def refusal (kit : Toolkit) (exit : Nat) (message : Text) : Report :=
  saying kit exit (blameMark ++ message)

end Report

namespace Failure

/-- Whether a failure is one of working on files, and so is reported. -/
def isReported : Failure → Bool
  | storage .. | missingTarget .. | unknownNode _ | notFile _ => true
  | _ => false

end Failure

namespace Request

/-- The target of a request. -/
def matcher (kit : Toolkit) (request : Request) : Except Report Target :=
  if !request.regex then .ok (.text request.target)
  else match Pattern.ofText request.target {} with
    | .ok p => .ok (.pattern p)
    | .error fault =>
      if fault.cause.isMisspelling then
        .error (.refusal kit 2 (Text.lit "Invalid pattern '" ++ request.target ++ Text.lit "': " ++
          fault.message request.target))
      else .error (.escaped (.pattern fault))

/-- The settings of a request. -/
def settings (kit : Toolkit) (request : Request) (d : Disk) : Except Report Settings :=
  match request.config with
  | none => .ok {}
  | some path =>
    match Settings.ofFile kit d path with
    | .ok settings => .ok settings
    | .error failure =>
      if failure.isReported then
        .error (.refusal kit 2 (Text.lit "Invalid settings: " ++ failure.message))
      else .error (.escaped (.settings failure))

/-- Carries out a request. -/
def run (kit : Toolkit) (request : Request) (d : Disk) : Report × World Disk :=
  let prepared : Except Report (Settings × Target) := do
    let settings ← request.settings kit d
    return (settings, ← request.matcher kit)
  match prepared with
  | .error report => (report, ⟨d, []⟩)
  | .ok (settings, target) =>
    let path := HostPath.collapse request.path
    let e := request.command.edit request.which target request.contents
    match EStateM.run (Storage.edit settings settings path e) (⟨d, []⟩ : World Disk) with
    | .ok _ world => (.success kit (request.command.report request.target path), world)
    | .error failure world =>
      if failure.isReported then (.refusal kit 1 failure.message, world)
      else (.escaped (.failure failure), world)

end Request

namespace Invocation

/-- Carries out what the arguments ask for. -/
def run (kit : Toolkit) (d : Disk) : Invocation → Report × World Disk
  | misused _ => ({ exit := 2 }, ⟨d, []⟩)
  | help => ({ exit := 0 }, ⟨d, []⟩)
  | version => (.saying kit 0 (Text.lit "scaffold-files v" ++ Text.lit Report.version), ⟨d, []⟩)
  | edit request => request.run kit d

end Invocation

end Linework
