import Linework.Edit

/-!
# Commands

The commands of the command line and what it can be asked for. Each command edits one file; most
look for a target in it, and most insert lines.
-/

namespace Linework

inductive Command where
  | append
  | unshift
  | replaceFirst
  | replaceLast
  | injectBefore
  | injectAfter
  | removeLine
  | injectBlockTop
  | injectBlockBottom
  | removeBlock
  | injectClassBottom
  deriving DecidableEq, Repr

namespace Command

def all : List Command :=
  [append, unshift, replaceFirst, replaceLast, injectBefore, injectAfter, removeLine, injectBlockTop,
    injectBlockBottom, removeBlock, injectClassBottom]

def name : Command → String
  | append => "append"
  | unshift => "unshift"
  | replaceFirst => "replace-first"
  | replaceLast => "replace-last"
  | injectBefore => "inject-before"
  | injectAfter => "inject-after"
  | removeLine => "remove-line"
  | injectBlockTop => "inject-block-top"
  | injectBlockBottom => "inject-block-bottom"
  | removeBlock => "remove-block"
  | injectClassBottom => "inject-class-bottom"

def ofName? (t : Text) : Option Command := all.find? fun command => Text.lit command.name = t

/-- Whether a command looks for a target. -/
def hasTarget : Command → Bool
  | append | unshift => false
  | _ => true

/-- Whether a command inserts lines. -/
def hasContents : Command → Bool
  | removeLine | removeBlock => false
  | _ => true

/-- Whether a command can be told to look for the last line. -/
def hasLast : Command → Bool
  | injectBefore | injectAfter => true
  | _ => false

/-- The edit of a command. -/
def edit (which : Occurrence) (target : Target) (contents : List Text) : Command → Edit
  | append => .append contents
  | unshift => .prepend contents
  | replaceFirst => .replace .first target contents
  | replaceLast => .replace .last target contents
  | injectBefore => .insert which .before target contents
  | injectAfter => .insert which .after target contents
  | removeLine => .remove target
  | injectBlockTop => .insertBlockTop target contents
  | injectBlockBottom => .insertBlockBottom target contents
  | removeBlock => .removeBlock target
  | injectClassBottom => .insertClassBottom target contents

/-- What is said of an edit that was done, between its verb, the target and the file. -/
def report (target path : Text) : Command → Text
  | append => Text.lit "Appended to " ++ path
  | unshift => Text.lit "Prepended to " ++ path
  | replaceFirst => said "Replaced first" "in"
  | replaceLast => said "Replaced last" "in"
  | injectBefore => said "Injected before" "in"
  | injectAfter => said "Injected after" "in"
  | removeLine => said "Removed" "from"
  | injectBlockTop => said "Injected at top of" "in"
  | injectBlockBottom => said "Injected at bottom of" "in"
  | removeBlock => said "Removed block" "from"
  | injectClassBottom => said "Injected at bottom of class" "in"
where
  /-- A verb, the target and the file. -/
  said (verb joint : String) : Text :=
    Text.lit verb ++ Text.lit " '" ++ target ++ Text.lit "' " ++ Text.lit joint ++ (' ' : CodePoint) :: path

end Command

/-- Arguments that cannot be understood. -/
inductive UsageFault where
  | unknownSwitch
  | unwantedValue
  | missingValue
  | noCommand
  | unknownCommand
  | missingArgument
  | extraArgument
  deriving DecidableEq, Repr

/-- An edit that the command line asks for. -/
structure Request where
  command : Command
  path : Text
  target : Text := []
  contents : List Text := []
  regex : Bool := false
  which : Occurrence := .first
  config : Option Text := none
  verbose : Bool := false
  deriving DecidableEq, Repr

/-- What the arguments ask for. -/
inductive Invocation where
  | misused (fault : UsageFault)
  | help
  | version
  | edit (request : Request)
  deriving DecidableEq, Repr

end Linework
