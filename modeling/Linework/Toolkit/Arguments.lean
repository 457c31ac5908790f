import Linework.Command.Basic

/-!
# Arguments

A parser of arguments: what the arguments of the command line ask for. Options of the program come
in front of the command, options of a command anywhere behind it, and a double dash ends either. An
option is written with its long name, or with its letter among others behind one dash; a value
stands behind the name or is the next argument.
-/

namespace Linework

inductive Switch where
  | version
  | verbose
  | help
  | regex
  | last
  | config
  deriving DecidableEq, Repr

namespace Switch

/-- The long name, and the letter if there is one. -/
def names : Switch → String × Option CodePoint
  | version => ("version", some ('v' : CodePoint))
  | verbose => ("verbose", none)
  | help => ("help", none)
  | regex => ("regex", some ('e' : CodePoint))
  | last => ("last", none)
  | config => ("config", some ('c' : CodePoint))

def takesValue (switch : Switch) : Bool := switch = config

/-- The switches in front of a command. -/
def general : List Switch := [version, verbose, help]

/-- The switches of a command. -/
def ofCommand (command : Command) : List Switch :=
  (if command.hasTarget then [regex] else []) ++ (if command.hasLast then [last] else []) ++
    [config, help]

end Switch

/-- A switch that was set, with its value. -/
abbrev Setting := Switch × Text

namespace Arguments

/-- What one argument says: switches, and perhaps one more that still needs its value. -/
structure Reading where
  settings : List Setting := []
  open? : Option Switch := none

/-- A long name, with a value behind an equals sign. -/
def readLong (switches : List Switch) (t : Text) : Except UsageFault Reading :=
  let (name, value) : Text × Option Text :=
    match Text.cut? ['='] t with
    | none => (t, none)
    | some (front, back) => (front, some back)
  match switches.find? (fun switch => Text.lit switch.names.1 = name), value with
  | none, _ => .error .unknownSwitch
  | some switch, some value =>
    if switch.takesValue then .ok { settings := [(switch, value)] } else .error .unwantedValue
  | some switch, none =>
    if switch.takesValue then .ok { open? := some switch } else .ok { settings := [(switch, [])] }

/-- Letters behind one dash; what is behind the letter of a switch with a value is the value. -/
def readShort (switches : List Switch) : Text → Except UsageFault Reading
  | [] => .ok {}
  | c :: rest =>
    match switches.find? fun switch => switch.names.2 = some c with
    | none => .error .unknownSwitch
    | some switch =>
      if switch.takesValue then
        .ok (if rest = [] then { open? := some switch } else { settings := [(switch, rest)] })
      else do
        let more ← readShort switches rest
        return { more with settings := (switch, []) :: more.settings }

/-- Whether an argument names switches; a lone dash does not. -/
def isSwitch : Text → Bool
  | '-' :: _ :: _ => true
  | _ => false

def readSwitch (switches : List Switch) : Text → Except UsageFault Reading
  | '-' :: '-' :: name => readLong switches name
  | '-' :: letters => readShort switches letters
  | _ => .ok {}

/-- Puts switches in front of those found later. -/
def after (settings : List Setting) (later : List Setting × List Text) :
    List Setting × List Text :=
  (settings ++ later.1, later.2)

/-- The switches among arguments, and the arguments left; `open?` takes the first argument as its
value. Where `spread` is unset the first argument that is no switch ends the search. -/
def read (switches : List Switch) (spread : Bool) (open? : Option Switch) :
    List Text → Except UsageFault (List Setting × List Text)
  | [] => if open?.isSome then .error .missingValue else .ok ([], [])
  | arg :: rest =>
    match open? with
    | some switch => return after [(switch, arg)] (← read switches spread none rest)
    | none =>
      if arg = (['-', '-'] : Text) then .ok ([], rest)
      else if isSwitch arg then do
        let reading ← readSwitch switches arg
        return after reading.settings (← read switches spread reading.open? rest)
      else if spread then do
        let (settings, left) ← read switches spread none rest
        return (settings, arg :: left)
      else .ok ([], arg :: rest)

def isSet (switch : Switch) (settings : List Setting) : Bool :=
  settings.any fun setting => setting.1 = switch

/-- The value of a switch, the last one given. -/
def value? (switch : Switch) (settings : List Setting) : Option Text :=
  (settings.reverse.find? fun setting => setting.1 = switch).map (·.2)

/-- The positional arguments of a command: the file, the target, and one line or more. -/
def positional (command : Command) (args : List Text) :
    Except UsageFault (Text × Text × List Text) :=
  match args with
  | [] => .error .missingArgument
  | path :: rest =>
    let target : Except UsageFault (Text × List Text) :=
      if !command.hasTarget then .ok ([], rest)
      else match rest with
        | [] => .error .missingArgument
        | target :: rest => .ok (target, rest)
    match target with
    | .error fault => .error fault
    | .ok (target, contents) =>
      if command.hasContents && contents = [] then .error .missingArgument
      else if !command.hasContents && contents ≠ [] then .error .extraArgument
      else .ok (path, target, contents)

/-- The edit a command is asked for. -/
def request (verbose : Bool) (command : Command) (args : List Text) : Invocation :=
  match read (Switch.ofCommand command) true none args with
  | .error fault => .misused fault
  | .ok (settings, args) =>
    if isSet .help settings then .help
    else match positional command args with
      | .error fault => .misused fault
      | .ok (path, target, contents) =>
        .edit
          { command, path, target, contents, verbose, regex := isSet .regex settings,
            which := if isSet .last settings then .last else .first,
            config := value? .config settings }

/-- What a program without a command is asked for: the first of the switches that answer at
once. -/
def immediate? (settings : List Setting) : Option Invocation :=
  settings.findSome? fun setting =>
    match setting.1 with
    | .version => some .version
    | .help => some .help
    | _ => none

/-- What the arguments ask for. -/
def parse (args : List Text) : Invocation :=
  match read Switch.general false none args with
  | .error fault => .misused fault
  | .ok (settings, rest) =>
    match immediate? settings, rest with
    | some invocation, _ => invocation
    | none, [] => .misused .noCommand
    | none, name :: rest =>
      match Command.ofName? name with
      | none => .misused .unknownCommand
      | some command => request (isSet .verbose settings) command rest

end Arguments

end Linework
