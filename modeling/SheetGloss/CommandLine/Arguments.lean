import SheetGloss.CommandLine.Command
import SheetGloss.Text.Digits

/-!
# Arguments

How the arguments of the program are read. Switches may stand before, between and after the other
arguments. A switch with a long name takes its value from after an equals sign or from the next
argument, one with a short name also from the rest of its argument. After two dashes alone nothing
is a switch.
-/

namespace SheetGloss.CommandLine

/-- A switch of some command. -/
inductive Switch where
  | sheet
  | index
  | all
  | appendDuplicates
  | json
  | verbose
  | help
  | version
  deriving DecidableEq, Repr

namespace Switch

/-- The name after two dashes. -/
def long : Switch → Text
  | sheet => Text.lit "sheet"
  | index => Text.lit "index"
  | all => Text.lit "all"
  | appendDuplicates => Text.lit "append-duplicates"
  | json => Text.lit "json"
  | verbose => Text.lit "verbose"
  | help => Text.lit "help"
  | version => Text.lit "version"

/-- The letter after one dash. -/
def short? : Switch → Option Char
  | sheet => some 's'
  | index => some 'i'
  | all => some 'a'
  | verbose => some 'v'
  | help => some 'h'
  | version => some 'V'
  | _ => none

/-- Whether a switch needs a value. -/
def takesValue : Switch → Bool
  | sheet => true
  | index => true
  | _ => false

/-- Whether a switch may stand more than once. -/
def mayRepeat : Switch → Bool
  | verbose => true
  | _ => false

end Switch

namespace Topic

/-- The commands, in the order in which they are listed. -/
def commands : List Topic := [sheets, explain, request, help]

/-- The name of a command. The program itself is called without one. -/
def name : Topic → Text
  | program => []
  | sheets => Text.lit "sheets"
  | explain => Text.lit "explain"
  | request => Text.lit "request"
  | help => Text.lit "help"

/-- The command of a name. -/
def ofName? (name : Text) : Option Topic := commands.find? (·.name == name)

/-- The switches of a command, or those before it, in the order in which they are listed. -/
def switches : Topic → List Switch
  | program => [.verbose, .help, .version]
  | explain => [.sheet, .verbose, .index, .all, .appendDuplicates, .json, .help]
  | sheets | request => [.verbose, .help]
  | help => []

end Topic

/-- Why reading the arguments ends early. -/
inductive Stop where
  | misused
  | version
  | help (topic : Topic)
  deriving DecidableEq, Repr

/-- What the arguments of a command said so far. -/
structure Settings where
  /-- The command, or the program while no command has been named. -/
  topic : Topic
  input : Option Text
  sheet : Option Text
  index : Option Nat
  all : Bool
  appendDuplicates : Bool
  json : Bool
  deriving DecidableEq, Repr

namespace Settings

/-- Nothing said yet. -/
def start (topic : Topic) : Settings := ⟨topic, none, none, none, false, false, false⟩

/-- Takes an argument that is no switch: the input file, once, and not the empty text. -/
def takeInput (settings : Settings) (argument : Text) : Except Stop Settings :=
  if settings.input.isSome || argument.isEmpty then .error .misused
  else .ok { settings with input := some argument }

/-- Takes a switch, with its value if it needs one. Only `verbose` may be repeated. -/
def takeSwitch (settings : Settings) (switch : Switch) (value : Text) : Except Stop Settings :=
  match switch with
  | .sheet =>
    if settings.sheet.isSome then .error .misused else .ok { settings with sheet := some value }
  | .index =>
    match settings.index, Text.index? value with
    | none, some index => .ok { settings with index := some index }
    | _, _ => .error .misused
  | .all => if settings.all then .error .misused else .ok { settings with all := true }
  | .appendDuplicates =>
    if settings.appendDuplicates then .error .misused
    else .ok { settings with appendDuplicates := true }
  | .json => if settings.json then .error .misused else .ok { settings with json := true }
  | .verbose => .ok settings
  | .help => .error (.help settings.topic)
  | .version => .error .version

/-- The selection of sheets; at most one way to select may have been used. -/
def selection (settings : Settings) : Except Stop Selection :=
  match settings.sheet, settings.index, settings.all with
  | none, none, false => .ok .first
  | some name, none, false => .ok (.named name)
  | none, some index, false => .ok (.at index)
  | none, none, true => .ok .all
  | _, _, _ => .error .misused

end Settings

/-- Whether an argument looks like a switch: a dash and more. -/
def isSwitch : Text → Bool
  | '-' :: _ :: _ => true
  | _ => false

/-- Takes the switches of one argument with short names. The last one may still need a value. -/
def takeShort (settings : Settings) : Text → Except Stop (Settings × Option Switch)
  | [] => .ok (settings, none)
  | c :: rest =>
    match settings.topic.switches.find? (·.short? == some c) with
    | none => .error .misused
    | some switch =>
      if switch.takesValue then
        match rest with
        | [] => .ok (settings, some switch)
        | '=' :: value => do return (← settings.takeSwitch switch value, none)
        | value => do return (← settings.takeSwitch switch value, none)
      else do
        let settings ← settings.takeSwitch switch []
        takeShort settings rest

/-- Takes a switch with a long name, which may still need a value. -/
def takeLong (settings : Settings) (argument : Text) :
    Except Stop (Settings × Option Switch) :=
  let (name, value) := Text.splitFirst '=' argument
  match settings.topic.switches.find? (·.long == name) with
  | none => .error .misused
  | some switch =>
    match switch.takesValue, value with
    | true, some value => do return (← settings.takeSwitch switch value, none)
    | true, none => .ok (settings, some switch)
    | false, none => do return (← settings.takeSwitch switch [], none)
    | false, some _ => .error .misused

/-- Reads the arguments of a command, when `waiting` is a switch that needs the next one. -/
def readArguments (settings : Settings) (waiting : Option Switch) :
    List Text → Except Stop Settings
  | [] => if waiting.isSome then .error .misused else .ok settings
  | argument :: rest =>
    match waiting with
    | some switch =>
      if isSwitch argument then .error .misused
      else do
        let settings ← settings.takeSwitch switch argument
        readArguments settings none rest
    | none =>
      match argument with
      | ['-', '-'] => rest.foldlM Settings.takeInput settings
      | '-' :: '-' :: long => do
        let (settings, waiting) ← takeLong settings long
        readArguments settings waiting rest
      | '-' :: c :: short => do
        let (settings, waiting) ← takeShort settings (c :: short)
        readArguments settings waiting rest
      | _ => do
        let settings ← settings.takeInput argument
        readArguments settings none rest

/-- Reads the arguments of the command that gives help: the names of commands. No command has
commands of its own. -/
def readHelp : List Text → Stop
  | [] => .help .program
  | [name] => (Topic.ofName? name).elim .misused .help
  | _ => .misused

/-- The command that settings ask for. -/
def Settings.command (settings : Settings) : Except Stop Command := do
  let selection ← settings.selection
  match settings.topic, settings.input with
  | .sheets, some input => return .sheets input
  | .explain, some input =>
    return .explain input selection
      (if settings.appendDuplicates then .append else .overwrite) settings.json
  | .request, input => return .request input
  | _, _ => .error .misused

/-- Reads the arguments of the program: switches, then a command. -/
def readProgram : List Text → Except Stop Command
  | [] => .error .misused
  | argument :: rest =>
    match argument with
    | ['-', '-'] => .error .misused
    | '-' :: '-' :: long => do
      let _ ← takeLong (.start .program) long
      readProgram rest
    | '-' :: c :: short => do
      let _ ← takeShort (.start .program) (c :: short)
      readProgram rest
    | name =>
      match Topic.ofName? name with
      | none => .error .misused
      | some .help => .error (readHelp rest)
      | some topic => do
        let settings ← readArguments (.start topic) none rest
        settings.command

/-- What the arguments of the program ask for, nothing when they cannot be understood. -/
def Invocation.ofArguments? (arguments : List Text) : Option Invocation :=
  match readProgram arguments with
  | .ok command => some (.run command)
  | .error .version => some .version
  | .error (.help topic) => some (.help topic)
  | .error .misused => none

end SheetGloss.CommandLine
