import SheetGloss.CommandLine.Arguments

/-!
# Help

What the program says about itself. A page of help tells what a command is for and how it is called,
and has a table for each kind of its arguments. The tables are made from the switches and the names
that are understood.
-/

namespace SheetGloss.CommandLine

/-- The name of the program. -/
def programName : Text := Text.lit "formula-explain"

/-- The name and the version of the program. -/
def versionLine : Text := programName ++ Text.lit " 0.1.0\n"

/-- What a switch does. -/
def Switch.about : Switch → Text
  | sheet => Text.lit "Sheet name to explain"
  | index => Text.lit "Sheet index to explain (0-based, default: 0)"
  | all => Text.lit "Explain every sheet"
  | appendDuplicates => Text.lit "Keep one row per formula instead of one per header"
  | json => Text.lit "Print JSON instead of `header = interpretation` lines"
  | verbose => Text.lit "Log skipped formulas and cache statistics (repeat for more detail)"
  | help => Text.lit "Print help"
  | version => Text.lit "Print version"

/-- How a switch is written: its names, then its value, or dots when it may be repeated. -/
def Switch.form (switch : Switch) : Text :=
  (switch.short?.elim (Text.lit "    ") fun c => ['-', c, ',', ' ']) ++
    Text.lit "--" ++ switch.long ++
    (if switch.takesValue then Text.lit " <" ++ switch.long.map Char.toUpper ++ ['>'] else []) ++
    (if switch.mayRepeat then Text.lit "..." else [])

namespace Topic

/-- What a command is for. -/
def about : Topic → Text
  | program => Text.lit "Explain spreadsheet formulas in terms of their column headers"
  | sheets => Text.lit "List all sheets in a workbook"
  | explain => Text.lit "Explain the formulas of a sheet"
  | request => Text.lit "Answer a JSON request of formulas and headers"
  | help => Text.lit "Print this message or the help of the given subcommand(s)"

/-- The argument of a command that is no switch, and what it is. -/
def argument? : Topic → Option (Text × Text)
  | program => none
  | sheets | explain =>
    some (Text.lit "<INPUT>", Text.lit "Input spreadsheet file (xlsx, xlsm, csv)")
  | request => some (Text.lit "[INPUT]", Text.lit "Request file (default: stdin)")
  | help => some (Text.lit "[COMMAND]...", Text.lit "Print help for the subcommand(s)")

/-- The commands of a command; only the program has some. -/
def subtopics : Topic → List Topic
  | program => commands
  | _ => []

/-- The words of a call of a command. -/
def call (topic : Topic) : List Text :=
  [Text.lit "Usage:", programName] ++
    (if topic = program then [] else [topic.name]) ++
    (if topic.switches.isEmpty then [] else [Text.lit "[OPTIONS]"]) ++
    (topic.argument?.map (·.1)).toList ++
    (if topic.subtopics.isEmpty then [] else [Text.lit "<COMMAND>"])

end Topic

/-- A table with a title, and what it says about each thing in a second column. -/
def helpTable (title : Text) (rows : List (Text × Text)) : Text :=
  let width := (rows.map fun row => row.1.length).foldl max 0
  title ++ Text.lit ":\n" ++ rows.flatMap fun (form, about) =>
    Text.lit "  " ++ form.rightpad width ' ' ++ Text.lit "  " ++ about ++ ['\n']

/-- The page of help about a command. Tables without rows are left out. -/
def Topic.page (topic : Topic) : Text :=
  let tables : List (Text × List (Text × Text)) :=
    [(Text.lit "Commands", topic.subtopics.map fun command => (command.name, command.about)),
      (Text.lit "Arguments", topic.argument?.toList),
      (Text.lit "Options", topic.switches.map fun switch => (switch.form, switch.about))]
  let shown := (tables.filter fun table => !table.2.isEmpty).map fun table =>
    helpTable table.1 table.2
  topic.about ++ Text.lit "\n\n" ++ [' '].intercalate topic.call ++ Text.lit "\n\n" ++
    ['\n'].intercalate shown

end SheetGloss.CommandLine
