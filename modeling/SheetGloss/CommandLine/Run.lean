import SheetGloss.CommandLine.Help
import SheetGloss.Exchange.Codec
import SheetGloss.File.Open

/-!
# Running a command

The output of a command, or the report of why it failed. A command that fails writes nothing but the
report.
-/

namespace SheetGloss.CommandLine

/-- Why a command failed. -/
inductive Failure where
  | cannotOpen (path : Text) (error : OpenError)
  | noSheets
  | noSheetNamed (name : Text)
  /-- No sheet has the index; the workbook has `count` sheets. -/
  | noSheetAt (index count : Nat)
  | readFile (path : Text) (fault : FileFault)
  | readInput
  /-- The request is not the JSON form of one. -/
  | notRequest
  deriving DecidableEq, Repr

/-- The wording for bytes that are not text. -/
def notUtf8 : String := "stream did not contain valid UTF-8"

/-- The wording of a failure, and of its cause when that is told. -/
def Failure.message : Failure → String × Option String
  | cannotOpen path error => ("Failed to open " ++ Text.inQuotes path, some error.message)
  | noSheets => ("Workbook has no sheets", none)
  | noSheetNamed name => ("Sheet " ++ Text.inQuotes name ++ " not found", none)
  | noSheetAt index count =>
    ("Sheet index " ++ toString index ++ " not found (" ++ toString count ++ " sheet(s))", none)
  | readFile path fault => ("Failed to read " ++ Text.inQuotes path, some fault.message)
  | readInput => ("Failed to read request from stdin", some notUtf8)
  | notRequest => ("Failed to parse formula request", none)

/-- The lines of the report of a failure. -/
def Failure.report (failure : Failure) : List Text :=
  let (message, cause) := failure.message
  Text.lines (Text.lit "Error: " ++ message.toList) ++
    match cause with
    | none => []
    | some cause =>
      [] :: Text.lit "Caused by:" :: (Text.lines cause.toList).map (Text.lit "    " ++ ·)

/-- The sheet of a selection of one. -/
def selectSheet (book : Workbook) (selection : Selection) : Except Failure Sheet :=
  if book.sheets.isEmpty then .error .noSheets
  else
    match selection with
    | .named name =>
      match book.sheetNamed? name with
      | some sheet => .ok sheet
      | none => .error (.noSheetNamed name)
    | .at index =>
      match book.sheet? index with
      | some sheet => .ok sheet
      | none => .error (.noSheetAt index book.sheets.length)
    | _ =>
      match book.sheet? 0 with
      | some sheet => .ok sheet
      | none => .error (.noSheetAt 0 book.sheets.length)

/-- The heading and the lines of a sheet. -/
def sheetText (sheet : Text × List Explanation) : Text :=
  '[' :: (sheet.1 ++ [']', '\n']) ++ Explanation.report sheet.2

/-- The sheets one after another, with an empty line between two. -/
def sheetsText (sheets : List (Text × List Explanation)) : Text :=
  ['\n'].intercalate (sheets.map sheetText)

/-- An explanation with its fields in the order of their names. -/
def sortedJson (e : Explanation) : Json :=
  .record [("formula", .ofText e.gloss), ("header", .ofText e.header)]

/-- The sheets as a list of objects, with fields in the order of their names. -/
def sheetsJson (sheets : List (Text × List Explanation)) : Json :=
  .array (sheets.map fun (name, rows) =>
    .record [("formulas", .array (rows.map sortedJson)), ("sheet", .ofText name)])

/-- The output for a workbook that was opened. -/
def explainBook (book : Workbook) (selection : Selection) (repeats : Repeats) (json : Bool) :
    Except Failure Text :=
  if selection = .all then
    let sheets := book.explainAll repeats
    .ok (if json then (sheetsJson sheets).pretty 0 ++ ['\n'] else sheetsText sheets)
  else do
    let sheet ← selectSheet book selection
    let rows := sheet.explain repeats
    return if json then (Answer.toJson ⟨rows⟩).pretty 0 ++ ['\n'] else Explanation.report rows

/-- A line for each sheet: its index, a tab and its name. -/
def listSheets (book : Workbook) : Text :=
  book.names.zipIdx.flatMap fun (name, index) => Text.ofNat index ++ '\t' :: name ++ ['\n']

/-- The answer to a request in JSON. -/
def respond (source : Text) : Except Failure Answer :=
  match (Json.parse? source).bind Request.ofJson? with
  | some request => .ok (request.answer .overwrite)
  | none => .error .notRequest

/-- The text of a request, from its file or from the standard input. -/
def requestText (read : FileReader) (stdin : Bytes) (input : Option Text) : Except Failure Text :=
  let fromStdin : Except Failure Text :=
    match Utf8.text? stdin with
    | some s => .ok s
    | none => .error .readInput
  match input with
  | none => fromStdin
  | some path =>
    if path = ['-'] then fromStdin
    else
      match read path with
      | .error fault => .error (.readFile path fault)
      | .ok bytes =>
        match Utf8.text? bytes with
        | some s => .ok s
        | none => .error (.readFile path (.other notUtf8))

/-- Opens a workbook for a command. -/
def openBook (read : FileReader) (path : Text) : Except Failure Workbook :=
  match Workbook.open? read path with
  | .ok book => .ok book
  | .error error => .error (.cannotOpen path error)

/-- The output of a command. -/
def Command.output (command : Command) (read : FileReader) (stdin : Bytes) : Except Failure Text :=
  match command with
  | .sheets input => do return listSheets (← openBook read input)
  | .explain input selection repeats json => do
    explainBook (← openBook read input) selection repeats json
  | .request input => do
    let answer ← respond (← requestText read stdin input)
    return answer.toJson.compact ++ ['\n']

/-- How the program ends. -/
structure Outcome where
  exitCode : Nat
  output : Text
  report : List Text
  deriving DecidableEq, Repr

/-- What the program reads before it can answer. -/
inductive Input where
  | none
  | file (path : Text)
  | standard
  deriving DecidableEq, Repr

/-- The input of a command. -/
def Command.input : Command → Input
  | .sheets path => .file path
  | .explain path _ _ _ => .file path
  | .request (some path) => if path = ['-'] then .standard else .file path
  | .request none => .standard

/-- The input of the program. -/
def inputOf (arguments : List Text) : Input :=
  match Invocation.ofArguments? arguments with
  | some (.run command) => command.input
  | _ => .none

/-- Runs the program. Arguments that cannot be understood end it with the code 2. -/
def run (arguments : List Text) (read : FileReader) (stdin : Bytes) : Outcome :=
  match Invocation.ofArguments? arguments with
  | none => ⟨2, [], []⟩
  | some .version => ⟨0, versionLine, []⟩
  | some (.help topic) => ⟨0, topic.page, []⟩
  | some (.run command) =>
    match command.output read stdin with
    | .ok output => ⟨0, output, []⟩
    | .error failure => ⟨1, [], failure.report⟩

end SheetGloss.CommandLine
