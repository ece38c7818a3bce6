import SheetGloss.Gloss.Pass

/-!
# Commands

What the program can be asked to do.
-/

namespace SheetGloss.CommandLine

/-- Which sheets of a workbook to explain. -/
inductive Selection where
  | first
  | named (name : Text)
  | at (index : Nat)
  | all
  deriving DecidableEq, Repr

/-- What the program is asked to do. -/
inductive Command where
  | sheets (input : Text)
  /-- Explain the formulas of a workbook, as lines or as JSON. -/
  | explain (input : Text) (selection : Selection) (repeats : Repeats) (json : Bool)
  /-- Answer a request, from a file or from the standard input. -/
  | request (input : Option Text)
  deriving DecidableEq, Repr

/-- What help is given about: the program or one of its commands. -/
inductive Topic where
  | program
  | sheets
  | explain
  | request
  | help
  deriving DecidableEq, Repr

/-- What the arguments of the program ask for. -/
inductive Invocation where
  | run (command : Command)
  | version
  | help (topic : Topic)
  deriving DecidableEq, Repr

end SheetGloss.CommandLine
