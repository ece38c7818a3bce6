import SheetGloss.Text.Basic

/-!
# Paths

The parts of a path between its slashes, and the extension of its last part.
-/

namespace SheetGloss.Path

/-- The parts of a path that name something: not those that are empty or a single dot. -/
def parts (path : Text) : List Text :=
  (Text.splitAll '/' path).filter fun part => part ≠ [] && part ≠ ['.']

/-- What follows the last dot of a file's name; a dot at the front only hides the file. -/
def extensionOfName? (name : Text) : Option Text :=
  if name = Text.lit ".." then none
  else
    match Text.splitFirst '.' name.reverse with
    | (_, none) => none
    | (_, some []) => none
    | (ending, some _) => some ending.reverse

/-- The extension of a path, in lower case. -/
def extension? (path : Text) : Option Text :=
  ((parts path).getLast?.bind extensionOfName?).map Text.lower

end SheetGloss.Path
