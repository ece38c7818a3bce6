import SheetGloss.Text.Basic
import Std.Data.HashMap

/-!
# Memo of glosses

The glosses already worked out in one pass over one sheet, by formula text, and a tally of how the
formulas were answered. Labels differ between sheets, so a memo belongs to one sheet.
-/

namespace SheetGloss

/-- How the formulas of a pass were answered. -/
structure Tally where
  hits : Nat
  computed : Nat
  skipped : Nat
  deriving DecidableEq, Repr

/-- Glosses by formula text, with a tally. -/
structure Memo where
  glosses : Std.HashMap Text Text
  tally : Tally

namespace Memo

/-- Nothing known, nothing counted. -/
def empty : Memo := ⟨∅, ⟨0, 0, 0⟩⟩

/-- Looks a formula up, and counts a hit when its gloss is known. -/
def find (memo : Memo) (expression : Text) : Option Text × Memo :=
  match memo.glosses[expression]? with
  | some gloss => (some gloss, { memo with tally.hits := memo.tally.hits + 1 })
  | none => (none, memo)

/-- Stores a gloss that was worked out. -/
def insert (memo : Memo) (expression gloss : Text) : Memo :=
  { glosses := memo.glosses.insert expression gloss
    tally := { memo.tally with computed := memo.tally.computed + 1 } }

/-- Counts a formula without a gloss. -/
def skip (memo : Memo) : Memo := { memo with tally.skipped := memo.tally.skipped + 1 }

/-- Whether the gloss of a formula is known. -/
def contains (memo : Memo) (expression : Text) : Bool := memo.glosses.contains expression

/-- The number of known glosses. -/
def size (memo : Memo) : Nat := memo.glosses.size

end Memo

end SheetGloss
