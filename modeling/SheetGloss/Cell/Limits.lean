/-!
# Limits of a sheet

The size of a sheet, shared by addresses, stored cells and readers.
-/

namespace SheetGloss

/-- The number of rows of a sheet. -/
def maxRows : Nat := 1048576

/-- The number of columns of a sheet: `A` to `XFD`. -/
def maxColumns : Nat := 16384

/-- The greatest number of characters in a sheet's name. -/
def maxNameLength : Nat := 31

end SheetGloss
