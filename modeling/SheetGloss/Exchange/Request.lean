import SheetGloss.Gloss.Pass

/-!
# Requests and answers

A request carries the formulas of one sheet as texts, and its header labels; the answer lists the
explanations.
-/

namespace SheetGloss

/-- Formulas and headers of one sheet. -/
structure Request where
  /-- Formulas, each as an address, an equals sign and an expression. -/
  formulas : List Text
  headers : List Text
  deriving DecidableEq, Repr

/-- The explanations for a request. -/
structure Answer where
  rows : List Explanation
  deriving DecidableEq, Repr

/-- Answers a request with a fresh memo. -/
def Request.answer (request : Request) (repeats : Repeats) : Answer :=
  ⟨explainTexts request.formulas (HeaderRow.ofList request.headers) repeats⟩

end SheetGloss
