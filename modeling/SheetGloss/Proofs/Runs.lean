import Mathlib.Tactic.Lemma

/-!
# Runs

Computations that can be refused, one after another: what is known of a part of a run that is
carried out, and the state that a computation in place leaves behind.
-/

namespace SheetGloss

/-! ### Results -/

lemma exists_of_bind_eq_ok {ε α β : Type} {x : Except ε α} {f : α → Except ε β} {b : β}
    (h : x >>= f = .ok b) : ∃ a, x = .ok a ∧ f a = .ok b := by
  cases x with
  | error e => cases h
  | ok a => exact ⟨a, rfl, h⟩

lemma eq_ok_of_toOption {ε α : Type} {x : Except ε α} {a : α} (h : x.toOption = some a) :
    x = .ok a := by
  cases x with
  | error e => cases h
  | ok b => exact congrArg Except.ok (Option.some.inj h)

/-! ### Steps -/

section Steps

variable {m : Type → Type} [Monad m] [LawfulMonad m] {σ α : Type} {f : σ → α → m σ} {s s' : σ}
  {a : α} {k l : List α}

lemma foldlM_cons_of_pure (h : f s a = pure s') : (a :: l).foldlM f s = l.foldlM f s' := by
  rw [List.foldlM_cons, h, pure_bind]

lemma foldlM_append_of_pure (h : k.foldlM f s = pure s') :
    (k ++ l).foldlM f s = l.foldlM f s' := by
  rw [List.foldlM_append, h, pure_bind]

end Steps

/-! ### Computations in place -/

section InPlace

variable {ε σ α : Type} {state left next : σ} {x : Except ε (σ × α)} {a : α} {error : ε}

/-- The state that a computation leaves behind, also when it is refused. -/
def stateAfter (call : EStateM ε σ α) (state : σ) : σ :=
  match call state with
  | .ok _ left => left
  | .error _ left => left

/-- A result on a state as the result of a computation that leaves the state as it was when it is
refused. -/
def inPlace (state : σ) : Except ε (σ × α) → EStateM.Result ε σ α
  | .ok (next, a) => .ok a next
  | .error error => .error error state

end InPlace

end SheetGloss
