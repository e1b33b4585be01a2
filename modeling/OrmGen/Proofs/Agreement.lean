/-
  Computations that end alike. Two computations agree if both succeed, with results that are
  related, or both fail, with errors that are (`Agree`). Agreement is kept by going on alike
  from related results (`Agree.bind`), so programs that differ only where it does not matter
  are compared step by step.
-/
import OrmGen.Proofs.Traversal

namespace OrmGen

variable {ε α β : Type} {E : ε → ε → Prop} {R : α → α → Prop} {S : β → β → Prop}

/-- Both computations succeed with results related by `R`, or both fail with errors related by
`E`. -/
inductive Agree (E : ε → ε → Prop) (R : α → α → Prop) : Except ε α → Except ε α → Prop where
  | ok {a a' : α} : R a a' → Agree E R (.ok a) (.ok a')
  | error {err err' : ε} : E err err' → Agree E R (.error err) (.error err')

namespace Agree

variable {x x' : Except ε α} {f f' : α → Except ε β}

theorem refl (hE : ∀ err, E err err) (hR : ∀ a, R a a) (x : Except ε α) : Agree E R x x := by
  cases x with
  | ok a => exact .ok (hR a)
  | error err => exact .error (hE err)

theorem bind (h : Agree E R x x') (hf : ∀ a a', R a a' → Agree E S (f a) (f' a')) :
    Agree E S (x >>= f) (x' >>= f') := by
  cases h with
  | ok hR => exact hf _ _ hR
  | error hE => exact .error hE

/-- Going on alike from the same results. -/
theorem bind_eq (h : Agree E Eq x x') (hf : ∀ a, Agree E S (f a) (f' a)) :
    Agree E S (x >>= f) (x' >>= f') :=
  h.bind fun a _ ha => ha ▸ hf a

theorem map {g g' : α → β} (h : Agree E R x x') (hg : ∀ a a', R a a' → S (g a) (g' a')) :
    Agree E S (x.map g) (x'.map g') := by
  cases h with
  | ok hR => exact .ok (hg _ _ hR)
  | error hE => exact .error hE

/-- Computations that differ in their results up to `p` only. -/
theorem of_map_eq {p : α → β} (hE : ∀ err, E err err) (h : x'.map p = x.map p) :
    Agree E (fun a a' => p a' = p a) x x' := by
  cases x with
  | error err =>
    obtain rfl := map_eq_error.1 h
    exact .error (hE err)
  | ok a =>
    obtain ⟨a', rfl, ha'⟩ := map_eq_ok.1 h
    exact .ok ha'

/-- Computations that fail with the same errors agree exactly if they are the same up to `p`. -/
theorem map_eq {p : α → β} (h : Agree Eq (fun a a' => p a' = p a) x x') :
    x'.map p = x.map p := by
  cases h with
  | ok ha => exact congrArg Except.ok ha
  | error herr => exact congrArg Except.error herr.symm

/-- Computations that agree on their results have one result or fail alike. -/
theorem cases_eq (h : Agree E Eq x x') : (∃ a, x = .ok a ∧ x' = .ok a) ∨
    ∃ err err', x = .error err ∧ x' = .error err' ∧ E err err' := by
  cases h with
  | ok ha => exact .inl ⟨_, rfl, congrArg Except.ok ha.symm⟩
  | error herr => exact .inr ⟨_, _, rfl, rfl, herr⟩

end Agree
end OrmGen
