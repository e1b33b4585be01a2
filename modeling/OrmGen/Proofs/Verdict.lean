/-
  Verdicts. A computation is decided by a condition and by a relation of faults when it
  succeeds exactly under the condition and fails exactly with the errors that are faults
  (`DecidedBy`). Steps made one after another are decided step by step (`DecidedBy.bind`),
  and what is done to each element of a list, up to the first failure, by the elements: it
  succeeds if all of them are good, and fails with the fault of the first one that is not
  (`FirstFault`, `OrderedMap.traverse_decidedBy`).
-/
import OrmGen.Proofs.Traversal

namespace OrmGen

universe u v

variable {ε : Type} {err : ε}

/-- The computation `x` succeeds exactly if `good` holds, and its errors are exactly those for
which `fault` holds. -/
structure DecidedBy {α : Type u} (x : Except ε α) (good : Prop) (fault : ε → Prop) : Prop where
  ok_iff : (∃ a, x = .ok a) ↔ good
  error_iff : ∀ {err}, x = .error err ↔ fault err

/-- `err` is the fault of the first element that is not good. -/
def FirstFault {α : Type u} (good : α → Prop) (fault : α → ε → Prop) (xs : List α) (err : ε) :
    Prop :=
  ∃ pre x post, xs = pre ++ x :: post ∧ (∀ y ∈ pre, good y) ∧ fault x err

section Lists

variable {α : Type u} {good : α → Prop} {fault : α → ε → Prop} {x : α} {xs : List α}

theorem not_firstFault_nil : ¬FirstFault good fault [] err := by
  rintro ⟨pre, x, post, hsplit, _⟩
  simp at hsplit

theorem firstFault_cons_iff : FirstFault good fault (x :: xs) err ↔
    fault x err ∨ good x ∧ FirstFault good fault xs err := by
  constructor
  · rintro ⟨pre, y, post, hsplit, hpre, hy⟩
    cases pre with
    | nil =>
      obtain ⟨rfl, rfl⟩ := List.cons.inj hsplit
      exact .inl hy
    | cons z pre =>
      obtain ⟨rfl, rfl⟩ := List.cons.inj hsplit
      rw [List.forall_mem_cons] at hpre
      exact .inr ⟨hpre.1, pre, y, post, rfl, hpre.2, hy⟩
  · rintro (hx | ⟨hx, pre, y, post, rfl, hpre, hy⟩)
    · exact ⟨[], x, xs, rfl, List.forall_mem_nil _, hx⟩
    · exact ⟨x :: pre, y, post, rfl, List.forall_mem_cons.2 ⟨hx, hpre⟩, hy⟩

end Lists

namespace DecidedBy

variable {α β : Type u} {good good' : Prop} {fault fault' : ε → Prop} {x : Except ε α} {e : ε}
  {a : α}

theorem ok (hgood : good) (hfault : ∀ err, ¬fault err) : DecidedBy (.ok a) good fault :=
  ⟨⟨fun _ => hgood, fun _ => ⟨a, rfl⟩⟩, fun {err} => ⟨nofun, fun h => absurd h (hfault err)⟩⟩

theorem error (hgood : ¬good) (hfault : ∀ err, fault err ↔ err = e) :
    DecidedBy (.error e : Except ε α) good fault :=
  ⟨⟨nofun, fun h => absurd h hgood⟩, fun {err} => by rw [hfault, Except.error.injEq, eq_comm]⟩

theorem good_of_ok (h : DecidedBy (.ok a) good fault) : good := h.ok_iff.1 ⟨a, rfl⟩

theorem not_fault_of_ok (h : DecidedBy (.ok a) good fault) (err : ε) : ¬fault err :=
  fun hfault => absurd (h.error_iff.2 hfault) nofun

theorem not_good_of_error (h : DecidedBy (.error e : Except ε α) good fault) : ¬good :=
  fun hgood => absurd (h.ok_iff.2 hgood) nofun

theorem fault_iff_of_error (h : DecidedBy (.error e : Except ε α) good fault) (err : ε) :
    fault err ↔ err = e := by
  rw [← h.error_iff, Except.error.injEq, eq_comm]

theorem congr (h : DecidedBy x good fault) (hgood : good' ↔ good)
    (hfault : ∀ err, fault' err ↔ fault err) : DecidedBy x good' fault' :=
  ⟨h.ok_iff.trans hgood.symm, fun {err} => h.error_iff.trans (hfault err).symm⟩

theorem map (h : DecidedBy x good fault) (f : α → β) : DecidedBy (x.map f) good fault := by
  cases x with
  | error e => exact .error h.not_good_of_error h.fault_iff_of_error
  | ok a => exact .ok h.good_of_ok h.not_fault_of_ok

/-- The second of two steps is made only if the first succeeds. -/
theorem bind {f : α → Except ε β} (h : DecidedBy x good fault)
    (hf : ∀ a, x = .ok a → DecidedBy (f a) good' fault') :
    DecidedBy (x >>= f) (good ∧ good') fun err => fault err ∨ good ∧ fault' err := by
  cases x with
  | error e =>
    have hnot : ¬good := h.not_good_of_error
    refine .error (fun hboth => hnot hboth.1) fun err => ?_
    rw [or_iff_left fun hlater => hnot hlater.1]
    exact h.fault_iff_of_error err
  | ok a =>
    refine (hf a rfl).congr (and_iff_right h.good_of_ok) fun err => ?_
    rw [or_iff_right (h.not_fault_of_ok err), and_iff_right h.good_of_ok]

/-- What is made of the result of a successful computation decides nothing. -/
theorem bind_pure (h : DecidedBy x good fault) (f : α → β) :
    DecidedBy (x >>= fun a => pure (f a)) good fault := by
  cases x with
  | error e => exact .error h.not_good_of_error h.fault_iff_of_error
  | ok a => exact .ok h.good_of_ok h.not_fault_of_ok

/-- Steps that look at one element each look at the elements in their order. -/
theorem cons {γ : Type v} {good : γ → Prop} {fault : γ → ε → Prop} {y : γ} {ys : List γ}
    {f : α → Except ε β} (h : DecidedBy x (good y) (fault y))
    (hf : ∀ a, x = .ok a → DecidedBy (f a) (∀ z ∈ ys, good z) (FirstFault good fault ys)) :
    DecidedBy (x >>= f) (∀ z ∈ y :: ys, good z) (FirstFault good fault (y :: ys)) :=
  (h.bind hf).congr List.forall_mem_cons fun _ => firstFault_cons_iff

theorem nil {γ : Type v} {good : γ → Prop} {fault : γ → ε → Prop} :
    DecidedBy (.ok a : Except ε α) (∀ z ∈ [], good z) (FirstFault good fault []) :=
  .ok (List.forall_mem_nil _) fun _ => not_firstFault_nil

end DecidedBy

namespace OrderedMap

variable {α : Type u} {β : Type v} {f : String → α → Except ε β} {m : OrderedMap α}
  {es : List (String × α)} {good : String × α → Prop} {fault : String × α → ε → Prop}

theorem traverseEntries_cons (f : String → α → Except ε β) (e : String × α)
    (es : List (String × α)) : traverseEntries f (e :: es) =
      f e.1 e.2 >>= fun w => (traverseEntries f es).map ((e.1, w) :: ·) := by
  obtain ⟨k, v⟩ := e
  rw [traverseEntries]
  cases f k v with
  | error err => rfl
  | ok w => cases traverseEntries f es <;> rfl

theorem traverseEntries_decidedBy (h : ∀ e ∈ es, DecidedBy (f e.1 e.2) (good e) (fault e)) :
    DecidedBy (traverseEntries f es) (∀ e ∈ es, good e) (FirstFault good fault es) := by
  induction es with
  | nil => exact .nil
  | cons e es ih =>
    rw [List.forall_mem_cons] at h
    rw [traverseEntries_cons]
    exact h.1.cons fun w _ => (ih h.2).map _

/-- A traversal is decided by the entries of the map, in their order. -/
theorem traverse_decidedBy (h : ∀ e ∈ m.entries, DecidedBy (f e.1 e.2) (good e) (fault e)) :
    DecidedBy (m.traverse f) (∀ e ∈ m.entries, good e) (FirstFault good fault m.entries) := by
  have hentries := traverseEntries_decidedBy h
  cases htraverse : m.traverse f with
  | error err =>
    rw [traverse_eq_error.1 htraverse] at hentries
    exact .error hentries.not_good_of_error hentries.fault_iff_of_error
  | ok n =>
    rw [traverse_eq_ok.1 htraverse] at hentries
    exact .ok hentries.good_of_ok hentries.not_fault_of_ok

end OrderedMap
end OrmGen
