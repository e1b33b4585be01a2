/-
  Tables of imports as functions from names to imports. Registering an import binds its name
  and leaves every binding as it is (`register_eq_ok`), so what a table has once bound stays
  bound to the same path however many imports follow (`Extends`). An import is refused only if
  it asks for a name that is bound to another path (`register_eq_error`), so the imports of a
  table are `Consistent`.
-/
import OrmGen.Php.Import
import OrmGen.Proofs.Traversal

namespace OrmGen.Php

/-- No name stands for two paths. -/
def Consistent (is : List Import) : Prop :=
  ∀ i ∈ is, ∀ j ∈ is, i.name = j.name → i.path = j.path

instance (is : List Import) : Decidable (Consistent is) :=
  inferInstanceAs (Decidable (∀ i ∈ is, ∀ j ∈ is, i.name = j.name → i.path = j.path))

theorem consistent_pair {i j : Import} (h : i.name ≠ j.name) : Consistent [i, j] := by
  intro a ha b hb hname
  rw [List.mem_cons, List.mem_singleton] at ha hb
  rcases ha with rfl | rfl
  · rcases hb with rfl | rfl
    · rfl
    · exact absurd hname h
  · rcases hb with rfl | rfl
    · exact absurd hname.symm h
    · rfl

namespace ImportTable

/-- `t'` binds whatever `t` binds, to the same import. -/
def Extends (t t' : ImportTable) : Prop := ∀ n i, t.get? n = some i → t'.get? n = some i

variable {t t' t₁ : ImportTable} {i j : Import} {n : String} {ss : List String} {err : Error}
  {is : List Import}

theorem Extends.refl (t : ImportTable) : t.Extends t := fun _ _ h => h

theorem Extends.trans (h : t.Extends t₁) (h' : t₁.Extends t') : t.Extends t' :=
  fun n i hi => h' n i (h n i hi)

theorem name_of_get? (h : t.get? n = some i) : i.name = n := t.keyed n i h

/-- A table has each import under the import's own name. -/
theorem entries_bindings (t : ImportTable) :
    t.bindings.entries = t.imports.map fun i => (i.name, i) := by
  unfold imports OrderedMap.values
  rw [List.map_map]
  refine (List.map_id _).symm.trans (List.map_congr_left ?_)
  rintro ⟨n, i⟩ hentry
  rw [Function.comp_apply, name_of_get? (OrderedMap.mem_entries_iff.1 hentry)]
  rfl

theorem get?_eq_some_iff : t.get? n = some i ↔ i ∈ t.imports ∧ i.name = n := by
  unfold imports
  rw [OrderedMap.mem_values_iff]
  constructor
  · intro h
    exact ⟨⟨n, h⟩, name_of_get? h⟩
  · rintro ⟨⟨k, hk⟩, rfl⟩
    rwa [← name_of_get? hk] at hk

theorem get?_bind (t : ImportTable) (i : Import) (n : String) :
    (t.bind i).get? n = if n = i.name then some i else t.get? n := OrderedMap.get?_insert ..

/-- A new name is added at the end. -/
theorem imports_bind (h : t.get? i.name = none) : (t.bind i).imports = t.imports ++ [i] :=
  OrderedMap.values_insert_of_get?_eq_none i h

theorem extends_bind (h : t.get? i.name = none) : t.Extends (t.bind i) := by
  intro n j hj
  have hne : n ≠ i.name := fun heq => by
    rw [heq, h] at hj
    cases hj
  rw [get?_bind, if_neg hne, hj]

/-- Registering either adds a new name or finds the import bound already. -/
theorem register_eq_ok : t.register i = .ok t' ↔
    t.get? i.name = none ∧ t' = t.bind i ∨ t.get? i.name = some i ∧ t' = t := by
  unfold register
  split
  · rename_i bound hbound
    have hname : bound.name = i.name := name_of_get? hbound
    have hpath : bound.path = i.path ↔ bound = i := by
      cases bound
      cases i
      simp_all
    by_cases h : bound.path = i.path
    · obtain rfl := hpath.1 h
      simp [hbound, eq_comm]
    · have hne : bound ≠ i := fun e => h (hpath.2 e)
      simp [hbound, h, hne]
  · rename_i hnone
    simp [hnone, eq_comm]

/-- A registered import is bound, and no binding changes. -/
theorem get?_of_register (h : t.register i = .ok t') :
    t'.get? i.name = some i ∧ t.Extends t' := by
  rcases register_eq_ok.1 h with ⟨hnone, rfl⟩ | ⟨hbound, rfl⟩
  · exact ⟨by rw [get?_bind, if_pos rfl], extends_bind hnone⟩
  · exact ⟨hbound, Extends.refl t'⟩

/-- A name has one import. -/
theorem eq_of_name_eq (hi : i ∈ t.imports) (hj : j ∈ t.imports) (h : i.name = j.name) : i = j := by
  have hi' : t.get? i.name = some i := get?_eq_some_iff.2 ⟨hi, rfl⟩
  have hj' : t.get? i.name = some j := get?_eq_some_iff.2 ⟨hj, h.symm⟩
  exact Option.some.inj (hi'.symm.trans hj')

theorem consistent_imports (t : ImportTable) : Consistent t.imports := by
  intro i hi j hj hname
  rw [eq_of_name_eq hi hj hname]

/-- Where no name stands for two paths, the first import that asks for a name is every import
that asks for it. -/
theorem find?_eq_some_of_consistent (h : Consistent is) :
    (is.find? fun i => i.name = n) = some i ↔ i ∈ is ∧ i.name = n := by
  constructor
  · intro hfind
    have hname := List.find?_some hfind
    exact ⟨List.mem_of_find?_eq_some hfind, of_decide_eq_true hname⟩
  · rintro ⟨hmem, rfl⟩
    cases hfind : is.find? fun j => decide (j.name = i.name) with
    | none =>
      have hnone := List.find?_eq_none.1 hfind i hmem
      exact absurd (decide_eq_true rfl) hnone
    | some j =>
      have hname : j.name = i.name := of_decide_eq_true (List.find?_some hfind :)
      have hpath : j.path = i.path := h j (List.mem_of_find?_eq_some hfind) i hmem hname
      cases i
      cases j
      simp_all

theorem mem_imports_of_register (h : t.register i = .ok t') :
    j ∈ t'.imports ↔ j ∈ t.imports ∨ j = i := by
  rcases register_eq_ok.1 h with ⟨hnone, rfl⟩ | ⟨hbound, rfl⟩
  · rw [imports_bind hnone, List.mem_append, List.mem_singleton]
  · have hmem : i ∈ t'.imports := (get?_eq_some_iff.1 hbound).1
    constructor
    · exact .inl
    · rintro (hj | rfl)
      · exact hj
      · exact hmem

/-- An import that is refused asks for a name that is bound to another path. -/
theorem register_eq_error (h : t.register i = .error err) : ∃ bound ∈ t.imports,
    bound.name = i.name ∧ bound.path ≠ i.path ∧
      err = .importConflict i.name bound.path i.path := by
  unfold register at h
  split at h
  · rename_i bound hbound
    obtain ⟨hmem, hname⟩ := get?_eq_some_iff.1 hbound
    split at h
    · cases h
    · rename_i hpath
      rw [Except.error.injEq] at h
      exact ⟨bound, hmem, hname, hpath, h.symm⟩
  · cases h

end ImportTable
end OrmGen.Php
