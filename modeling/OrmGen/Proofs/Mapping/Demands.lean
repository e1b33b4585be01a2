/-
  Building a class as meeting demands. Building adds imports and members one after another and
  stops at the first that does not fit: an import whose name is bound to another path, a member
  whose name is taken, or something that cannot be built at all. Only the bindings and the
  names decide that, so a class may be replaced by its `Outline` and the building by a list of
  `Demand`s that are met one after another (`Follows`).

  The order of the demands is of no matter for success: all of them are met if and only if no
  refusal is among them, no name is taken twice, and no two imports bind one name to different
  paths (`Outline.meetAll_ok_iff`). An error names two demands that do not go together
  (`Outline.fault_of_meetAll`).
-/
import Mathlib.Data.List.Nodup
import OrmGen.Php.Class
import OrmGen.Proofs.Php.ImportTable

namespace OrmGen.Mapping

open Php (Import ImportTable Property)

/-! ## Demands -/

/-- What decides whether something can be added to a class: its bindings and the names of its
members. Its own name is shown in errors. -/
structure Outline where
  className : String
  imports : ImportTable
  names : List String
  nodup : names.Nodup

/-- A demand of a class: an import, a member, or something that cannot be met. -/
inductive Demand where
  | symbol (i : Import)
  | member (name : String)
  | refusal (err : Error)

/-- The imports among demands. -/
def symbolsOf (ds : List Demand) : List Import :=
  ds.filterMap fun | .symbol i => some i | _ => none

/-- The names of the members among demands. -/
def membersOf (ds : List Demand) : List String :=
  ds.filterMap fun | .member n => some n | _ => none

section Parts

variable {α : Type} {i : Import} {n : String} {err : Error} {ds ds' : List Demand}

@[simp] theorem symbolsOf_nil : symbolsOf [] = [] := rfl

@[simp] theorem symbolsOf_symbol : symbolsOf (.symbol i :: ds) = i :: symbolsOf ds := rfl

@[simp] theorem symbolsOf_member : symbolsOf (.member n :: ds) = symbolsOf ds := rfl

@[simp] theorem symbolsOf_refusal : symbolsOf (.refusal err :: ds) = symbolsOf ds := rfl

@[simp] theorem symbolsOf_append : symbolsOf (ds ++ ds') = symbolsOf ds ++ symbolsOf ds' :=
  List.filterMap_append

theorem symbolsOf_flatMap (g : α → List Demand) (xs : List α) :
    symbolsOf (xs.flatMap g) = xs.flatMap fun x => symbolsOf (g x) := List.filterMap_flatMap

@[simp] theorem membersOf_nil : membersOf [] = [] := rfl

@[simp] theorem membersOf_symbol : membersOf (.symbol i :: ds) = membersOf ds := rfl

@[simp] theorem membersOf_member : membersOf (.member n :: ds) = n :: membersOf ds := rfl

@[simp] theorem membersOf_refusal : membersOf (.refusal err :: ds) = membersOf ds := rfl

@[simp] theorem membersOf_append : membersOf (ds ++ ds') = membersOf ds ++ membersOf ds' :=
  List.filterMap_append

theorem membersOf_flatMap (g : α → List Demand) (xs : List α) :
    membersOf (xs.flatMap g) = xs.flatMap fun x => membersOf (g x) := List.filterMap_flatMap

end Parts

namespace Outline

theorem nodup_append_singleton {n : String} {names : List String} (h : n ∉ names)
    (hnames : names.Nodup) : (names ++ [n]).Nodup := by
  rw [← List.concat_eq_append]
  exact hnames.concat h

/-- Meet one demand. -/
def meet (o : Outline) : Demand → Except Error Outline
  | .symbol i => (o.imports.register i).map fun t => { o with imports := t }
  | .member n =>
    if h : n ∈ o.names then .error (.duplicateProperty o.className n)
    else .ok { o with names := o.names ++ [n], nodup := nodup_append_singleton h o.nodup }
  | .refusal err => .error err

/-- Meet demands, up to the first that cannot be met. -/
def meetAll (o : Outline) (ds : List Demand) : Except Error Outline := ds.foldlM meet o

/-- The imports that are there or demanded. -/
def wanted (o : Outline) (ds : List Demand) : List Import := o.imports.imports ++ symbolsOf ds

/-- The names that are there or demanded. -/
def named (o : Outline) (ds : List Demand) : List String := o.names ++ membersOf ds

/-- The demands go together. -/
structure Fits (o : Outline) (ds : List Demand) : Prop where
  refusals : ∀ err, .refusal err ∉ ds
  names : (o.named ds).Nodup
  imports : Php.Consistent (o.wanted ds)

/-- Why demands do not go together. -/
inductive Fault (o : Outline) (ds : List Demand) : Error → Prop where
  | refusal {err : Error} : .refusal err ∈ ds → Fault o ds err
  | name {n : String} : 1 < (o.named ds).count n → Fault o ds (.duplicateProperty o.className n)
  | imports {i j : Import} : i ∈ o.wanted ds → j ∈ o.wanted ds → i.name = j.name →
      i.path ≠ j.path → Fault o ds (.importConflict i.name i.path j.path)

variable {o o₁ o' : Outline} {d : Demand} {ds ds' : List Demand} {err : Error}

theorem meetAll_cons (o : Outline) (d : Demand) (ds : List Demand) :
    o.meetAll (d :: ds) = o.meet d >>= fun o₁ => o₁.meetAll ds := List.foldlM_cons

theorem meetAll_append (o : Outline) (ds ds' : List Demand) :
    o.meetAll (ds ++ ds') = o.meetAll ds >>= fun o₁ => o₁.meetAll ds' := List.foldlM_append

/-- A demand that is met moves from the demands to the outline. -/
theorem meet_eq_ok (h : o.meet d = .ok o₁) (ds : List Demand) :
    o₁.className = o.className ∧ (∀ err, d ≠ .refusal err) ∧
      o₁.named ds = o.named (d :: ds) ∧ ∀ i, i ∈ o₁.wanted ds ↔ i ∈ o.wanted (d :: ds) := by
  unfold named wanted
  cases d with
  | symbol i =>
    obtain ⟨t, ht, rfl⟩ := map_eq_ok.1 h
    refine ⟨rfl, nofun, rfl, ?_⟩
    intro j
    rw [symbolsOf_symbol, List.mem_append, List.mem_append, List.mem_cons,
      ImportTable.mem_imports_of_register ht, or_assoc]
  | member n =>
    rw [meet] at h
    split at h
    · cases h
    · rw [Except.ok.injEq] at h
      subst h
      refine ⟨rfl, nofun, ?_, fun i => Iff.rfl⟩
      exact List.append_assoc ..
  | refusal err => cases h

/-- A demand that is not met is a fault whatever follows. -/
theorem fault_of_meet (h : o.meet d = .error err) (ds : List Demand) : Fault o (d :: ds) err := by
  cases d with
  | symbol i =>
    obtain ⟨bound, hbound, hname, hpath, rfl⟩ :=
      ImportTable.register_eq_error (map_eq_error.1 h)
    rw [← hname]
    exact .imports (List.mem_append_left _ hbound)
      (List.mem_append_right _ List.mem_cons_self) hname hpath
  | member n =>
    rw [meet] at h
    split at h
    · rename_i hmem
      cases h
      have hcount : 0 < o.names.count n := List.count_pos_iff.2 hmem
      refine .name ?_
      unfold named
      rw [membersOf_member, List.count_append, List.count_cons_self]
      omega
    · cases h
  | refusal err' =>
    cases h
    exact .refusal List.mem_cons_self

theorem Fault.cons (hmeet : o.meet d = .ok o₁) (h : Fault o₁ ds err) : Fault o (d :: ds) err := by
  obtain ⟨hclass, _, hnames, himports⟩ := meet_eq_ok hmeet ds
  cases h with
  | refusal hmem => exact .refusal (List.mem_cons_of_mem d hmem)
  | name hcount =>
    rw [hnames] at hcount
    rw [hclass]
    exact .name hcount
  | imports hi hj hname hpath =>
    exact .imports ((himports _).1 hi) ((himports _).1 hj) hname hpath

/-- An error has a cause among the demands. -/
theorem fault_of_meetAll (h : o.meetAll ds = .error err) : Fault o ds err := by
  induction ds generalizing o with
  | nil => cases h
  | cons d ds ih =>
    rw [meetAll_cons] at h
    obtain hmeet | ⟨o₁, hmeet, hrest⟩ := bind_eq_error.1 h
    · exact fault_of_meet hmeet ds
    · exact (ih hrest).cons hmeet

/-- Demands that are met go together. -/
theorem fits_of_meetAll (h : o.meetAll ds = .ok o') : o.Fits ds := by
  induction ds generalizing o with
  | nil =>
    refine ⟨fun _ => List.not_mem_nil, ?_, ?_⟩
    · unfold named
      rw [membersOf_nil, List.append_nil]
      exact o.nodup
    · unfold wanted
      rw [symbolsOf_nil, List.append_nil]
      exact o.imports.consistent_imports
  | cons d ds ih =>
    rw [meetAll_cons] at h
    obtain ⟨o₁, hmeet, hrest⟩ := bind_eq_ok.1 h
    obtain ⟨_, hmet, hnamed, hwanted⟩ := meet_eq_ok hmeet ds
    obtain ⟨hrefusals, hnodup, hconsistent⟩ := ih hrest
    refine ⟨?_, hnamed ▸ hnodup, ?_⟩
    · intro err hmem
      rcases List.mem_cons.1 hmem with hd | hmem
      · exact hmet err hd.symm
      · exact hrefusals err hmem
    · intro i hi j hj
      exact hconsistent i ((hwanted i).2 hi) j ((hwanted j).2 hj)

theorem Fits.not_fault (h : o.Fits ds) : ¬ Fault o ds err := by
  intro hfault
  cases hfault with
  | refusal hmem => exact h.refusals err hmem
  | name hcount => exact Nat.not_lt.2 (List.nodup_iff_count_le_one.1 h.names _) hcount
  | imports hi hj hname hpath => exact hpath (h.imports _ hi _ hj hname)

/-- Demands that are met leave the imports that were there or demanded. -/
theorem mem_imports_of_meetAll {i : Import} (h : o.meetAll ds = .ok o') :
    i ∈ o'.imports.imports ↔ i ∈ o.wanted ds := by
  induction ds generalizing o with
  | nil =>
    cases h
    simp [wanted]
  | cons d ds ih =>
    rw [meetAll_cons] at h
    obtain ⟨o₁, hmeet, hrest⟩ := bind_eq_ok.1 h
    obtain ⟨_, _, _, hwanted⟩ := meet_eq_ok hmeet ds
    rw [ih hrest, hwanted]

/-- Demands without a fault are met. -/
theorem exists_of_not_fault (h : ∀ err, ¬ Fault o ds err) : ∃ o', o.meetAll ds = .ok o' := by
  cases hmeet : o.meetAll ds with
  | ok o' => exact ⟨o', rfl⟩
  | error err => exact absurd (fault_of_meetAll hmeet) (h err)

/-- Demands are met if and only if they go together. -/
theorem meetAll_ok_iff : (∃ o', o.meetAll ds = .ok o') ↔ o.Fits ds := by
  constructor
  · rintro ⟨o', h⟩
    exact fits_of_meetAll h
  · intro hfits
    exact exists_of_not_fault fun _ => hfits.not_fault

/-- Demands go together exactly if they have no fault. -/
theorem fits_iff : o.Fits ds ↔ ∀ err, ¬ Fault o ds err := by
  constructor
  · intro hfits err
    exact hfits.not_fault
  · intro hnone
    exact meetAll_ok_iff.1 (exists_of_not_fault hnone)

end Outline

/-! ## Building as meeting demands -/

/-- The computation `x`, of what `view` shows an outline of, meets the demands from the outline
`o` on. -/
def Follows {α : Type} (view : α → Outline) (x : Except Error α) (o : Outline)
    (ds : List Demand) : Prop :=
  x.map view = o.meetAll ds

namespace Follows

variable {α β : Type} {view : α → Outline} {view' : β → Outline} {x : Except Error α}
  {f : α → Except Error β} {g : α → β} {o : Outline} {ds ds' : List Demand} {err : Error}

theorem ok (view : α → Outline) (a : α) : Follows view (.ok a) (view a) [] := rfl

theorem error (view : α → Outline) (err : Error) (o : Outline) (ds : List Demand) :
    Follows view (.error err) o (.refusal err :: ds) := rfl

/-- One step after another. -/
theorem bind (h : Follows view x o ds) (hf : ∀ a, Follows view' (f a) (view a) ds') :
    Follows view' (x >>= f) o (ds ++ ds') := by
  unfold Follows at *
  rw [Outline.meetAll_append, ← h]
  cases x with
  | error err => rfl
  | ok a => exact hf a

/-- What is made of the result of a computation demands nothing. -/
theorem map (h : Follows view x o ds) (hg : ∀ a, view' (g a) = view a) :
    Follows view' (x.map g) o ds := by
  unfold Follows at *
  rw [← h]
  cases x with
  | error err => rfl
  | ok a => exact congrArg Except.ok (hg a)

theorem bind_pure (h : Follows view x o ds) (hg : ∀ a, view' (g a) = view a) :
    Follows view' (x >>= fun a => pure (g a)) o ds := by
  have hmap : (x >>= fun a => pure (g a)) = x.map g := by cases x <;> rfl
  rw [hmap]
  exact h.map hg

theorem ok_iff (h : Follows view x o ds) : (∃ a, x = .ok a) ↔ o.Fits ds := by
  rw [← Outline.meetAll_ok_iff, ← h]
  cases x with
  | error err => simp [Except.map]
  | ok a => simp [Except.map]

theorem fault (h : Follows view x o ds) (hx : x = .error err) : Outline.Fault o ds err := by
  apply Outline.fault_of_meetAll
  rw [← h, hx]
  rfl

end Follows

/-! ## Imports and members -/

/-- The demand for an import by a statement. -/
def Demand.ofStatement (statement : String) : Demand := .symbol (Import.parse statement)

@[simp] theorem symbolsOf_map_ofStatement (statements : List String) :
    symbolsOf (statements.map .ofStatement) = statements.map Import.parse := by
  induction statements with
  | nil => rfl
  | cons s statements ih =>
    rw [List.map_cons, Demand.ofStatement, symbolsOf_symbol, ih, List.map_cons]

@[simp] theorem membersOf_map_ofStatement (statements : List String) :
    membersOf (statements.map .ofStatement) = [] := by
  induction statements with
  | nil => rfl
  | cons s statements ih => rw [List.map_cons, Demand.ofStatement, membersOf_symbol, ih]

/-- The outline with other imports. -/
def Outline.withImports (o : Outline) (t : ImportTable) : Outline := { o with imports := t }

/-- The outline of a class of the given name that has nothing yet. -/
def blank (n : String) : Outline := ⟨n, .empty, [], List.nodup_nil⟩

theorem wanted_blank (n : String) (ds : List Demand) : (blank n).wanted ds = symbolsOf ds := rfl

theorem named_blank (n : String) (ds : List Demand) : (blank n).named ds = membersOf ds := rfl

theorem follows_register (o : Outline) (t : ImportTable) (i : Import) :
    Follows o.withImports (t.register i) (o.withImports t) [.symbol i] := by
  unfold Follows
  rw [Outline.meetAll_cons, Outline.meet]
  show _ = (t.register i).map _ >>= _
  cases t.register i <;> rfl

theorem follows_addAll (o : Outline) (t : ImportTable) (statements : List String) :
    Follows o.withImports (t.addAll statements) (o.withImports t)
      (statements.map .ofStatement) := by
  induction statements generalizing t with
  | nil => exact .ok ..
  | cons s statements ih => exact (follows_register o t (Import.parse s)).bind ih

/-- The outline of a class. -/
def outline (c : Php.Class) : Outline where
  className := c.name
  imports := c.imports
  names := c.properties.keys
  nodup := c.properties.nodup

theorem follows_addImport (c : Php.Class) (statement : String) :
    Follows outline (c.addImport statement) (outline c) [.ofStatement statement] :=
  (follows_register (outline c) c.imports (Import.parse statement)).map fun _ => rfl

theorem follows_addProperty (c : Php.Class) (p : Property) :
    Follows outline (c.addProperty p) (outline c) [.member p.name] := by
  unfold Follows Php.Class.addProperty
  rw [Outline.meetAll_cons, Outline.meet]
  by_cases h : c.properties.contains p.name = true
  · have hmem : p.name ∈ (outline c).names := OrderedMap.contains_iff.1 h
    rw [if_pos h, dif_pos hmem]
    rfl
  · have hnew : p.name ∉ (outline c).names := fun hmem => h (OrderedMap.contains_iff.2 hmem)
    have hkeys : (c.putProperty p).properties.keys = c.properties.keys ++ [p.name] :=
      OrderedMap.keys_insert_of_notMem hnew
    rw [if_neg h, dif_neg hnew]
    show Except.ok (outline (c.putProperty p)) = Except.ok _
    simp only [outline, hkeys]
    rfl

end OrmGen.Mapping
