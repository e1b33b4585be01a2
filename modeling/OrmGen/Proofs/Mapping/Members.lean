/-
  What the classes of an entity are made of. Members are only ever added to a class: its
  head stays as it is, every import stays bound, and the new properties follow the old ones
  (`Grows`). So a base class has the identifier, then the properties of the fields, then
  those of the relations, and binds the import of each of them (`IsBaseClass`,
  `isBaseClass_of_buildEntity`).
-/
import OrmGen.Mapping.Build
import OrmGen.Proofs.Mapping.Run
import OrmGen.Proofs.Php.ImportTable

namespace OrmGen.Mapping

open Php (Import ImportTable Property)

/-- `c'` is the class `c` with imports added and with the properties `ps` added at the end, each
under its name. -/
structure Grows (c c' : Php.Class) (ps : List Property) : Prop where
  frame : { c' with imports := c.imports, properties := c.properties } = c
  imports : c.imports.Extends c'.imports
  entries : c'.properties.entries = c.properties.entries ++ ps.map fun p => (p.name, p)

/-- The class `c` binds the import that a statement declares. -/
def Binds (c : Php.Class) (statement : String) : Prop :=
  c.imports.get? (Import.parse statement).name = some (Import.parse statement)

variable {config : Config} {entity : String} {claims claims' : Claims} {c c' c₁ : Php.Class}
  {r : Relation} {rs : List Relation} {f : Field} {fs : List Field} {p : Property}
  {ps qs : List Property} {s : Schema} {e : Entity} {statement : String}

namespace Grows

theorem refl (c : Php.Class) : Grows c c [] :=
  ⟨rfl, ImportTable.Extends.refl _, (List.append_nil _).symm⟩

theorem values (h : Grows c c' ps) : c'.properties.values = c.properties.values ++ ps := by
  unfold OrderedMap.values
  rw [h.entries, List.map_append, List.map_map]
  simp [Function.comp_def]

theorem trans (h : Grows c c₁ ps) (h' : Grows c₁ c' qs) : Grows c c' (ps ++ qs) := by
  refine ⟨?_, h.imports.trans h'.imports, ?_⟩
  · have hframe := h.frame
    rw [← h'.frame] at hframe
    exact hframe
  · rw [h'.entries, h.entries, List.append_assoc, List.map_append]

theorem name (h : Grows c c' ps) : c'.name = c.name := by
  have hname := congrArg Php.Class.name h.frame
  exact hname

theorem ns (h : Grows c c' ps) : c'.ns = c.ns := by
  have hns := congrArg Php.Class.ns h.frame
  exact hns

theorem modifiers (h : Grows c c' ps) : c'.modifiers = c.modifiers := by
  have hmodifiers := congrArg Php.Class.modifiers h.frame
  exact hmodifiers

theorem body (h : Grows c c' ps) : c'.body = c.body := by
  have hbody := congrArg Php.Class.body h.frame
  exact hbody

theorem binds (h : Grows c c' ps) (hb : Binds c statement) : Binds c' statement :=
  h.imports _ _ hb

end Grows

/-! ## One property, one import -/

theorem grows_of_addProperty (h : c.addProperty p = .ok c') : Grows c c' [p] := by
  have hput := (addProperty_eq_ok h).2
  have hfree := (addProperty_eq_ok h).1
  unfold Php.Class.addProperty at h
  split at h
  · cases h
  · rw [Except.ok.injEq] at h
    subst h
    exact ⟨rfl, ImportTable.Extends.refl _, OrderedMap.entries_insert_of_get?_eq_none p hfree⟩

theorem grows_of_addImport (h : c.addImport statement = .ok c') :
    Grows c c' [] ∧ Binds c' statement := by
  obtain ⟨t, ht, rfl⟩ := map_eq_ok.1 h
  obtain ⟨hbound, hextends⟩ := ImportTable.get?_of_register ht
  exact ⟨⟨rfl, hextends, (List.append_nil _).symm⟩, hbound⟩

/-! ## Fields -/

/-- A field that refers to an enumeration names it, and the class binds its import. -/
def BindsEnum (config : Config) (c : Php.Class) (f : Field) : Prop :=
  f.isEnumReference = true →
    ∃ name, f.value = some name ∧ Binds c (joinNamespace [config.enumNamespace, name])

theorem Grows.bindsEnum (h : Grows c c' ps) (hb : BindsEnum config c f) :
    BindsEnum config c' f := by
  intro henum
  obtain ⟨name, hname, hbinds⟩ := hb henum
  exact ⟨name, hname, h.binds hbinds⟩

theorem importEnum_eq_ok (h : importEnum config entity f c = .ok c') :
    Grows c c' [] ∧ BindsEnum config c' f := by
  unfold importEnum at h
  split at h
  · split at h
    · cases h
    · rename_i name hname
      obtain ⟨hgrows, hbinds⟩ := grows_of_addImport h
      exact ⟨hgrows, fun _ => ⟨name, hname, hbinds⟩⟩
  · rename_i henum
    rw [Except.ok.injEq] at h
    exact ⟨h ▸ Grows.refl c, fun h' => absurd h' henum⟩

theorem addField_eq_ok (h : addField config entity c f = .ok c') :
    Grows c c' [fieldProperty f] ∧ BindsEnum config c' f := by
  obtain ⟨c₁, hc₁, hadd⟩ := bind_eq_ok.1 h
  obtain ⟨hgrows, hbinds⟩ := importEnum_eq_ok hc₁
  have hproperty := grows_of_addProperty hadd
  exact ⟨hgrows.trans hproperty, hproperty.bindsEnum hbinds⟩

theorem addFields_eq_ok (h : addFields config entity c fs = .ok c') :
    Grows c c' (fs.map fieldProperty) ∧ ∀ f ∈ fs, BindsEnum config c' f := by
  induction fs generalizing c with
  | nil =>
    rw [addFields, Except.ok.injEq] at h
    exact ⟨h ▸ Grows.refl c, by simp⟩
  | cons f fs ih =>
    rw [addFields] at h
    obtain ⟨c₁, hc₁, hrest⟩ := bind_eq_ok.1 h
    obtain ⟨hgrows, hbinds⟩ := addField_eq_ok hc₁
    obtain ⟨hgrowsRest, hbindsRest⟩ := ih hrest
    refine ⟨hgrows.trans hgrowsRest, ?_⟩
    rw [List.forall_mem_cons]
    exact ⟨hgrowsRest.bindsEnum hbinds, hbindsRest⟩

theorem propertyType_of_plain (henum : f.isEnumReference = false) :
    propertyType f = Php.typeOf f.typeName := by
  unfold propertyType
  rw [henum]
  rfl

/-- The value of a field is its default, unless it names an enumeration. -/
theorem propertyDefault_of_value {v : String} (henum : f.isEnumReference = false)
    (hvalue : f.value = some v) : propertyDefault f = some (Php.literal (propertyType f) v) := by
  unfold propertyDefault
  rw [henum, hvalue]

/-- Without such a value a field that cannot be null starts with the zero value of its type. -/
theorem propertyDefault_of_zero (h : f.isEnumReference = true ∨ f.value = none) :
    propertyDefault f = if f.nullable then none else Php.zeroValue? (propertyType f) := by
  unfold propertyDefault
  rcases h with henum | hvalue
  · rw [henum]
  · rw [hvalue]
    cases f.isEnumReference <;> rfl

/-! ## Relations -/

/-- What the property of a relation looks like: a column for an enumeration, and an
association, on one side or the other, for anything else. -/
def IsPropertyOf (r : Relation) (p : Property) : Prop :=
  r.target.cardinality = .enumeration ∧ p = enumProperty r ∨
    r.target.cardinality ≠ .enumeration ∧ ∃ a side, p = associationProperty a side r

theorem isConstant_of_isPropertyOf (h : IsPropertyOf r p) : p.isConstant = false := by
  rcases h with ⟨_, rfl⟩ | ⟨_, a, side, rfl⟩
  · rfl
  · exact associationProperty_isConstant ..

theorem isPropertyOf_of_relationProperty
    (h : relationProperty entity claims r = (.ok p, claims')) : IsPropertyOf r p := by
  by_cases henum : r.target.cardinality = .enumeration
  · unfold relationProperty at h
    rw [if_pos henum, Prod.mk.injEq, Except.ok.injEq] at h
    exact .inl ⟨henum, h.1.symm⟩
  · obtain ⟨a, _, hp⟩ := (relationProperty_eq_ok h).2.2 henum
    exact .inr ⟨henum, a, _, hp⟩

theorem grows_of_addRelation (h : addRelation config entity claims c r = (.ok c', claims')) :
    ∃ p, IsPropertyOf r p ∧ Grows c c' [p] ∧ Binds c' (importOf config r) := by
  unfold addRelation at h
  split at h
  · simp at h
  · rename_i c₁ hc₁
    rw [Prod.mk.injEq] at h
    obtain ⟨p, hp, hadd⟩ := bind_eq_ok.1 h.1
    obtain ⟨hgrows, hbinds⟩ := grows_of_addImport hc₁
    have hproperty := grows_of_addProperty hadd
    exact ⟨p, isPropertyOf_of_relationProperty (Prod.ext hp rfl), hgrows.trans hproperty,
      hproperty.binds hbinds⟩

theorem grows_of_addRelations
    (h : addRelations config entity claims c rs = (.ok c', claims')) :
    ∃ ps, List.Forall₂ IsPropertyOf rs ps ∧ Grows c c' ps ∧
      ∀ r ∈ rs, Binds c' (importOf config r) := by
  induction rs generalizing c claims with
  | nil =>
    rw [addRelations, Prod.mk.injEq, Except.ok.injEq] at h
    exact ⟨[], .nil, h.1 ▸ Grows.refl c, by simp⟩
  | cons r rs ih =>
    obtain ⟨c₁, claims₁, hr, hrs⟩ := addRelations_cons_eq_ok h
    obtain ⟨p, hp, hgrows, hbinds⟩ := grows_of_addRelation hr
    obtain ⟨ps, hps, hgrowsRest, hbindsRest⟩ := ih hrs
    refine ⟨p :: ps, .cons hp hps, hgrows.trans hgrowsRest, ?_⟩
    rw [List.forall_mem_cons]
    exact ⟨hgrowsRest.binds hbinds, hbindsRest⟩

/-! ## Classes -/

/-- `c` is the base class of the entity `e`. -/
structure IsBaseClass (config : Config) (e : Entity) (c : Php.Class) : Prop where
  head : { c with imports := .empty, properties := .empty } =
    { Php.Class.generated (baseName config e) config.baseNamespace with
      annotations := ["@ORM\\MappedSuperclass()"] }
  entries : ∃ ps, List.Forall₂ IsPropertyOf e.relations.values ps ∧ c.properties.entries =
    (identifier :: (e.fields.values.map fieldProperty ++ ps)).map fun p => (p.name, p)
  bindsEnums : ∀ f ∈ e.fields.values, BindsEnum config c f
  bindsTargets : ∀ r ∈ e.relations.values, Binds c (importOf config r)

namespace IsBaseClass

theorem name (h : IsBaseClass config e c) : c.name = baseName config e :=
  congrArg Php.Class.name h.head

theorem ns (h : IsBaseClass config e c) : c.ns = config.baseNamespace := by
  have hns := congrArg Php.Class.ns h.head
  simpa only [Php.Class.generated_ns] using hns

theorem annotations (h : IsBaseClass config e c) :
    c.annotations = ["@ORM\\MappedSuperclass()"] := congrArg Php.Class.annotations h.head

theorem modifiers (h : IsBaseClass config e c) : c.modifiers = ["abstract"] :=
  congrArg Php.Class.modifiers h.head

theorem body (h : IsBaseClass config e c) : c.body = none := congrArg Php.Class.body h.head

theorem values (h : IsBaseClass config e c) :
    ∃ ps, List.Forall₂ IsPropertyOf e.relations.values ps ∧
      c.properties.values = identifier :: (e.fields.values.map fieldProperty ++ ps) := by
  obtain ⟨ps, hps, hentries⟩ := h.entries
  refine ⟨ps, hps, ?_⟩
  show c.properties.entries.map Prod.snd = _
  rw [hentries, List.map_map]
  exact List.map_id _

/-- A base class has no constants. -/
theorem isConstant_eq_false (h : IsBaseClass config e c) :
    ∀ p ∈ c.properties.values, p.isConstant = false := by
  obtain ⟨ps, hps, hvalues⟩ := h.values
  rw [hvalues, List.forall_mem_cons, List.forall_mem_append, List.forall_mem_map]
  refine ⟨rfl, fun f _ => rfl, ?_⟩
  intro p hp
  obtain ⟨r, _, hr⟩ := exists_of_forall₂ hps hp
  exact isConstant_of_isPropertyOf hr

end IsBaseClass

/-- A base class before its members are added. -/
theorem baseClass_eq_ok (h : baseClass config e = .ok c) :
    { c with imports := .empty, properties := .empty } =
      { Php.Class.generated (baseName config e) config.baseNamespace with
        annotations := ["@ORM\\MappedSuperclass()"] } ∧
      c.properties.entries = [(identifier.name, identifier)] := by
  obtain ⟨imports, _, h⟩ := bind_eq_ok.1 h
  rw [pure_eq_ok] at h
  subst h
  -- the texts of the names are of no matter here
  generalize baseName config e = name, config.baseNamespace = ns
  exact ⟨rfl, rfl⟩

theorem isBaseClass_of_buildEntity (h : buildEntity config claims e = (.ok c, claims')) :
    IsBaseClass config e c := by
  unfold buildEntity at h
  split at h
  · simp at h
  rename_i c₂ hc₂
  obtain ⟨_, _, hfields⟩ := bind_eq_ok.1 hc₂
  obtain ⟨c₁, hc₁, hfields⟩ := bind_eq_ok.1 hfields
  obtain ⟨hhead, hentries⟩ := baseClass_eq_ok hc₁
  obtain ⟨hgrows, hbindsEnums⟩ := addFields_eq_ok hfields
  obtain ⟨ps, hps, hgrowsRelations, hbinds⟩ := grows_of_addRelations h
  have hall : Grows c₁ c (e.fields.values.map fieldProperty ++ ps) :=
    hgrows.trans hgrowsRelations
  refine ⟨?_, ⟨ps, hps, ?_⟩, ?_, hbinds⟩
  · rw [← hhead, ← hall.frame]
  · rw [hall.entries, hentries]
    rfl
  · intro f hf
    exact hgrowsRelations.bindsEnum (hbindsEnums f hf)

/-- The constant that a member of an enumeration becomes. -/
def constantOf (f : Field) : Property := .constant f.name "int" f.value

theorem grows_of_addConstants (h : addConstants c fs = .ok c') :
    Grows c c' (fs.map constantOf) := by
  induction fs generalizing c with
  | nil =>
    rw [addConstants, Except.ok.injEq] at h
    exact h ▸ Grows.refl c
  | cons f fs ih =>
    rw [addConstants] at h
    obtain ⟨c₁, hc₁, hrest⟩ := bind_eq_ok.1 h
    have hfirst : Grows c c₁ [constantOf f] := grows_of_addProperty hc₁
    exact hfirst.trans (ih hrest)

/-- The class of an enumeration has a constant for each member and nothing else. -/
theorem buildEnum_eq_ok (h : buildEnum config e = .ok c) :
    Grows (.generated e.name config.enumNamespace) c (e.fields.values.map constantOf) := by
  obtain ⟨_, _, hconstants⟩ := bind_eq_ok.1 h
  exact grows_of_addConstants hconstants

/-- The class that is built for an entity of one kind or the other. -/
theorem build_eq_ok_cases (h : build config claims e = (.ok c, claims')) :
    e.kind = .enumeration ∧ Grows (.generated e.name config.enumNamespace) c
      (e.fields.values.map constantOf) ∨ e.kind = .entity ∧ IsBaseClass config e c := by
  unfold build at h
  cases hkind : e.kind with
  | enumeration =>
    rw [hkind, Prod.mk.injEq] at h
    exact .inl ⟨rfl, buildEnum_eq_ok h.1⟩
  | entity =>
    rw [hkind] at h
    exact .inr ⟨rfl, isBaseClass_of_buildEntity h⟩

/-- The properties that are added to a class stand under their names. -/
theorem keys_of_entries_eq
    (h : c.properties.entries = ps.map fun p => (p.name, p)) :
    c.properties.values = ps ∧ c.properties.keys = ps.map Property.name := by
  unfold OrderedMap.values OrderedMap.keys
  rw [h, List.map_map, List.map_map]
  exact ⟨List.map_id _, rfl⟩

theorem get?_of_entries_eq (h : c.properties.entries = ps.map fun p => (p.name, p)) (hp : p ∈ ps) :
    c.properties.get? p.name = some p := by
  rw [← OrderedMap.mem_entries_iff, h]
  exact List.mem_map.2 ⟨p, hp, rfl⟩

/-- The class that a run builds for an entity is its base class. -/
theorem isBaseClass_of_classIn (hkind : e.kind = .entity)
    (hc : Generation.classIn config s e = .ok c) : IsBaseClass config e c := by
  unfold Generation.classIn build at hc
  rw [hkind] at hc
  exact isBaseClass_of_buildEntity (Prod.ext hc rfl)

/-- The class that a run builds for an enumeration. -/
theorem grows_of_classIn (hkind : e.kind = .enumeration)
    (hc : Generation.classIn config s e = .ok c) :
    Grows (.generated e.name config.enumNamespace) c (e.fields.values.map constantOf) := by
  unfold Generation.classIn build at hc
  rw [hkind] at hc
  exact buildEnum_eq_ok hc

/-- The final class of an entity has its name and no members. -/
theorem buildFinal_eq_ok (h : buildFinal config e = .ok c) :
    c.name = e.name ∧ c.ns = config.entityNamespace ∧ c.properties = .empty := by
  obtain ⟨_, _, h⟩ := bind_eq_ok.1 h
  obtain ⟨_, _, h⟩ := bind_eq_ok.1 h
  obtain ⟨_, _, h⟩ := bind_eq_ok.1 h
  rw [pure_eq_ok] at h
  subst h
  exact ⟨by simp, by simp, by simp⟩

/-- The repository of an entity has no members. -/
theorem buildRepository_eq_ok (h : buildRepository config e = .ok c) :
    c.name = repositoryName config e ∧ c.ns = config.repositoryNamespace ∧
      c.properties = .empty := by
  obtain ⟨_, _, h⟩ := bind_eq_ok.1 h
  obtain ⟨_, _, h⟩ := bind_eq_ok.1 h
  rw [pure_eq_ok] at h
  subst h
  exact ⟨by simp, by simp, by simp⟩

end OrmGen.Mapping
