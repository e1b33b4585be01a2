/-
  Doc comments of the classes of a run. The annotations of a class may hold any text of the
  configuration, attributes that are passed through included, and end no comment. The types
  of fields, the entities that associations point at and the names of properties
  reach the comments of a base class unchecked: they hold exactly if none of these has a `*/`
  (`comments_hold_iff`).
-/
import OrmGen.Proofs.Mapping.Members
import OrmGen.Proofs.Php.DocComment

namespace OrmGen

open Php (Closes Property)

/-! ## Properties that keep comments whole -/

namespace Php

variable {p : Property} {s : String} {c : Class}

/-- The texts of a property that are written into comments as they are end none. -/
structure Property.KeepsComments (p : Property) : Prop where
  type : ¬ Closes p.typeName
  name : p.signature.needsDoc = true → ¬ Closes p.name

theorem Class.linesInComments_hold_iff (h : ∀ p ∈ c.properties.values, p.isConstant = false) :
    (∀ l ∈ c.linesInComments, ¬ Closes l) ↔ ∀ p ∈ c.properties.values, p.KeepsComments := by
  have hmembers : c.members = c.properties.values := (Class.constants_members_eq h).2
  rw [Class.not_closes_iff, hmembers]
  constructor
  · rintro ⟨htypes, hnames⟩ p hp
    exact ⟨htypes p hp, hnames p hp⟩
  · intro hall
    exact ⟨fun p hp => (hall p hp).type, fun p hp => (hall p hp).name⟩

/-- The type of a property ends a comment exactly if that of the field does. -/
theorem closes_typeOf_iff : Closes (typeOf s) ↔ Closes s := by
  have htable : ∀ entry ∈ typeNames, ¬ Closes entry.1 ∧ ¬ Closes entry.2 := by decide +kernel
  unfold typeOf
  cases hlookup : typeNames.lookup s with
  | none => rfl
  | some type =>
    obtain ⟨before, after, hsplit, _⟩ := List.lookup_eq_some_iff.1 hlookup
    have hmem : (s, type) ∈ typeNames := by
      rw [hsplit]
      exact List.mem_append_right _ List.mem_cons_self
    have hentry := htable _ hmem
    simp [hentry.1, hentry.2]

end Php

namespace Mapping

open Generation (BuiltFor classIn schemaOf)

variable {config : Config} {g : Generation} {s : Schema} {e : Entity} {f : Field} {r : Relation}
  {p : Property} {c : Php.Class} {mode : WriteMode}

theorem closes_fieldType_iff : Closes (fieldProperty f).typeName ↔ Closes f.typeName := by
  have hnull (type : String) : Closes (nullableType f type) ↔ Closes type := by
    unfold nullableType
    split
    · exact Php.closes_suffix_iff (by decide) (by decide)
    · rfl
  have htype : Closes (propertyType f) ↔ Closes f.typeName := by
    unfold propertyType
    split
    · rename_i henum
      have hname : f.typeName = Field.enumType := by simpa [Field.isEnumReference] using henum
      rw [hname]
      decide
    · exact Php.closes_typeOf_iff
  exact (hnull _).trans htype

/-- The type of the property of an association. -/
def targetType (r : Relation) : String :=
  if r.target.cardinality.isMany then r.target.entity ++ "[]|Collection"
  else r.target.entity ++ "|null"

theorem closes_targetType_iff : Closes (targetType r) ↔ Closes r.target.entity := by
  unfold targetType
  split <;> exact Php.closes_suffix_iff (by decide) (by decide)

/-- The declarations of a field end no comment. -/
structure FieldKeepsComments (f : Field) : Prop where
  type : ¬ Closes f.typeName
  name : (fieldProperty f).signature.needsDoc = true → ¬ Closes f.name

/-- The declarations of an association end no comment. -/
structure RelationKeepsComments (r : Relation) : Prop where
  entity : ¬ Closes r.target.entity
  name : (Php.Signature.ofDeclared (targetType r)).needsDoc = true → ¬ Closes r.target.name

theorem fieldProperty_keepsComments_iff :
    (fieldProperty f).KeepsComments ↔ FieldKeepsComments f := by
  constructor
  · rintro ⟨htype, hname⟩
    exact ⟨htype ∘ closes_fieldType_iff.2, hname⟩
  · rintro ⟨htype, hname⟩
    exact ⟨htype ∘ closes_fieldType_iff.1, hname⟩

theorem keepsComments_iff_of_isPropertyOf (h : IsPropertyOf r p) : p.KeepsComments ↔
    (r.target.cardinality ≠ .enumeration → RelationKeepsComments r) := by
  rcases h with ⟨henum, rfl⟩ | ⟨hne, a, side, rfl⟩
  · have htype : ¬ Closes (enumProperty r).typeName := by
      change ¬ Closes "int|null"
      decide
    have hdoc : (enumProperty r).signature.needsDoc = false := by
      change (Php.Signature.ofDeclared "int|null").needsDoc = false
      decide
    constructor
    · exact fun _ hne => absurd henum hne
    · intro _
      refine ⟨htype, ?_⟩
      rw [hdoc]
      exact fun h => absurd h (by decide)
  · have htype : (associationProperty a side r).typeName = targetType r := by
      unfold associationProperty targetType
      split <;> rfl
    have hname := associationProperty_name a side r
    constructor
    · rintro ⟨hopen, hnames⟩ _
      unfold Property.signature at hnames
      rw [htype] at hopen hnames
      rw [hname] at hnames
      exact ⟨hopen ∘ closes_targetType_iff.2, hnames⟩
    · intro hkeeps
      obtain ⟨hopen, hnames⟩ := hkeeps hne
      constructor
      · rw [htype]
        exact hopen ∘ closes_targetType_iff.1
      · unfold Property.signature
        rw [htype, hname]
        exact hnames

/-! ## The classes of a run -/

/-- The declarations of an entity end no comment of its base class. -/
structure KeepsComments (e : Entity) : Prop where
  fields : ∀ f ∈ e.fields.values, FieldKeepsComments f
  relations : ∀ r ∈ e.relations.values, r.target.cardinality ≠ .enumeration →
    RelationKeepsComments r

theorem IsBaseClass.not_closes_iff_keepsComments (h : IsBaseClass config e c) :
    (∀ l ∈ c.linesInComments, ¬ Closes l) ↔ KeepsComments e := by
  obtain ⟨ps, hps, hvalues⟩ := h.values
  have hidentifier : identifier.KeepsComments := ⟨by decide, by decide⟩
  have hrelations := forall_mem_iff_of_forall₂ hps
    fun r p (hr : IsPropertyOf r p) => keepsComments_iff_of_isPropertyOf hr
  rw [Php.Class.linesInComments_hold_iff h.isConstant_eq_false, hvalues, List.forall_mem_cons,
    List.forall_mem_append, List.forall_mem_map, hrelations]
  simp only [fieldProperty_keepsComments_iff]
  constructor
  · rintro ⟨_, hfields, hrelations⟩
    exact ⟨hfields, hrelations⟩
  · rintro ⟨hfields, hrelations⟩
    exact ⟨hidentifier, hfields, hrelations⟩

/-- Constants are of a type that ends no comment, and have no accessors. -/
theorem comments_hold_of_constants (h : ∀ p ∈ c.properties.values, ∃ f, p = constantOf f) :
    ∀ l ∈ c.linesInComments, ¬ Closes l := by
  rw [Php.Class.not_closes_iff]
  constructor
  · intro p hp
    obtain ⟨f, rfl⟩ := h p hp
    change ¬ Closes "int"
    decide
  · intro p hp
    obtain ⟨hmem, hmember⟩ := List.mem_filter.1 hp
    obtain ⟨f, rfl⟩ := h p hmem
    cases hmember

/-- In the class that a run builds for an entity, no line inside a doc comment ends it early
if and only if no type of a field, no entity that an association points at and no name of a
property with documented accessors does. In every other class of a run no line does, whatever
the configuration says. -/
theorem comments_hold_iff (hg : Generation.ofConfig config = .ok g) :
    ∃ s, schemaOf config = .ok s ∧ ∀ e ∈ s.entities.values, ∀ mode c,
      BuiltFor config s e mode c → ((∀ l ∈ c.linesInComments, ¬ Closes l) ↔
        (mode = .regenerate → e.kind = .entity → KeepsComments e)) := by
  obtain ⟨s, h⟩ := Generation.run_of_ofConfig hg
  refine ⟨s, h.schema, ?_⟩
  intro e _ mode c hbuilt
  have hempty : c.properties = .empty → ∀ l ∈ c.linesInComments, ¬ Closes l := by
    intro hproperties
    apply comments_hold_of_constants
    rw [hproperties]
    exact List.forall_mem_nil _
  cases hbuilt with
  | regenerated hclass =>
    cases hkind : e.kind with
    | entity =>
      rw [(isBaseClass_of_classIn hkind hclass).not_closes_iff_keepsComments]
      simp
    | enumeration =>
      have hvalues := (grows_of_classIn hkind hclass).values
      have hhold : ∀ l ∈ c.linesInComments, ¬ Closes l := by
        apply comments_hold_of_constants
        intro p hp
        rw [hvalues] at hp
        obtain ⟨f, _, rfl⟩ := List.mem_map.1 hp
        exact ⟨f, rfl⟩
      simp only [reduceCtorEq, false_implies, implies_true, iff_true]
      exact hhold
  | final hkind hfinal =>
    obtain ⟨_, _, hproperties⟩ := buildFinal_eq_ok hfinal
    simp only [reduceCtorEq, false_implies, iff_true]
    exact hempty hproperties
  | repository hkind hrepository =>
    obtain ⟨_, _, hproperties⟩ := buildRepository_eq_ok hrepository
    simp only [reduceCtorEq, false_implies, iff_true]
    exact hempty hproperties

/-- A configuration with one entity, the type of whose field ends a comment. -/
def closingConfig : Config where
  entities := .object [("User", .object [("a", .object [("type", .string "x */ y")])])]

/-- A comment in the base class of the entity ends early. -/
theorem closing_type_ends_comment : ∃ s e c, schemaOf closingConfig = .ok s ∧
    e ∈ s.entities.values ∧ classIn closingConfig s e = .ok c ∧
      ∃ l ∈ c.linesInComments, Closes l := by
  obtain ⟨g, hg, _⟩ : ∃ g, Generation.ofConfig closingConfig = .ok g ∧ g.files ≠ [] :=
    exists_ok_of_any (by decide +kernel)
  obtain ⟨s, hs, hhold⟩ := comments_hold_iff hg
  obtain ⟨e, he, hkind, f, hf, hcloses⟩ : ∃ e ∈ s.entities.values, e.kind = .entity ∧
      ∃ f ∈ e.fields.values, Closes f.typeName := by
    cases hs
    decide +kernel
  obtain ⟨s', hrun⟩ := Generation.run_of_ofConfig hg
  obtain rfl : s = s' := Except.ok.inj (hs.symm.trans hrun.schema)
  obtain ⟨c, hc, _⟩ := hrun.classes e he
  have hiff := hhold e he .regenerate c (.regenerated hc)
  refine ⟨s, e, c, hs, he, hc, ?_⟩
  by_contra hnone
  have hall : ∀ l ∈ c.linesInComments, ¬ Closes l := fun l hl hcl => hnone ⟨l, hl, hcl⟩
  exact ((hiff.1 hall rfl hkind).fields f hf).type hcloses

end Mapping
end OrmGen
