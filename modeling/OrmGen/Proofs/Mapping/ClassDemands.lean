/-
  What the classes of an entity demand, step by step along the functions that build them. The
  base class of an entity demands its imports and members and that these can be built at all
  (`baseDemands`), its repository only imports (`neededByRepository`). A final class and the class
  of an enumeration can always be built (`exists_buildFinal`, `exists_buildEnum`).
-/
import OrmGen.Proofs.Mapping.Demands
import OrmGen.Proofs.Mapping.Repetition

namespace OrmGen.Mapping

open Php (Import ImportTable)

variable {config : Config} {entity : String} {claims : Claims} {r : Relation} {e : Entity}

/-! ## Fields and relations -/

/-- The demands of a field that refers to an enumeration: a name, and the import of it. -/
def enumDemands (config : Config) (entity : String) (f : Field) : List Demand :=
  if f.isEnumReference then
    match f.value with
    | none => [.refusal (.missingProperty entity f.name "target")]
    | some name => [.ofStatement (joinNamespace [config.enumNamespace, name])]
  else []

/-- The demands of a field. -/
def fieldDemands (config : Config) (entity : String) (f : Field) : List Demand :=
  enumDemands config entity f ++ [.member f.name]

/-- The demands of a relation that is an association: there has to be one between its
cardinalities. -/
def associationDemands (entity : String) (r : Relation) : List Demand :=
  if r.target.cardinality = .enumeration then []
  else
    match Association.ofCardinalities? r.source.cardinality r.target.cardinality with
    | none => [.refusal (.unsupportedAssociation entity r.source r.target)]
    | some _ => []

/-- The demands of a relation. -/
def relationDemands (config : Config) (entity : String) (r : Relation) : List Demand :=
  .ofStatement (importOf config r) :: (associationDemands entity r ++ [.member r.target.name])

theorem follows_addField (c : Php.Class) (f : Field) :
    Follows outline (addField config entity c f) (outline c) (fieldDemands config entity f) := by
  have henum : Follows outline (importEnum config entity f c) (outline c)
      (enumDemands config entity f) := by
    unfold importEnum enumDemands
    split
    · cases f.value with
      | none => exact .error ..
      | some name => exact follows_addImport ..
    · exact .ok outline c
  exact henum.bind fun c => follows_addProperty c (fieldProperty f)

theorem follows_addFields (c : Php.Class) (fs : List Field) :
    Follows outline (addFields config entity c fs) (outline c)
      (fs.flatMap (fieldDemands config entity)) := by
  induction fs generalizing c with
  | nil => exact .ok outline c
  | cons f fs ih =>
    rw [addFields, List.flatMap_cons]
    exact (follows_addField c f).bind ih

/-- The property of a relation, once its import is bound. -/
theorem follows_relationProperty (claims : Claims) (r : Relation) (c : Php.Class) :
    Follows outline ((relationProperty entity claims r).1 >>= c.addProperty) (outline c)
      (associationDemands entity r ++ [.member r.target.name]) := by
  unfold relationProperty associationDemands
  split
  · exact follows_addProperty c (enumProperty r)
  · cases Association.ofCardinalities? r.source.cardinality r.target.cardinality with
    | none => exact .error ..
    | some a =>
      have hadd := follows_addProperty c (associationProperty a (a.side claims r).1 r)
      rwa [associationProperty_name] at hadd

theorem follows_addRelation (claims : Claims) (c : Php.Class) (r : Relation) :
    Follows outline (addRelation config entity claims c r).1 (outline c)
      (relationDemands config entity r) := by
  have hsteps : (addRelation config entity claims c r).1 =
      c.addImport (importOf config r) >>= fun c =>
        (relationProperty entity claims r).1 >>= c.addProperty := by
    unfold addRelation
    cases c.addImport (importOf config r) <;> rfl
  rw [hsteps]
  exact (follows_addImport c (importOf config r)).bind (follows_relationProperty claims r)

theorem follows_addRelations (claims : Claims) (c : Php.Class) (rs : List Relation) :
    Follows outline (addRelations config entity claims c rs).1 (outline c)
      (rs.flatMap (relationDemands config entity)) := by
  induction rs generalizing c claims with
  | nil => exact .ok outline c
  | cons r rs ih =>
    have hfirst : Follows outline (addRelation config entity claims c r).1 (outline c)
        (relationDemands config entity r) := follows_addRelation claims c r
    rw [addRelations, List.flatMap_cons]
    generalize addRelation config entity claims c r = step at hfirst ⊢
    obtain ⟨x, claims₁⟩ := step
    have hrest := hfirst.bind (ih claims₁)
    cases x with
    | error err => exact hrest
    | ok c₁ => exact hrest

/-! ## The classes of an entity -/

/-- The demands of the base class of an entity. -/
def baseDemands (config : Config) (e : Entity) : List Demand :=
  (baseImports config e).map .ofStatement ++ .member identifier.name ::
    (e.fields.values.flatMap (fieldDemands config e.name) ++
      e.relations.values.flatMap (relationDemands config e.name))

/-- The enumeration that a field refers to, as an import. -/
def enumImport? (config : Config) (f : Field) : Option String :=
  (enumTarget? f).map fun name => joinNamespace [config.enumNamespace, name]

/-- The imports of a base class: that of the mapping, the two collection classes if there is a
relation to many, the configured ones, one for each field that refers to an enumeration, and
one for each relation. -/
def neededByBase (config : Config) (e : Entity) : List String :=
  ("Doctrine\\ORM\\Mapping as ORM" ::
      (if hasCollections e then
        ["Doctrine\\Common\\Collections\\ArrayCollection",
          "Doctrine\\Common\\Collections\\Collection"]
      else []) ++ config.imports) ++
    (e.fields.values.filterMap (enumImport? config) ++ e.relations.values.map (importOf config))

theorem neededByBase_eq (config : Config) (e : Entity) : neededByBase config e =
    baseImports config e ++ (e.fields.values.filterMap (enumImport? config) ++
      e.relations.values.map (importOf config)) := rfl

/-- The imports of a repository: two of the framework, and the entity. -/
def neededByRepository (config : Config) (e : Entity) : List String :=
  ["Doctrine\\Bundle\\DoctrineBundle\\Repository\\ServiceEntityRepository",
    "Symfony\\Bridge\\Doctrine\\RegistryInterface",
    joinNamespace [config.entityNamespace, e.name]]

theorem neededByRepository_eq (config : Config) (e : Entity) : neededByRepository config e =
    repositoryImports ++ [joinNamespace [config.entityNamespace, e.name]] := rfl

theorem follows_baseClass (config : Config) (e : Entity) :
    Follows outline (baseClass config e) (blank (baseName config e))
      ((baseImports config e).map .ofStatement ++ [.member identifier.name]) :=
  (follows_addAll (blank (baseName config e)) .empty (baseImports config e)).bind fun t =>
    -- the class has no members yet, so putting the identifier is adding it
    follows_addProperty { Php.Class.generated (baseName config e) config.baseNamespace with
      imports := t, annotations := ["@ORM\\MappedSuperclass()"] } identifier

theorem expectKind_eq_ok {kind : EntityKind} (h : e.kind = kind) : expectKind e kind = pure () :=
  if_pos h

theorem follows_baseWithFields (hkind : e.kind = .entity) :
    Follows outline (baseWithFields config e) (blank (baseName config e))
      (((baseImports config e).map .ofStatement ++ [.member identifier.name]) ++
        e.fields.values.flatMap (fieldDemands config e.name)) := by
  unfold baseWithFields
  rw [expectKind_eq_ok hkind, pure_bind]
  exact (follows_baseClass config e).bind fun c => follows_addFields c e.fields.values

theorem follows_build (hkind : e.kind = .entity) (claims : Claims) :
    Follows outline (build config claims e).1 (blank (baseName config e))
      (baseDemands config e) := by
  have hsteps : (build config claims e).1 = baseWithFields config e >>= fun c =>
      (addRelations config e.name claims c e.relations.values).1 := by
    unfold build buildEntity
    rw [hkind]
    cases baseWithFields config e <;> rfl
  have hdemands : baseDemands config e =
      (((baseImports config e).map .ofStatement ++ [.member identifier.name]) ++
        e.fields.values.flatMap (fieldDemands config e.name)) ++
        e.relations.values.flatMap (relationDemands config e.name) := by
    simp [baseDemands]
  rw [hsteps, hdemands]
  exact (follows_baseWithFields hkind).bind fun c =>
    follows_addRelations claims c e.relations.values

theorem follows_buildRepository (hkind : e.kind = .entity) :
    Follows outline (buildRepository config e) (blank (repositoryName config e))
      ((neededByRepository config e).map .ofStatement) := by
  unfold buildRepository
  rw [expectKind_eq_ok hkind, pure_bind]
  -- which imports they are is of no matter here
  rw [← neededByRepository_eq]
  generalize neededByRepository config e = statements
  exact (follows_addAll (blank (repositoryName config e)) .empty statements).bind_pure fun _ => rfl

/-- A final class imports the mapping, and its base class under a name of its own. -/
theorem follows_buildFinal (hkind : e.kind = .entity) :
    Follows outline (buildFinal config e) (blank e.name)
      [.ofStatement ormImport,
        .symbol
          ⟨joinNamespace [config.baseNamespace, baseName config e], e.name ++ "Generated"⟩] := by
  unfold buildFinal
  rw [expectKind_eq_ok hkind, pure_bind]
  unfold ImportTable.add Demand.ofStatement
  generalize Import.parse ormImport = orm
  refine Follows.bind (follows_register (blank e.name) .empty orm) fun t => ?_
  exact Follows.bind_pure (follows_register (blank e.name) t _) fun _ => rfl

/-- A final class can always be built: the two names that it imports differ. -/
theorem exists_buildFinal (hkind : e.kind = .entity) : ∃ c, buildFinal config e = .ok c := by
  have horm : (Import.parse ormImport).name = "ORM" := by decide +kernel
  have hne : "ORM" ≠ e.name ++ "Generated" := by
    intro h
    have hlast := congrArg (fun s => s.toList.getLast?) h
    simp [String.toList_append] at hlast
  rw [(follows_buildFinal hkind).ok_iff]
  refine ⟨?_, List.nodup_nil, Php.consistent_pair ?_⟩
  · intro err
    simp [Demand.ofStatement]
  · rw [horm]
    exact hne

theorem follows_addConstants (c : Php.Class) (fs : List Field) :
    Follows outline (addConstants c fs) (outline c) (fs.map fun f => .member f.name) := by
  induction fs generalizing c with
  | nil => exact .ok outline c
  | cons f fs ih => exact (follows_addProperty c (constantOf f)).bind ih

/-- The class of an enumeration can always be built: its members have different names. -/
theorem exists_buildEnum (hwf : e.WellFormed) (hkind : e.kind = .enumeration) :
    ∃ c, buildEnum config e = .ok c := by
  have hsymbols : symbolsOf (e.fields.values.map fun f => .member f.name) = [] := by
    simp [symbolsOf]
  have hmembers : membersOf (e.fields.values.map fun f => .member f.name) = e.fields.keys := by
    rw [← OrderedMap.map_values_eq_keys hwf.field_name]
    simp [membersOf]
  have hsteps : buildEnum config e =
      addConstants (.generated e.name config.enumNamespace) e.fields.values := by
    unfold buildEnum
    rw [expectKind_eq_ok hkind, pure_bind]
  rw [hsteps, (follows_addConstants _ e.fields.values).ok_iff]
  refine ⟨by simp, ?_, ?_⟩
  · unfold Outline.named
    rw [hmembers]
    exact e.fields.nodup
  · unfold Outline.wanted
    rw [hsymbols]
    exact ImportTable.consistent_imports .empty

/-! ## What is demanded -/

@[simp] theorem membersOf_fieldDemands (config : Config) (entity : String) (f : Field) :
    membersOf (fieldDemands config entity f) = [f.name] := by
  unfold fieldDemands enumDemands
  split
  · split <;> rfl
  · rfl

@[simp] theorem symbolsOf_fieldDemands (config : Config) (entity : String) (f : Field) :
    symbolsOf (fieldDemands config entity f) =
      ((enumImport? config f).map Import.parse).toList := by
  unfold fieldDemands enumDemands enumImport? enumTarget?
  split
  · cases f.value <;> rfl
  · rfl

/-- A field refuses to be built if it refers to an enumeration that it does not name. -/
theorem refusal_mem_fieldDemands {f : Field} {err : Error} :
    .refusal err ∈ fieldDemands config entity f ↔ f.isEnumReference = true ∧ f.value = none ∧
      err = .missingProperty entity f.name "target" := by
  unfold fieldDemands enumDemands
  by_cases henum : f.isEnumReference = true
  · cases hvalue : f.value with
    | none => simp [henum]
    | some name => simp [henum, Demand.ofStatement]
  · simp [henum]

@[simp] theorem membersOf_relationDemands (config : Config) (entity : String) (r : Relation) :
    membersOf (relationDemands config entity r) = [r.target.name] := by
  unfold relationDemands associationDemands
  split
  · rfl
  · split <;> rfl

@[simp] theorem symbolsOf_relationDemands (config : Config) (entity : String) (r : Relation) :
    symbolsOf (relationDemands config entity r) = [Import.parse (importOf config r)] := by
  unfold relationDemands associationDemands
  split
  · rfl
  · split <;> rfl

/-- A relation refuses to be built if there is no association between its cardinalities. -/
theorem refusal_mem_relationDemands {err : Error} :
    .refusal err ∈ relationDemands config entity r ↔ r.target.cardinality ≠ .enumeration ∧
      Association.ofCardinalities? r.source.cardinality r.target.cardinality = none ∧
      err = .unsupportedAssociation entity r.source r.target := by
  unfold relationDemands associationDemands
  by_cases henum : r.target.cardinality = .enumeration
  · simp [henum, Demand.ofStatement]
  · cases Association.ofCardinalities? r.source.cardinality r.target.cardinality with
    | none => simp [henum, Demand.ofStatement]
    | some a => simp [henum, Demand.ofStatement]

theorem membersOf_baseDemands (config : Config) (e : Entity) :
    membersOf (baseDemands config e) = identifier.name ::
      (e.fields.values.map Field.name ++ e.relations.values.map fun r => r.target.name) := by
  have hfields : e.fields.values.flatMap (fun f => [f.name]) = e.fields.values.map Field.name :=
    (List.map_eq_flatMap ..).symm
  have hrelations : e.relations.values.flatMap (fun r => [r.target.name]) =
      e.relations.values.map fun r => r.target.name := (List.map_eq_flatMap ..).symm
  simp [baseDemands, membersOf_flatMap, hfields, hrelations]

theorem symbolsOf_baseDemands (config : Config) (e : Entity) :
    symbolsOf (baseDemands config e) = (neededByBase config e).map Import.parse := by
  have hfields : e.fields.values.flatMap
      (fun f => ((enumImport? config f).map Import.parse).toList) =
        (e.fields.values.filterMap (enumImport? config)).map Import.parse := by
    rw [List.map_filterMap, List.filterMap_eq_flatMap_toList]
  have hrelations : e.relations.values.flatMap (fun r => [Import.parse (importOf config r)]) =
      (e.relations.values.map (importOf config)).map Import.parse := by
    rw [List.map_map, List.map_eq_flatMap]
    rfl
  simp only [baseDemands, neededByBase_eq, symbolsOf_append, symbolsOf_map_ofStatement,
    symbolsOf_member, symbolsOf_flatMap, symbolsOf_fieldDemands, symbolsOf_relationDemands,
    hfields, hrelations, List.map_append]

theorem refusal_mem_baseDemands {err : Error} : .refusal err ∈ baseDemands config e ↔
    (∃ f ∈ e.fields.values, .refusal err ∈ fieldDemands config e.name f) ∨
      ∃ r ∈ e.relations.values, .refusal err ∈ relationDemands config e.name r := by
  simp [baseDemands, Demand.ofStatement]

end OrmGen.Mapping
