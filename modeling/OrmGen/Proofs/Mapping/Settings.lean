/-
  What of a configuration the classes depend on. A class is built with the namespaces that
  classes are in, already joined, with the postfixes and with the imports; two
  configurations that have these in common build the same classes (`SharesSettings.build_eq`,
  `SharesSettings.scaffoldsOf_eq`). The application namespace alone only decides where the
  files of the classes are: the files of a run are its classes, each at its place
  (`filesOfAll_eq_map`, `ofConfig_eq_map`), and the classes are common
  (`SharesSettings.classesOfAll_eq`, `SharesSettings.outlineOf_eq`).
-/
import OrmGen.Generation
import OrmGen.Proofs.Traversal

namespace OrmGen

open Mapping (Claims build)

/-- Two configurations with the same settings of classes. -/
structure SharesSettings (config config' : Config) : Prop where
  base : config'.baseNamespace = config.baseNamespace
  enumeration : config'.enumNamespace = config.enumNamespace
  entity : config'.entityNamespace = config.entityNamespace
  repository : config'.repositoryNamespace = config.repositoryNamespace
  classPostfix : config'.classPostfix = config.classPostfix
  imports : config'.imports = config.imports

variable {config config' : Config}

/-- What the entities are declared by is no setting. -/
theorem sharesSettings_of_eq (h : { config' with entities := config.entities } = config) :
    SharesSettings config config' := by
  rw [← h]
  exact ⟨rfl, rfl, rfl, rfl, rfl, rfl⟩

theorem appNamespace_of_eq (h : { config' with entities := config.entities } = config) :
    config'.appNamespace = config.appNamespace := by
  rw [← h]
  rfl

namespace Generation

/-- The classes of an entity with the modes that they are written in, and the claims once they
are built. -/
def classesOf (config : Config) (claims : Claims) (e : Entity) :
    Except Error (List (WriteMode × Php.Class)) × Claims :=
  let (c, claims) := build config claims e
  let classes := do
    let c ← c
    let scaffolds ← scaffoldsOf config e
    return (.regenerate, c) :: scaffolds.map (Prod.mk .createIfMissing)
  (classes, claims)

/-- The classes of entities, up to the first error. -/
def classesOfAll (config : Config) (claims : Claims) :
    List Entity → Except Error (List (WriteMode × Php.Class))
  | [] => .ok []
  | e :: es =>
    match classesOf config claims e with
    | (.error err, _) => .error err
    | (.ok classes, claims) => (classesOfAll config claims es).map (classes ++ ·)

/-- The file of a class in a mode. -/
def placed (config : Config) (c : WriteMode × Php.Class) : OutputFile := fileOf config c.1 c.2

theorem filesOf_eq_map (config : Config) (claims : Claims) (e : Entity) :
    filesOf config claims e =
      ((classesOf config claims e).1.map (List.map (placed config)),
        (classesOf config claims e).2) := by
  unfold filesOf classesOf
  rcases build config claims e with ⟨c | c, claims'⟩
  · rfl
  · refine Prod.ext ?_ rfl
    cases scaffoldsOf config e with
    | error err => rfl
    | ok scaffolds =>
      have hplaced : scaffolds.map (fileOf config .createIfMissing) =
          (scaffolds.map (Prod.mk .createIfMissing)).map (placed config) := by
        rw [List.map_map]
        rfl
      exact congrArg (fun fs => Except.ok (fileOf config .regenerate c :: fs)) hplaced

/-- The files of a run are its classes, each at its place. -/
theorem filesOfAll_eq_map (config : Config) (claims : Claims) (es : List Entity) :
    filesOfAll config claims es =
      (classesOfAll config claims es).map (List.map (placed config)) := by
  induction es generalizing claims with
  | nil => rfl
  | cons e es ih =>
    rw [filesOfAll, classesOfAll, filesOf_eq_map]
    rcases classesOf config claims e with ⟨classes | classes, claims'⟩
    · rfl
    · change (filesOfAll config claims' es).map _ = ((classesOfAll config claims' es).map _).map _
      rw [ih]
      cases classesOfAll config claims' es with
      | error err => rfl
      | ok rest => exact congrArg Except.ok List.map_append.symm

/-- The classes of a run, and its diagram. -/
def outlineOf (config : Config) : Except Error (List (WriteMode × Php.Class) × String) := do
  let schema ← schemaOf config
  let classes ← classesOfAll config .none schema.entities.values
  let diagram ← Diagram.ofSchema schema
  return (classes, diagram)

/-- The run with these classes and this diagram. -/
def located (config : Config) (outline : List (WriteMode × Php.Class) × String) :
    Generation where
  files := outline.1.map (placed config)
  generatedDirectory := Php.namespaceDirectory config.appNamespace config.baseNamespace
  diagram := outline.2

theorem located_generatedDirectory (config : Config)
    (outline : List (WriteMode × Php.Class) × String) :
    (located config outline).generatedDirectory =
      Php.namespaceDirectory config.appNamespace config.baseNamespace := by
  simp only [located]

theorem ofConfig_eq_map (config : Config) :
    ofConfig config = (outlineOf config).map (located config) := by
  unfold ofConfig outlineOf
  cases schemaOf config with
  | error err => rfl
  | ok schema =>
    change (filesOfAll config .none schema.entities.values).bind _ =
      ((classesOfAll config .none schema.entities.values).bind _).map _
    rw [filesOfAll_eq_map]
    cases classesOfAll config .none schema.entities.values with
    | error err => rfl
    | ok classes =>
      change (Diagram.ofSchema schema).bind _ = ((Diagram.ofSchema schema).bind _).map _
      cases Diagram.ofSchema schema with
      | error err => rfl
      | ok diagram => rfl

end Generation

namespace SharesSettings

open Mapping
open Generation (classesOf classesOfAll)

variable {claims : Claims} {c : Php.Class} {entity : String} {e : Entity}

theorem addField_eq (h : SharesSettings config config') (f : Field) :
    addField config' entity c f = addField config entity c f := by
  unfold addField importEnum
  rw [h.enumeration]

theorem addFields_eq (h : SharesSettings config config') (fs : List Field) :
    addFields config' entity c fs = addFields config entity c fs := by
  induction fs generalizing c with
  | nil => rfl
  | cons f fs ih =>
    rw [addFields, addFields, h.addField_eq]
    exact bind_congr fun c => ih

theorem addRelation_eq (h : SharesSettings config config') (r : Relation) :
    addRelation config' entity claims c r = addRelation config entity claims c r := by
  unfold addRelation importOf
  rw [h.enumeration, h.entity]

theorem addRelations_eq (h : SharesSettings config config') (rs : List Relation) :
    addRelations config' entity claims c rs = addRelations config entity claims c rs := by
  induction rs generalizing c claims with
  | nil => rfl
  | cons r rs ih =>
    rw [addRelations, addRelations, h.addRelation_eq]
    simp only [ih]

theorem baseWithFields_eq (h : SharesSettings config config') (e : Entity) :
    baseWithFields config' e = baseWithFields config e := by
  unfold baseWithFields baseClass baseName baseImports
  simp only [h.addFields_eq, h.base, h.classPostfix, h.imports]

theorem build_eq (h : SharesSettings config config') :
    build config' claims e = build config claims e := by
  unfold build buildEnum buildEntity
  rw [h.baseWithFields_eq, h.enumeration]
  simp only [h.addRelations_eq]

theorem buildFinal_eq (h : SharesSettings config config') (e : Entity) :
    buildFinal config' e = buildFinal config e := by
  unfold buildFinal repositoryName baseName
  rw [h.repository, h.entity, h.base, h.classPostfix]

theorem buildRepository_eq (h : SharesSettings config config') (e : Entity) :
    buildRepository config' e = buildRepository config e := by
  unfold buildRepository repositoryName
  rw [h.repository, h.entity, h.classPostfix]

theorem scaffoldsOf_eq (h : SharesSettings config config') (e : Entity) :
    Generation.scaffoldsOf config' e = Generation.scaffoldsOf config e := by
  unfold Generation.scaffoldsOf
  rw [h.buildFinal_eq, h.buildRepository_eq]

theorem classesOf_eq (h : SharesSettings config config') :
    classesOf config' claims e = classesOf config claims e := by
  unfold classesOf
  rw [h.build_eq, h.scaffoldsOf_eq]

/-- Configurations that share the settings of classes have the same classes. -/
theorem classesOfAll_eq (h : SharesSettings config config') (es : List Entity) :
    classesOfAll config' claims es = classesOfAll config claims es := by
  induction es generalizing claims with
  | nil => rfl
  | cons e es ih =>
    rw [classesOfAll, classesOfAll, h.classesOf_eq]
    simp only [ih]

/-- With the same declarations they have the same classes and the same diagram. -/
theorem outlineOf_eq (h : SharesSettings config config')
    (hentities : config'.entities = config.entities) :
    Generation.outlineOf config' = Generation.outlineOf config := by
  unfold Generation.outlineOf Generation.schemaOf
  rw [hentities]
  simp only [h.classesOfAll_eq]

/-- With the same application namespace also their files are the same. -/
theorem filesOfAll_eq (h : SharesSettings config config')
    (happ : config'.appNamespace = config.appNamespace) (es : List Entity) :
    Generation.filesOfAll config' claims es = Generation.filesOfAll config claims es := by
  have hplaced : Generation.placed config' = Generation.placed config := by
    unfold Generation.placed Generation.fileOf
    rw [happ]
  rw [Generation.filesOfAll_eq_map, Generation.filesOfAll_eq_map, h.classesOfAll_eq, hplaced]

end SharesSettings

/-- Configurations that differ in their declarations only have the same files of an entity. -/
theorem filesOfAll_of_eq {claims : Claims}
    (h : { config' with entities := config.entities } = config) (es : List Entity) :
    Generation.filesOfAll config' claims es = Generation.filesOfAll config claims es :=
  (sharesSettings_of_eq h).filesOfAll_eq (appNamespace_of_eq h) es

end OrmGen
