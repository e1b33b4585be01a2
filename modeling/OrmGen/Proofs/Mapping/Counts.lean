/-
  Counts and classes. Generated classes see cardinalities only as `one`, `many` or that of an
  enumeration, with one exception: the name under which an association is claimed spells the
  counts at both its ends. Respelling counts changes these names, but not which of them are
  the same, as long as entities and fields are named by words
  (`canonicalId_normalized_iff`): names of different relations stay different. So a run over
  a schema and one over the normalized schema claim alike (`ClaimAlike`) and write the same
  files (`toOption_filesOfAll_normalized`).

  `spelling_of_counts_is_irrelevant`: configurations that differ in how they spell counts are
  accepted alike and have the same files.
-/
import OrmGen.Proofs.Diagram.RelationLines
import OrmGen.Proofs.Mapping.Ends
import OrmGen.Proofs.Mapping.Settings
import OrmGen.Proofs.Schema.Normalized

namespace OrmGen

/-! ## Names of normalized relations -/

namespace Schema.NamedByWords

open OrderedMap (mem_values_iff)

variable {v : Json} {t : Schema} {r q : Relation}

/-- The relation is one of an entity of the schema. -/
def Stands (t : Schema) (r : Relation) : Prop :=
  ∃ k e, t.get? k = some e ∧ r ∈ e.relations.values

/-- Normalized relations have one name exactly if the relations have one name. -/
theorem canonicalId_normalized_iff (h : NamedByWords v t) (hr : Stands t r) (hq : Stands t q) :
    r.normalized.canonicalId = q.normalized.canonicalId ↔ r.canonicalId = q.canonicalId := by
  obtain ⟨k, e, he, hmem⟩ := hr
  obtain ⟨k', e', he', hmem'⟩ := hq
  have hword := h.relation_isWord he hmem
  rw [Relation.canonicalId_eq_iff (hword.avoids (by decide))]
  constructor
  · intro hname
    have hnormalized : r.normalized.IsWord := hword
    have hsame : q.normalized = r.normalized ∨ q.normalized = r.normalized.swap :=
      (Relation.canonicalId_eq_iff (hnormalized.avoids (by decide))).1 hname
    -- the name without counts is the same before and after
    have hpair : r.normalized.pairId = q.normalized.pairId := by
      rcases hsame with hsame | hsame
      · rw [hsame]
      · rw [hsame, Relation.pairId_swap]
    exact (h.eq_or_swap_of_pairId_eq he hmem he' hmem' hpair).imp_right And.left
  · rintro (rfl | rfl)
    · rfl
    · exact (Relation.canonicalId_swap r.normalized).symm

end Schema.NamedByWords

namespace Mapping

open Schema (NamedByWords)
open Schema.NamedByWords (Stands)
open Generation (filesOf filesOfAll schemaOf scaffoldsOf)
open OrderedMap (mem_values_iff)

/-- A relation of `t` is claimed exactly if the normalized relation is. -/
def ClaimAlike (t : Schema) (claims claims' : Claims) : Prop :=
  ∀ r, Stands t r → (r.normalized.canonicalId ∈ claims'.names ↔ r.canonicalId ∈ claims.names)

/-- Two steps of building end alike: they succeed with one result or both fail, and the claims
are alike afterwards. -/
structure EndAlike {α : Type} (t : Schema) (x x' : Except Error α × Claims) : Prop where
  result : x'.1.toOption = x.1.toOption
  claims : ClaimAlike t x.2 x'.2

variable {config config' : Config} {v : Json} {t : Schema} {entity : String}
  {claims claims' : Claims} {c : Php.Class} {r : Relation} {rs : List Relation} {e : Entity}
  {es : List Entity} {g g' : Generation}

theorem EndAlike.cases {α : Type} {x x' : Except Error α × Claims} (h : EndAlike t x x') :
    (∃ err err', x.1 = .error err ∧ x'.1 = .error err') ∨ ∃ a, x.1 = .ok a ∧ x'.1 = .ok a := by
  have hresult := h.result
  rcases x with ⟨err | a, _⟩ <;> rcases x' with ⟨err' | a', _⟩
  · exact .inl ⟨err, err', rfl, rfl⟩
  · cases hresult
  · cases hresult
  · exact .inr ⟨a, rfl, congrArg Except.ok (Option.some.inj hresult)⟩

/-! ## Relations -/

theorem claimAlike_claim (h : NamedByWords v t) (hr : Stands t r)
    (hclaims : ClaimAlike t claims claims') :
    (claims'.claim r.normalized.canonicalId).1 = (claims.claim r.canonicalId).1 ∧
      ClaimAlike t (claims.claim r.canonicalId).2 (claims'.claim r.normalized.canonicalId).2 := by
  constructor
  · unfold Claims.claim
    simp only [hclaims r hr]
    split <;> rfl
  · intro q hq
    rw [mem_names_claim, mem_names_claim, hclaims q hq, h.canonicalId_normalized_iff hq hr]

theorem claimAlike_side (h : NamedByWords v t) (hr : Stands t r)
    (hclaims : ClaimAlike t claims claims') (a : Association) :
    (a.side claims' r.normalized).1 = (a.side claims r).1 ∧
      ClaimAlike t (a.side claims r).2 (a.side claims' r.normalized).2 := by
  cases a with
  | oneToOne => exact claimAlike_claim h hr hclaims
  | manyToOne => exact ⟨rfl, hclaims⟩
  | oneToMany => exact ⟨rfl, hclaims⟩
  | manyToMany => exact claimAlike_claim h hr hclaims

theorem ofCardinalities?_normalized (c d : Cardinality) :
    Association.ofCardinalities? c.normalized d.normalized = Association.ofCardinalities? c d := by
  unfold Association.ofCardinalities?
  rw [Cardinality.normalized_normalized, Cardinality.normalized_normalized]

theorem associationProperty_normalized (a : Association) (side : Side) (r : Relation) :
    associationProperty a side r.normalized = associationProperty a side r := by
  unfold associationProperty
  simp only [Relation.normalized_target, Endpoint.normalized_cardinality,
    Cardinality.isMany_normalized]
  rfl

theorem importOf_normalized (r : Relation) : importOf config r.normalized = importOf config r := by
  unfold importOf
  simp only [Relation.normalized_target, Endpoint.normalized_cardinality,
    Cardinality.normalized_eq_enumeration_iff]
  rfl

theorem endAlike_relationProperty (h : NamedByWords v t) (hr : Stands t r)
    (hclaims : ClaimAlike t claims claims') :
    EndAlike t (relationProperty entity claims r)
      (relationProperty entity claims' r.normalized) := by
  unfold relationProperty
  simp only [Relation.normalized_target, Relation.normalized_source,
    Endpoint.normalized_cardinality, Cardinality.normalized_eq_enumeration_iff,
    ofCardinalities?_normalized]
  split
  · exact ⟨rfl, hclaims⟩
  · cases Association.ofCardinalities? r.source.cardinality r.target.cardinality with
    | none => exact ⟨rfl, hclaims⟩
    | some a =>
      obtain ⟨hside, hafter⟩ := claimAlike_side h hr hclaims a
      refine ⟨?_, hafter⟩
      simp only [hside, associationProperty_normalized]

theorem endAlike_addRelation (h : NamedByWords v t) (hr : Stands t r)
    (hclaims : ClaimAlike t claims claims') :
    EndAlike t (addRelation config entity claims c r)
      (addRelation config entity claims' c r.normalized) := by
  unfold addRelation
  rw [importOf_normalized]
  cases c.addImport (importOf config r) with
  | error err => exact ⟨rfl, hclaims⟩
  | ok c =>
    have hproperty : EndAlike t (relationProperty entity claims r) _ :=
      endAlike_relationProperty h hr hclaims
    refine ⟨?_, hproperty.claims⟩
    obtain ⟨err, err', herr, herr'⟩ | ⟨p, hp, hp'⟩ := hproperty.cases
    · simp only [herr, herr']
      rfl
    · simp only [hp, hp']

theorem endAlike_addRelations (h : NamedByWords v t) (hrs : ∀ r ∈ rs, Stands t r)
    (hclaims : ClaimAlike t claims claims') :
    EndAlike t (addRelations config entity claims c rs)
      (addRelations config entity claims' c (rs.map Relation.normalized)) := by
  induction rs generalizing c claims claims' with
  | nil => exact ⟨rfl, hclaims⟩
  | cons r rs ih =>
    rw [List.forall_mem_cons] at hrs
    have hrelation : EndAlike t (addRelation config entity claims c r) _ :=
      endAlike_addRelation h hrs.1 hclaims
    rw [List.map_cons, addRelations, addRelations]
    generalize addRelation config entity claims c r = x at hrelation
    generalize addRelation config entity claims' c r.normalized = x' at hrelation
    obtain ⟨x, claims₁⟩ := x
    obtain ⟨x', claims₁'⟩ := x'
    obtain ⟨err, err', rfl, rfl⟩ | ⟨d, rfl, rfl⟩ := hrelation.cases
    · exact ⟨rfl, hrelation.claims⟩
    · exact ih hrs.2 hrelation.claims

/-! ## Entities -/

theorem hasCollections_normalized (e : Entity) :
    hasCollections e.normalized = hasCollections e := by
  unfold hasCollections
  rw [Entity.values_normalized, List.any_map]
  congr 1
  funext r
  simp [Cardinality.normalized_eq_enumeration_iff, Cardinality.isMany_normalized]

theorem baseWithFields_normalized (e : Entity) :
    baseWithFields config e.normalized = baseWithFields config e := by
  unfold baseWithFields baseClass baseImports
  rw [hasCollections_normalized]
  rfl

theorem endAlike_build (h : NamedByWords v t) (hrs : ∀ r ∈ e.relations.values, Stands t r)
    (hclaims : ClaimAlike t claims claims') :
    EndAlike t (build config claims e) (build config claims' e.normalized) := by
  unfold build
  rw [Entity.normalized_kind]
  cases e.kind with
  | enumeration => exact ⟨rfl, hclaims⟩
  | entity =>
    change EndAlike t (buildEntity config claims e) (buildEntity config claims' e.normalized)
    unfold buildEntity
    rw [baseWithFields_normalized, Entity.values_normalized]
    cases baseWithFields config e with
    | error err => exact ⟨rfl, hclaims⟩
    | ok c => exact endAlike_addRelations h hrs hclaims

theorem endAlike_filesOf (h : NamedByWords v t) (hrs : ∀ r ∈ e.relations.values, Stands t r)
    (hclaims : ClaimAlike t claims claims') :
    EndAlike t (filesOf config claims e) (filesOf config claims' e.normalized) := by
  have hbuild : EndAlike t (build config claims e) _ := endAlike_build h hrs hclaims
  unfold filesOf
  refine ⟨?_, hbuild.claims⟩
  have hscaffolds : scaffoldsOf config e.normalized = scaffoldsOf config e := rfl
  obtain ⟨err, err', herr, herr'⟩ | ⟨c, hc, hc'⟩ := hbuild.cases
  · simp only [herr, herr']
    rfl
  · simp only [hc, hc', hscaffolds]

theorem toOption_filesOfAll (h : NamedByWords v t)
    (hrs : ∀ e ∈ es, ∀ r ∈ e.relations.values, Stands t r) (hclaims : ClaimAlike t claims claims') :
    (filesOfAll config claims' (es.map Entity.normalized)).toOption =
      (filesOfAll config claims es).toOption := by
  induction es generalizing claims claims' with
  | nil => rfl
  | cons e es ih =>
    rw [List.forall_mem_cons] at hrs
    have hfiles : EndAlike t (filesOf config claims e) _ := endAlike_filesOf h hrs.1 hclaims
    rw [List.map_cons, filesOfAll, filesOfAll]
    generalize filesOf config claims e = x at hfiles
    generalize filesOf config claims' e.normalized = x' at hfiles
    obtain ⟨x, claims₁⟩ := x
    obtain ⟨x', claims₁'⟩ := x'
    obtain ⟨err, err', rfl, rfl⟩ | ⟨files, rfl, rfl⟩ := hfiles.cases
    · rfl
    · change ((filesOfAll config claims₁' _).map _).toOption = ((filesOfAll _ _ _).map _).toOption
      rw [toOption_map, toOption_map, ih hrs.2 hfiles.claims]

/-- A run over the normalized schema writes the same files. -/
theorem toOption_filesOfAll_normalized (h : NamedByWords v t) :
    (filesOfAll config .none t.normalized.entities.values).toOption =
      (filesOfAll config .none t.entities.values).toOption := by
  rw [Schema.values_normalized]
  refine toOption_filesOfAll h ?_ fun r _ => ?_
  · intro e he r hr
    obtain ⟨k, hk⟩ := mem_values_iff.1 he
    exact ⟨k, e, hk, hr⟩
  · simp [Claims.none]

/-! ## Configurations -/

/-- The configuration `config'` is `config` with counts of relations spelled otherwise. -/
structure Respells (config config' : Config) : Prop where
  entities : Schema.Recounted config.entities config'.entities
  settings : { config' with entities := config.entities } = config

namespace Respells

theorem map_schemaOf (h : Respells config config') :
    (schemaOf config').map Schema.normalized = (schemaOf config).map Schema.normalized := by
  refine map_bind_congr (Schema.map_normalized_ofDeclarations h.entities) fun hs => ?_
  rw [← Schema.link_normalized, ← Schema.link_normalized, hs]

theorem namedByWords (hwords : ∀ n ∈ Schema.declaredNames config.entities, Text.isWord n = true)
    (ht : schemaOf config = .ok t) : NamedByWords config.entities t :=
  ⟨bind_eq_ok.1 ht, hwords⟩

theorem isWord (h : Respells config config')
    (hwords : ∀ n ∈ Schema.declaredNames config.entities, Text.isWord n = true) :
    ∀ n ∈ Schema.declaredNames config'.entities, Text.isWord n = true := by
  rw [Schema.declaredNames_of_recounted h.entities]
  exact hwords

/-- The schemas of the two configurations have the same files. -/
theorem toOption_filesOfAll_eq (h : Respells config config')
    (hwords : ∀ n ∈ Schema.declaredNames config.entities, Text.isWord n = true)
    {t' : Schema} (ht : schemaOf config = .ok t) (ht' : schemaOf config' = .ok t') :
    (filesOfAll config' .none t'.entities.values).toOption =
      (filesOfAll config .none t.entities.values).toOption := by
  have hnormalized : t'.normalized = t.normalized := by
    have hmap := h.map_schemaOf
    rw [ht, ht'] at hmap
    exact Except.ok.inj hmap
  calc (filesOfAll config' .none t'.entities.values).toOption
      = (filesOfAll config' .none t'.normalized.entities.values).toOption :=
        (toOption_filesOfAll_normalized (namedByWords (h.isWord hwords) ht')).symm
    _ = (filesOfAll config .none t.normalized.entities.values).toOption := by
        rw [hnormalized, filesOfAll_of_eq h.settings]
    _ = (filesOfAll config .none t.entities.values).toOption :=
        toOption_filesOfAll_normalized (namedByWords hwords ht)

theorem exists_schemaOf_iff (h : Respells config config') :
    (∃ t', schemaOf config' = .ok t') ↔ ∃ t, schemaOf config = .ok t :=
  exists_ok_iff_of_map h.map_schemaOf

end Respells

/-- A configuration is accepted if its schema can be linked and the files can be built: where all
names are words there is always a diagram. -/
theorem exists_ofConfig_iff
    (hwords : ∀ n ∈ Schema.declaredNames config.entities, Text.isWord n = true)
    {files : List OutputFile} :
    (∃ g, Generation.ofConfig config = .ok g ∧ g.files = files) ↔
      ∃ t, schemaOf config = .ok t ∧ filesOfAll config .none t.entities.values = .ok files := by
  constructor
  · rintro ⟨g, hg, rfl⟩
    obtain ⟨t, ht, hfiles, _⟩ := Generation.ofConfig_eq_ok hg
    exact ⟨t, ht, hfiles⟩
  · rintro ⟨t, ht, hfiles⟩
    obtain ⟨d, hd⟩ := Diagram.exists_ofSchema (Respells.namedByWords hwords ht)
    exact ⟨_, Generation.ofConfig_of_parts ht hfiles hd, rfl⟩

theorem Respells.files_iff (h : Respells config config')
    (hwords : ∀ n ∈ Schema.declaredNames config.entities, Text.isWord n = true)
    {files : List OutputFile} :
    (∃ g', Generation.ofConfig config' = .ok g' ∧ g'.files = files) ↔
      ∃ g, Generation.ofConfig config = .ok g ∧ g.files = files := by
  rw [exists_ofConfig_iff (h.isWord hwords), exists_ofConfig_iff hwords]
  constructor
  · rintro ⟨t', ht', hfiles'⟩
    obtain ⟨t, ht⟩ := h.exists_schemaOf_iff.1 ⟨t', ht'⟩
    refine ⟨t, ht, toOption_eq_some.1 ?_⟩
    rw [← h.toOption_filesOfAll_eq hwords ht ht', hfiles']
    rfl
  · rintro ⟨t, ht, hfiles⟩
    obtain ⟨t', ht'⟩ := h.exists_schemaOf_iff.2 ⟨t, ht⟩
    refine ⟨t', ht', toOption_eq_some.1 ?_⟩
    rw [h.toOption_filesOfAll_eq hwords ht ht', hfiles]
    rfl

/-- How the counts of relations are spelled decides neither whether a configuration is accepted
nor anything in its files: `one` may be 0 or 1 and `many` any larger count, at one end of a
relation or at both, where all entities and fields are named by words. -/
theorem spelling_of_counts_is_irrelevant (h : Respells config config')
    (hwords : ∀ n ∈ Schema.declaredNames config.entities, Text.isWord n = true) :
    ((∃ g, Generation.ofConfig config = .ok g) ↔ ∃ g', Generation.ofConfig config' = .ok g') ∧
    ∀ g g', Generation.ofConfig config = .ok g → Generation.ofConfig config' = .ok g' →
      g'.files = g.files := by
  constructor
  · constructor
    · rintro ⟨g, hg⟩
      obtain ⟨g', hg', _⟩ := (h.files_iff hwords).2 ⟨g, hg, rfl⟩
      exact ⟨g', hg'⟩
    · rintro ⟨g', hg'⟩
      obtain ⟨g, hg, _⟩ := (h.files_iff hwords).1 ⟨g', hg', rfl⟩
      exact ⟨g, hg⟩
  · intro g g' hg hg'
    obtain ⟨g₁, hg₁, hfiles⟩ := (h.files_iff hwords).1 ⟨g', hg', rfl⟩
    obtain rfl : g₁ = g := Except.ok.inj (hg₁.symm.trans hg)
    exact hfiles.symm

/-- The blog with its counts spelled otherwise, at one end of the posts of a user and at both
ends of the tags of a post. -/
def respelledBlog : Config := { entities := .object [
  ("Status", .object [("draft", .number (.integer 0)), ("public", .number (.integer 1))]),
  ("User", .object [
    ("status", .object [("relation", .string "enum"), ("target", .string "Status")]),
    ("posts", .object [("relation", .number (.integer 7)), ("target", .string "Post")])]),
  ("Post", .object [
    ("title", .object [("type", .string "string")]),
    ("author", .object [("relation", .string "one"), ("target", .string "User")]),
    ("previous", .object [("relation", .string "0"), ("target", .string "Post")]),
    ("tags", .object [("relation", .string " MANY "), ("target", .string "Tag")])]),
  ("Tag", .object [
    ("posts", .object [("relation", .number (.integer 4294967295)),
      ("target", .string "Post")])])] }

theorem respells_blog : Respells blogConfig respelledBlog := by
  refine ⟨.object ?_, rfl⟩
  refine .cons ⟨rfl, .same _⟩ (.cons ⟨rfl, .object ?_⟩ (.cons ⟨rfl, .object ?_⟩
    (.cons ⟨rfl, .object ?_⟩ .nil)))
  · exact .cons ⟨rfl, .same _⟩ (.cons ⟨rfl, Schema.related_of_count rfl rfl rfl⟩ .nil)
  · exact .cons ⟨rfl, .same _⟩ (.cons ⟨rfl, .same _⟩
      (.cons ⟨rfl, Schema.related_of_count rfl rfl rfl⟩
        (.cons ⟨rfl, Schema.related_of_count rfl rfl rfl⟩ .nil)))
  · exact .cons ⟨rfl, Schema.related_of_count rfl rfl rfl⟩ .nil

/-- The respelled blog has the files of the blog, although its associations are claimed under
other names. -/
theorem respelled_blog_has_same_files : Respells blogConfig respelledBlog ∧
    (∀ n ∈ Schema.declaredNames blogConfig.entities, Text.isWord n = true) ∧
    blogConfig.entities ≠ respelledBlog.entities ∧
    ∃ g g', Generation.ofConfig blogConfig = .ok g ∧ Generation.ofConfig respelledBlog = .ok g' ∧
      g'.files = g.files := by
  have hwords : ∀ n ∈ Schema.declaredNames blogConfig.entities, Text.isWord n = true := by decide
  obtain ⟨haccepted, hfiles⟩ := spelling_of_counts_is_irrelevant respells_blog hwords
  obtain ⟨g, hg⟩ := exists_ofConfig_blogConfig
  obtain ⟨g', hg'⟩ := haccepted.1 ⟨g, hg⟩
  exact ⟨respells_blog, hwords, by decide, g, g', hg, hg', hfiles g g' hg hg'⟩

end Mapping
end OrmGen
