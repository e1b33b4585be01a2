/-
  The classes of a run. Entities are built in the order of declaration, and what an entity's
  class looks like depends on the run only through the claims made before it.

  `Generation.classIn` is the class that a run builds for an entity. `Run.exists_build`: in a
  run that succeeds it is there, its file is among those of the run, and the claims it was
  built with are the names of the symmetric associations of the entities declared before.
  `Run.mem_files_iff`: the files of the run are those of the classes built for its entities.
-/
import OrmGen.Generation
import OrmGen.Proofs.Mapping.Relations
import OrmGen.Proofs.Schema.Pairing

namespace OrmGen

/-- The entities that are declared before the one at `name`. -/
def Schema.before (s : Schema) (name : String) : List Entity := s.entities.before name

/-- What stands before an entity of a well-formed schema. -/
theorem Schema.WellFormed.before_eq {s : Schema} (h : s.WellFormed) {e : Entity}
    {pre post : List Entity} (hsplit : s.entities.values = pre ++ e :: post) :
    pre = s.before e.name := by
  have hmem : e ∈ s.entities.values := by
    rw [hsplit]
    exact List.mem_append_right _ List.mem_cons_self
  obtain ⟨k, hk⟩ := OrderedMap.mem_values_iff.1 hmem
  obtain rfl : e.name = k := h.name hk
  obtain ⟨post', hsplit'⟩ := OrderedMap.values_split hk
  have hnodup := h.nodup_values
  rw [hsplit, List.nodup_middle, List.nodup_cons, List.mem_append, not_or] at hnodup
  rw [hsplit] at hsplit'
  exact ((List.append_cons_inj_of_notMem hnodup.1.1 hnodup.1.2).1 hsplit').1

namespace Mapping

/-- The claims once the classes of entities are built one after another. -/
def claimsAfter (config : Config) (claims : Claims) (es : List Entity) : Claims :=
  es.foldl (fun claims e => (build config claims e).2) claims

variable {config : Config} {claims claims' : Claims} {e : Entity} {es pre post : List Entity}
  {c : Php.Class} {n : String}

theorem build_eq_ok (hkind : e.kind = .entity) (h : build config claims e = (.ok c, claims')) :
    ∃ c₀, addRelations config e.name claims c₀ e.relations.values = (.ok c, claims') := by
  unfold build at h
  rw [hkind] at h
  change buildEntity config claims e = _ at h
  unfold buildEntity at h
  split at h
  · simp at h
  · rename_i c₀ _
    exact ⟨c₀, h⟩

/-- Whether a relation of one of the entities claims the name `n`. -/
def ClaimedBy (es : List Entity) (n : String) : Prop :=
  ∃ e ∈ es, e.kind = .entity ∧ ∃ r ∈ e.relations.values, isClaimed r = true ∧ n = r.canonicalId

theorem mem_names_build (h : build config claims e = (.ok c, claims')) :
    n ∈ claims'.names ↔ n ∈ claims.names ∨ ClaimedBy [e] n := by
  unfold ClaimedBy
  cases hkind : e.kind with
  | enumeration =>
    unfold build at h
    rw [hkind, Prod.mk.injEq] at h
    simp [h.2, hkind]
  | entity =>
    obtain ⟨c₀, hadd⟩ := build_eq_ok hkind h
    simp [mem_names_of_addRelations hadd, hkind]

end Mapping

namespace Generation

open Mapping (build claimsAfter ClaimedBy isClaimed)

variable {config : Config} {claims claims' : Mapping.Claims} {e : Entity}
  {es pre post : List Entity} {c : Php.Class} {files : List OutputFile} {g : Generation}

theorem filesOf_eq_ok (h : filesOf config claims e = (.ok files, claims')) :
    ∃ c scaffolds, build config claims e = (.ok c, claims') ∧
      scaffoldsOf config e = .ok scaffolds ∧
      files = fileOf config .regenerate c :: scaffolds.map (fileOf config .createIfMissing) := by
  unfold filesOf at h
  rw [Prod.mk.injEq] at h
  obtain ⟨hfiles, hclaims⟩ := h
  obtain ⟨c, hc, hfiles⟩ := bind_eq_ok.1 hfiles
  obtain ⟨scaffolds, hscaffolds, hfiles⟩ := bind_eq_ok.1 hfiles
  rw [pure_eq_ok] at hfiles
  exact ⟨c, scaffolds, Prod.ext hc hclaims, hscaffolds, hfiles.symm⟩

theorem filesOfAll_cons_eq_ok (h : filesOfAll config claims (e :: es) = .ok files) :
    ∃ files₀ claims₁ files₁, filesOf config claims e = (.ok files₀, claims₁) ∧
      filesOfAll config claims₁ es = .ok files₁ ∧ files = files₀ ++ files₁ := by
  rw [filesOfAll] at h
  split at h
  · cases h
  · rename_i files₀ claims₁ hfiles
    obtain ⟨files₁, hfiles₁, hfiles'⟩ := map_eq_ok.1 h
    exact ⟨files₀, claims₁, files₁, hfiles, hfiles₁, hfiles'.symm⟩

theorem claimsAfter_cons {e' : Entity} (h : filesOf config claims e' = (.ok files, claims')) :
    claimsAfter config claims (e' :: pre) = claimsAfter config claims' pre := by
  obtain ⟨c, _, hc, _, _⟩ := filesOf_eq_ok h
  unfold claimsAfter
  rw [List.foldl_cons, hc]

/-- A run that succeeds has built every entity with the claims made before it, which are
those of the entities before it. -/
theorem filesOfAll_split (h : filesOfAll config claims (pre ++ e :: post) = .ok files) :
    (∃ files₀ claims', filesOf config (claimsAfter config claims pre) e = (.ok files₀, claims') ∧
      files₀ ⊆ files) ∧
    ∀ n, n ∈ (claimsAfter config claims pre).names ↔ n ∈ claims.names ∨ ClaimedBy pre n := by
  induction pre generalizing claims files with
  | nil =>
    obtain ⟨files₀, claims₁, files₁, hfiles₀, _, rfl⟩ := filesOfAll_cons_eq_ok h
    refine ⟨⟨files₀, claims₁, hfiles₀, List.subset_append_left ..⟩, ?_⟩
    intro n
    simp [claimsAfter, ClaimedBy]
  | cons e' pre ih =>
    obtain ⟨files₀, claims₁, files₁, hfiles₀, hfiles₁, rfl⟩ := filesOfAll_cons_eq_ok h
    obtain ⟨c', _, hc', _, _⟩ := filesOf_eq_ok hfiles₀
    obtain ⟨⟨files₂, claims₂, hfiles₂, hsub⟩, hnames⟩ := ih hfiles₁
    rw [claimsAfter_cons hfiles₀]
    refine ⟨⟨files₂, claims₂, hfiles₂, List.Subset.trans hsub (List.subset_append_right ..)⟩, ?_⟩
    intro n
    rw [hnames, Mapping.mem_names_build hc']
    simp [ClaimedBy, or_assoc]

/-- Every file of a run is one of the files of an entity, built with the claims made before. -/
theorem exists_of_mem_filesOfAll {f : OutputFile} (h : filesOfAll config claims es = .ok files)
    (hf : f ∈ files) : ∃ pre e post files₀ claims', es = pre ++ e :: post ∧
      filesOf config (claimsAfter config claims pre) e = (.ok files₀, claims') ∧ f ∈ files₀ := by
  induction es generalizing claims files with
  | nil =>
    cases h
    cases hf
  | cons e es ih =>
    obtain ⟨files₀, claims₁, files₁, hfiles₀, hfiles₁, rfl⟩ := filesOfAll_cons_eq_ok h
    rcases List.mem_append.1 hf with hf | hf
    · exact ⟨[], e, es, files₀, claims₁, rfl, hfiles₀, hf⟩
    · obtain ⟨pre, e', post, files₂, claims₂, rfl, hfiles₂, hf⟩ := ih hfiles₁ hf
      refine ⟨e :: pre, e', post, files₂, claims₂, rfl, ?_, hf⟩
      rw [claimsAfter_cons hfiles₀]
      exact hfiles₂

/-- The class that a run over `s` builds for the entity `e`: the base class of an entity, or
the class of an enumeration. -/
def classIn (config : Config) (s : Schema) (e : Entity) : Except Error Php.Class :=
  (build config (claimsAfter config .none (s.before e.name)) e).1

/-- What a run that succeeds is made of: a schema that could be linked, the files of all its
entities, and the directory of base classes. -/
structure Run (config : Config) (g : Generation) (s : Schema) : Prop where
  schema : schemaOf config = .ok s
  linked : ∃ s₀, Schema.ofDeclarations config.entities = .ok s₀ ∧ s₀.link = .ok s
  wellFormed : s.WellFormed
  files : filesOfAll config .none s.entities.values = .ok g.files
  directory : g.generatedDirectory =
    Php.namespaceDirectory config.appNamespace config.baseNamespace

/-- A run links the schema, builds the files of its entities and draws the diagram. -/
theorem ofConfig_eq_ok (h : ofConfig config = .ok g) : ∃ t, schemaOf config = .ok t ∧
    filesOfAll config .none t.entities.values = .ok g.files ∧
    Diagram.ofSchema t = .ok g.diagram ∧
    g.generatedDirectory = Php.namespaceDirectory config.appNamespace config.baseNamespace := by
  unfold ofConfig at h
  obtain ⟨t, ht, h⟩ := bind_eq_ok.1 h
  obtain ⟨files, hfiles, h⟩ := bind_eq_ok.1 h
  obtain ⟨diagram, hdiagram, h⟩ := bind_eq_ok.1 h
  rw [pure_eq_ok] at h
  refine ⟨t, ht, ?_, ?_, ?_⟩
  · rw [← h, hfiles]
  · rw [← h, hdiagram]
  · rw [← h]

theorem ofConfig_of_parts {t : Schema} {diagram : String} (ht : schemaOf config = .ok t)
    (hfiles : filesOfAll config .none t.entities.values = .ok files)
    (hdiagram : Diagram.ofSchema t = .ok diagram) :
    ofConfig config = .ok ⟨files,
      Php.namespaceDirectory config.appNamespace config.baseNamespace, diagram⟩ :=
  bind_eq_ok.2 ⟨t, ht, bind_eq_ok.2 ⟨files, hfiles, bind_eq_ok.2 ⟨diagram, hdiagram, rfl⟩⟩⟩

theorem run_of_ofConfig (h : ofConfig config = .ok g) : ∃ s, Run config g s := by
  obtain ⟨t, ht, hfiles, _, hdirectory⟩ := ofConfig_eq_ok h
  obtain ⟨s, hs, hlink⟩ := bind_eq_ok.1 ht
  have hwf : t.WellFormed :=
    Schema.wellFormed_of_link (Schema.wellFormed_of_ofDeclarations hs) hlink
  exact ⟨t, ht, ⟨s, hs, hlink⟩, hwf, hfiles, hdirectory⟩

variable {s : Schema}

/-- The entities of a run are in the order of declaration. -/
theorem Run.keys (h : Run config g s) :
    s.entities.keys = (Schema.declaredEntities config.entities).keys := by
  obtain ⟨s₀, hs₀, hlink⟩ := h.linked
  rw [OrderedMap.keys_of_traverse (Schema.traverse_of_link hlink)]
  exact Schema.keys_of_ofDeclarations hs₀

/-- The class of an entity in a run, built with the claims of the entities before it. -/
theorem Run.exists_build (h : Run config g s) {k : String} (he : s.get? k = some e) :
    ∃ c claims claims', classIn config s e = .ok c ∧ fileOf config .regenerate c ∈ g.files ∧
      build config claims e = (.ok c, claims') ∧
      ∀ n, n ∈ claims.names ↔ ClaimedBy (s.before k) n := by
  have hfiles := h.files
  obtain ⟨post, hpost⟩ := OrderedMap.values_split he
  rw [hpost] at hfiles
  obtain ⟨⟨files₀, claims', hfiles₀, hsub⟩, hnames⟩ := filesOfAll_split hfiles
  obtain ⟨c, scaffolds, hc, _, rfl⟩ := filesOf_eq_ok hfiles₀
  refine ⟨c, _, claims', ?_, hsub List.mem_cons_self, hc, ?_⟩
  · unfold classIn
    rw [h.wellFormed.name he]
    exact congrArg Prod.fst hc
  · intro n
    rw [hnames]
    simp [Mapping.Claims.none, Schema.before]

theorem Run.classes (h : Run config g s) : ∀ e ∈ s.entities.values, ∃ c,
    classIn config s e = .ok c ∧ fileOf config .regenerate c ∈ g.files := by
  intro e he
  obtain ⟨k, hk⟩ := OrderedMap.mem_values_iff.1 he
  obtain ⟨c, _, _, hc, hmem, _⟩ := h.exists_build hk
  exact ⟨c, hc, hmem⟩

/-! ## The files of a run -/

/-- In a run over `s` the class `c` is built for the entity `e`, and its file has the mode. -/
inductive BuiltFor (config : Config) (s : Schema) (e : Entity) : WriteMode → Php.Class → Prop where
  | regenerated {d : Php.Class} : classIn config s e = .ok d → BuiltFor config s e .regenerate d
  | final {d : Php.Class} : e.kind = .entity → Mapping.buildFinal config e = .ok d →
      BuiltFor config s e .createIfMissing d
  | repository {d : Php.Class} : e.kind = .entity → Mapping.buildRepository config e = .ok d →
      BuiltFor config s e .createIfMissing d

theorem mem_scaffoldsOf {cs : List Php.Class} (h : scaffoldsOf config e = .ok cs) :
    c ∈ cs ↔ e.kind = .entity ∧
      (Mapping.buildFinal config e = .ok c ∨ Mapping.buildRepository config e = .ok c) := by
  unfold scaffoldsOf at h
  split at h
  · rename_i hkind
    rw [Except.ok.injEq] at h
    simp [← h, hkind]
  · rename_i hkind
    obtain ⟨final, hfinal, h⟩ := bind_eq_ok.1 h
    obtain ⟨repository, hrepository, h⟩ := bind_eq_ok.1 h
    rw [pure_eq_ok] at h
    simp [← h, hkind, hfinal, hrepository, eq_comm]

/-- The files of an entity are those of the classes that are built for it. -/
theorem mem_filesOf {f : OutputFile}
    (h : filesOf config (claimsAfter config .none (s.before e.name)) e = (.ok files, claims')) :
    f ∈ files ↔ ∃ mode c, BuiltFor config s e mode c ∧ f = fileOf config mode c := by
  obtain ⟨c, scaffolds, hc, hscaffolds, rfl⟩ := filesOf_eq_ok h
  have hclass : classIn config s e = .ok c := congrArg Prod.fst hc
  rw [List.mem_cons, List.mem_map]
  constructor
  · rintro (rfl | ⟨c', hc', rfl⟩)
    · exact ⟨_, c, .regenerated hclass, rfl⟩
    · obtain ⟨hkind, hfinal | hrepository⟩ := (mem_scaffoldsOf hscaffolds).1 hc'
      · exact ⟨_, c', .final hkind hfinal, rfl⟩
      · exact ⟨_, c', .repository hkind hrepository, rfl⟩
  · rintro ⟨_, c', hbuilt, rfl⟩
    cases hbuilt with
    | regenerated hclass' =>
      rw [hclass, Except.ok.injEq] at hclass'
      exact .inl (hclass' ▸ rfl)
    | final hkind hfinal =>
      exact .inr ⟨c', (mem_scaffoldsOf hscaffolds).2 ⟨hkind, .inl hfinal⟩, rfl⟩
    | repository hkind hrepository =>
      exact .inr ⟨c', (mem_scaffoldsOf hscaffolds).2 ⟨hkind, .inr hrepository⟩, rfl⟩

/-- The files of a run are those of the classes that are built for its entities. -/
theorem Run.mem_files_iff (h : Run config g s) {f : OutputFile} :
    f ∈ g.files ↔ ∃ e ∈ s.entities.values, ∃ mode c,
      BuiltFor config s e mode c ∧ f = fileOf config mode c := by
  constructor
  · intro hf
    obtain ⟨pre, e, post, files₀, claims', hsplit, hfiles₀, hf⟩ :=
      exists_of_mem_filesOfAll h.files hf
    have he : e ∈ s.entities.values := by
      rw [hsplit]
      exact List.mem_append_right _ List.mem_cons_self
    have hpre : pre = s.before e.name := h.wellFormed.before_eq hsplit
    rw [hpre] at hfiles₀
    exact ⟨e, he, (mem_filesOf hfiles₀).1 hf⟩
  · rintro ⟨e, he, hbuilt⟩
    obtain ⟨pre, post, hsplit⟩ := List.append_of_mem he
    have hfiles := h.files
    rw [hsplit] at hfiles
    obtain ⟨⟨files₀, claims', hfiles₀, hsub⟩, _⟩ := filesOfAll_split hfiles
    rw [h.wellFormed.before_eq hsplit] at hfiles₀
    exact hsub ((mem_filesOf hfiles₀).2 hbuilt)

/-- In a run that succeeds every entity has its scaffolds. -/
theorem Run.exists_scaffolds (h : Run config g s) (he : e ∈ s.entities.values)
    (hkind : e.kind = .entity) : ∃ final repository, Mapping.buildFinal config e = .ok final ∧
      Mapping.buildRepository config e = .ok repository := by
  obtain ⟨pre, post, hsplit⟩ := List.append_of_mem he
  have hfiles := h.files
  rw [hsplit] at hfiles
  obtain ⟨⟨_, _, hfiles₀, _⟩, _⟩ := filesOfAll_split hfiles
  obtain ⟨_, scaffolds, _, hscaffolds, _⟩ := filesOf_eq_ok hfiles₀
  unfold scaffoldsOf at hscaffolds
  rw [hkind] at hscaffolds
  obtain ⟨final, hfinal, hscaffolds⟩ := bind_eq_ok.1 hscaffolds
  obtain ⟨repository, hrepository, _⟩ := bind_eq_ok.1 hscaffolds
  exact ⟨final, repository, hfinal, hrepository⟩

end Generation
end OrmGen
