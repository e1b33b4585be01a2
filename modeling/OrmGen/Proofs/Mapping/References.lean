/-
  References between the classes of a run. A base class imports the class of everything its
  members refer to: the final class of an entity for an association, the class of an
  enumeration for everything else. Linking has checked that associations point at entities,
  so their imports always lead to a class (`exists_final_class`). Nothing checks what a
  reference to an enumeration names: its import leads to a class of the run exactly if an
  enumeration of that name is declared (`imports_reach_classes_iff`).
-/
import OrmGen.Proofs.Mapping.Ends
import OrmGen.Proofs.Mapping.Members
import OrmGen.Proofs.Php.QualifiedName

namespace OrmGen.Mapping

open Generation (classIn fileOf schemaOf BuiltFor Run)
open OrderedMap (mem_values_iff)
open Php (Import)

/-- In a run over `s` the class of `e` imports the class that a statement declares, which is
at `path`. -/
def ImportsPath (config : Config) (s : Schema) (e : Entity) (statement path : String) : Prop :=
  ∃ c, classIn config s e = .ok c ∧ Binds c statement ∧ (Import.parse statement).path = path

/-- The run writes `c`, the final class of the entity `name`. -/
def IsFinalClassOf (config : Config) (g : Generation) (s : Schema) (name : String)
    (c : Php.Class) : Prop :=
  ∃ e, s.get? name = some e ∧ e.kind = .entity ∧ buildFinal config e = .ok c ∧
    fileOf config .createIfMissing c ∈ g.files

/-- The run writes the class of an enumeration with the qualified name `path`. -/
def NamesEnumClass (config : Config) (g : Generation) (s : Schema) (path : String) : Prop :=
  ∃ e ∈ s.entities.values, e.kind = .enumeration ∧ ∃ c, classIn config s e = .ok c ∧
    fileOf config .regenerate c ∈ g.files ∧ c.qualifiedName = path

/-- An enumeration of that name is declared. -/
def IsEnumeration (s : Schema) (name : String) : Prop :=
  ∃ e, s.get? name = some e ∧ e.kind = .enumeration

variable {config : Config} {g : Generation} {s : Schema} {e : Entity} {r : Relation} {f : Field}
  {c : Php.Class} {ns name path : String} {segments : List String}

/-! ## The classes of a run -/

/-- The class of an enumeration is in the namespace of enumerations, under its name. -/
theorem qualifiedName_of_enumeration (hkind : e.kind = .enumeration)
    (hc : classIn config s e = .ok c) :
    c.qualifiedName = config.enumNamespace ++ "\\" ++ e.name := by
  have hgrows := grows_of_classIn hkind hc
  rw [Php.Class.qualifiedName, hgrows.name, hgrows.ns, Php.Class.generated_name,
    Php.Class.generated_ns]

/-- The entity at the other end of an association has a final class. -/
theorem exists_final_class (h : Run config g s) (he : e ∈ s.entities.values)
    (hr : r ∈ e.relations.values) (hne : r.target.cardinality ≠ .enumeration) :
    ∃ c, IsFinalClassOf config g s r.target.entity c ∧
      c.qualifiedName = config.entityNamespace ++ "\\" ++ r.target.entity := by
  obtain ⟨k, hk⟩ := mem_values_iff.1 he
  obtain ⟨n, hn⟩ := mem_values_iff.1 hr
  obtain ⟨e', hends, he', hback, _⟩ := exists_areEnds h hk hn hne
  have hkind : e'.kind = .entity := (h.wellFormed.entity he').kind_of_relation hback
  obtain ⟨c, _, hc, _⟩ := h.exists_scaffolds hends.otherEntity hkind
  have hfile : fileOf config .createIfMissing c ∈ g.files :=
    h.mem_files_iff.2 ⟨e', hends.otherEntity, _, c, .final hkind hc, rfl⟩
  obtain ⟨hname, hns, _⟩ := buildFinal_eq_ok hc
  refine ⟨c, ⟨e', he', hkind, hc, hfile⟩, ?_⟩
  rw [Php.Class.qualifiedName, hname, hns, hends.target]

/-- A path below the namespace of enumerations is that of a class of the run if and only if
an enumeration of that name is declared. -/
theorem namesEnumClass_iff (h : Run config g s) :
    NamesEnumClass config g s (config.enumNamespace ++ "\\" ++ name) ↔ IsEnumeration s name := by
  constructor
  · rintro ⟨e, he, hkind, c, hc, _, hpath⟩
    rw [qualifiedName_of_enumeration hkind hc, String.append_right_inj] at hpath
    obtain ⟨k, hk⟩ := mem_values_iff.1 he
    have hname : e.name = k := h.wellFormed.name hk
    rw [← hpath, hname]
    exact ⟨e, hk, hkind⟩
  · rintro ⟨e, he, hkind⟩
    have hmem := mem_values_iff.2 ⟨name, he⟩
    have hname : e.name = name := h.wellFormed.name he
    obtain ⟨c, hc, hfile⟩ := h.classes e hmem
    refine ⟨e, hmem, hkind, c, hc, hfile, ?_⟩
    rw [qualifiedName_of_enumeration hkind hc, hname]

/-! ## What members import -/

/-- An entity of a run has its kind and its fields from its declaration. -/
theorem kind_of_enumReference (h : Run config g s) (he : e ∈ s.entities.values)
    (hf : f ∈ e.fields.values) (henum : f.isEnumReference = true) : e.kind = .entity := by
  obtain ⟨k, hk⟩ := mem_values_iff.1 he
  obtain ⟨n, hn⟩ := mem_values_iff.1 hf
  obtain ⟨s₀, hs₀, hlink⟩ := h.linked
  obtain ⟨e₀, he₀, hentity⟩ := Schema.get?_of_link hlink hk
  obtain ⟨_, hkind, hfields, _⟩ := Schema.linkEntity_eq_ok hentity
  obtain ⟨_, _, _, _, hread⟩ := Schema.exists_declaration hs₀ he₀
  rw [hfields] at hn
  rw [hkind]
  exact Schema.kind_of_isEnumReference hread hn henum

theorem importsPath_of_relation (h : Run config g s) (he : e ∈ s.entities.values)
    (hr : r ∈ e.relations.values) :
    ImportsPath config s e (importOf config r) (Import.parse (importOf config r)).path := by
  obtain ⟨k, hk⟩ := mem_values_iff.1 he
  obtain ⟨n, hn⟩ := mem_values_iff.1 hr
  have hkind : e.kind = .entity := (h.wellFormed.entity hk).kind_of_relation hn
  obtain ⟨c, hc, _⟩ := h.classes e he
  have hbase := isBaseClass_of_classIn hkind hc
  exact ⟨c, hc, hbase.bindsTargets r hr, rfl⟩

theorem importsPath_of_field (h : Run config g s) (he : e ∈ s.entities.values)
    (hf : f ∈ e.fields.values) (henum : f.isEnumReference = true) :
    ∃ name, f.value = some name ∧
      ImportsPath config s e (joinNamespace [config.enumNamespace, name])
        (Import.parse (joinNamespace [config.enumNamespace, name])).path := by
  have hkind := kind_of_enumReference h he hf henum
  obtain ⟨c, hc, _⟩ := h.classes e he
  have hbase := isBaseClass_of_classIn hkind hc
  obtain ⟨name, hname, hbinds⟩ := hbase.bindsEnums f hf henum
  exact ⟨name, hname, c, hc, hbinds, rfl⟩

/-- Every member of an entity that refers to another entity or to an enumeration has its
class imported. Where the names are plain, the import of an association is the qualified name
of the final class of its target, which the run writes. The import of a relation of enum
cardinality, or of a field that refers to an enumeration, is the qualified name of a class of
an enumeration if and only if an enumeration of that name is declared. -/
theorem imports_reach_classes_iff (hg : Generation.ofConfig config = .ok g) :
    ∃ s, schemaOf config = .ok s ∧ ∀ e ∈ s.entities.values,
      (∀ r ∈ e.relations.values, r.target.cardinality ≠ .enumeration → ∃ c path,
        IsFinalClassOf config g s r.target.entity c ∧
          ImportsPath config s e (importOf config r) path ∧
          (Import.isPlain config.entityNamespace r.target.entity = true → path = c.qualifiedName)) ∧
      (∀ r ∈ e.relations.values, r.target.cardinality = .enumeration → ∃ path,
        ImportsPath config s e (importOf config r) path ∧
          (Import.isPlain config.enumNamespace r.target.entity = true →
            (NamesEnumClass config g s path ↔ IsEnumeration s r.target.entity))) ∧
      ∀ f ∈ e.fields.values, f.isEnumReference = true → ∃ name path, f.value = some name ∧
        ImportsPath config s e (joinNamespace [config.enumNamespace, name]) path ∧
          (Import.isPlain config.enumNamespace name = true →
            (NamesEnumClass config g s path ↔ IsEnumeration s name)) := by
  obtain ⟨s, h⟩ := Generation.run_of_ofConfig hg
  refine ⟨s, h.schema, ?_⟩
  intro e he
  refine ⟨?_, ?_, ?_⟩
  · intro r hr hne
    obtain ⟨c, hfinal, hqualified⟩ := exists_final_class h he hr hne
    refine ⟨c, _, hfinal, importsPath_of_relation h he hr, ?_⟩
    intro hplain
    rw [importOf, if_neg hne, hqualified]
    exact Import.path_parse_joinNamespace hplain
  · intro r hr henum
    refine ⟨_, importsPath_of_relation h he hr, ?_⟩
    intro hplain
    have hpath : (Import.parse (importOf config r)).path =
        config.enumNamespace ++ "\\" ++ r.target.entity := by
      rw [importOf, if_pos henum]
      exact Import.path_parse_joinNamespace hplain
    rw [hpath]
    exact namesEnumClass_iff h
  · intro f hf henum
    obtain ⟨name, hname, himports⟩ := importsPath_of_field h he hf henum
    refine ⟨name, _, hname, himports, ?_⟩
    intro hplain
    have hpath : (Import.parse (joinNamespace [config.enumNamespace, name])).path =
        config.enumNamespace ++ "\\" ++ name := Import.path_parse_joinNamespace hplain
    rw [hpath]
    exact namesEnumClass_iff h

/-- A configuration with one entity, whose field refers to an enumeration that is not
declared. -/
def ghostConfig : Config where
  entities := .object [("User", .object [
    ("state", .object [("type", .string "enum"), ("target", .string "Ghost")])])]

/-- The run succeeds, and the base class imports a class that no file of it declares. -/
theorem ghost_import_dangles : ∃ g s e, Generation.ofConfig ghostConfig = .ok g ∧
    schemaOf ghostConfig = .ok s ∧ e ∈ s.entities.values ∧ ∃ path,
      ImportsPath ghostConfig s e "App\\Enum\\Ghost" path ∧
        ¬ NamesEnumClass ghostConfig g s path := by
  obtain ⟨g, hg⟩ : ∃ g, Generation.ofConfig ghostConfig = .ok g ∧ g.files ≠ [] :=
    exists_ok_of_any (by decide +kernel)
  obtain ⟨s, hs, hentities⟩ := imports_reach_classes_iff hg.1
  obtain ⟨e, he, f, hf, henum, hvalue, hghost⟩ : ∃ e ∈ s.entities.values, ∃ f ∈ e.fields.values,
      f.isEnumReference = true ∧ f.value = some "Ghost" ∧ s.get? "Ghost" = none := by
    cases hs
    decide
  obtain ⟨name, path, hname, himports, hiff⟩ := (hentities e he).2.2 f hf henum
  rw [hvalue, Option.some.injEq] at hname
  subst hname
  have hplain : Import.isPlain ghostConfig.enumNamespace "Ghost" = true := by decide
  have hjoin : joinNamespace [ghostConfig.enumNamespace, "Ghost"] = "App\\Enum\\Ghost" := by
    decide
  rw [hjoin] at himports
  refine ⟨g, s, e, hg.1, hs, he, path, himports, ?_⟩
  intro hnames
  obtain ⟨e', he', _⟩ := (hiff hplain).1 hnames
  rw [hghost] at he'
  cases he'

end OrmGen.Mapping
