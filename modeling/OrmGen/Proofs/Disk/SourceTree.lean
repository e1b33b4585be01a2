/-
  Where the files of a run are. A path is built by joining texts of the configuration to the
  directory `src`, and joining looks at nothing but the first character: a text that starts
  with a slash replaces what stands before it, and two dots stay. So a path is below `src`
  exactly if every text that was joined is free of both (`Path.isBelow_joinAll_iff`), and a
  run keeps to the source tree exactly if the namespaces and names of its classes are
  (`outputs_below_source_iff`), as they are with plain settings (`Run.inSource_of_plain`).
  Names are not checked: an enumeration whose name starts with a slash has a class at the root
  of the disk (`slash_name_leaves_source`).
-/
import OrmGen.Proofs.Disk.Joining
import OrmGen.Proofs.Disk.Segments
import OrmGen.Proofs.Mapping.Members
import OrmGen.Proofs.Mapping.Run
import OrmGen.Proofs.Php.QualifiedName

namespace OrmGen

/-! ## Paths below a directory -/

namespace Path

/-- A relative path whose first segment is `d` and that does not lead upward. -/
structure IsBelow (d : List Char) (path : String) : Prop where
  first : (path.toList.splitOn '/').head? = some d
  stays : ['.', '.'] ∉ path.toList.splitOn '/'

/-- A relative path that does not lead upward, so that it can be joined to another one. -/
structure Descends (cs : List Char) : Prop where
  relative : cs.head? ≠ some '/'
  stays : ['.', '.'] ∉ cs.splitOn '/'

instance (cs : List Char) : Decidable (Descends cs) :=
  decidable_of_iff (cs.head? ≠ some '/' ∧ ['.', '.'] ∉ cs.splitOn '/')
    ⟨fun h => ⟨h.1, h.2⟩, fun h => ⟨h.relative, h.stays⟩⟩

/-- The segments of a path that stand before what is joined to it: all of them, but not the
empty one after a slash at the end. -/
def openSegments (base : String) : List (List Char) :=
  if base = "" || base.toList.getLast? = some '/' then (base.toList.splitOn '/').dropLast
  else base.toList.splitOn '/'

variable {base p : String} {d cs : List Char} {pieces : List (List Char)}

theorem splitOn_concat_slash (xs : List Char) :
    (xs ++ ['/']).splitOn '/' = xs.splitOn '/' ++ [[]] :=
  splitOn_append_cons List.not_mem_nil

/-- Only an empty segment at the end of a path is not open. -/
theorem exists_splitOn_eq (hbase : base ≠ "") : ∃ idle,
    base.toList.splitOn '/' = openSegments base ++ idle ∧ (∀ s ∈ idle, s = []) ∧
      openSegments base ≠ [] := by
  by_cases hslash : base.toList.getLast? = some '/'
  · obtain ⟨xs, hxs⟩ := List.getLast?_eq_some_iff.1 hslash
    have hopen : openSegments base = xs.splitOn '/' := by
      unfold openSegments
      rw [hslash, hxs, splitOn_concat_slash]
      simp
    refine ⟨[[]], ?_, by simp, ?_⟩
    · rw [hopen, hxs, splitOn_concat_slash]
    · rw [hopen]
      exact List.splitOn_ne_nil _ _
  · have hopen : openSegments base = base.toList.splitOn '/' := by
      simp [openSegments, hbase, hslash]
    refine ⟨[], ?_, by simp, ?_⟩
    · rw [hopen, List.append_nil]
    · rw [hopen]
      exact List.splitOn_ne_nil _ _

/-- The segments of a relative path follow those of the path that it is joined to. -/
theorem splitOn_join (base : String) (hp : p.toList.head? ≠ some '/') :
    (join base p).toList.splitOn '/' = openSegments base ++ p.toList.splitOn '/' := by
  unfold join openSegments
  rw [if_neg hp]
  split
  · rename_i hopen
    simp only [Bool.or_eq_true, decide_eq_true_eq] at hopen
    rcases hopen with rfl | hslash
    · rw [String.empty_append]
      rfl
    · obtain ⟨xs, hxs⟩ := List.getLast?_eq_some_iff.1 hslash
      rw [String.toList_append, hxs, splitOn_concat_slash, List.dropLast_concat,
        List.append_assoc, List.singleton_append, List.splitOn_append_cons_self]
  · rw [String.toList_append, String.toList_append, List.append_assoc]
    exact List.splitOn_append_cons_self _ _

/-- A path that something is joined to stays below a directory exactly if what is joined
descends. -/
theorem isBelow_join_iff (hd : d ≠ []) (hbase : base ≠ "") :
    IsBelow d (join base p) ↔ IsBelow d base ∧ Descends p.toList := by
  by_cases hp : p.toList.head? = some '/'
  · have hjoin : join base p = p := if_pos hp
    rw [hjoin]
    constructor
    · intro h
      have hfirst := h.first
      rw [head?_splitOn_of_slash hp, Option.some.injEq] at hfirst
      exact absurd hfirst.symm hd
    · rintro ⟨_, hdescends⟩
      exact absurd hp hdescends.relative
  · obtain ⟨idle, hidle, hempty, hne⟩ := exists_splitOn_eq hbase
    have hdots : ['.', '.'] ∉ idle := fun h => absurd (hempty _ h) (by simp)
    constructor
    · rintro ⟨hfirst, hstays⟩
      rw [splitOn_join base hp, List.head?_append_of_ne_nil _ hne] at hfirst
      rw [splitOn_join base hp, List.mem_append, not_or] at hstays
      refine ⟨⟨?_, ?_⟩, hp, hstays.2⟩
      · rw [hidle, List.head?_append_of_ne_nil _ hne]
        exact hfirst
      · rw [hidle, List.mem_append, not_or]
        exact ⟨hstays.1, hdots⟩
    · rintro ⟨⟨hfirst, hstays⟩, hdescends⟩
      rw [hidle, List.head?_append_of_ne_nil _ hne] at hfirst
      rw [hidle, List.mem_append, not_or] at hstays
      refine ⟨?_, ?_⟩
      · rw [splitOn_join base hp, List.head?_append_of_ne_nil _ hne]
        exact hfirst
      · rw [splitOn_join base hp, List.mem_append, not_or]
        exact ⟨hstays.1, hdescends.stays⟩

/-- The same of many texts that are joined one after another. -/
theorem isBelow_joinAll_iff (hd : d ≠ []) (hbase : base ≠ "") :
    IsBelow d (joinAll base pieces) ↔ IsBelow d base ∧ ∀ s ∈ pieces, Descends s := by
  induction pieces generalizing base with
  | nil => simp
  | cons s pieces ih =>
    rw [joinAll_cons, ih (join_ne_empty hbase), isBelow_join_iff hd hbase,
      String.toList_ofList, List.forall_mem_cons, and_assoc]

/-- A text without slashes is one segment. -/
theorem descends_of_notMem (hslash : '/' ∉ cs) (hdots : cs ≠ ['.', '.']) : Descends cs := by
  constructor
  · exact fun hhead => hslash (List.mem_of_mem_head? hhead)
  · rw [List.splitOn_eq_singleton hslash, List.mem_singleton]
    exact fun hup => hdots hup.symm

theorem descends_nil : Descends [] := ⟨by simp, by simp⟩

end Path

open OrmGen.Path (IsBelow Descends)

namespace FileTree

variable {d path : String}

/-- The location that a path leads to from `l`. -/
def leadsTo (l : Location) (path : String) : Location :=
  follow l ((path.toList.splitOn '/').map String.ofList)

/-- What is below a directory stays below it when both are joined to a root. -/
theorem leadsTo_prefix (hd : d ≠ "") (h : IsBelow d.toList path) (root : String)
    (l : Location) : leadsTo l (Path.join root d) <+: leadsTo l (Path.join root path) := by
  obtain ⟨rest, hrest⟩ := List.head?_eq_some_iff.1 h.first
  have hnoslash : '/' ∉ d.toList := by
    have hmem : d.toList ∈ path.toList.splitOn '/' := by
      rw [hrest]
      exact List.mem_cons_self
    exact Path.notMem_of_mem_splitOn hmem
  have hsingle : d.toList.splitOn '/' = [d.toList] := List.splitOn_eq_singleton hnoslash
  have hrelative : path.toList.head? ≠ some '/' := by
    intro hslash
    have hfirst := h.first
    rw [Path.head?_splitOn_of_slash hslash, Option.some.injEq] at hfirst
    exact hd (String.toList_eq_nil_iff.1 hfirst.symm)
  have hdrelative : d.toList.head? ≠ some '/' :=
    fun hslash => hnoslash (List.mem_of_mem_head? hslash)
  have hup : ".." ∉ rest.map String.ofList := by
    intro hmem
    obtain ⟨segment, hsegment, hdots⟩ := List.mem_map.1 hmem
    have hsegment_eq : segment = ['.', '.'] := String.ofList_inj.1 hdots
    apply h.stays
    rw [hrest, ← hsegment_eq]
    exact List.mem_cons_of_mem _ hsegment
  have hsplit : (Path.openSegments root ++ d.toList :: rest).map String.ofList =
      (Path.openSegments root ++ [d.toList]).map String.ofList ++ rest.map String.ofList := by
    simp
  unfold leadsTo
  rw [Path.splitOn_join root hrelative, Path.splitOn_join root hdrelative, hsingle, hrest, hsplit,
    follow_append]
  exact prefix_of_mem_visited hup (start_mem_visited _ _)

end FileTree

/-! ## Directories and files of classes -/

namespace Php

variable {app ns name : String}

/-- The directory of the application namespace. -/
def source : String := "src"

/-- Every segment of a namespace below the application namespace descends. -/
def NamespaceDescends (app ns : String) : Prop :=
  ∀ s ∈ (relativeNamespace app ns).splitOn '\\', Descends s

theorem isBelow_source : IsBelow source.toList source := ⟨by decide, by decide⟩

theorem isBelow_namespaceDirectory_iff :
    IsBelow source.toList (namespaceDirectory app ns) ↔ NamespaceDescends app ns := by
  rw [namespaceDirectory_eq, Path.isBelow_joinAll_iff (by decide) (by decide)]
  constructor
  · rintro ⟨_, hpieces⟩ s hs
    by_cases hnil : s = []
    · rw [hnil]
      exact Path.descends_nil
    · exact hpieces s (mem_directories_iff.2 ⟨hs, hnil⟩)
  · intro hsegments
    refine ⟨isBelow_source, ?_⟩
    intro s hs
    exact hsegments s (mem_directories_iff.1 hs).1

theorem isBelow_classPath_iff : IsBelow source.toList (classPath app ns name) ↔
    NamespaceDescends app ns ∧ Descends (name ++ ".php").toList := by
  unfold classPath
  rw [Path.isBelow_join_iff (by decide) namespaceDirectory_ne_empty,
    isBelow_namespaceDirectory_iff]

end Php

namespace Generation

open OrmGen.FileTree (leadsTo)

variable {config : Config} {g : Generation} {s : Schema} {e : Entity} {mode : WriteMode}
  {c : Php.Class}

/-! ## The places of a run -/

/-- The namespaces and the names of the classes of an entity. -/
def placesOf (config : Config) (e : Entity) : List (String × String) :=
  match e.kind with
  | .enumeration => [(config.enumNamespace, e.name)]
  | .entity => [
    (config.baseNamespace, Mapping.baseName config e),
    (config.entityNamespace, e.name),
    (config.repositoryNamespace, Mapping.repositoryName config e)]

/-- A class with this namespace and this name is stored below the directory `src`. -/
def PlaceDescends (config : Config) (place : String × String) : Prop :=
  Php.NamespaceDescends config.appNamespace place.1 ∧ Descends (place.2 ++ ".php").toList

/-- A path that keeps to the source tree. -/
def InSource (path : String) : Prop := IsBelow Php.source.toList path

theorem inSource_namespaceDirectory_iff {app ns : String} :
    InSource (Php.namespaceDirectory app ns) ↔ Php.NamespaceDescends app ns :=
  Php.isBelow_namespaceDirectory_iff

theorem inSource_fileOf_iff :
    InSource (fileOf config mode c).path ↔ PlaceDescends config (c.ns, c.name) :=
  Php.isBelow_classPath_iff

/-- A class that is built for an entity is at one of its places. -/
theorem place_of_builtFor (h : BuiltFor config s e mode c) :
    (c.ns, c.name) ∈ placesOf config e := by
  unfold placesOf
  cases h with
  | regenerated hclass =>
    cases hkind : e.kind with
    | enumeration =>
      have hgrows := Mapping.grows_of_classIn hkind hclass
      simp [hgrows.ns, hgrows.name]
    | entity =>
      have hbase := Mapping.isBaseClass_of_classIn hkind hclass
      simp [hbase.ns, hbase.name]
  | final hkind hfinal =>
    obtain ⟨hname, hns, _⟩ := Mapping.buildFinal_eq_ok hfinal
    simp [hkind, hname, hns]
  | repository hkind hrepository =>
    obtain ⟨hname, hns, _⟩ := Mapping.buildRepository_eq_ok hrepository
    simp [hkind, hname, hns]

/-- At every place of an entity a class is built for it. -/
theorem Run.exists_builtFor (h : Run config g s) (he : e ∈ s.entities.values)
    {place : String × String} (hplace : place ∈ placesOf config e) :
    ∃ mode c, BuiltFor config s e mode c ∧ (c.ns, c.name) = place := by
  obtain ⟨c, hclass, _⟩ := h.classes e he
  unfold placesOf at hplace
  cases hkind : e.kind with
  | enumeration =>
    rw [hkind, List.mem_singleton] at hplace
    have hgrows := Mapping.grows_of_classIn hkind hclass
    exact ⟨_, c, .regenerated hclass, by
      rw [hplace, hgrows.ns, hgrows.name, Php.Class.generated_ns, Php.Class.generated_name]⟩
  | entity =>
    obtain ⟨final, repository, hfinal, hrepository⟩ := h.exists_scaffolds he hkind
    have hbase := Mapping.isBaseClass_of_classIn hkind hclass
    obtain ⟨hfinalName, hfinalNs, _⟩ := Mapping.buildFinal_eq_ok hfinal
    obtain ⟨hrepositoryName, hrepositoryNs, _⟩ := Mapping.buildRepository_eq_ok hrepository
    simp only [hkind, List.mem_cons, List.not_mem_nil, or_false] at hplace
    rcases hplace with rfl | rfl | rfl
    · exact ⟨_, c, .regenerated hclass, by rw [hbase.ns, hbase.name]⟩
    · exact ⟨_, final, .final hkind hfinal, by rw [hfinalNs, hfinalName]⟩
    · exact ⟨_, repository, .repository hkind hrepository, by
        rw [hrepositoryNs, hrepositoryName]⟩

/-- The files of a run keep to the source tree exactly if the places of its entities do. -/
theorem Run.files_inSource_iff (h : Run config g s) : (∀ f ∈ g.files, InSource f.path) ↔
    ∀ e ∈ s.entities.values, ∀ place ∈ placesOf config e, PlaceDescends config place := by
  constructor
  · intro hfiles e he place hplace
    obtain ⟨mode, c, hbuilt, rfl⟩ := h.exists_builtFor he hplace
    have hfile : fileOf config mode c ∈ g.files := h.mem_files_iff.2 ⟨e, he, mode, c, hbuilt, rfl⟩
    exact inSource_fileOf_iff.1 (hfiles _ hfile)
  · intro hplaces f hf
    obtain ⟨e, he, mode, c, hbuilt, rfl⟩ := h.mem_files_iff.1 hf
    exact inSource_fileOf_iff.2 (hplaces e he _ (place_of_builtFor hbuilt))

/-! ## Plain settings -/

theorem mem_relativeNamespace {app ns : String} {ch : Char}
    (h : ch ∈ Php.relativeNamespace app ns) : ch ∈ ns.toList := by
  unfold Php.relativeNamespace at h
  split at h
  · cases h
  · split at h
    · rename_i rest hrest
      rw [Text.eq_append_of_isPrefixOf? hrest]
      exact List.mem_append_right _ h
    · exact h

/-- A namespace without slashes and dots descends. -/
theorem namespaceDescends_of_notMem {app ns : String} (hslash : '/' ∉ ns.toList)
    (hdot : '.' ∉ ns.toList) : Php.NamespaceDescends app ns := by
  intro segment hsegment
  have hmem : ∀ ch ∈ segment, ch ∈ ns.toList :=
    fun ch hch => mem_relativeNamespace (Text.mem_of_mem_splitOn hsegment hch)
  apply Path.descends_of_notMem
  · exact fun h => hslash (hmem _ h)
  · rintro rfl
    exact hdot (hmem '.' List.mem_cons_self)

/-- A class whose namespace descends and whose name has no slash. -/
theorem placeDescends_of_notMem {ns name : String}
    (hns : Php.NamespaceDescends config.appNamespace ns) (h : '/' ∉ name.toList) :
    PlaceDescends config (ns, name) := by
  have hlast := FileTree.getLast?_append_php name
  refine ⟨hns, ?_⟩
  apply Path.descends_of_notMem
  · simp [String.toList_append, h]
  · intro hdots
    rw [hdots] at hlast
    exact absurd hlast (by decide)

/-- The namespaces of a configuration. -/
def namespaceSettings (config : Config) : List String :=
  [config.namespaces.app, config.namespaces.base, config.namespaces.enumeration,
    config.namespaces.entity, config.namespaces.repository]

/-- Settings that keep a run to the source tree: no namespace has a slash or a dot, and no
postfix a slash. -/
structure PlainSettings (config : Config) : Prop where
  namespaces : ∀ t ∈ namespaceSettings config, '/' ∉ t.toList ∧ '.' ∉ t.toList
  entityPostfix : '/' ∉ config.classPostfix.entity.toList
  repositoryPostfix : '/' ∉ config.classPostfix.repository.toList

theorem PlainSettings.namespaceDescends (h : PlainSettings config) {segments : List String}
    (hsegments : segments ⊆ namespaceSettings config) :
    Php.NamespaceDescends config.appNamespace (joinNamespace segments) := by
  apply namespaceDescends_of_notMem
  · intro hmem
    rcases mem_joinNamespace hmem with hbackslash | ⟨t, ht, hslash⟩
    · exact absurd hbackslash (by decide)
    · exact (h.namespaces t (hsegments ht)).1 hslash
  · intro hmem
    rcases mem_joinNamespace hmem with hbackslash | ⟨t, ht, hdot⟩
    · exact absurd hbackslash (by decide)
    · exact (h.namespaces t (hsegments ht)).2 hdot

/-- With such settings, and names of entities without slashes, a run keeps to the source
tree. -/
theorem Run.inSource_of_plain (h : Run config g s) (hplain : PlainSettings config)
    (hnames : ∀ e ∈ s.entities.values, '/' ∉ e.name.toList) :
    InSource g.generatedDirectory ∧ ∀ f ∈ g.files, InSource f.path := by
  have hbase : Php.NamespaceDescends config.appNamespace config.baseNamespace :=
    hplain.namespaceDescends (by simp [namespaceSettings])
  have hentity : Php.NamespaceDescends config.appNamespace config.entityNamespace :=
    hplain.namespaceDescends (by simp [namespaceSettings])
  have henum : Php.NamespaceDescends config.appNamespace config.enumNamespace :=
    hplain.namespaceDescends (by simp [namespaceSettings])
  have hrepository : Php.NamespaceDescends config.appNamespace config.repositoryNamespace :=
    hplain.namespaceDescends (by simp [namespaceSettings])
  constructor
  · rw [h.directory, inSource_namespaceDirectory_iff]
    exact hbase
  · rw [h.files_inSource_iff]
    intro e he
    have hname := hnames e he
    have hbaseName : '/' ∉ (Mapping.baseName config e).toList := by
      simp [Mapping.baseName, String.toList_append, hname, hplain.entityPostfix]
    have hrepositoryName : '/' ∉ (Mapping.repositoryName config e).toList := by
      simp [Mapping.repositoryName, String.toList_append, hname, hplain.repositoryPostfix]
    unfold placesOf
    split
    · rw [List.forall_mem_singleton]
      exact placeDescends_of_notMem henum hname
    · simp only [List.forall_mem_cons]
      exact ⟨placeDescends_of_notMem hbase hbaseName, placeDescends_of_notMem hentity hname,
        placeDescends_of_notMem hrepository hrepositoryName, List.forall_mem_nil _⟩

/-- In a run, the files and the generated directory keep to the source tree if and only if the
namespaces and the names of all classes descend. Whatever keeps to it leads, from every root,
to a location below that of the directory `src`. -/
theorem outputs_below_source_iff (hg : ofConfig config = .ok g) :
    ∃ s, schemaOf config = .ok s ∧
      (InSource g.generatedDirectory ↔
        Php.NamespaceDescends config.appNamespace config.baseNamespace) ∧
      ((∀ f ∈ g.files, InSource f.path) ↔
        ∀ e ∈ s.entities.values, ∀ place ∈ placesOf config e, PlaceDescends config place) ∧
      ∀ path, (path = g.generatedDirectory ∨ ∃ f ∈ g.files, path = f.path) → InSource path →
        ∀ root l, leadsTo l (Path.join root Php.source) <+: leadsTo l (Path.join root path) := by
  obtain ⟨s, h⟩ := run_of_ofConfig hg
  refine ⟨s, h.schema, ?_, h.files_inSource_iff, ?_⟩
  · rw [h.directory, inSource_namespaceDirectory_iff]
  · intro path _ hpath root l
    exact FileTree.leadsTo_prefix (by decide) hpath root l

/-- A configuration with one enumeration, whose name starts with a slash. -/
def slashConfig : Config where
  entities := .object [("/E", .null)]

/-- The class of the enumeration leaves the source tree: its path is absolute. -/
theorem slash_name_leaves_source : ∃ g f, ofConfig slashConfig = .ok g ∧ f ∈ g.files ∧
    f.path = "/E.php" ∧ ¬ InSource f.path := by
  obtain ⟨g, hg, f, hfiles, hpath⟩ : ∃ g, ofConfig slashConfig = .ok g ∧
      ∃ f, g.files = [f] ∧ f.path = "/E.php" := by
    obtain ⟨g, hg, hpaths⟩ : ∃ g, ofConfig slashConfig = .ok g ∧
        g.files.map (·.path) = ["/E.php"] := exists_ok_of_any (by decide +kernel)
    obtain ⟨f, hf, hpath⟩ := List.map_eq_singleton_iff.1 hpaths
    exact ⟨g, hg, f, hf, hpath⟩
  obtain ⟨s, hs, _, hfilesIff, _⟩ := outputs_below_source_iff hg
  have hf : f ∈ g.files := hfiles ▸ List.mem_singleton_self f
  refine ⟨g, f, hg, hf, hpath, ?_⟩
  intro hsource
  have hall : ∀ f' ∈ g.files, InSource f'.path := by
    intro f' hf'
    rw [hfiles, List.mem_singleton] at hf'
    exact hf' ▸ hsource
  obtain ⟨e, he, hplace⟩ : ∃ e ∈ s.entities.values,
      (slashConfig.enumNamespace, "/E") ∈ placesOf slashConfig e := by
    cases hs
    decide
  have hdescends := (hfilesIff.1 hall e he _ hplace).2
  exact absurd hdescends.relative (by decide)

end Generation
end OrmGen
