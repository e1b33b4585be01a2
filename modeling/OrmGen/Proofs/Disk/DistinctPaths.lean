/-
  When two classes of a run share a path. Every entity has a base class, a final class and a
  repository, every enumeration one class (`Generation.Role`), and the path of each is made of
  the namespace of its role and the name with the postfix of its role. Nothing keeps the roles
  apart: with the right settings two classes go to one file, where the later one is skipped
  or replaces the earlier one.

  `paths_distinct_iff` tells exactly when that happens. Classes of one role never share a
  path; those of different roles do if the directories of their namespaces are the same and
  the names are. `base_class_shares_path` is a run in which the base class of an entity and its
  final class are one file.

  Paths are compared as paths, not as texts (`Path.Same`): repeated slashes, a slash at the
  end and dots after the first segment make no difference.
-/
import Mathlib.Data.List.Pairwise
import OrmGen.Proofs.Disk.SourceTree
import OrmGen.Proofs.Mapping.Settings

namespace OrmGen

/-! ## Spellings of a path -/

namespace Path

/-- What is left of segments without those that lead nowhere; only a dot in front stays. -/
def partsOf (segments : List (List Char)) : List (List Char) :=
  (segments.take 1).filter (· ≠ []) ++ (segments.drop 1).filter (!isIdle ·)

/-- Two texts that spell the same path. -/
structure Same (p q : String) : Prop where
  absolute : IsAbsolute p ↔ IsAbsolute q
  parts : partsOf (p.toList.splitOn '/') = partsOf (q.toList.splitOn '/')

instance (p q : String) : Decidable (Same p q) :=
  decidable_of_iff ((IsAbsolute p ↔ IsAbsolute q) ∧
      partsOf (p.toList.splitOn '/') = partsOf (q.toList.splitOn '/'))
    ⟨fun h => ⟨h.1, h.2⟩, fun h => ⟨h.absolute, h.parts⟩⟩

variable {p q base base' name name' : String} {segments more : List (List Char)}

theorem Same.symm (h : Same p q) : Same q p := ⟨h.absolute.symm, h.parts.symm⟩

theorem partsOf_append (h : segments ≠ []) :
    partsOf (segments ++ more) = partsOf segments ++ more.filter (!isIdle ·) := by
  obtain ⟨s, rest, rfl⟩ := List.exists_cons_of_ne_nil h
  simp [partsOf]

/-- The parts of a path with one more segment. -/
theorem partsOf_join (hbase : base ≠ "") (hslash : '/' ∉ name.toList)
    (hidle : isIdle name.toList ≠ true) : partsOf ((join base name).toList.splitOn '/') =
      partsOf (base.toList.splitOn '/') ++ [name.toList] := by
  have hrelative : name.toList.head? ≠ some '/' :=
    fun hhead => hslash (List.mem_of_mem_head? hhead)
  obtain ⟨idle, hidleSegments, hempty, hne⟩ := exists_splitOn_eq hbase
  have hdropped : idle.filter (!isIdle ·) = [] := by
    rw [List.filter_eq_nil_iff]
    intro s hs
    simp [hempty s hs, isIdle]
  rw [splitOn_join base hrelative, List.splitOn_eq_singleton hslash, partsOf_append hne,
    hidleSegments, partsOf_append hne, hdropped, List.append_nil]
  simp [hidle]

/-- Paths to entries of directories are the same if the directories and the names are. -/
theorem same_join_iff (hbase : base ≠ "") (hbase' : base' ≠ "") (hslash : '/' ∉ name.toList)
    (hslash' : '/' ∉ name'.toList) (hidle : isIdle name.toList ≠ true)
    (hidle' : isIdle name'.toList ≠ true) :
    Same (join base name) (join base' name') ↔ Same base base' ∧ name = name' := by
  have habsolute : ¬ IsAbsolute name := fun h => hslash (List.mem_of_mem_head? h)
  have habsolute' : ¬ IsAbsolute name' := fun h => hslash' (List.mem_of_mem_head? h)
  have hroots : (IsAbsolute (join base name) ↔ IsAbsolute (join base' name')) ↔
      (IsAbsolute base ↔ IsAbsolute base') := by
    rw [isAbsolute_join_iff hbase, isAbsolute_join_iff hbase', or_iff_left habsolute,
      or_iff_left habsolute']
  constructor
  · intro h
    have hparts := h.parts
    rw [partsOf_join hbase hslash hidle, partsOf_join hbase' hslash' hidle'] at hparts
    obtain ⟨hfront, hlast⟩ := List.append_inj' hparts rfl
    exact ⟨⟨hroots.1 h.absolute, hfront⟩, String.toList_inj.1 (List.singleton_inj.1 hlast)⟩
  · rintro ⟨h, rfl⟩
    refine ⟨hroots.2 h.absolute, ?_⟩
    rw [partsOf_join hbase hslash hidle, partsOf_join hbase' hslash hidle, h.parts]

end Path

open OrmGen.Path (Same)

/-- Classes are stored at the same path if their directories and their names are the same. -/
theorem Php.same_classPath_iff {app ns ns' name name' : String} (hslash : '/' ∉ name.toList)
    (hslash' : '/' ∉ name'.toList) :
    Same (classPath app ns name) (classPath app ns' name') ↔
      Same (namespaceDirectory app ns) (namespaceDirectory app ns') ∧ name = name' := by
  have hnoslash : ∀ {n : String}, '/' ∉ n.toList → '/' ∉ (n ++ ".php").toList := by
    intro n hn
    simp [String.toList_append, hn]
  have hidle : ∀ n : String, Path.isIdle (n ++ ".php").toList ≠ true := by
    intro n h
    have hlast := FileTree.getLast?_append_php n
    simp only [Path.isIdle, Bool.or_eq_true, decide_eq_true_eq] at h
    rcases h with h | h
    · rw [h] at hlast
      exact absurd hlast (by decide)
    · rw [h] at hlast
      exact absurd hlast (by decide)
  unfold classPath
  rw [Path.same_join_iff namespaceDirectory_ne_empty namespaceDirectory_ne_empty
    (hnoslash hslash) (hnoslash hslash') (hidle name) (hidle name'), String.append_left_inj]

/-! ## Classes of a run -/

namespace Generation

/-- What a class of a run is to its entity. -/
inductive Role where
  | enumeration | base | final | repository
deriving DecidableEq

namespace Role

/-- The namespace of the classes of a role. -/
def ns (config : Config) : Role → String
  | .enumeration => config.enumNamespace
  | .base => config.baseNamespace
  | .final => config.entityNamespace
  | .repository => config.repositoryNamespace

/-- The directory of the classes of a role. -/
def directory (config : Config) (role : Role) : String :=
  Php.namespaceDirectory config.appNamespace (role.ns config)

/-- What follows the name of the entity in the name of a class. -/
def ending (config : Config) : Role → String
  | .enumeration | .final => ""
  | .base => config.classPostfix.entity
  | .repository => config.classPostfix.repository

/-- The roles of the classes of an entity, in the order in which these are built. -/
def ofKind : EntityKind → List Role
  | .enumeration => [.enumeration]
  | .entity => [.base, .final, .repository]

theorem nodup_ofKind (kind : EntityKind) : (ofKind kind).Nodup := by
  cases kind <;> decide

end Role

/-- A class of a run: the entity that it is built for, and its role. -/
abbrev RoleOf := Entity × Role

namespace RoleOf

variable {config : Config} {x y : RoleOf}

def className (config : Config) (x : RoleOf) : String := x.1.name ++ x.2.ending config

/-- The path of a class. -/
def path (config : Config) (x : RoleOf) : String :=
  Php.classPath config.appNamespace (x.2.ns config) (x.className config)

end RoleOf

/-- The classes of a run over a schema, in the order in which they are built. -/
def rolesIn (s : Schema) : List RoleOf :=
  s.entities.values.flatMap fun e => (Role.ofKind e.kind).map (Prod.mk e)

variable {config : Config} {g : Generation} {s : Schema} {e : Entity} {x y : RoleOf}
  {claims claims' : Mapping.Claims} {files : List OutputFile} {es : List Entity}

theorem mem_rolesIn_iff : x ∈ rolesIn s ↔ x.1 ∈ s.entities.values ∧ x.2 ∈ Role.ofKind x.1.kind := by
  obtain ⟨e, role⟩ := x
  unfold rolesIn
  rw [List.mem_flatMap]
  constructor
  · rintro ⟨e', he', hmem⟩
    obtain ⟨role', hrole', heq⟩ := List.mem_map.1 hmem
    cases heq
    exact ⟨he', hrole'⟩
  · rintro ⟨he, hrole⟩
    exact ⟨e, he, List.mem_map.2 ⟨role, hrole, rfl⟩⟩

theorem nodup_rolesIn (h : s.WellFormed) : (rolesIn s).Nodup := by
  unfold rolesIn
  rw [List.nodup_flatMap]
  constructor
  · intro e _
    exact (Role.nodup_ofKind e.kind).map fun _ _ heq => (Prod.mk.inj heq).2
  · refine h.nodup_values.imp ?_
    intro e e' hne x hx hx'
    obtain ⟨_, _, rfl⟩ := List.mem_map.1 hx
    obtain ⟨_, _, heq⟩ := List.mem_map.1 hx'
    cases heq
    exact hne rfl

/-- The paths of the files of an entity are those of its classes. -/
theorem map_path_filesOf (h : filesOf config claims e = (.ok files, claims')) :
    files.map OutputFile.path =
      (Role.ofKind e.kind).map fun role => RoleOf.path config (e, role) := by
  obtain ⟨c, scaffolds, hc, hscaffolds, rfl⟩ := filesOf_eq_ok h
  unfold scaffoldsOf at hscaffolds
  rcases Mapping.build_eq_ok_cases hc with ⟨hkind, hgrows⟩ | ⟨hkind, hbase⟩
  · rw [hkind] at hscaffolds ⊢
    cases hscaffolds
    simp [fileOf, Role.ofKind, RoleOf.path, RoleOf.className, Role.ns, Role.ending, hgrows.ns,
      hgrows.name]
  · rw [hkind] at hscaffolds ⊢
    obtain ⟨final, hfinal, hscaffolds⟩ := bind_eq_ok.1 hscaffolds
    obtain ⟨repository, hrepository, hscaffolds⟩ := bind_eq_ok.1 hscaffolds
    rw [pure_eq_ok] at hscaffolds
    obtain ⟨hfinalName, hfinalNs, _⟩ := Mapping.buildFinal_eq_ok hfinal
    obtain ⟨hrepositoryName, hrepositoryNs, _⟩ := Mapping.buildRepository_eq_ok hrepository
    simp [← hscaffolds, fileOf, Role.ofKind, RoleOf.path, RoleOf.className, Role.ns, Role.ending,
      hbase.ns, hbase.name, hfinalName, hfinalNs, hrepositoryName, hrepositoryNs,
      Mapping.baseName, Mapping.repositoryName]

theorem map_path_filesOfAll (h : filesOfAll config claims es = .ok files) :
    files.map OutputFile.path =
      (es.flatMap fun e => (Role.ofKind e.kind).map (Prod.mk e)).map (RoleOf.path config) := by
  induction es generalizing claims files with
  | nil =>
    cases h
    rfl
  | cons e es ih =>
    obtain ⟨files₀, claims₁, files₁, hfiles₀, hfiles₁, rfl⟩ := filesOfAll_cons_eq_ok h
    rw [List.map_append, map_path_filesOf hfiles₀, ih hfiles₁, List.flatMap_cons, List.map_append,
      List.map_map]
    rfl

/-! ## Distinct paths -/

/-- No two files of a run have the same path. -/
def DistinctPaths (g : Generation) : Prop :=
  g.files.Pairwise fun f f' => ¬ Same f.path f'.path

/-- The paths are distinct if those of any two classes are. -/
theorem Run.distinctPaths_iff (h : Run config g s) : g.DistinctPaths ↔
    ∀ x ∈ rolesIn s, ∀ y ∈ rolesIn s, Same (x.path config) (y.path config) → x = y := by
  have hpaths : g.DistinctPaths ↔
      (rolesIn s).Pairwise fun x y => ¬ Same (x.path config) (y.path config) := by
    unfold DistinctPaths
    rw [← List.pairwise_map (f := OutputFile.path) (R := fun p q => ¬ Same p q),
      map_path_filesOfAll h.files, List.pairwise_map]
    rfl
  rw [hpaths]
  constructor
  · intro hpairwise x hx y hy hsame
    have hsymm : Std.Symm fun x y : RoleOf => ¬ Same (x.path config) (y.path config) :=
      ⟨fun _ _ hnot hsame => hnot hsame.symm⟩
    by_contra hne
    exact hpairwise.forall hx hy hne hsame
  · intro hdistinct
    apply (nodup_rolesIn h.wellFormed).pairwise_of_forall_ne
    intro x hx y hy hne hsame
    exact hne (hdistinct x hx y hy hsame)

/-- Names of entities and postfixes that have no slashes. -/
structure PlainNames (config : Config) (s : Schema) : Prop where
  entities : ∀ e ∈ s.entities.values, '/' ∉ e.name.toList
  endings : ∀ role : Role, '/' ∉ (role.ending config).toList

theorem PlainNames.notMem_className (h : PlainNames config s) (hx : x ∈ rolesIn s) :
    '/' ∉ (x.className config).toList := by
  unfold RoleOf.className
  rw [String.toList_append, List.mem_append, not_or]
  exact ⟨h.entities x.1 (mem_rolesIn_iff.1 hx).1, h.endings x.2⟩

/-- Two classes of one role have different names. -/
theorem eq_of_className_eq (h : s.WellFormed) (hx : x ∈ rolesIn s) (hy : y ∈ rolesIn s)
    (hrole : x.2 = y.2) (hname : x.className config = y.className config) : x = y := by
  obtain ⟨k, hk⟩ := OrderedMap.mem_values_iff.1 (mem_rolesIn_iff.1 hx).1
  obtain ⟨k', hk'⟩ := OrderedMap.mem_values_iff.1 (mem_rolesIn_iff.1 hy).1
  unfold RoleOf.className at hname
  rw [hrole, String.append_left_inj, h.name hk, h.name hk'] at hname
  rw [hname, hk', Option.some.injEq] at hk
  exact Prod.ext hk.symm hrole

/-- The paths of a run are distinct if and only if no two of its classes are stored at one
path. Among names without slashes, only classes of different roles can clash: they do if the
directories of the two roles are the same, and the names of the two classes. -/
theorem paths_distinct_iff (hg : ofConfig config = .ok g) : ∃ s, schemaOf config = .ok s ∧
    (g.DistinctPaths ↔ ∀ x ∈ rolesIn s, ∀ y ∈ rolesIn s,
      Same (x.path config) (y.path config) → x = y) ∧
    (PlainNames config s → (g.DistinctPaths ↔ ∀ x ∈ rolesIn s, ∀ y ∈ rolesIn s, x.2 ≠ y.2 →
      Same (x.2.directory config) (y.2.directory config) →
      x.className config ≠ y.className config)) := by
  obtain ⟨s, h⟩ := run_of_ofConfig hg
  refine ⟨s, h.schema, h.distinctPaths_iff, ?_⟩
  intro hplain
  have hsame : ∀ x ∈ rolesIn s, ∀ y ∈ rolesIn s, (Same (x.path config) (y.path config) ↔
      Same (x.2.directory config) (y.2.directory config) ∧
        x.className config = y.className config) := by
    intro x hx y hy
    exact Php.same_classPath_iff (hplain.notMem_className hx) (hplain.notMem_className hy)
  rw [h.distinctPaths_iff]
  constructor
  · intro hdistinct x hx y hy hroles hdirectories hnames
    exact hroles (congrArg Prod.snd
      (hdistinct x hx y hy ((hsame x hx y hy).2 ⟨hdirectories, hnames⟩)))
  · intro hclash x hx y hy hpath
    obtain ⟨hdirectories, hnames⟩ := (hsame x hx y hy).1 hpath
    by_cases hroles : x.2 = y.2
    · exact eq_of_className_eq h.wellFormed hx hy hroles hnames
    · exact absurd hnames (hclash x hx y hy hroles hdirectories)

/-- One entity, with neither a namespace nor a postfix for base classes. -/
def barePostfixConfig : Config where
  entities := .object [("U", .object [("n", .object [("type", .string "string")])])]
  namespaces := { base := "" }
  classPostfix := { entity := "" }

/-- The base class of the entity and its final class have one path. The base class is written
on every run, so the final class never is. -/
theorem base_class_shares_path : ∃ g, ofConfig barePostfixConfig = .ok g ∧
    ¬ g.DistinctPaths ∧ g.files.map (fun f => (f.path, f.mode)) = [
      ("src/Entity/U.php", .regenerate), ("src/Entity/U.php", .createIfMissing),
      ("src/Repository/URepository.php", .createIfMissing)] := by
  obtain ⟨g, hg, hfiles⟩ : ∃ g, ofConfig barePostfixConfig = .ok g ∧
      g.files.map (fun f => (f.path, f.mode)) = [
        ("src/Entity/U.php", .regenerate), ("src/Entity/U.php", .createIfMissing),
        ("src/Repository/URepository.php", .createIfMissing)] :=
    exists_ok_of_any (by decide +kernel)
  refine ⟨g, hg, ?_, hfiles⟩
  obtain ⟨s, hs, _, hclash⟩ := paths_distinct_iff hg
  obtain ⟨⟨e, he, hkind, hname⟩, hslash⟩ :
      (∃ e ∈ s.entities.values, e.kind = .entity ∧ e.name = "U") ∧
        ∀ e ∈ s.entities.values, '/' ∉ e.name.toList := by
    cases hs
    decide +kernel
  have hplain : PlainNames barePostfixConfig s := by
    refine ⟨hslash, ?_⟩
    intro role
    cases role <;> decide
  have hrole : ∀ role, role ∈ Role.ofKind .entity → (e, role) ∈ rolesIn s := by
    intro role hrole
    exact mem_rolesIn_iff.2 ⟨he, hkind ▸ hrole⟩
  intro hdistinct
  have hroles : Role.base ≠ Role.final := by decide
  have hdirectories : Same (Role.base.directory barePostfixConfig)
      (Role.final.directory barePostfixConfig) := by decide +kernel
  apply (hclash hplain).1 hdistinct (e, .base) (hrole .base (by decide)) (e, .final)
    (hrole .final (by decide)) hroles hdirectories
  unfold RoleOf.className
  rw [hname]
  rfl

end Generation
end OrmGen
