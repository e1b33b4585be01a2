/-
  The names that a base class mentions. Its annotations and the types of its members name
  classes without their namespaces, so each of the names has to be bound by an import. Imports
  are added in several places, and each is read back from a path; together they are those that
  the class needs and no others (`mem_imports_of_buildEntity`). Where the namespaces have no white
  space, a path of a namespace and a bare name is read as that path and that name
  (`parse_joinNamespace`), so every name that is mentioned stands for the class that is meant
  (`mentioned_names_are_bound`).
-/
import OrmGen.Proofs.Mapping.ClassDemands
import OrmGen.Proofs.Php.NameResolution
import OrmGen.Proofs.Php.QualifiedName
import OrmGen.Proofs.Schema.Pairing

namespace OrmGen

open Text (IsStripped)

/-- A text that can stand for a class without its namespace: it is not empty and has neither
white space nor a backslash. -/
def IsBareName (s : String) : Prop :=
  s ≠ "" ∧ ∀ c ∈ s.toList, Text.isBlank c = false ∧ c ≠ '\\'

-- by the characters of the text, not by all characters there are
instance (s : String) : Decidable (IsBareName s) :=
  haveI := List.decidableBAll (fun c => Text.isBlank c = false ∧ c ≠ '\\') s.toList
  inferInstanceAs (Decidable (s ≠ "" ∧ ∀ c ∈ s.toList, Text.isBlank c = false ∧ c ≠ '\\'))

namespace Namespaces

def segments (n : Namespaces) : List String :=
  [n.app, n.base, n.enumeration, n.entity, n.repository]

/-- No namespace has white space. -/
def NoBlank (n : Namespaces) : Prop :=
  ∀ s ∈ n.segments, ∀ c ∈ s.toList, Text.isBlank c = false

instance (n : Namespaces) : Decidable n.NoBlank :=
  haveI := fun s : String => List.decidableBAll (fun c => Text.isBlank c = false) s.toList
  inferInstanceAs (Decidable (∀ s ∈ n.segments, ∀ c ∈ s.toList, Text.isBlank c = false))

end Namespaces

/-! ## Paths that are read back -/

section Paths

variable {name : String} {segments : List String}

theorem IsBareName.notMem (h : IsBareName name) : '\\' ∉ name.toList :=
  fun hmem => (h.2 _ hmem).2 rfl

theorem IsBareName.isStripped (h : IsBareName name) : IsStripped (· = '\\') name.toList :=
  Text.isStripped_of_forall fun c hc => decide_eq_false (h.2 c hc).2

theorem toList_ownPath {ns : String} (h : ns ≠ "") :
    (Php.ownPath ns name).toList = ns.toList ++ '\\' :: name.toList := by
  rw [Php.ownPath, if_neg h, String.toList_append, String.toList_append, List.append_assoc]
  rfl

/-- A bare name below a namespace is joined as it is. -/
theorem joinNamespace_bare (h : IsBareName name) (segments : List String) :
    joinNamespace [joinNamespace segments, name] =
      Php.ownPath (joinNamespace segments) name := by
  have hname : stripped name = name := stripped_eq_self h.isStripped
  have hone : joinNamespace [name] = name := by
    obtain ⟨-, hjoin⟩ | ⟨hne, -⟩ := joinNamespace_cons_cases (hname.symm ▸ h.1) []
    · rw [hjoin, hname]
    · exact absurd (by decide) hne
  have hns : stripped (joinNamespace segments) = joinNamespace segments :=
    stripped_eq_self (isStripped_joinNamespace segments)
  generalize joinNamespace segments = ns at hns
  by_cases hempty : ns = ""
  · rw [joinNamespace_cons_of_empty (hns.trans hempty), hone, Php.ownPath, if_pos hempty]
  · obtain ⟨hnone, -⟩ | ⟨-, hjoin⟩ := joinNamespace_cons_cases (hns.symm ▸ hempty) [name]
    · exact absurd (hone ▸ hnone) h.1
    · rw [hone, hns] at hjoin
      rw [← String.toList_inj, hjoin, toList_ownPath hempty]

/-- A path without white space is read as it is. -/
theorem parse_of_noBlank {path : String} (hblank : ∀ c ∈ path.toList, Text.isBlank c = false)
    (hstripped : IsStripped (· = '\\') path.toList) :
    Php.Import.parse path = ⟨path, String.ofList (Text.afterLast '\\' path.toList)⟩ := by
  have hspace : ' ' ∉ path.toList := fun hmem => absurd (hblank _ hmem) (by decide)
  have hsplit : Text.splitOnce? " as ".toList path.toList = none :=
    Text.splitOnce?_eq_none hspace
  unfold Php.Import.parse
  simp only [Text.stripBy_eq_self (Text.isStripped_of_forall hblank), hstripped.dropWhile_eq,
    hsplit, String.ofList_toList]

/-- The import of a bare name below a namespace without white space. -/
theorem parse_joinNamespace (hns : ∀ s ∈ segments, ∀ c ∈ s.toList, Text.isBlank c = false)
    (h : IsBareName name) :
    Php.Import.parse (joinNamespace [joinNamespace segments, name]) =
      ⟨Php.ownPath (joinNamespace segments) name, name⟩ := by
  have hblank : ∀ c ∈ (joinNamespace segments).toList, Text.isBlank c = false := by
    intro c hc
    rcases mem_joinNamespace hc with rfl | ⟨s, hs, hcs⟩
    · rfl
    · exact hns s hs c hcs
  have hstripped := isStripped_joinNamespace segments
  rw [joinNamespace_bare h]
  generalize joinNamespace segments = ns at *
  by_cases hempty : ns = ""
  · have hpath : Php.ownPath ns name = name := if_pos hempty
    rw [hpath, parse_of_noBlank (fun c hc => (h.2 c hc).1) h.isStripped,
      Text.afterLast_eq_self h.notMem, String.ofList_toList]
  · have hpath : (Php.ownPath ns name).toList = ns.toList ++ '\\' :: name.toList :=
      toList_ownPath hempty
    have hpathBlank : ∀ c ∈ (Php.ownPath ns name).toList, Text.isBlank c = false := by
      rw [hpath, List.forall_mem_append, List.forall_mem_cons]
      exact ⟨hblank, rfl, fun c hc => (h.2 c hc).1⟩
    have hpathStripped : IsStripped (· = '\\') (Php.ownPath ns name).toList := by
      rw [hpath, ← List.singleton_append, ← List.append_assoc]
      refine hstripped.append h.isStripped ?_ ?_ ['\\']
      · exact fun e => hempty (String.toList_eq_nil_iff.1 e)
      · exact fun e => h.1 (String.toList_eq_nil_iff.1 e)
    rw [parse_of_noBlank hpathBlank hpathStripped, hpath, Text.afterLast_append_cons h.notMem,
      String.ofList_toList]

end Paths

namespace Mapping

open OrderedMap (mem_values_iff)
open Php (Import Property)

variable {config : Config} {claims claims' : Claims} {v : Json} {s s₀ : Schema} {e : Entity}
  {c : Php.Class} {f : Field} {r : Relation} {p : Property} {name statement : String}
  {segments : List String}

/-! ## The imports of a base class -/

theorem kind_of_buildEntity (h : buildEntity config claims e = (.ok c, claims')) :
    e.kind = .entity := by
  unfold buildEntity at h
  split at h
  · cases h
  · rename_i c₁ hc₁
    obtain ⟨_, hkind, _⟩ := bind_eq_ok.1 hc₁
    unfold expectKind at hkind
    split at hkind
    · assumption
    · cases hkind

/-- A base class has the imports that it needs and no others. -/
theorem mem_imports_of_buildEntity (h : buildEntity config claims e = (.ok c, claims'))
    {i : Import} : i ∈ c.imports.imports ↔ i ∈ (neededByBase config e).map Import.parse := by
  have hkind := kind_of_buildEntity h
  have hbuild : build config claims e = (.ok c, claims') := by
    unfold build
    rw [hkind]
    exact h
  have hfollows : Follows outline (build config claims e).1 (blank (baseName config e))
      (baseDemands config e) := follows_build hkind claims
  unfold Follows at hfollows
  rw [hbuild] at hfollows
  rw [← symbolsOf_baseDemands, ← wanted_blank (baseName config e)]
  exact Outline.mem_imports_of_meetAll hfollows.symm

theorem binds_of_needed (h : buildEntity config claims e = (.ok c, claims'))
    (hneeded : statement ∈ neededByBase config e) : Binds c statement := by
  refine Php.ImportTable.get?_eq_some_iff.2 ⟨?_, rfl⟩
  exact (mem_imports_of_buildEntity h).2 (List.mem_map.2 ⟨statement, hneeded, rfl⟩)

/-! ## What the members mention -/

theorem enumTag_inj {name' : String} (h : enumTag name = enumTag name') : name = name' :=
  (String.append_right_inj "@see ").1 h

/-- An annotation of the mapping. -/
def IsMappingTag (tag : String) : Prop := "@ORM\\".toList <+: tag.toList

instance (tag : String) : Decidable (IsMappingTag tag) := inferInstanceAs (Decidable (_ <+: _))

theorem isMappingTag_columnTag (attributes : List (String × String)) :
    IsMappingTag (columnTag attributes) := by
  have hopening : "@ORM\\".toList <+: "@ORM\\Column(".toList := by decide
  unfold IsMappingTag columnTag
  rw [String.append_assoc, String.toList_append]
  exact hopening.trans (List.prefix_append ..)

theorem isMappingTag_associationTag (a : Association) (side : Side) (r : Relation) :
    IsMappingTag (associationTag a side r) := by
  unfold IsMappingTag associationTag
  simp only [String.toList_append, List.append_assoc]
  exact List.prefix_append ..

/-- The second character tells the annotations of an enumeration from those of the mapping. -/
theorem not_isMappingTag_enumTag (name : String) : ¬ IsMappingTag (enumTag name) := by
  rintro ⟨rest, hrest⟩
  rw [enumTag, String.toList_append] at hrest
  have hsecond : some 'O' = some 's' := congrArg (fun cs => cs[1]?) hrest
  cases hsecond

/-- An annotation that points at an enumeration comes from a field that refers to it or from a
relation of enum cardinality. -/
theorem enumTag_mem_cases (h : IsBaseClass config e c) (hp : p ∈ c.properties.values)
    (htag : enumTag name ∈ p.annotations) :
    (∃ f ∈ e.fields.values, enumTarget? f = some name) ∨
      ∃ r ∈ e.relations.values, r.target.cardinality = .enumeration ∧ r.target.entity = name := by
  have hother : ¬ IsMappingTag (enumTag name) := not_isMappingTag_enumTag name
  obtain ⟨ps, hps, hvalues⟩ := h.values
  rw [hvalues, List.mem_cons, List.mem_append, List.mem_map] at hp
  rcases hp with rfl | ⟨f, hf, rfl⟩ | hp
  · have hmapping : ∀ tag ∈ identifier.annotations, IsMappingTag tag := by decide
    exact absurd (hmapping _ htag) hother
  · rcases List.mem_cons.1 htag with hcolumn | henum
    · exact absurd (hcolumn ▸ isMappingTag_columnTag _) hother
    · obtain ⟨target, htarget, hname⟩ := Option.map_eq_some_iff.1 (Option.mem_toList.1 henum)
      rw [← enumTag_inj hname]
      exact .inl ⟨f, hf, htarget⟩
  · obtain ⟨r, hr, ⟨hcardinality, rfl⟩ | ⟨-, a, side, rfl⟩⟩ := exists_of_forall₂ hps hp
    · rcases List.mem_cons.1 htag with hcolumn | henum
      · have hmapping : IsMappingTag "@ORM\\Column(type=\"integer\", nullable=true)" := by decide
        exact absurd (hcolumn ▸ hmapping) hother
      · exact .inr ⟨r, hr, hcardinality, (enumTag_inj (List.mem_singleton.1 henum)).symm⟩
    · rw [associationProperty_annotations, List.mem_singleton] at htag
      exact absurd (htag ▸ isMappingTag_associationTag a side r) hother

theorem getLast?_toList_append {s t : String} {ch : Char} (h : t.toList.getLast? = some ch) :
    (s ++ t).toList.getLast? = some ch := by
  have hne : t.toList ≠ [] := by
    intro hnil
    rw [hnil] at h
    cases h
  rw [String.toList_append, List.getLast?_append_of_ne_nil _ hne, h]

/-- Only an association with many is typed as a collection. -/
theorem isMany_of_collection {target : String} (h : IsPropertyOf r p)
    (htype : p.typeName = target ++ "[]|Collection") :
    r.target.cardinality ≠ .enumeration ∧ r.target.cardinality.isMany = true := by
  have hlast : p.typeName.toList.getLast? = some 'n' := by
    rw [htype]
    exact getLast?_toList_append rfl
  rcases h with ⟨-, rfl⟩ | ⟨hne, a, side, rfl⟩
  · have hnull : "int|null".toList.getLast? ≠ some 'n' := by decide
    exact absurd hlast hnull
  · refine ⟨hne, ?_⟩
    unfold associationProperty at hlast
    split at hlast
    · assumption
    · have hnull : (r.target.entity ++ "|null").toList.getLast? = some 'l' :=
        getLast?_toList_append rfl
      cases hnull.symm.trans hlast

/-- The property of a relation stands under the name of the relation. -/
theorem isPropertyOf_of_get? (h : IsBaseClass config e c) (hr : r ∈ e.relations.values)
    (hp : c.properties.get? r.target.name = some p) : IsPropertyOf r p := by
  obtain ⟨ps, hps, hentries⟩ := h.entries
  obtain ⟨q, hq, hrq⟩ := exists_of_forall₂ hps.flip hr
  have hget : c.properties.get? q.name = some q :=
    get?_of_entries_eq hentries (List.mem_cons_of_mem _ (List.mem_append_right _ hq))
  rw [name_eq_of_isPropertyOf hrq, hp, Option.some.injEq] at hget
  rwa [hget]

/-! ## Every name is bound -/

/-- The class `c` of the entity `e` binds the names that it mentions: that of the mapping, those
of the targets of associations, those of enumerations, and where it has collections the types
of collections. -/
structure BindsMentioned (config : Config) (e : Entity) (c : Php.Class) : Prop where
  mapping : c.imports.get? "ORM" = some ⟨"Doctrine\\ORM\\Mapping", "ORM"⟩
  targets : ∀ r ∈ e.relations.values, r.target.cardinality ≠ .enumeration →
    c.imports.get? r.target.entity =
      some ⟨Php.ownPath config.entityNamespace r.target.entity, r.target.entity⟩
  enumerations : ∀ p ∈ c.properties.values, ∀ name, enumTag name ∈ p.annotations →
    c.imports.get? name = some ⟨Php.ownPath config.enumNamespace name, name⟩
  collections : ∀ r ∈ e.relations.values, ∀ p target,
    c.properties.get? r.target.name = some p → p.typeName = target ++ "[]|Collection" →
      c.imports.get? "Collection" =
          some ⟨"Doctrine\\Common\\Collections\\Collection", "Collection"⟩ ∧
        c.imports.get? "ArrayCollection" =
          some ⟨"Doctrine\\Common\\Collections\\ArrayCollection", "ArrayCollection"⟩

theorem get?_of_binds {i : Import} (h : Binds c statement) (hparse : Import.parse statement = i) :
    c.imports.get? i.name = some i := by
  unfold Binds at h
  rwa [hparse] at h

theorem mem_neededByBase_of_baseImports (h : statement ∈ baseImports config e) :
    statement ∈ neededByBase config e := List.mem_append_left _ h

theorem collectionImports_needed (hr : r ∈ e.relations.values)
    (hne : r.target.cardinality ≠ .enumeration) (hmany : r.target.cardinality.isMany = true)
    (h : statement ∈ collectionImports) : statement ∈ neededByBase config e := by
  have hcollections : hasCollections e = true := by
    unfold hasCollections
    rw [List.any_eq_true]
    exact ⟨r, hr, by simp [hne, hmany]⟩
  apply mem_neededByBase_of_baseImports
  unfold baseImports
  rw [if_pos hcollections]
  exact List.mem_cons_of_mem _ (List.mem_append_left _ h)

/-- A bare name below one of the namespaces is bound where its import is needed. -/
theorem get?_of_needed (hblank : config.namespaces.NoBlank)
    (hsegments : segments ⊆ config.namespaces.segments) (hname : IsBareName name)
    (h : buildEntity config claims e = (.ok c, claims'))
    (hneeded : joinNamespace [joinNamespace segments, name] ∈ neededByBase config e) :
    c.imports.get? name = some ⟨Php.ownPath (joinNamespace segments) name, name⟩ := by
  have hparse := parse_joinNamespace (fun s hs => hblank s (hsegments hs)) hname
  exact get?_of_binds (binds_of_needed h hneeded) hparse

theorem entityNamespace_segments (config : Config) :
    [config.namespaces.app, config.namespaces.entity] ⊆ config.namespaces.segments := by
  simp [Namespaces.segments]

theorem enumNamespace_segments (config : Config) :
    [config.namespaces.app, config.namespaces.enumeration] ⊆ config.namespaces.segments := by
  simp [Namespaces.segments]

/-- The target of a relation is an entity of the schema. -/
theorem isBareName_target (hs₀ : Schema.ofDeclarations v = .ok s₀) (hs : s₀.link = .ok s)
    (hnames : ∀ e ∈ s.entities.values, IsBareName e.name) (he : e ∈ s.entities.values)
    (hr : r ∈ e.relations.values) : IsBareName r.target.entity := by
  have hwf := Schema.wellFormed_of_link (Schema.wellFormed_of_ofDeclarations hs₀) hs
  obtain ⟨k, hk⟩ := mem_values_iff.1 he
  obtain ⟨n, hn⟩ := mem_values_iff.1 hr
  obtain ⟨target, htarget, -⟩ :=
    Schema.sourceEndpoint_eq_ok.1 (Schema.sourceEndpoint_of_link hs hk hn)
  rw [← hwf.name htarget]
  exact hnames target (mem_values_iff.2 ⟨_, htarget⟩)

section Bound

variable (hblank : config.namespaces.NoBlank)
  (htargets : ∀ r ∈ e.relations.values, IsBareName r.target.entity)
  (h : buildEntity config claims e = (.ok c, claims'))

include h in
theorem mapping_bound : c.imports.get? "ORM" = some ⟨"Doctrine\\ORM\\Mapping", "ORM"⟩ := by
  have hneeded : ormImport ∈ neededByBase config e :=
    mem_neededByBase_of_baseImports List.mem_cons_self
  have hparse : Import.parse ormImport = ⟨"Doctrine\\ORM\\Mapping", "ORM"⟩ := by
    decide +kernel
  exact get?_of_binds (binds_of_needed h hneeded) hparse

theorem importOf_needed (hr : r ∈ e.relations.values) :
    importOf config r ∈ neededByBase config e :=
  List.mem_append_right _ (List.mem_append_right _ (List.mem_map_of_mem hr))

include hblank htargets h in
theorem target_bound (hr : r ∈ e.relations.values)
    (hne : r.target.cardinality ≠ .enumeration) : c.imports.get? r.target.entity =
      some ⟨Php.ownPath config.entityNamespace r.target.entity, r.target.entity⟩ := by
  have hneeded : importOf config r ∈ neededByBase config e := importOf_needed hr
  rw [importOf, if_neg hne] at hneeded
  exact get?_of_needed hblank (entityNamespace_segments config) (htargets r hr) h hneeded

include hblank htargets h in
theorem enumeration_bound (hvalues : ∀ f ∈ e.fields.values, f.isEnumReference = true →
      ∀ name ∈ f.value, IsBareName name)
    (hp : p ∈ c.properties.values) (htag : enumTag name ∈ p.annotations) :
    c.imports.get? name = some ⟨Php.ownPath config.enumNamespace name, name⟩ := by
  rcases enumTag_mem_cases (isBaseClass_of_buildEntity h) hp htag with
    ⟨f, hf, hname⟩ | ⟨r, hr, henum, rfl⟩
  · have hneeded : joinNamespace [config.enumNamespace, name] ∈ neededByBase config e := by
      refine List.mem_append_right _ (List.mem_append_left _ (List.mem_filterMap.2 ⟨f, hf, ?_⟩))
      rw [enumImport?, hname]
      rfl
    have hbare : IsBareName name := by
      unfold enumTarget? at hname
      split at hname
      · rename_i href
        exact hvalues f hf href name hname
      · cases hname
    exact get?_of_needed hblank (enumNamespace_segments config) hbare h hneeded
  · have hneeded : importOf config r ∈ neededByBase config e := importOf_needed hr
    rw [importOf, if_pos henum] at hneeded
    exact get?_of_needed hblank (enumNamespace_segments config) (htargets r hr) h hneeded

include h in
theorem collections_bound {target : String} (hr : r ∈ e.relations.values)
    (hp : c.properties.get? r.target.name = some p)
    (htype : p.typeName = target ++ "[]|Collection") :
    c.imports.get? "Collection" =
        some ⟨"Doctrine\\Common\\Collections\\Collection", "Collection"⟩ ∧
      c.imports.get? "ArrayCollection" =
        some ⟨"Doctrine\\Common\\Collections\\ArrayCollection", "ArrayCollection"⟩ := by
  have hproperty := isPropertyOf_of_get? (isBaseClass_of_buildEntity h) hr hp
  obtain ⟨hne, hmany⟩ := isMany_of_collection hproperty htype
  have hbinds : ∀ statement ∈ collectionImports, Binds c statement := fun _ hstatement =>
    binds_of_needed h (collectionImports_needed hr hne hmany hstatement)
  have hparse : collectionImports.map Import.parse =
      [⟨"Doctrine\\Common\\Collections\\ArrayCollection", "ArrayCollection"⟩,
        ⟨"Doctrine\\Common\\Collections\\Collection", "Collection"⟩] := by decide +kernel
  have hbound : ∀ i ∈ collectionImports.map Import.parse, c.imports.get? i.name = some i := by
    rw [List.forall_mem_map]
    exact hbinds
  rw [hparse, List.forall_mem_cons] at hbound
  exact ⟨hbound.2 _ (List.mem_singleton_self _), hbound.1⟩

end Bound

/-- Where the namespaces have no white space, and the entities and the values of fields that
refer to enumerations are bare names, every base class that can be built binds what it
mentions, whatever imports are configured. -/
theorem mentioned_names_are_bound (hs₀ : Schema.ofDeclarations v = .ok s₀) (hs : s₀.link = .ok s)
    (hblank : config.namespaces.NoBlank)
    (hnames : ∀ e ∈ s.entities.values, IsBareName e.name)
    (hvalues : ∀ e ∈ s.entities.values, ∀ f ∈ e.fields.values, f.isEnumReference = true →
      ∀ name ∈ f.value, IsBareName name)
    (he : e ∈ s.entities.values) (h : buildEntity config claims e = (.ok c, claims')) :
    BindsMentioned config e c := by
  have htargets : ∀ r ∈ e.relations.values, IsBareName r.target.entity :=
    fun r hr => isBareName_target hs₀ hs hnames he hr
  refine ⟨mapping_bound h, ?_, ?_, ?_⟩
  · intro r hr hne
    exact target_bound hblank htargets h hr hne
  · intro p hp name htag
    exact enumeration_bound hblank htargets h (hvalues e he) hp htag
  · intro r hr p target hp htype
    exact collections_bound h hr hp htype

/-- Orders of a shop, with a state and a currency, and their items. -/
def shopDeclarations : Json := .object [
  ("State", .object [("open", .number (.integer 1)), ("paid", .number (.integer 2))]),
  ("Currency", .object [("eur", .number (.integer 1))]),
  ("Order", .object [
    ("state", .object [("type", .string "enum"), ("target", .string "State")]),
    ("currency", .object [("relation", .string "enum"), ("target", .string "Currency")]),
    ("items", .object [("relation", .string "many"), ("target", .string "Item")])]),
  ("Item", .object [("order", .object [("relation", .string "one"), ("target", .string "Order")])])]

/-- A configuration of that shop with a namespace of its own and an import. -/
def shopConfig : Config where
  entities := shopDeclarations
  namespaces := { app := "\\Acme\\Shop\\" }
  imports := ["Acme\\Money as Amount"]

/-- The base class of an order mentions the enumerations, the items and the collection. -/
theorem order_binds_what_it_mentions : ∃ s₀ s e c claims',
    Schema.ofDeclarations shopDeclarations = .ok s₀ ∧ s₀.link = .ok s ∧
    e ∈ s.entities.values ∧ buildEntity shopConfig .none e = (.ok c, claims') ∧
    c.imports.get? "State" = some ⟨"Acme\\Shop\\Enum\\State", "State"⟩ ∧
    c.imports.get? "Currency" = some ⟨"Acme\\Shop\\Enum\\Currency", "Currency"⟩ ∧
    c.imports.get? "Item" = some ⟨"Acme\\Shop\\Entity\\Item", "Item"⟩ ∧
    c.imports.get? "Collection" =
      some ⟨"Doctrine\\Common\\Collections\\Collection", "Collection"⟩ := by
  obtain ⟨s₀, hs₀⟩ : ∃ s₀, Schema.ofDeclarations shopDeclarations = .ok s₀ := ⟨_, rfl⟩
  obtain ⟨s, hs⟩ : ∃ s, s₀.link = .ok s := by cases hs₀; exact ⟨_, rfl⟩
  obtain ⟨e, he⟩ : ∃ e, s.get? "Order" = some e := by cases hs₀; cases hs; exact ⟨_, rfl⟩
  have hmem : e ∈ s.entities.values := mem_values_iff.2 ⟨_, he⟩
  obtain ⟨c, hc, ⟨p, hp, hstate⟩, ⟨q, hq, hcurrency⟩, r, hr, htarget, hne, hget⟩ :
      ∃ c, (buildEntity shopConfig .none e).1 = .ok c ∧
        (∃ p ∈ c.properties.values, enumTag "State" ∈ p.annotations) ∧
        (∃ p ∈ c.properties.values, enumTag "Currency" ∈ p.annotations) ∧
        ∃ r ∈ e.relations.values, r.target.entity = "Item" ∧
          r.target.cardinality ≠ .enumeration ∧
          (c.properties.get? r.target.name).map Property.typeName =
            some ("Item" ++ "[]|Collection") := by
    cases hs₀; cases hs; cases he
    exact exists_ok_of_any (by decide +kernel)
  have hbuild : buildEntity shopConfig .none e =
      (.ok c, (buildEntity shopConfig .none e).2) := Prod.ext hc rfl
  obtain ⟨-, htargets, henums, hcollections⟩ := mentioned_names_are_bound hs₀ hs
    (by decide +kernel) (by cases hs₀; cases hs; decide) (by cases hs₀; cases hs; decide)
    hmem hbuild
  obtain ⟨items, hitems, htype⟩ := Option.map_eq_some_iff.1 hget
  have hentities : shopConfig.entityNamespace = "Acme\\Shop\\Entity" := by decide +kernel
  have henumerations : shopConfig.enumNamespace = "Acme\\Shop\\Enum" := by decide +kernel
  have hitem := htargets r hr hne
  rw [htarget, hentities] at hitem
  rw [henumerations] at henums
  exact ⟨s₀, s, e, c, _, hs₀, hs, hmem, hbuild, henums p hp _ hstate, henums q hq _ hcurrency,
    hitem, (hcollections r hr items _ hitems htype).1⟩

end Mapping
end OrmGen
