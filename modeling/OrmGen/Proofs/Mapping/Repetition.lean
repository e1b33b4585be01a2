/-
  Names that a class declares twice. No property is added to a class twice, and properties are
  told apart by their names (`nodup_propertyNames`). The text does not show these
  names: a constant stands there in upper case, a property as the suffix of its accessors,
  which starts in upper case. So a class declares nothing twice exactly if the names of its
  properties can be told apart in upper case (`names_declared_once_iff`).
-/
import OrmGen.Proofs.Mapping.DocComments
import OrmGen.Proofs.Php.UpperNames

namespace OrmGen

/-- The names of the properties of the class that is built for an entity. -/
def Entity.propertyNames (e : Entity) : List String :=
  match e.kind with
  | .enumeration => e.fields.keys
  | .entity => "id" :: (e.fields.keys ++ e.relations.keys)

namespace Mapping

open Php (Property readName isName constantName accessorSuffix)

/-- What the text of a class of the given kind shows of the name of a property. -/
def shownName : EntityKind → String → String
  | .enumeration => constantName
  | .entity => accessorSuffix

variable {config : Config} {claims claims' : Claims} {v : Json} {s t : Schema} {e : Entity}
  {c : Php.Class} {r : Relation} {p : Property}

/-! ## The properties of a class -/

theorem name_eq_of_isPropertyOf (h : IsPropertyOf r p) : p.name = r.target.name := by
  rcases h with ⟨_, rfl⟩ | ⟨_, a, side, rfl⟩
  · rfl
  · exact associationProperty_name ..

theorem map_name_of_isPropertyOf {rs : List Relation} {ps : List Property}
    (h : List.Forall₂ IsPropertyOf rs ps) :
    ps.map Property.name = rs.map fun r => r.target.name := by
  induction h with
  | nil => rfl
  | cons hp _ ih => rw [List.map_cons, List.map_cons, name_eq_of_isPropertyOf hp, ih]

/-- The properties of a class: those of a class of constants, or of a class of members. -/
theorem properties_of_build (hwf : e.WellFormed) (h : build config claims e = (.ok c, claims')) :
    c.properties.keys = e.propertyNames ∧
      c.properties.values.map Property.name = c.properties.keys ∧
      ∀ p ∈ c.properties.values, p.isConstant = e.isEnum := by
  have hfields : (e.fields.values.map fun f => f.name) = e.fields.keys :=
    OrderedMap.map_values_eq_keys hwf.field_name
  have hrelations : (e.relations.values.map fun r => r.target.name) = e.relations.keys :=
    OrderedMap.map_values_eq_keys hwf.relation_name
  rcases build_eq_ok_cases h with ⟨hkind, hgrows⟩ | ⟨hkind, hbase⟩
  · obtain ⟨hvalues, hkeys⟩ := keys_of_entries_eq hgrows.entries
    rw [hvalues, hkeys]
    refine ⟨?_, rfl, ?_⟩
    · rw [List.map_map, Entity.propertyNames, hkind]
      exact hfields
    · rw [List.forall_mem_map]
      intro f _
      simp [constantOf, Property.constant, Entity.isEnum, hkind]
  · obtain ⟨ps, hps, hentries⟩ := hbase.entries
    obtain ⟨hvalues, hkeys⟩ := keys_of_entries_eq hentries
    rw [hvalues, hkeys]
    refine ⟨?_, rfl, ?_⟩
    · rw [List.map_cons, List.map_append, List.map_map, map_name_of_isPropertyOf hps, hrelations,
        Entity.propertyNames, hkind]
      exact congrArg (fun names => "id" :: (names ++ e.relations.keys)) hfields
    · have hmember : e.isEnum = false := by
        simp [Entity.isEnum, hkind]
      rw [hmember, List.forall_mem_cons, List.forall_mem_append, List.forall_mem_map]
      refine ⟨rfl, fun _ _ => rfl, ?_⟩
      intro p hp
      obtain ⟨r, _, hproperty⟩ := exists_of_forall₂ hps hp
      exact isConstant_of_isPropertyOf hproperty

/-- The names of the properties of a class that could be built are distinct. -/
theorem nodup_propertyNames (hwf : e.WellFormed) (h : build config claims e = (.ok c, claims')) :
    e.propertyNames.Nodup := by
  rw [← (properties_of_build hwf h).1]
  exact c.properties.nodup

/-! ## What the text declares -/

theorem nodup_declared_iff (hwf : e.WellFormed) (h : build config claims e = (.ok c, claims')) :
    c.declaredConstants.Nodup ∧ c.declaredMethods.Nodup ↔
      (e.propertyNames.map fun n => readName (shownName e.kind n)).Nodup := by
  obtain ⟨hkeys, hnames, hconstant⟩ := properties_of_build hwf h
  have hhead : c.modifiers = ["abstract"] ∧ c.body = none := by
    rcases build_eq_ok_cases h with ⟨_, hgrows⟩ | ⟨_, hbase⟩
    · exact ⟨hgrows.modifiers, hgrows.body⟩
    · exact ⟨hbase.modifiers, hbase.body⟩
  obtain ⟨hconstants, hmembers⟩ := Php.Class.constants_members_eq hconstant
  rw [Php.Class.declaredConstants_eq hhead.1 hhead.2, Php.Class.nodup_declaredMethods_iff hhead.1
    hhead.2, ← hkeys, ← hnames, List.map_map, hconstants, hmembers]
  cases hkind : e.kind with
  | enumeration =>
    simp [Entity.isEnum, hkind, shownName, Function.comp_def]
  | entity =>
    simp [Entity.isEnum, hkind, shownName, Function.comp_def]

theorem readName_shownName (kind : EntityKind) {n : String} (h : isName n = true) :
    readName (shownName kind n) = shownName kind n := by
  cases kind with
  | enumeration => exact Php.readName_constantName h
  | entity => exact Php.readName_accessorSuffix h

/-- A class of a linked schema declares no constant and no method twice if and only if what
the text shows of the names of its properties differs. The names themselves do. What is shown
of a name is a name in full. -/
theorem names_declared_once_iff (hs : Schema.ofDeclarations v = .ok s) (ht : s.link = .ok t)
    (he : e ∈ t.entities.values) (h : build config claims e = (.ok c, claims')) :
    e.propertyNames.Nodup ∧
      (c.declaredConstants.Nodup ∧ c.declaredMethods.Nodup ↔
        (e.propertyNames.map fun n => readName (shownName e.kind n)).Nodup) ∧
      (∀ n, isName n = true → readName (shownName e.kind n) = shownName e.kind n) ∧
      ((∀ l ∈ c.lines, '\n' ∉ l.toList) →
        c.text.toList.splitOn '\n' = c.lines.map String.toList) := by
  have hwf : e.WellFormed := by
    obtain ⟨k, hk⟩ := OrderedMap.mem_values_iff.1 he
    exact (Schema.wellFormed_of_link (Schema.wellFormed_of_ofDeclarations hs) ht).entity hk
  exact ⟨nodup_propertyNames hwf h, nodup_declared_iff hwf h, fun n => readName_shownName e.kind,
    Php.Class.splitOn_text c⟩

/-- Two members of an enumeration, and two fields of an entity, that differ in case only. -/
def twins : Json := .object [
  ("Status", .object [("active", .number (.integer 1)), ("ACTIVE", .number (.integer 2))]),
  ("User", .object [
    ("name", .object [("type", .string "string")]),
    ("Name", .object [("type", .string "string")])])]

/-- Both classes are built, and each declares a name twice. -/
theorem twins_declare_twice : ∃ s t, Schema.ofDeclarations twins = .ok s ∧ s.link = .ok t ∧
    ∀ name ∈ ["Status", "User"], ∃ e c claims, t.get? name = some e ∧
      build { entities := twins } .none e = (.ok c, claims) ∧
      ¬ (c.declaredConstants.Nodup ∧ c.declaredMethods.Nodup) := by
  obtain ⟨s, hs⟩ : ∃ s, Schema.ofDeclarations twins = .ok s := ⟨_, rfl⟩
  obtain ⟨t, ht⟩ : ∃ t, s.link = .ok t := by cases hs; exact ⟨_, rfl⟩
  refine ⟨s, t, hs, ht, ?_⟩
  intro name hname
  obtain ⟨e, he, hbuilds, hsame⟩ : ∃ e, t.get? name = some e ∧
      ((build { entities := twins } .none e).1.toOption.any fun _ => decide True) = true ∧
      ¬ (e.propertyNames.map fun n => readName (shownName e.kind n)).Nodup := by
    cases hs
    cases ht
    rw [List.mem_cons, List.mem_singleton] at hname
    rcases hname with rfl | rfl
    · exact ⟨_, rfl, by decide +kernel, by decide +kernel⟩
    · exact ⟨_, rfl, by decide +kernel, by decide +kernel⟩
  obtain ⟨c, hc, _⟩ := exists_ok_of_any hbuilds
  have hmem := OrderedMap.mem_values_iff.2 ⟨name, he⟩
  obtain ⟨_, hiff, _⟩ := names_declared_once_iff hs ht hmem (Prod.ext hc rfl)
  exact ⟨e, c, _, he, Prod.ext hc rfl, fun hnodup => hsame (hiff.1 hnodup)⟩

end Mapping
end OrmGen
