/-
  Well-formed schemas: every entity, field and relation stands under its own name, and an
  enumeration has no relations. `wellFormed_of_ofDeclarations`: a schema read from
  declarations is well-formed, whatever the value it was read from. The names in it are keys
  of that value (`mem_keys_of_ofDeclarations`).
-/
import Mathlib.Data.List.Nodup
import OrmGen.Proofs.Traversal
import OrmGen.Schema.Declaration

namespace OrmGen

/-- Members stand under their own names, and an enumeration has no relations. -/
structure Entity.WellFormed (e : Entity) : Prop where
  field_name : ∀ {k f}, e.fields.get? k = some f → f.name = k
  relation_name : ∀ {k r}, e.relations.get? k = some r → r.target.name = k
  kind_of_relation : ∀ {k r}, e.relations.get? k = some r → e.kind = .entity

/-- Entities stand under their own names and are well-formed. -/
structure Schema.WellFormed (s : Schema) : Prop where
  name : ∀ {k e}, s.get? k = some e → e.name = k
  entity : ∀ {k e}, s.get? k = some e → e.WellFormed

/-- No entity stands twice in a well-formed schema. -/
theorem Schema.WellFormed.nodup_values {s : Schema} (h : s.WellFormed) :
    s.entities.values.Nodup := by
  have hkeys : (s.entities.values.map Entity.name).Nodup := by
    rw [OrderedMap.map_values_eq_keys h.name]
    exact s.entities.nodup
  exact List.Nodup.of_map _ hkeys

namespace Schema

open OrderedMap (get?_ofList)

/-! ## Members -/

theorem readRelation_eq_ok {entity field : String} {definition : List (String × Json)}
    {c : Json} {r : Relation} (h : readRelation entity field definition c = .ok r) :
    r.target.name = field := by
  unfold readRelation at h
  obtain ⟨target, _, h⟩ := bind_eq_ok.1 h
  obtain ⟨cardinality, _, h⟩ := bind_eq_ok.1 h
  rw [pure_eq_ok] at h
  rw [← h]

theorem readField_eq_ok {entity field : String} {definition : List (String × Json)} {f : Field}
    (h : readField entity field definition = .ok f) : f.name = field := by
  unfold readField at h
  obtain ⟨typeName, _, h⟩ := bind_eq_ok.1 h
  obtain ⟨size, _, h⟩ := bind_eq_ok.1 h
  obtain ⟨nullable, _, h⟩ := bind_eq_ok.1 h
  obtain ⟨visibility, _, h⟩ := bind_eq_ok.1 h
  rw [pure_eq_ok] at h
  rw [← h]

/-- The name of the property that a member becomes. -/
def Member.name : Member → String
  | .field f => f.name
  | .relation r => r.target.name

/-- A member has the name it is declared under, and only a mapping declares a relation. -/
theorem readMember_eq_ok {entity name : String} {v : Json} {m : Member}
    (h : readMember entity name v = .ok m) :
    m.name = name ∧ ∀ r, m = .relation r → isStructured v = true := by
  unfold readMember at h
  split at h
  · split at h
    · obtain ⟨r, hr, rfl⟩ := map_eq_ok.1 h
      exact ⟨readRelation_eq_ok hr, fun _ _ => rfl⟩
    · obtain ⟨f, hf, rfl⟩ := map_eq_ok.1 h
      exact ⟨readField_eq_ok hf, fun _ _ => rfl⟩
  · rw [Except.ok.injEq] at h
    subst h
    exact ⟨rfl, nofun⟩

theorem readMembers_eq_ok {entity : String} {form : Option Bool} {ds : List (String × Json)}
    {ms : List Member} (h : readMembers entity form ds = .ok ms) :
    List.Forall₂ (fun d m => readMember entity d.1 d.2 = .ok m) ds ms := by
  induction ds generalizing form ms with
  | nil =>
    rw [readMembers, Except.ok.injEq] at h
    subst h
    exact .nil
  | cons d ds ih =>
    obtain ⟨name, v⟩ := d
    rw [readMembers] at h
    split at h
    · obtain ⟨_, hthrow, _⟩ := bind_eq_ok.1 h
      cases hthrow
    · obtain ⟨m, hm, h⟩ := bind_eq_ok.1 h
      obtain ⟨ms', hms, h⟩ := bind_eq_ok.1 h
      rw [pure_eq_ok] at h
      subst h
      exact .cons hm (ih hms)

/-! ## Entities -/

variable {name : String} {kind : EntityKind} {ms : List Member} {k : String}

theorem get?_fields_ofMembers {f : Field} (h : (ofMembers name kind ms).fields.get? k = some f) :
    .field f ∈ ms ∧ f.name = k := by
  obtain ⟨m, hm, hf⟩ := List.mem_filterMap.1 (get?_ofList h)
  cases m with
  | field f' =>
    simp only [Option.some.injEq, Prod.mk.injEq] at hf
    obtain ⟨rfl, rfl⟩ := hf
    exact ⟨hm, rfl⟩
  | relation r => simp at hf

theorem get?_relations_ofMembers {r : Relation}
    (h : (ofMembers name kind ms).relations.get? k = some r) :
    .relation r ∈ ms ∧ r.target.name = k := by
  obtain ⟨m, hm, hr⟩ := List.mem_filterMap.1 (get?_ofList h)
  cases m with
  | field f => simp at hr
  | relation r' =>
    simp only [Option.some.injEq, Prod.mk.injEq] at hr
    obtain ⟨rfl, rfl⟩ := hr
    exact ⟨hm, rfl⟩

/-- The names of the members that a value declares. -/
def memberNames : Json → List String
  | .object ds => ds.map Prod.fst
  | _ => []

/-- An entity has its name from its key, and is well-formed. -/
theorem readEntity_eq_ok {v : Json} {e : Entity} (h : readEntity name v = .ok e) :
    e.name = name ∧ e.WellFormed := by
  unfold readEntity at h
  split at h
  · rename_i ds
    obtain ⟨ms, hms, h⟩ := bind_eq_ok.1 h
    rw [pure_eq_ok] at h
    subst h
    refine ⟨rfl, ?_⟩
    constructor
    · intro k f hf
      exact (get?_fields_ofMembers hf).2
    · intro k r hr
      exact (get?_relations_ofMembers hr).2
    · intro k r hr
      have hmem := (get?_relations_ofMembers hr).1
      obtain ⟨d, hd, hdm⟩ := exists_of_forall₂ (readMembers_eq_ok hms) hmem
      have hstructured : (ds.any fun m => isStructured m.2) = true :=
        List.any_eq_true.2 ⟨d, hd, (readMember_eq_ok hdm).2 r rfl⟩
      simp [ofMembers, hstructured]
  · rw [Except.ok.injEq] at h
    subst h
    exact ⟨rfl, nofun, nofun, nofun⟩
  · cases h

/-- A member of an enumeration does not refer to one. -/
theorem isEnumReference_enumMember (name : String) (v : Json) :
    (enumMember name v).isEnumReference = false := by
  cases v <;> simp [Field.isEnumReference, Field.enumType, enumMember, valueTypeName]

theorem readMember_of_bare {entity : String} {v : Json} (h : isStructured v = false) :
    readMember entity name v = .ok (.field (enumMember name v)) := by
  cases v with
  | object definition => cases h
  | _ => rfl

/-- The members of an enumeration are declared by bare values. -/
theorem exists_enumMember {v : Json} {e : Entity} {f : Field} (h : readEntity name v = .ok e)
    (hkind : e.kind = .enumeration) (hf : e.fields.get? k = some f) : ∃ d, f = enumMember k d := by
  unfold readEntity at h
  split at h
  · rename_i ds
    obtain ⟨ms, hms, h⟩ := bind_eq_ok.1 h
    rw [pure_eq_ok] at h
    subst h
    obtain ⟨hmem, rfl⟩ := get?_fields_ofMembers hf
    obtain ⟨d, hd, hdm⟩ := exists_of_forall₂ (readMembers_eq_ok hms) hmem
    have hbare : isStructured d.2 = false := by
      by_contra hstructured
      have hany : (ds.any fun m => isStructured m.2) = true :=
        List.any_eq_true.2 ⟨d, hd, by simpa using hstructured⟩
      simp [ofMembers, hany] at hkind
    rw [readMember_of_bare hbare, Except.ok.injEq, Member.field.injEq] at hdm
    exact ⟨d.2, by rw [← hdm]; rfl⟩
  · rw [Except.ok.injEq] at h
    subst h
    cases hf
  · cases h

/-- Only an entity has fields that refer to enumerations. -/
theorem kind_of_isEnumReference {v : Json} {e : Entity} (h : readEntity name v = .ok e) {f : Field}
    (hf : e.fields.get? k = some f) (henum : f.isEnumReference = true) : e.kind = .entity := by
  cases hkind : e.kind with
  | entity => rfl
  | enumeration =>
    obtain ⟨d, rfl⟩ := exists_enumMember h hkind hf
    rw [isEnumReference_enumMember] at henum
    cases henum

/-- The relations of an entity are declared under their names. -/
theorem mem_memberNames {v : Json} {e : Entity} (h : readEntity name v = .ok e) {r : Relation}
    (hr : e.relations.get? k = some r) : k ∈ memberNames v := by
  unfold readEntity at h
  split at h
  · obtain ⟨ms, hms, h⟩ := bind_eq_ok.1 h
    rw [pure_eq_ok] at h
    subst h
    obtain ⟨hmem, hk⟩ := get?_relations_ofMembers hr
    obtain ⟨d, hd, hdm⟩ := exists_of_forall₂ (readMembers_eq_ok hms) hmem
    have hname : d.1 = k := (readMember_eq_ok hdm).1.symm.trans hk
    exact List.mem_map.2 ⟨d, hd, hname⟩
  · rw [Except.ok.injEq] at h
    subst h
    cases hr
  · cases h

/-! ## Schemas -/

theorem readEntities_eq_ok {ds : List (String × Json)} {es : List Entity}
    (h : readEntities ds = .ok es) :
    List.Forall₂ (fun d e => readEntity d.1 d.2 = .ok e) ds es := by
  induction ds generalizing es with
  | nil =>
    rw [readEntities, Except.ok.injEq] at h
    subst h
    exact .nil
  | cons d ds ih =>
    rw [readEntities] at h
    obtain ⟨e, he, h⟩ := bind_eq_ok.1 h
    obtain ⟨es', hes, h⟩ := bind_eq_ok.1 h
    rw [pure_eq_ok] at h
    subst h
    exact .cons he (ih hes)

theorem entities_foldl_addEntity (es : List Entity) (s : Schema) :
    (es.foldl addEntity s).entities =
      (es.map fun e => (e.name, e)).foldl (fun m p => m.insert p.1 p.2) s.entities := by
  induction es generalizing s with
  | nil => rfl
  | cons e es ih => exact ih (s.addEntity e)

/-- Every entity of a schema is read from a value that stands at its name. -/
theorem exists_declaration {v : Json} {s : Schema} (h : ofDeclarations v = .ok s) {e : Entity}
    (he : s.get? k = some e) : ∃ ds d, v = .object ds ∧ (k, d) ∈ ds ∧ readEntity k d = .ok e := by
  unfold ofDeclarations at h
  split at h
  · rename_i ds
    obtain ⟨es, hes, h⟩ := bind_eq_ok.1 h
    rw [pure_eq_ok] at h
    have hget : (OrderedMap.ofList (es.map fun e => (e.name, e))).get? k = some e := by
      rw [← he, Schema.get?, ← h, entities_foldl_addEntity]
      rfl
    obtain ⟨e', he', hk⟩ := List.mem_map.1 (get?_ofList hget)
    rw [Prod.mk.injEq] at hk
    obtain ⟨rfl, rfl⟩ := hk
    obtain ⟨⟨n, d⟩, hd, hread⟩ := exists_of_forall₂ (readEntities_eq_ok hes) he'
    have hn : e'.name = n := (readEntity_eq_ok hread).1
    subst hn
    exact ⟨ds, d, rfl, hd, hread⟩
  · cases h

/-- A schema read from declarations is well-formed. -/
theorem wellFormed_of_ofDeclarations {v : Json} {s : Schema} (h : ofDeclarations v = .ok s) :
    s.WellFormed := by
  constructor
  · intro k e he
    obtain ⟨_, _, _, _, hread⟩ := exists_declaration h he
    exact (readEntity_eq_ok hread).1
  · intro k e he
    obtain ⟨_, _, _, _, hread⟩ := exists_declaration h he
    exact (readEntity_eq_ok hread).2

/-- The entities that a value declares, in the order of declaration. -/
def declaredEntities : Json → OrderedMap Json
  | .object ds => OrderedMap.ofList ds
  | _ => OrderedMap.empty

/-- A schema has its entities in the order of declaration. -/
theorem keys_of_ofDeclarations {v : Json} {s : Schema} (h : ofDeclarations v = .ok s) :
    s.entities.keys = (declaredEntities v).keys := by
  unfold ofDeclarations at h
  split at h
  · rename_i ds
    obtain ⟨es, hes, h⟩ := bind_eq_ok.1 h
    rw [pure_eq_ok] at h
    have hnames : List.Forall₂ (fun (p : String × Entity) (d : String × Json) => p.1 = d.1)
        (es.map fun e => (e.name, e)) ds := by
      rw [List.forall₂_map_left_iff]
      refine (readEntities_eq_ok hes).flip.imp ?_
      intro e d hread
      exact (readEntity_eq_ok hread).1
    rw [← h, entities_foldl_addEntity]
    exact OrderedMap.keys_foldl_insert hnames rfl
  · cases h

/-- The names that a value declares: those of entities and of their members. -/
def declaredNames : Json → List String
  | .object ds => ds.flatMap fun d => d.1 :: memberNames d.2
  | _ => []

theorem mem_declaredNames {v : Json} {s : Schema} (h : ofDeclarations v = .ok s) {e : Entity}
    (he : s.get? k = some e) :
    k ∈ declaredNames v ∧ ∀ {n r}, e.relations.get? n = some r → n ∈ declaredNames v := by
  obtain ⟨ds, d, rfl, hd, hread⟩ := exists_declaration h he
  constructor
  · exact List.mem_flatMap.2 ⟨(k, d), hd, List.mem_cons_self⟩
  · intro n r hr
    have hn : n ∈ memberNames d := mem_memberNames hread hr
    exact List.mem_flatMap.2 ⟨(k, d), hd, List.mem_cons_of_mem _ hn⟩

end Schema
end OrmGen
