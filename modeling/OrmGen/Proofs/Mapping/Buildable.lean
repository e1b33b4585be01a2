/-
  Which schemas can be built. Reading and linking accept entities of which no class can be
  made; building finds that out class by class, member by member, with errors that arise in
  fields, in relations and in the imports of a class. What can be built is described here
  without building anything (`Sound`): no member takes the name of the identifier, every field
  that refers to an enumeration names it, an association has no enumeration at its other end,
  and the imports of a class agree.

  Two facts from outside building are used. The members of an entity have different names,
  fields and relations together (`nodup_memberNames`), since they are the keys of one mapping; so
  the identifier is the only name that can be taken twice. The source of a linked relation is
  what its counterpart declares, so the cardinalities of an association are those that its two
  ends declare.

  `classes_can_be_built_iff`: all classes of a schema can be built if and only if all its
  entities are sound, and the error is a fault of one of them.
-/
import OrmGen.Proofs.Mapping.ClassDemands
import OrmGen.Proofs.Mapping.Reordering
import OrmGen.Proofs.Schema.Kept
import OrmGen.Proofs.Schema.Normalized

namespace OrmGen

/-- A string, a number or a truth value. -/
inductive Json.IsScalar : Json → Prop where
  | string (s : String) : IsScalar (.string s)
  | number (n : Json.Number) : IsScalar (.number n)
  | bool (b : Bool) : IsScalar (.bool b)

/-- The definition of the field has a scalar as its `value` or as its `target`. -/
def Field.HasTarget (f : Field) : Prop :=
  ∃ raw, f.raw = some raw ∧ ∃ key, (key = "value" ∨ key = "target") ∧
    ∃ v, Json.member? key raw.members = some v ∧ v.IsScalar

namespace Mapping

open Generation (filesOf filesOfAll schemaOf scaffoldsOf)
open OrderedMap (mem_values_iff)
open Php (Import)

/-- Nothing stands in the way of the classes of an entity. -/
structure Sound (config : Config) (s : Schema) (e : Entity) : Prop where
  identifier : e.kind = .entity → "id" ∉ e.fields.keys ∧ "id" ∉ e.relations.keys
  targets : ∀ f ∈ e.fields.values, f.isEnumReference = true → f.HasTarget
  associations : ∀ r ∈ e.relations.values, r.target.cardinality ≠ .enumeration →
    ∀ c, s.counterpart? e.name r = some c → c.target.cardinality ≠ .enumeration
  baseImports : e.kind = .entity → Php.Consistent ((neededByBase config e).map Import.parse)
  repositoryImports : e.kind = .entity →
    Php.Consistent ((neededByRepository config e).map Import.parse)

/-- What stands in the way of the classes of an entity, and the error that tells it. -/
inductive Fault (config : Config) (s : Schema) (e : Entity) : Error → Prop where
  | identifier : e.kind = .entity → "id" ∈ e.fields.keys ∨ "id" ∈ e.relations.keys →
      Fault config s e (.duplicateProperty (baseName config e) "id")
  | target {f : Field} : f ∈ e.fields.values → f.isEnumReference = true → ¬ f.HasTarget →
      Fault config s e (.missingProperty e.name f.name "target")
  | association {r c : Relation} : r ∈ e.relations.values → r.target.cardinality ≠ .enumeration →
      s.counterpart? e.name r = some c → c.target.cardinality = .enumeration →
      Fault config s e (.unsupportedAssociation e.name c.target r.target)
  | baseImports {i j : Import} : e.kind = .entity → i ∈ (neededByBase config e).map Import.parse →
      j ∈ (neededByBase config e).map Import.parse → i.name = j.name → i.path ≠ j.path →
      Fault config s e (.importConflict i.name i.path j.path)
  | repositoryImports {i j : Import} : e.kind = .entity →
      i ∈ (neededByRepository config e).map Import.parse →
      j ∈ (neededByRepository config e).map Import.parse → i.name = j.name → i.path ≠ j.path →
      Fault config s e (.importConflict i.name i.path j.path)

/-- What is known of an entity of a linked schema. -/
structure Linked (s : Schema) (e : Entity) : Prop where
  wellFormed : e.WellFormed
  nodup : (e.fields.keys ++ e.relations.keys).Nodup
  kind_of_reference : ∀ f ∈ e.fields.values, f.isEnumReference = true → e.kind = .entity
  value_iff : ∀ f ∈ e.fields.values, f.isEnumReference = true → (f.value = none ↔ ¬ f.HasTarget)
  counterpart : ∀ r ∈ e.relations.values, r.target.cardinality ≠ .enumeration →
    s.counterpart? e.name r = some r.swap

variable {config : Config} {claims : Claims} {v : Json} {s t : Schema} {e : Entity}
  {es : List Entity} {f : Field} {r : Relation} {name : String} {err : Error}

/-! ## What reading and linking guarantee -/

theorem scalarText?_eq_none_iff {v : Json} : Schema.scalarText? v = none ↔ ¬ v.IsScalar := by
  cases v with
  | string s => simp [Schema.scalarText?, Json.IsScalar.string]
  | number n => simp [Schema.scalarText?, Json.IsScalar.number]
  | bool b => simp [Schema.scalarText?, Json.IsScalar.bool]
  | _ =>
    refine iff_of_true rfl ?_
    intro h
    cases h

/-- A key has a text to read exactly if it holds a scalar. -/
theorem bind_scalarText?_eq_none_iff {key : String} {ds : List (String × Json)} :
    (Json.member? key ds).bind Schema.scalarText? = none ↔
      ¬ ∃ v, Json.member? key ds = some v ∧ v.IsScalar := by
  rw [Option.bind_eq_none_iff, not_exists]
  exact forall_congr' fun _ => (imp_congr_right fun _ => scalarText?_eq_none_iff).trans not_and.symm

/-- A field that refers to an enumeration has a value exactly if its definition names it. -/
theorem value_eq_none_iff (h : Schema.KeepsField name v f) (henum : f.isEnumReference = true) :
    f.value = none ↔ ¬ f.HasTarget := by
  cases h with
  | value hv =>
    rw [Schema.isEnumReference_enumMember] at henum
    cases henum
  | @definition ds type raw htype hraw =>
    rw [Option.orElse_eq_or, Option.or_eq_none_iff, bind_scalarText?_eq_none_iff,
      bind_scalarText?_eq_none_iff, ← not_or, not_iff_not]
    unfold Field.HasTarget
    simp [hraw, or_and_right, exists_or]

theorem map_fst_of_forall₂ {α β : Type} {R : String × α → β → Prop} {es : List (String × α)}
    {ws : List (String × β)} (h : List.Forall₂ (fun e w => w.1 = e.1 ∧ R e w.2) es ws) :
    ws.map Prod.fst = es.map Prod.fst := by
  induction h with
  | nil => rfl
  | cons hhead _ ih => rw [List.map_cons, List.map_cons, hhead.1, ih]

/-- The members of an entity are declared in one mapping, so no two have one name. -/
theorem nodup_memberNames (hdistinct : v.Distinct) (h : Schema.KeepsEntity name v e) :
    (e.fields.keys ++ e.relations.keys).Nodup := by
  have hkeys : ((Schema.definitionOf v).map Prod.fst).Nodup := by
    cases v with
    | object members =>
      rw [Json.Distinct, Json.distinctMembers_iff] at hdistinct
      exact hdistinct.1
    | _ => exact List.nodup_nil
  have hfields : e.fields.keys = _ := map_fst_of_forall₂ h.fields
  have hrelations : e.relations.keys = _ := map_fst_of_forall₂ h.relations
  rw [hfields, hrelations, ← List.map_append]
  have hperm := List.filter_append_perm
    (fun member : String × Json => Schema.declaresField member.2) (Schema.definitionOf v)
  exact ((hperm.map Prod.fst).nodup_iff).2 hkeys

theorem linked_of_schemaOf (hdistinct : config.entities.Distinct) (hs : schemaOf config = .ok t)
    (he : e ∈ t.entities.values) : Linked t e := by
  obtain ⟨s, hread, hlink⟩ := bind_eq_ok.1 hs
  obtain ⟨k, hk⟩ := mem_values_iff.1 he
  have hwf : t.WellFormed :=
    Schema.wellFormed_of_link (Schema.wellFormed_of_ofDeclarations hread) hlink
  have hname : e.name = k := hwf.name hk
  obtain ⟨e₀, hk₀, hlinked⟩ := Schema.get?_of_link hlink hk
  obtain ⟨_, hkind, hfields, hrelations⟩ := Schema.linkEntity_eq_ok hlinked
  obtain ⟨ds, d, hds, hd, hentity⟩ := Schema.exists_declaration hread hk₀
  have hd : d.Distinct := by
    rw [hds, Json.Distinct, Json.distinctMembers_iff] at hdistinct
    exact hdistinct.2 _ hd
  have hkeeps : Schema.KeepsEntity k d e₀ := Schema.keepsEntity_of_readEntity hd hentity
  constructor
  · exact hwf.entity hk
  · have hkeys : e.relations.keys = e₀.relations.keys := OrderedMap.keys_of_traverse hrelations
    rw [hfields, hkeys]
    exact nodup_memberNames hd hkeeps
  · intro f hf henum
    rw [hfields] at hf
    obtain ⟨n, hn⟩ := mem_values_iff.1 hf
    rw [hkind]
    exact Schema.kind_of_isEnumReference hentity hn henum
  · intro f hf henum
    rw [hfields] at hf
    obtain ⟨n, hn⟩ := mem_values_iff.1 hf
    obtain ⟨member, _, _, hfield⟩ :=
      exists_of_forall₂ hkeeps.fields (OrderedMap.mem_entries_iff.2 hn)
    exact value_eq_none_iff hfield henum
  · intro r hr hne
    obtain ⟨target, _, hpair⟩ := Schema.exists_isPair hwf hlink hk hr hne
    rw [hname]
    exact hpair.counterpart

/-! ## One entity -/

/-- There is an association between any two cardinalities that are not those of enumerations. -/
theorem Association.ofCardinalities?_eq_none {c d : Cardinality} :
    ofCardinalities? c d = none ↔ c = .enumeration ∨ d = .enumeration := by
  have hcases : ∀ c : Cardinality,
      c.normalized = .one ∨ c.normalized = .many ∨ c.normalized = .enumeration := by
    intro c
    cases c with
    | fixed n => by_cases hn : n ≤ 1 <;> simp [Cardinality.normalized, hn]
    | _ => simp [Cardinality.normalized]
  rw [← @Cardinality.normalized_eq_enumeration_iff c,
    ← @Cardinality.normalized_eq_enumeration_iff d]
  unfold ofCardinalities?
  rcases hcases c with hc | hc | hc <;> rcases hcases d with hd | hd | hd <;> simp [hc, hd]

/-- The scaffolds of an entity can be built if its repository can. -/
theorem exists_scaffoldsOf_eq (config : Config) (hkind : e.kind = .entity) : ∃ final,
    scaffoldsOf config e = (buildRepository config e).map fun c => [final, c] := by
  obtain ⟨final, hfinal⟩ : ∃ c, buildFinal config e = .ok c := exists_buildFinal hkind
  refine ⟨final, ?_⟩
  rw [scaffoldsOf, hkind]
  change buildFinal config e >>= _ = _
  rw [hfinal]
  cases buildRepository config e <;> rfl

/-- An entity is sound exactly if it has no faults. -/
theorem sound_iff : Sound config s e ↔ ∀ err, ¬ Fault config s e err := by
  constructor
  · intro h err hfault
    cases hfault with
    | identifier hkind hmem => exact hmem.elim (h.identifier hkind).1 (h.identifier hkind).2
    | target hf henum hnone => exact hnone (h.targets _ hf henum)
    | association hr hne hc hcenum => exact h.associations _ hr hne _ hc hcenum
    | baseImports hkind hi hj hname hpath => exact hpath (h.baseImports hkind _ hi _ hj hname)
    | repositoryImports hkind hi hj hname hpath =>
      exact hpath (h.repositoryImports hkind _ hi _ hj hname)
  · intro h
    constructor
    case identifier =>
      intro hkind
      rw [← not_or]
      exact fun hmem => h _ (.identifier hkind hmem)
    case targets =>
      intro f hf henum
      by_contra hnone
      exact h _ (.target hf henum hnone)
    case associations =>
      intro r hr hne c hc hcenum
      exact h _ (.association hr hne hc hcenum)
    case baseImports =>
      intro hkind i hi j hj hname
      by_contra hpath
      exact h _ (.baseImports hkind hi hj hname hpath)
    case repositoryImports =>
      intro hkind i hi j hj hname
      by_contra hpath
      exact h _ (.repositoryImports hkind hi hj hname hpath)

namespace Linked

/-- The identifier is the only name that can be taken twice. -/
theorem one_lt_count_iff (h : Linked s e) {n : String} :
    1 < (membersOf (baseDemands config e)).count n ↔
      n = "id" ∧ ("id" ∈ e.fields.keys ∨ "id" ∈ e.relations.keys) := by
  have hfields : e.fields.values.map Field.name = e.fields.keys :=
    OrderedMap.map_values_eq_keys h.wellFormed.field_name
  have hrelations : (e.relations.values.map fun r => r.target.name) = e.relations.keys :=
    OrderedMap.map_values_eq_keys h.wellFormed.relation_name
  have hid : identifier.name = "id" := rfl
  have hatMostOne := List.nodup_iff_count_le_one.1 h.nodup n
  rw [membersOf_baseDemands, hfields, hrelations, hid, ← List.mem_append]
  by_cases hn : n = "id"
  · subst hn
    rw [List.count_cons_self, Nat.lt_add_left_iff_pos, List.count_pos_iff]
    exact (and_iff_right rfl).symm
  · rw [List.count_cons_of_ne (Ne.symm hn)]
    exact iff_of_false (Nat.not_lt.2 hatMostOne) fun hboth => hn hboth.1

/-- What a base class refuses to build. -/
theorem refusal_mem_iff (h : Linked s e) : .refusal err ∈ baseDemands config e ↔
    (∃ f ∈ e.fields.values, f.isEnumReference = true ∧ ¬ f.HasTarget ∧
      err = .missingProperty e.name f.name "target") ∨
    ∃ r ∈ e.relations.values, r.target.cardinality ≠ .enumeration ∧
      ∃ c, s.counterpart? e.name r = some c ∧ c.target.cardinality = .enumeration ∧
        err = .unsupportedAssociation e.name c.target r.target := by
  rw [refusal_mem_baseDemands]
  refine or_congr ?_ ?_
  · refine exists_congr fun f => and_congr_right fun hf => ?_
    rw [refusal_mem_fieldDemands]
    exact and_congr_right fun henum => and_congr_left' (h.value_iff f hf henum)
  · refine exists_congr fun r => and_congr_right fun hr => ?_
    rw [refusal_mem_relationDemands]
    refine and_congr_right fun hne => ?_
    rw [h.counterpart r hr hne, Association.ofCardinalities?_eq_none, or_iff_left hne]
    simp [Relation.swap]

/-- The faults of an entity are those of its base class and of its repository. -/
theorem fault_iff (h : Linked s e) (hkind : e.kind = .entity) : Fault config s e err ↔
    (blank (baseName config e)).Fault (baseDemands config e) err ∨
    (blank (repositoryName config e)).Fault
      ((neededByRepository config e).map .ofStatement) err := by
  have hbase := symbolsOf_baseDemands config e
  have hrepository := symbolsOf_map_ofStatement (neededByRepository config e)
  constructor
  · intro hfault
    cases hfault with
    | identifier _ hmem => exact .inl (.name (h.one_lt_count_iff.2 ⟨rfl, hmem⟩))
    | target hf henum hnone =>
      exact .inl (.refusal (h.refusal_mem_iff.2 (.inl ⟨_, hf, henum, hnone, rfl⟩)))
    | association hr hne hc hcenum =>
      exact .inl (.refusal (h.refusal_mem_iff.2 (.inr ⟨_, hr, hne, _, hc, hcenum, rfl⟩)))
    | baseImports _ hi hj hname hpath =>
      rw [← hbase] at hi hj
      exact .inl (.imports hi hj hname hpath)
    | repositoryImports _ hi hj hname hpath =>
      rw [← hrepository] at hi hj
      exact .inr (.imports hi hj hname hpath)
  · rintro (hfault | hfault)
    · cases hfault with
      | refusal hmem =>
        rcases h.refusal_mem_iff.1 hmem with ⟨f, hf, henum, hnone, rfl⟩ |
          ⟨r, hr, hne, c, hc, hcenum, rfl⟩
        · exact .target hf henum hnone
        · exact .association hr hne hc hcenum
      | name hcount =>
        obtain ⟨rfl, hmem⟩ := h.one_lt_count_iff.1 hcount
        exact .identifier hkind hmem
      | imports hi hj hname hpath =>
        rw [wanted_blank, hbase] at hi hj
        exact .baseImports hkind hi hj hname hpath
    · cases hfault with
      | refusal hmem => simp [Demand.ofStatement] at hmem
      | name hcount =>
        rw [named_blank, membersOf_map_ofStatement] at hcount
        simp at hcount
      | imports hi hj hname hpath =>
        rw [wanted_blank, hrepository] at hi hj
        exact .repositoryImports hkind hi hj hname hpath

/-- Only an entity that is no enumeration has faults. -/
theorem kind_of_fault (h : Linked s e) (hfault : Fault config s e err) : e.kind = .entity := by
  cases hfault with
  | identifier hkind _ => exact hkind
  | target hf henum _ => exact h.kind_of_reference _ hf henum
  | association hr _ _ _ =>
    obtain ⟨n, hn⟩ := mem_values_iff.1 hr
    exact h.wellFormed.kind_of_relation hn
  | baseImports hkind _ _ _ _ => exact hkind
  | repositoryImports hkind _ _ _ _ => exact hkind

/-- The classes of an entity can be built exactly if it is sound. -/
theorem buildable_iff (h : Linked s e) : Buildable config e ↔ Sound config s e := by
  rw [sound_iff]
  cases hkind : e.kind with
  | enumeration =>
    obtain ⟨c, hc⟩ : ∃ c, buildEnum config e = .ok c := exists_buildEnum h.wellFormed hkind
    have hbuild : build config .none e = (.ok c, .none) := by
      rw [build, hkind, hc]
    have hscaffolds : scaffoldsOf config e = .ok [] := by
      rw [scaffoldsOf, hkind]
    refine iff_of_true ⟨⟨c, .none, hbuild⟩, [], hscaffolds⟩ ?_
    intro err hfault
    rw [h.kind_of_fault hfault] at hkind
    cases hkind
  | entity =>
    obtain ⟨final, hscaffolds⟩ := exists_scaffoldsOf_eq config hkind
    calc Buildable config e
        ↔ (∃ c, (build config .none e).1 = .ok c) ∧ ∃ c, buildRepository config e = .ok c := by
          refine and_congr ?_ ?_
          · exact exists_congr fun c => ⟨fun ⟨_, hc⟩ => by rw [hc], fun hc => ⟨_, Prod.ext hc rfl⟩⟩
          · rw [hscaffolds]
            cases buildRepository config e <;> simp [Except.map]
      _ ↔ (∀ err, ¬ (blank (baseName config e)).Fault (baseDemands config e) err) ∧
          ∀ err, ¬ (blank (repositoryName config e)).Fault
            ((neededByRepository config e).map .ofStatement) err := by
          rw [(follows_build hkind .none).ok_iff, (follows_buildRepository hkind).ok_iff,
            Outline.fits_iff, Outline.fits_iff]
      _ ↔ ∀ err, ¬ Fault config s e err := by
          simp only [h.fault_iff hkind, not_or, forall_and]

/-- An error in building a class is a fault of its entity. -/
theorem fault_of_error (h : Linked s e) (herr : (∃ claims, (build config claims e).1 = .error err) ∨
    scaffoldsOf config e = .error err) : Fault config s e err := by
  cases hkind : e.kind with
  | enumeration =>
    obtain ⟨c, hc⟩ : ∃ c, buildEnum config e = .ok c := exists_buildEnum h.wellFormed hkind
    unfold build scaffoldsOf at herr
    rw [hkind] at herr
    simp [hc] at herr
  | entity =>
    rw [h.fault_iff hkind]
    rcases herr with ⟨claims, hbuild⟩ | hscaffolds
    · exact .inl ((follows_build hkind claims).fault hbuild)
    · obtain ⟨final, hfinal⟩ := exists_scaffoldsOf_eq config hkind
      rw [hfinal] at hscaffolds
      exact .inr ((follows_buildRepository hkind).fault (map_eq_error.1 hscaffolds))

end Linked

/-! ## All entities -/

theorem filesOf_eq_error (h : (filesOf config claims e).1 = .error err) :
    (build config claims e).1 = .error err ∨ scaffoldsOf config e = .error err := by
  change ((build config claims e).1 >>= fun c => scaffoldsOf config e >>= fun _ => .ok _) = _ at h
  obtain hbuild | ⟨c, _, h⟩ := bind_eq_error.1 h
  · exact .inl hbuild
  · obtain hscaffolds | ⟨cs, _, hok⟩ := bind_eq_error.1 h
    · exact .inr hscaffolds
    · cases hok

theorem filesOfAll_cons_eq_error (h : filesOfAll config claims (e :: es) = .error err) :
    (filesOf config claims e).1 = .error err ∨
      ∃ claims', filesOfAll config claims' es = .error err := by
  rw [filesOfAll] at h
  split at h
  · rename_i err' claims' hfirst
    rw [hfirst]
    exact .inl h
  · rename_i files claims' hfirst
    exact .inr ⟨claims', map_eq_error.1 h⟩

/-- An error of a run is that of building a class of one of its entities. -/
theorem exists_error_of_filesOfAll (h : filesOfAll config claims es = .error err) : ∃ e ∈ es,
    (∃ claims', (build config claims' e).1 = .error err) ∨ scaffoldsOf config e = .error err := by
  induction es generalizing claims with
  | nil => cases h
  | cons e es ih =>
    rcases filesOfAll_cons_eq_error h with hfirst | ⟨claims', hrest⟩
    · refine ⟨e, List.mem_cons_self, ?_⟩
      exact (filesOf_eq_error hfirst).imp_left fun hbuild => ⟨claims, hbuild⟩
    · obtain ⟨e', he', herr⟩ := ih hrest
      exact ⟨e', List.mem_cons_of_mem e he', herr⟩

/-- All classes of a linked schema can be built if and only if no entity has a member that takes
the name of the identifier, every field that refers to an enumeration has a scalar that names
it, no relation to an entity has an enumeration at its other end, and in no class two imports
give one name to different paths. Otherwise the error is one of these faults, in an entity of
the schema; an entity of the wrong kind is never among them. -/
theorem classes_can_be_built_iff (hdistinct : config.entities.Distinct)
    (hs : schemaOf config = .ok s) :
    ((∃ files, filesOfAll config .none s.entities.values = .ok files) ↔
      ∀ e ∈ s.entities.values, Sound config s e) ∧
    (∀ err, filesOfAll config .none s.entities.values = .error err →
      ∃ e ∈ s.entities.values, Fault config s e err) ∧
    ∀ n kind, filesOfAll config .none s.entities.values ≠ .error (.unexpectedKind n kind) := by
  have hlinked : ∀ e ∈ s.entities.values, Linked s e :=
    fun e he => linked_of_schemaOf hdistinct hs he
  have hfaults : ∀ err, filesOfAll config .none s.entities.values = .error err →
      ∃ e ∈ s.entities.values, Fault config s e err := by
    intro err herr
    obtain ⟨e, he, hclass⟩ := exists_error_of_filesOfAll herr
    exact ⟨e, he, (hlinked e he).fault_of_error hclass⟩
  refine ⟨?_, hfaults, ?_⟩
  · rw [exists_filesOfAll_iff]
    exact forall₂_congr fun e he => (hlinked e he).buildable_iff
  · intro n kind herr
    obtain ⟨e, _, hfault⟩ := hfaults _ herr
    cases hfault

/-- An entity with a member that takes the name of the identifier. -/
def ownIdentifier : Config where
  entities := .object [("User", .object [("id", .object [("type", .string "integer")])])]

/-- An entity with the name of a class that its repository needs. -/
def registryEntity : Config where
  entities := .object [("RegistryInterface", .object [("n", .object [("type", .string "string")])])]

/-- The blog with an import that has the name of a collection class. -/
def ownCollection : Config where
  entities := Schema.blog
  imports := ["App\\Collection"]

/-- All entities of the blog are sound. A user with an identifier of its own is not, nor is an
entity whose name its repository needs for a class of the framework, nor one with a relation to
many where the configuration imports another `Collection`. The errors tell so. -/
theorem blog_is_sound_and_own_identifier_is_not :
    (blogConfig.entities.Distinct ∧
      ∃ s, schemaOf blogConfig = .ok s ∧ ∀ e ∈ s.entities.values, Sound blogConfig s e) ∧
    ∀ c ∈ [
      (ownIdentifier, Error.duplicateProperty "UserGenerated" "id"),
      (registryEntity, .importConflict "RegistryInterface"
        "Symfony\\Bridge\\Doctrine\\RegistryInterface" "App\\Entity\\RegistryInterface"),
      (ownCollection, .importConflict "Collection"
        "Doctrine\\Common\\Collections\\Collection" "App\\Collection")],
      c.1.entities.Distinct ∧ ∃ s, schemaOf c.1 = .ok s ∧
        filesOfAll c.1 .none s.entities.values = .error c.2 ∧
        ∃ e ∈ s.entities.values, Fault c.1 s e c.2 ∧ ¬ Sound c.1 s e := by
  have hrefused : ∀ {config : Config} {err : Error}, config.entities.Distinct →
      (∃ s, schemaOf config = .ok s ∧ filesOfAll config .none s.entities.values = .error err) →
      config.entities.Distinct ∧ ∃ s, schemaOf config = .ok s ∧
        filesOfAll config .none s.entities.values = .error err ∧
        ∃ e ∈ s.entities.values, Fault config s e err ∧ ¬ Sound config s e := by
    rintro config err hdistinct ⟨s, hs, herr⟩
    obtain ⟨_, hfaults, _⟩ := classes_can_be_built_iff hdistinct hs
    obtain ⟨e, he, hfault⟩ := hfaults _ herr
    exact ⟨hdistinct, s, hs, herr, e, he, hfault, fun hsound => sound_iff.1 hsound _ hfault⟩
  have hblog : Schema.blog.Distinct := Json.distinct_settled Schema.blog
  have hown : ownIdentifier.entities.Distinct := Json.distinct_settled ownIdentifier.entities
  have hregistry : registryEntity.entities.Distinct := Json.distinct_settled registryEntity.entities
  refine ⟨⟨hblog, ?_⟩, ?_⟩
  · obtain ⟨g, hg⟩ := exists_ofConfig_blogConfig
    obtain ⟨s, hs, hfiles, _⟩ := Generation.ofConfig_eq_ok hg
    obtain ⟨hiff, _⟩ := classes_can_be_built_iff hblog hs
    exact ⟨s, hs, hiff.1 ⟨_, hfiles⟩⟩
  · simp only [List.forall_mem_cons, List.not_mem_nil, false_imp_iff, implies_true, and_true]
    exact ⟨hrefused hown ⟨_, rfl, by decide +kernel⟩, hrefused hregistry ⟨_, rfl, by decide +kernel⟩,
      hrefused hblog ⟨_, rfl, by decide +kernel⟩⟩

end Mapping
end OrmGen
