/-
  Runs over two configurations that declare the same entities in different orders. What the
  order changes is which associations have been claimed when an entity is built. The claims
  decide neither whether a class can be built nor anything in it but the properties of
  relations (`exists_build_of_claims`), and of these only on which side of a symmetric
  association they stand (`exists_propertyIn`).

  `order_decides_sides`: one of the configurations is accepted if and only if the other is.
  The classes of an entity then differ in the words inversedBy and mappedBy, at the relations
  between entities that the two configurations declare in opposite order and nowhere else.
-/
import OrmGen.Proofs.Diagram.RelationLines
import OrmGen.Proofs.Mapping.Ends
import OrmGen.Proofs.Mapping.Settings
import OrmGen.Proofs.Schema.Reordering

namespace OrmGen.Mapping

open Generation (classIn fileOf filesOf filesOfAll schemaOf scaffoldsOf Run)
open OrderedMap (get?_insert mem_values_iff)
open Schema (Opposed SameEntities)

/-- The configuration `config'` is `config` with its entities declared in another order. -/
structure Reorders (config config' : Config) : Prop where
  entities : ∃ ds ds', config.entities = .object ds ∧ config'.entities = .object ds' ∧
    ds.Perm ds' ∧ (ds.map Prod.fst).Nodup
  settings : { config' with entities := config.entities } = config

/-- Two classes that have the same head and imports, properties of the same names in the same
order, and the same property at every name that is not among `names`. -/
structure AgreeOutside (names : List String) (c d : Php.Class) : Prop where
  frame : { d with properties := c.properties } = c
  keys : d.properties.keys = c.properties.keys
  others : ∀ n ∉ names, d.properties.get? n = c.properties.get? n

def Side.other : Side → Side
  | .owning => .inverse
  | .inverse => .owning

/-- The property `p'` is `p` with the words inversedBy and mappedBy exchanged in its one
annotation, which maps the relation `r` as the association `a`. -/
def IsExchanged (a : Association) (r : Relation) (p p' : Php.Property) : Prop :=
  ∃ side, p.annotations = [a.written side r.target.entity r.source.name] ∧
    p' = { p with annotations := [a.written side.other r.target.entity r.source.name] }

/-- The classes `c` and `c'` of the entity `e`, built in runs over `s` and `s'`, are the same
but for the sides of the symmetric associations with entities that stand before `e` in one
schema and after it in the other. -/
structure DifferInSides (s s' : Schema) (e : Entity) (c c' : Php.Class) : Prop where
  frame : { c' with properties := c.properties } = c
  keys : c'.properties.keys = c.properties.keys
  exchanged : ∀ n r a, e.relations.get? n = some r → associationOf? r = some a →
    (a = .oneToOne ∨ a = .manyToMany) → Opposed s s' r.target.entity e.name →
    ∃ p p', c.properties.get? n = some p ∧ c'.properties.get? n = some p' ∧ IsExchanged a r p p'
  same : ∀ n, (∀ r a, e.relations.get? n = some r → associationOf? r = some a →
    (a = .oneToOne ∨ a = .manyToMany) → ¬Opposed s s' r.target.entity e.name) →
    c'.properties.get? n = c.properties.get? n

variable {config config' : Config} {claims claims' : Claims} {c c' d : Php.Class} {entity : String}
  {names : List String} {p q : Php.Property} {r : Relation} {rs : List Relation} {e : Entity}
  {es : List Entity} {s s' t t' : Schema} {g g' : Generation} {k n : String} {a : Association}

/-! ## Building with other claims -/

namespace AgreeOutside

theorem refl (names : List String) (c : Php.Class) : AgreeOutside names c c :=
  ⟨rfl, rfl, fun _ _ => rfl⟩

theorem imports (h : AgreeOutside names c d) : d.imports = c.imports := by
  have himports := congrArg Php.Class.imports h.frame
  exact himports

theorem addImport (h : AgreeOutside names c d) {statement : String}
    (hc : c.addImport statement = .ok c') :
    ∃ d', d.addImport statement = .ok d' ∧ AgreeOutside names c' d' := by
  obtain ⟨imports, himports, rfl⟩ := map_eq_ok.1 hc
  rw [← h.imports] at himports
  refine ⟨_, map_eq_ok.2 ⟨imports, himports, rfl⟩, ?_, h.keys, h.others⟩
  rw [← h.frame]

theorem addProperty (h : AgreeOutside names c d) (hp : p.name ∈ names) (hq : q.name = p.name)
    (hc : c.addProperty p = .ok c') :
    ∃ d', d.addProperty q = .ok d' ∧ AgreeOutside names c' d' := by
  unfold Php.Class.addProperty at hc
  split at hc
  · cases hc
  rename_i hfree
  rw [Except.ok.injEq] at hc
  subst hc
  have hfree' : ¬d.properties.contains q.name = true := by
    rw [OrderedMap.contains_iff] at hfree ⊢
    rwa [h.keys, hq]
  refine ⟨d.putProperty q, if_neg hfree', ?_, ?_, ?_⟩
  · unfold Php.Class.putProperty
    rw [← h.frame]
  · unfold Php.Class.putProperty
    rw [OrderedMap.keys_insert, OrderedMap.keys_insert, h.keys, hq]
  · intro n hn
    have hne : n ≠ p.name := fun heq => hn (heq ▸ hp)
    unfold Php.Class.putProperty
    rw [get?_insert, get?_insert, hq, if_neg hne, if_neg hne]
    exact h.others n hn

end AgreeOutside

/-- Whether a relation has a property does not depend on the claims, nor does its name. -/
theorem exists_relationProperty_of_claims
    (h : relationProperty entity claims r = (.ok p, claims')) (claims₂ : Claims) :
    ∃ q claims₂', relationProperty entity claims₂ r = (.ok q, claims₂') ∧ q.name = p.name := by
  obtain ⟨q, claims₂', hq⟩ :
      ∃ q claims₂', relationProperty entity claims₂ r = (.ok q, claims₂') := by
    unfold relationProperty at h ⊢
    split
    · exact ⟨_, _, rfl⟩
    · rename_i henum
      rw [if_neg henum] at h
      cases ha : Association.ofCardinalities? r.source.cardinality r.target.cardinality with
      | none => simp [ha] at h
      | some a => exact ⟨_, _, rfl⟩
  exact ⟨q, claims₂', hq, (relationProperty_eq_ok hq).1.trans (relationProperty_eq_ok h).1.symm⟩

theorem exists_addRelation_of_claims (h : addRelation config entity claims c r = (.ok c', claims'))
    (hcd : AgreeOutside names c d) (hr : r.target.name ∈ names) (claims₂ : Claims) :
    ∃ d' claims₂', addRelation config entity claims₂ d r = (.ok d', claims₂') ∧
      AgreeOutside names c' d' := by
  unfold addRelation at h
  split at h
  · simp at h
  rename_i c₁ hc₁
  rw [Prod.mk.injEq] at h
  obtain ⟨p, hp, hadd⟩ := bind_eq_ok.1 h.1
  obtain ⟨d₁, hd₁, hagree₁⟩ := hcd.addImport hc₁
  obtain ⟨q, claims₂', hq, hname⟩ := exists_relationProperty_of_claims (Prod.ext hp rfl) claims₂
  have hpname : p.name = r.target.name := (relationProperty_eq_ok (Prod.ext hp rfl)).1
  obtain ⟨d', hd', hagree⟩ := hagree₁.addProperty (hpname ▸ hr) hname hadd
  refine ⟨d', claims₂', ?_, hagree⟩
  unfold addRelation
  rw [hd₁, hq]
  exact Prod.ext hd' rfl

theorem exists_addRelations_of_claims
    (h : addRelations config entity claims c rs = (.ok c', claims')) (hcd : AgreeOutside names c d)
    (hrs : ∀ r ∈ rs, r.target.name ∈ names) (claims₂ : Claims) :
    ∃ d' claims₂', addRelations config entity claims₂ d rs = (.ok d', claims₂') ∧
      AgreeOutside names c' d' := by
  induction rs generalizing c d claims claims₂ with
  | nil =>
    rw [addRelations, Prod.mk.injEq, Except.ok.injEq] at h
    exact ⟨d, claims₂, rfl, h.1 ▸ hcd⟩
  | cons r rs ih =>
    rw [List.forall_mem_cons] at hrs
    obtain ⟨c₁, claims₁, hr, hrest⟩ := addRelations_cons_eq_ok h
    obtain ⟨d₁, claims₂₁, hd₁, hagree₁⟩ := exists_addRelation_of_claims hr hcd hrs.1 claims₂
    obtain ⟨d', claims₂', hd', hagree⟩ := ih hrest hagree₁ hrs.2 claims₂₁
    refine ⟨d', claims₂', ?_, hagree⟩
    rw [addRelations, hd₁]
    exact hd'

/-- The names of the properties that the relations of an entity have. -/
def relationNames (e : Entity) : List String := e.relations.values.map fun r => r.target.name

theorem relationNames_eq (hwf : e.WellFormed) : relationNames e = e.relations.keys :=
  OrderedMap.map_values_eq_keys hwf.relation_name

/-- Other claims make a class that differs at most in the properties of relations. -/
theorem exists_build_of_claims (h : build config claims e = (.ok c, claims')) (claims₂ : Claims) :
    ∃ d claims₂', build config claims₂ e = (.ok d, claims₂') ∧
      AgreeOutside (relationNames e) c d := by
  unfold build at h ⊢
  cases hkind : e.kind with
  | enumeration =>
    rw [hkind, Prod.mk.injEq] at h
    exact ⟨c, claims₂, Prod.ext h.1 rfl, .refl ..⟩
  | entity =>
    rw [hkind] at h
    change buildEntity config claims e = _ at h
    change ∃ d claims₂', buildEntity config claims₂ e = (.ok d, claims₂') ∧ _
    unfold buildEntity at h ⊢
    cases hbase : baseWithFields config e with
    | error err => simp [hbase] at h
    | ok c₀ =>
      rw [hbase] at h
      exact exists_addRelations_of_claims h (.refl ..)
        (fun r hr => List.mem_map.2 ⟨r, hr, rfl⟩) claims₂

/-- An entity of which all classes can be built. -/
def Buildable (config : Config) (e : Entity) : Prop :=
  (∃ c claims', build config .none e = (.ok c, claims')) ∧ ∃ cs, scaffoldsOf config e = .ok cs

theorem exists_filesOf_iff : (∃ files claims', filesOf config claims e = (.ok files, claims')) ↔
    Buildable config e := by
  constructor
  · rintro ⟨files, claims', h⟩
    obtain ⟨c, cs, hc, hcs, _⟩ := Generation.filesOf_eq_ok h
    obtain ⟨d, claims₂, hd, _⟩ := exists_build_of_claims hc .none
    exact ⟨⟨d, claims₂, hd⟩, cs, hcs⟩
  · rintro ⟨⟨c, claims', hc⟩, cs, hcs⟩
    obtain ⟨d, claims₂, hd, _⟩ := exists_build_of_claims hc claims
    refine ⟨fileOf config .regenerate d :: cs.map (fileOf config .createIfMissing), claims₂, ?_⟩
    unfold filesOf
    rw [hd, hcs]
    rfl

/-- The files of entities can be built, in any order, if all their classes can. -/
theorem exists_filesOfAll_iff : (∃ files, filesOfAll config claims es = .ok files) ↔
    ∀ e ∈ es, Buildable config e := by
  induction es generalizing claims with
  | nil => exact ⟨fun _ _ he => absurd he List.not_mem_nil, fun _ => ⟨[], rfl⟩⟩
  | cons e es ih =>
    rw [List.forall_mem_cons]
    constructor
    · rintro ⟨files, h⟩
      obtain ⟨files₀, claims₁, files₁, hfiles₀, hfiles₁, _⟩ := Generation.filesOfAll_cons_eq_ok h
      exact ⟨exists_filesOf_iff.1 ⟨files₀, claims₁, hfiles₀⟩, ih.1 ⟨files₁, hfiles₁⟩⟩
    · rintro ⟨he, hes⟩
      obtain ⟨files₀, claims₁, hfiles₀⟩ :
          ∃ files claims', filesOf config claims e = (.ok files, claims') := exists_filesOf_iff.2 he
      obtain ⟨files₁, hfiles₁⟩ : ∃ files, filesOfAll config claims₁ es = .ok files := ih.2 hes
      refine ⟨files₀ ++ files₁, ?_⟩
      rw [filesOfAll, hfiles₀]
      exact map_eq_ok.2 ⟨files₁, hfiles₁, rfl⟩

/-! ## Another order -/

namespace Reorders

theorem symm (h : Reorders config config') : Reorders config' config := by
  obtain ⟨ds, ds', hds, hds', hperm, hnodup⟩ := h.entities
  refine ⟨⟨ds', ds, hds', hds, hperm.symm, (hperm.map Prod.fst).nodup_iff.1 hnodup⟩, ?_⟩
  rw [← h.settings]

/-- Classes are built from entities, not from what declares them. -/
theorem sharesSettings (h : Reorders config config') : SharesSettings config config' :=
  sharesSettings_of_eq h.settings

theorem build_eq (h : Reorders config config') : build config' claims e = build config claims e :=
  h.sharesSettings.build_eq

theorem buildFinal_eq (h : Reorders config config') : buildFinal config' = buildFinal config :=
  funext h.sharesSettings.buildFinal_eq

theorem buildRepository_eq (h : Reorders config config') :
    buildRepository config' = buildRepository config := funext h.sharesSettings.buildRepository_eq

theorem buildable_iff (h : Reorders config config') : Buildable config' e ↔ Buildable config e := by
  unfold Buildable scaffoldsOf
  simp only [h.build_eq, h.buildFinal_eq, h.buildRepository_eq]

theorem mem_declaredNames_iff (h : Reorders config config') :
    n ∈ Schema.declaredNames config'.entities ↔ n ∈ Schema.declaredNames config.entities := by
  obtain ⟨ds, ds', hds, hds', hperm, _⟩ := h.entities
  rw [hds, hds']
  exact (Schema.declaredNames_of_perm hperm).symm

theorem isWord (h : Reorders config config')
    (hnames : ∀ n ∈ Schema.declaredNames config.entities, Text.isWord n = true) :
    ∀ n ∈ Schema.declaredNames config'.entities, Text.isWord n = true := fun n hn =>
  hnames n (h.mem_declaredNames_iff.1 hn)

/-- The order of the entities does not decide whether a configuration is accepted. -/
theorem exists_ofConfig (h : Reorders config config')
    (hnames : ∀ n ∈ Schema.declaredNames config.entities, Text.isWord n = true)
    (hg : Generation.ofConfig config = .ok g) : ∃ g', Generation.ofConfig config' = .ok g' := by
  obtain ⟨s, hrun⟩ := Generation.run_of_ofConfig hg
  obtain ⟨s₀, hs₀, hlink⟩ := hrun.linked
  obtain ⟨ds, ds', hds, hds', hperm, hnodup⟩ := h.entities
  rw [hds] at hs₀
  obtain ⟨t₀, t, ht₀, ht, hsame⟩ := Schema.exists_link_of_perm hperm hnodup hs₀ hlink
  rw [← hds'] at ht₀
  obtain ⟨files, hfiles⟩ : ∃ files, filesOfAll config' .none t.entities.values = .ok files := by
    rw [exists_filesOfAll_iff]
    intro e he
    exact h.buildable_iff.2
      (exists_filesOfAll_iff.1 ⟨_, hrun.files⟩ e (hsame.mem_values_iff.2 he))
  have hwords : Schema.NamedByWords config'.entities t := ⟨⟨t₀, ht₀, ht⟩, h.isWord hnames⟩
  obtain ⟨diagram, hdiagram⟩ := Diagram.exists_ofSchema hwords
  have hschema : schemaOf config' = .ok t := bind_eq_ok.2 ⟨t₀, ht₀, ht⟩
  exact ⟨_, Generation.ofConfig_of_parts hschema hfiles hdiagram⟩

theorem sameEntities (h : Reorders config config') (hrun : Run config g s)
    (hrun' : Run config' g' s') : SameEntities s s' := by
  obtain ⟨ds, ds', hds, hds', hperm, hnodup⟩ := h.entities
  obtain ⟨s₀, hs₀, hlink⟩ := hrun.linked
  obtain ⟨s₀', hs₀', hlink'⟩ := hrun'.linked
  rw [hds] at hs₀
  rw [hds'] at hs₀'
  exact Schema.sameEntities_of_link (Schema.sameEntities_of_perm hperm hnodup hs₀ hs₀') hlink hlink'

/-- Schemas with the same entities have the same relation lines. -/
theorem perm_relationLines (h : SameEntities s s') (hs : Schema.NamedByWords config.entities s)
    (hs' : Schema.NamedByWords config'.entities s') :
    ∃ lines lines', Diagram.relationLines s = .ok lines ∧ Diagram.relationLines s' = .ok lines' ∧
      lines.Perm lines' := by
  refine ⟨_, _, Diagram.relationLines_eq_ok (Diagram.oneValued_shown hs),
    Diagram.relationLines_eq_ok (Diagram.oneValued_shown hs'), ?_⟩
  rw [List.perm_ext_iff_of_nodup (nodup_eraseDups _) (nodup_eraseDups _)]
  intro l
  rw [List.mem_eraseDups, List.mem_eraseDups]
  unfold Diagram.declaredLines
  rw [List.mem_flatMap, List.mem_flatMap]
  exact exists_congr fun e => by rw [h.mem_values_iff]

end Reorders

/-! ## The properties of relations -/

theorem associationProperty_eq (a : Association) (side side' : Side) (r : Relation) :
    associationProperty a side' r =
      { associationProperty a side r with
        annotations := [a.written side' r.target.entity r.source.name] } := by
  rw [← associationTag_eq_written]
  unfold associationProperty
  split <;> rfl

/-- The sides of an association in two schemas are different if the schemas have its
entities in opposite order. -/
theorem sideIn_of_opposed (hsymmetric : a.isSymmetric = true)
    (h : ¬(r.target.entity ∈ s.entities.keysBefore k ↔
      r.target.entity ∈ s'.entities.keysBefore k)) :
    sideIn s' k a r = (sideIn s k a r).other := by
  rw [sideIn_of_isSymmetric hsymmetric, sideIn_of_isSymmetric hsymmetric]
  by_cases hmem : r.target.entity ∈ s.entities.keysBefore k
  · rw [if_pos hmem, if_neg fun hmem' => h ⟨fun _ => hmem', fun _ => hmem⟩]
    rfl
  · have hmem' : r.target.entity ∈ s'.entities.keysBefore k := by
      by_contra hnot
      exact h ⟨fun hm => absurd hm hmem, fun hm => absurd hm hnot⟩
    rw [if_neg hmem, if_pos hmem']
    rfl

/-- Apart from that the property of a relation is the same in both. -/
theorem propertyIn_eq (h : ∀ a, associationOf? r = some a → a.isSymmetric = true →
    (r.target.entity ∈ s.entities.keysBefore k ↔ r.target.entity ∈ s'.entities.keysBefore k)) :
    propertyIn s' k r = propertyIn s k r := by
  unfold propertyIn
  cases ha : associationOf? r with
  | none => rfl
  | some a =>
    have hbefore := h a ha
    cases a with
    | manyToOne => rfl
    | oneToMany => rfl
    | oneToOne => simp only [sideIn, hbefore rfl]
    | manyToMany => simp only [sideIn, hbefore rfl]

/-! ## The classes of an entity in two runs -/

section TwoRuns

variable (h : Reorders config config') (hrun : Run config g s) (hrun' : Run config' g' s')
  (hnames : ∀ n ∈ Schema.declaredNames config.entities, Text.isWord n = true)

include h in
theorem agreeOutside_of_build {claims₁ claims₁' : Claims}
    (hbuild : build config claims e = (.ok c, claims'))
    (hbuild' : build config' claims₁ e = (.ok c', claims₁')) :
    AgreeOutside (relationNames e) c c' := by
  obtain ⟨d, _, hd, hagree⟩ := exists_build_of_claims hbuild claims₁
  rw [h.build_eq, hd, Prod.mk.injEq, Except.ok.injEq] at hbuild'
  exact hbuild'.1 ▸ hagree

include h hrun hrun' in
/-- Whether the entities at the two ends of an association stand in opposite order can be seen
from the entity at one end. -/
theorem opposed_iff_of_run (he : s.get? e.name = some e) (hr : e.relations.get? n = some r)
    (ha : associationOf? r = some a) : Opposed s s' r.target.entity e.name ↔
      ¬(r.target.entity ∈ s.entities.keysBefore e.name ↔
        r.target.entity ∈ s'.entities.keysBefore e.name) := by
  obtain ⟨_, _, htarget, _⟩ := exists_areEnds hrun he hr (associationOf?_eq_some ha).1
  exact Schema.opposed_iff (h.sameEntities hrun hrun') (OrderedMap.mem_keys_of_get? htarget)
    (OrderedMap.mem_keys_of_get? he)

include h hrun hrun' hnames in
/-- The properties of a relation are known in both runs. -/
theorem get?_propertyIn (he : s.get? e.name = some e) (he' : s'.get? e.name = some e)
    (hc : classIn config s e = .ok c) (hc' : classIn config' s' e = .ok c')
    (hr : e.relations.get? n = some r) :
    c.properties.get? n = some (propertyIn s e.name r) ∧
      c'.properties.get? n = some (propertyIn s' e.name r) := by
  have hn : r.target.name = n := (hrun.wellFormed.entity he).relation_name hr
  obtain ⟨d, hd, hget⟩ := exists_propertyIn hrun hnames he hr
  obtain ⟨d', hd', hget'⟩ := exists_propertyIn hrun' (h.isWord hnames) he' hr
  obtain rfl : c = d := Except.ok.inj (hc.symm.trans hd)
  obtain rfl : c' = d' := Except.ok.inj (hc'.symm.trans hd')
  exact ⟨hn ▸ hget, hn ▸ hget'⟩

include h hrun hrun' hnames in
theorem exists_differInSides (he : s.get? k = some e) : ∃ c c',
    classIn config s e = .ok c ∧ classIn config' s' e = .ok c' ∧
      fileOf config .regenerate c ∈ g.files ∧ fileOf config' .regenerate c' ∈ g'.files ∧
      DifferInSides s s' e c c' := by
  have he' : s'.get? k = some e := (h.sameEntities hrun hrun' k).symm.trans he
  obtain rfl : e.name = k := hrun.wellFormed.name he
  obtain ⟨c, claims, claims', hc, hfile, hbuild, _⟩ := hrun.exists_build he
  obtain ⟨c', claims₁, claims₁', hc', hfile', hbuild', _⟩ := hrun'.exists_build he'
  have hagree := agreeOutside_of_build h hbuild hbuild'
  refine ⟨c, c', hc, hc', hfile, hfile', hagree.frame, hagree.keys, ?_, ?_⟩
  · intro n r a hr ha hkind hopposed
    obtain ⟨hget, hget'⟩ := get?_propertyIn h hrun hrun' hnames he he' hc hc' hr
    rw [opposed_iff_of_run h hrun hrun' he hr ha] at hopposed
    have hother := sideIn_of_opposed (Association.isSymmetric_iff.2 hkind) hopposed
    refine ⟨_, _, hget, hget', sideIn s e.name a r, ?_, ?_⟩
    · unfold propertyIn
      rw [ha, associationProperty_annotations, associationTag_eq_written]
    · unfold propertyIn
      rw [ha, ← hother]
      exact associationProperty_eq ..
  · intro n hall
    cases hr : e.relations.get? n with
    | none =>
      -- the property of a field, or the identifier
      apply hagree.others
      rw [relationNames_eq (hrun.wellFormed.entity he)]
      exact OrderedMap.lookup?_eq_none_iff.1 hr
    | some r =>
      obtain ⟨hget, hget'⟩ := get?_propertyIn h hrun hrun' hnames he he' hc hc' hr
      rw [hget, hget']
      apply congrArg some
      apply propertyIn_eq
      intro a ha hsymmetric
      have hnot := hall r a hr ha (Association.isSymmetric_iff.1 hsymmetric)
      rwa [opposed_iff_of_run h hrun hrun' he hr ha, not_not] at hnot

end TwoRuns

/-- The order in which a configuration declares its entities does not decide whether it is
accepted. The final class and the repository of an entity do not depend on it, and its base
class depends on it only in the words inversedBy and mappedBy, which are exchanged exactly
at the symmetric associations between entities that are declared in opposite order. The
diagrams have the same relation lines. -/
theorem order_decides_sides (h : Reorders config config')
    (hnames : ∀ n ∈ Schema.declaredNames config.entities, Text.isWord n = true) :
    ((∃ g, Generation.ofConfig config = .ok g) ↔ ∃ g', Generation.ofConfig config' = .ok g') ∧
    ∀ g g', Generation.ofConfig config = .ok g → Generation.ofConfig config' = .ok g' →
      ∃ s s', schemaOf config = .ok s ∧ schemaOf config' = .ok s' ∧
        s.entities.keys = (Schema.declaredEntities config.entities).keys ∧
        s'.entities.keys = (Schema.declaredEntities config'.entities).keys ∧ SameEntities s s' ∧
        (∀ e ∈ s.entities.values,
          buildFinal config' e = buildFinal config e ∧
          buildRepository config' e = buildRepository config e ∧
          ∃ c c', classIn config s e = .ok c ∧ classIn config' s' e = .ok c' ∧
            fileOf config .regenerate c ∈ g.files ∧ fileOf config' .regenerate c' ∈ g'.files ∧
            DifferInSides s s' e c c') ∧
        ∃ lines lines', Diagram.relationLines s = .ok lines ∧
          Diagram.relationLines s' = .ok lines' ∧ lines.Perm lines' := by
  constructor
  · constructor
    · rintro ⟨g, hg⟩
      exact h.exists_ofConfig hnames hg
    · rintro ⟨g', hg'⟩
      exact h.symm.exists_ofConfig (h.isWord hnames) hg'
  · intro g g' hg hg'
    obtain ⟨s, hrun⟩ := Generation.run_of_ofConfig hg
    obtain ⟨s', hrun'⟩ := Generation.run_of_ofConfig hg'
    have hsame : SameEntities s s' := h.sameEntities hrun hrun'
    refine ⟨s, s', hrun.schema, hrun'.schema, hrun.keys, hrun'.keys, hsame, ?_,
      Reorders.perm_relationLines hsame ⟨hrun.linked, hnames⟩ ⟨hrun'.linked, h.isWord hnames⟩⟩
    intro e he
    obtain ⟨k, hk⟩ := mem_values_iff.1 he
    exact ⟨by rw [h.buildFinal_eq], by rw [h.buildRepository_eq],
      exists_differInSides h hrun hrun' hnames hk⟩

/-- The blog with its tags declared first. -/
def tagsFirst : Config := { entities := .object [
  ("Tag", .object [("posts", .object [("relation", .string "many"), ("target", .string "Post")])]),
  ("Status", .object [("draft", .number (.integer 0)), ("public", .number (.integer 1))]),
  ("User", .object [
    ("status", .object [("relation", .string "enum"), ("target", .string "Status")]),
    ("posts", .object [("relation", .string "many"), ("target", .string "Post")])]),
  ("Post", .object [
    ("title", .object [("type", .string "string")]),
    ("author", .object [("relation", .string "one"), ("target", .string "User")]),
    ("previous", .object [("relation", .number (.integer 1)), ("target", .string "Post")]),
    ("tags", .object [("relation", .string "5"), ("target", .string "Tag")])])] }

/-- In the class of a post the side of its tags changes, and nothing else of them. -/
theorem tags_change_sides : ∃ g g' s s' post c c' p p', Reorders blogConfig tagsFirst ∧
    Generation.ofConfig blogConfig = .ok g ∧ Generation.ofConfig tagsFirst = .ok g' ∧
    schemaOf blogConfig = .ok s ∧ schemaOf tagsFirst = .ok s' ∧ post.name = "Post" ∧
    classIn blogConfig s post = .ok c ∧ classIn tagsFirst s' post = .ok c' ∧
    c.properties.get? "tags" = some p ∧ c'.properties.get? "tags" = some p' ∧
    p.annotations = ["@ORM\\ManyToMany(targetEntity=\"Tag\", inversedBy=\"posts\")"] ∧
    p' = { p with
      annotations := ["@ORM\\ManyToMany(targetEntity=\"Tag\", mappedBy=\"posts\")"] } ∧
    c'.properties.get? "author" = c.properties.get? "author" := by
  have hreorders : Reorders blogConfig tagsFirst :=
    ⟨⟨_, _, rfl, rfl, by decide, by decide⟩, rfl⟩
  obtain ⟨hiff, hruns⟩ := order_decides_sides hreorders (by decide)
  obtain ⟨g, hg⟩ := exists_ofConfig_blogConfig
  obtain ⟨g', hg'⟩ := hiff.1 ⟨g, hg⟩
  obtain ⟨s, s', hs, hs', _, _, _, hclasses, _⟩ := hruns g g' hg hg'
  obtain ⟨post, hpost, hname, hget, hlast, htags, hauthor⟩ : ∃ post ∈ s.entities.values,
      post.name = "Post" ∧ s.get? "Post" = some post ∧
      postTags.target.entity ∉ s.entities.keysBefore "Post" ∧
      post.relations.get? "tags" = some postTags ∧
      ∃ author, post.relations.get? "author" = some author ∧
        associationOf? author = some .manyToOne := by
    cases hs
    decide
  obtain ⟨_, _, c, c', hc, hc', _, _, hdiffer⟩ := hclasses post hpost
  have hopposed : Opposed s s' "Tag" "Post" := by
    unfold Opposed
    cases hs
    cases hs'
    decide
  obtain ⟨p, p', hp, hp', side, hside, hexchanged⟩ :=
    hdiffer.exchanged "tags" postTags .manyToMany htags rfl (.inr rfl) (hname ▸ hopposed)
  -- the blog declares its posts before its tags
  obtain ⟨s₁, hrun⟩ := Generation.run_of_ofConfig hg
  obtain rfl : s₁ = s := Except.ok.inj (hrun.schema.symm.trans hs)
  have hmapped := mappedIn_of_isSymmetric hrun (by decide) hget htags rfl rfl
  rw [if_neg hlast] at hmapped
  obtain ⟨c₁, hc₁, howner⟩ := annotations_of_mappedIn hmapped
  obtain rfl : c₁ = c := Except.ok.inj (hc₁.symm.trans hc)
  rw [show postTags.target.name = "tags" from rfl, hp, Option.map_some, Option.some.injEq,
    hside] at howner
  have howning : side = .owning := by
    cases side with
    | owning => rfl
    | inverse => exact absurd howner (by decide)
  subst howning
  refine ⟨g, g', s₁, s', post, c₁, c', p, p', hreorders, hg, hg', hs, hs', hname, hc, hc', hp, hp',
    hside, hexchanged, hdiffer.same "author" ?_⟩
  intro r a hr ha hkind
  obtain ⟨author, hget, hmanyToOne⟩ := hauthor
  obtain rfl : author = r := Option.some.inj (hget.symm.trans hr)
  rw [hmanyToOne, Option.some.injEq] at ha
  subst ha
  rcases hkind with hkind | hkind <;> cases hkind

end OrmGen.Mapping
