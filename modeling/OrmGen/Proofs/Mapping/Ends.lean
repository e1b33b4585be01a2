/-
  The two ends of an association. Each class is built on its own, from the linked relations
  of its entity; that the mappings of two classes fit together rests on the relations being
  pairs, and which of two symmetric ends owns the association on what was claimed before.

  Annotations are written out here word by word (`Association.written`), apart from what writes
  them (`associationTag_eq_written`): the owner says `inversedBy` and the inverse side `mappedBy`.

  `mappings_refer_to_each_other`: each end names the property at the other, with the dual
  association. `first_declared_end_owns`: of the ends of a symmetric association the one on
  the entity that is declared first owns it.
-/
import OrmGen.Proofs.Mapping.Run
import OrmGen.Proofs.Schema.Words

namespace OrmGen.Mapping

open Generation (classIn fileOf schemaOf Run)
open OrderedMap (mem_values_iff)

/-- The annotation of an association with the property `q` of the entity `target`. -/
def Association.written (a : Association) (side : Side) (target q : String) : String :=
  let word := match side with
    | .owning => "inversedBy"
    | .inverse => "mappedBy"
  match a with
  | .oneToOne =>
    "@ORM\\OneToOne(targetEntity=\"" ++ target ++ "\", " ++ word ++ "=\"" ++ q ++ "\")"
  | .manyToOne =>
    "@ORM\\ManyToOne(targetEntity=\"" ++ target ++ "\", " ++ word ++ "=\"" ++ q ++ "\")"
  | .oneToMany =>
    "@ORM\\OneToMany(targetEntity=\"" ++ target ++ "\", " ++ word ++ "=\"" ++ q ++ "\")"
  | .manyToMany =>
    "@ORM\\ManyToMany(targetEntity=\"" ++ target ++ "\", " ++ word ++ "=\"" ++ q ++ "\")"

/-- In a run over `s` the class of `e` has a property `p` whose one annotation maps it, as an
association `a`, to the property `q` of the entity `target`. -/
def MappedIn (config : Config) (s : Schema) (e : Entity) (p : String) (a : Association)
    (side : Side) (target q : String) : Prop :=
  ∃ c prop, classIn config s e = .ok c ∧ c.properties.get? p = some prop ∧
    prop.annotations = [a.written side target q]

/-- The relations `r` of `e` and `r'` of `e'` are the two ends of one relation. -/
structure AreEnds (s : Schema) (e : Entity) (r : Relation) (e' : Entity) (r' : Relation) :
    Prop where
  entity : e ∈ s.entities.values
  relation : r ∈ e.relations.values
  otherEntity : e' ∈ s.entities.values
  otherRelation : r' ∈ e'.relations.values
  target : r.target.entity = e'.name
  back : r'.target.entity = e.name
  counterpart : s.counterpart? e.name r = some r'

variable {config : Config} {g : Generation} {s : Schema} {e e' : Entity} {r r' : Relation}
  {k n : String} {a : Association}

/-! ## The association at one end -/

theorem associationOf?_eq_some (h : associationOf? r = some a) :
    r.target.cardinality ≠ .enumeration ∧ r.source.cardinality ≠ .enumeration ∧
      Association.ofCardinalities? r.source.cardinality r.target.cardinality = some a := by
  unfold associationOf? at h
  split at h
  · cases h
  · rename_i hne
    refine ⟨hne, ?_, h⟩
    intro henum
    rw [henum] at h
    cases h

/-- Seen from the other end an association is the dual one. -/
theorem associationOf?_swap (h : associationOf? r = some a) :
    associationOf? r.swap = some a.dual := by
  obtain ⟨_, hne, hof⟩ := associationOf?_eq_some h
  unfold associationOf? Relation.swap
  rw [if_neg hne, Association.ofCardinalities?_swap, hof, Option.map_some]

theorem Association.isSymmetric_dual (a : Association) : a.dual.isSymmetric = a.isSymmetric := by
  cases a <;> rfl

theorem Association.dual_eq_self (h : a.isSymmetric = true) : a.dual = a := by
  cases a with
  | oneToOne => rfl
  | manyToMany => rfl
  | manyToOne => cases h
  | oneToMany => cases h

/-- In a run that succeeds every relation has its property, made with the claims that the
entities and relations before it leave. -/
theorem exists_relationProperty (h : Run config g s) (he : s.get? k = some e)
    (hr : e.relations.get? n = some r) :
    ∃ c claims claims' p, classIn config s e = .ok c ∧
      (∀ m, m ∈ claims.names ↔ ClaimedBy (s.before k) m ∨
        ∃ q ∈ e.relations.before n, isClaimed q = true ∧ m = q.canonicalId) ∧
      relationProperty e.name claims r = (.ok p, claims') ∧
      c.properties.get? r.target.name = some p := by
  obtain ⟨c, claims, claims', hc, _, hbuild, hnames⟩ := h.exists_build he
  have hkind : e.kind = .entity := (h.wellFormed.entity he).kind_of_relation hr
  obtain ⟨c₀, hadd⟩ := build_eq_ok hkind hbuild
  obtain ⟨post, hpost⟩ := OrderedMap.values_split hr
  rw [hpost] at hadd
  obtain ⟨claims₁, claims₂, p, hnames₁, hp, hget⟩ := addRelations_split hadd
  refine ⟨c, claims₁, claims₂, p, hc, ?_, hp, hget⟩
  intro m
  rw [hnames₁, hnames]

theorem associationTag_eq_written (a : Association) (side : Side) (r : Relation) :
    associationTag a side r = a.written side r.target.entity r.source.name := by
  have hword : side.attribute = match side with
      | .owning => "inversedBy"
      | .inverse => "mappedBy" := rfl
  unfold associationTag Association.written
  rw [hword]
  cases a with
  | oneToOne =>
    rw [show "@ORM\\" ++ Association.oneToOne.name ++ "(targetEntity=\"" =
      "@ORM\\OneToOne(targetEntity=\"" by decide]
  | manyToOne =>
    rw [show "@ORM\\" ++ Association.manyToOne.name ++ "(targetEntity=\"" =
      "@ORM\\ManyToOne(targetEntity=\"" by decide]
  | oneToMany =>
    rw [show "@ORM\\" ++ Association.oneToMany.name ++ "(targetEntity=\"" =
      "@ORM\\OneToMany(targetEntity=\"" by decide]
  | manyToMany =>
    rw [show "@ORM\\" ++ Association.manyToMany.name ++ "(targetEntity=\"" =
      "@ORM\\ManyToMany(targetEntity=\"" by decide]

theorem annotations_of_mappedIn {side : Side} {p target q : String}
    (h : MappedIn config s e p a side target q) : ∃ c, classIn config s e = .ok c ∧
      (c.properties.get? p).map Php.Property.annotations = some [a.written side target q] := by
  obtain ⟨c, prop, hc, hget, hannotations⟩ := h
  exact ⟨c, hc, by rw [hget, Option.map_some, hannotations]⟩

theorem mappedIn_of_get? {c : Php.Class} {side : Side} (hc : classIn config s e = .ok c)
    (hget : c.properties.get? r.target.name = some (associationProperty a side r)) :
    MappedIn config s e r.target.name a side r.target.entity r.source.name :=
  ⟨c, _, hc, hget, by rw [associationProperty_annotations, associationTag_eq_written]⟩

/-- In a run that succeeds every association is mapped, on one side or the other. -/
theorem exists_mappedIn (h : Run config g s) (he : s.get? k = some e)
    (hr : e.relations.get? n = some r) (hne : r.target.cardinality ≠ .enumeration) :
    ∃ a claims, associationOf? r = some a ∧
      MappedIn config s e r.target.name a (a.side claims r).1 r.target.entity r.source.name := by
  obtain ⟨c, claims, _, p, hc, _, hp, hget⟩ := exists_relationProperty h he hr
  obtain ⟨_, _, hproperty⟩ := relationProperty_eq_ok hp
  obtain ⟨a, ha, rfl⟩ := hproperty hne
  exact ⟨a, claims, ha, mappedIn_of_get? hc hget⟩

theorem exists_areEnds (h : Run config g s) (he : s.get? k = some e)
    (hr : e.relations.get? n = some r) (hne : r.target.cardinality ≠ .enumeration) :
    ∃ e', AreEnds s e r e' r.swap ∧ s.get? r.target.entity = some e' ∧
      e'.relations.get? r.source.name = some r.swap ∧ s.IsPair k e' r r.swap := by
  obtain ⟨s₀, _, hlink⟩ := h.linked
  have hmem := mem_values_iff.2 ⟨n, hr⟩
  obtain ⟨e', he', hpair⟩ := Schema.exists_isPair h.wellFormed hlink he hmem hne
  obtain ⟨m, hm⟩ := mem_values_iff.1 hpair.mem
  have hname : r.source.name = m := (h.wellFormed.entity he').relation_name hm
  have hek : e.name = k := h.wellFormed.name he
  refine ⟨e', ?_, he', hname ▸ hm, hpair⟩
  refine ⟨mem_values_iff.2 ⟨k, he⟩, hmem, mem_values_iff.2 ⟨_, he'⟩, hpair.mem,
    (h.wellFormed.name he').symm, ?_, ?_⟩
  · rw [hek]
    exact hpair.source_entity
  · rw [hek]
    exact hpair.counterpart

/-- The properties at the two ends of every association of a run name each other, with dual
associations. -/
theorem mappings_refer_to_each_other (hg : Generation.ofConfig config = .ok g) :
    ∃ s, schemaOf config = .ok s ∧
      (∀ e ∈ s.entities.values, ∃ c, classIn config s e = .ok c ∧
        fileOf config .regenerate c ∈ g.files) ∧
      ∀ e ∈ s.entities.values, ∀ r ∈ e.relations.values, r.target.cardinality ≠ .enumeration →
        ∃ e' r' a side side', AreEnds s e r e' r' ∧ r'.target.cardinality ≠ .enumeration ∧
          Association.ofCardinalities? r'.target.cardinality r.target.cardinality = some a ∧
          MappedIn config s e r.target.name a side e'.name r'.target.name ∧
          MappedIn config s e' r'.target.name a.dual side' e.name r.target.name ∧
          (a = .manyToOne → side = .owning ∧ side' = .inverse) ∧
          (a = .oneToMany → side = .inverse ∧ side' = .owning) := by
  obtain ⟨s, h⟩ := Generation.run_of_ofConfig hg
  refine ⟨s, h.schema, h.classes, ?_⟩
  intro e he r hr hne
  obtain ⟨k, hk⟩ := mem_values_iff.1 he
  obtain ⟨n, hn⟩ := mem_values_iff.1 hr
  obtain ⟨e', hends, he', hr', _⟩ := exists_areEnds h hk hn hne
  obtain ⟨a, claims, ha, hmapped⟩ := exists_mappedIn h hk hn hne
  obtain ⟨_, hne', hof⟩ := associationOf?_eq_some ha
  obtain ⟨a', claims', ha', hmapped'⟩ := exists_mappedIn h he' hr' hne'
  rw [associationOf?_swap ha, Option.some.injEq] at ha'
  subst ha'
  rw [hends.target] at hmapped
  rw [hends.back] at hmapped'
  refine ⟨e', r.swap, a, _, _, hends, hne', hof, hmapped, hmapped', ?_, ?_⟩
  · rintro rfl
    exact ⟨rfl, rfl⟩
  · rintro rfl
    exact ⟨rfl, rfl⟩

/-- The default configuration of the blog. -/
def blogConfig : Config := { entities := Schema.blog }

theorem exists_ofConfig_blogConfig : ∃ g, Generation.ofConfig blogConfig = .ok g := by
  obtain ⟨g, hg, _⟩ : ∃ g, Generation.ofConfig blogConfig = .ok g ∧ True :=
    exists_ok_of_any (by decide +kernel)
  exact ⟨g, hg⟩

/-- The posts of a user are mapped by their author, and the author knows them as posts. -/
theorem blog_mappings_refer_to_each_other : ∃ g s user post c d,
    Generation.ofConfig blogConfig = .ok g ∧ schemaOf blogConfig = .ok s ∧
      user.name = "User" ∧ post.name = "Post" ∧
      classIn blogConfig s user = .ok c ∧ classIn blogConfig s post = .ok d ∧
      (c.properties.get? "posts").map Php.Property.annotations =
        some ["@ORM\\OneToMany(targetEntity=\"Post\", mappedBy=\"author\")"] ∧
      (d.properties.get? "author").map Php.Property.annotations =
        some ["@ORM\\ManyToOne(targetEntity=\"User\", inversedBy=\"posts\")"] := by
  obtain ⟨g, hg⟩ := exists_ofConfig_blogConfig
  obtain ⟨s, hs, _, hends⟩ := mappings_refer_to_each_other hg
  obtain ⟨user, huser, posts, hposts, hname, htarget, hcounterpart⟩ :
      ∃ user ∈ s.entities.values, ∃ posts ∈ user.relations.values, user.name = "User" ∧
        posts.target = ⟨"Post", "posts", .many⟩ ∧
        (s.counterpart? "User" posts).map Relation.target = some ⟨"User", "author", .one⟩ := by
    cases hs
    decide
  obtain ⟨post, author, a, side, side', hpair, _, ha, huserside, hpostside, _, hside⟩ :=
    hends user huser posts hposts (by simp [htarget])
  have hauthor : author.target = ⟨"User", "author", .one⟩ := by
    have hcounterpart' := hpair.counterpart
    rw [hname] at hcounterpart'
    rw [hcounterpart', Option.map_some, Option.some.injEq] at hcounterpart
    exact hcounterpart
  have hpost : post.name = "Post" := by
    rw [← hpair.target, htarget]
  have hkind : a = .oneToMany := by
    rw [hauthor, htarget] at ha
    exact (Option.some.inj ha).symm
  obtain ⟨rfl, rfl⟩ := hside hkind
  subst hkind
  rw [htarget, hauthor, hpost] at huserside
  rw [htarget, hauthor, hname] at hpostside
  obtain ⟨c, hc, hposts⟩ := annotations_of_mappedIn huserside
  obtain ⟨d, hd, hauthor⟩ := annotations_of_mappedIn hpostside
  exact ⟨g, s, user, post, c, d, hg, hs, hname, hpost, hc, hd, hposts, hauthor⟩

/-! ## Ownership -/

theorem isClaimed_iff :
    isClaimed r = true ↔ ∃ a, associationOf? r = some a ∧ a.isSymmetric = true := by
  unfold isClaimed
  exact Option.any_eq_true ..

theorem target_ne_of_isClaimed (h : isClaimed r = true) : r.target.cardinality ≠ .enumeration := by
  obtain ⟨a, ha, _⟩ := isClaimed_iff.1 h
  exact (associationOf?_eq_some ha).1

theorem isClaimed_swap (h : isClaimed r = true) : isClaimed r.swap = true := by
  obtain ⟨a, ha, hsymmetric⟩ := isClaimed_iff.1 h
  exact isClaimed_iff.2 ⟨a.dual, associationOf?_swap ha, by rw [a.isSymmetric_dual, hsymmetric]⟩

/-- The name of a relation has been claimed before the relation is built if and only if the
entity at its other end is declared before: nothing else has that name. -/
theorem canonicalId_claimed_iff (h : Run config g s)
    (hnames : ∀ n ∈ Schema.declaredNames config.entities, Text.isWord n = true)
    (he : s.get? k = some e) (hr : e.relations.get? n = some r) (hclaimed : isClaimed r = true) :
    (ClaimedBy (s.before k) r.canonicalId ∨
      ∃ q ∈ e.relations.before n, isClaimed q = true ∧ r.canonicalId = q.canonicalId) ↔
      r.target.entity ∈ s.entities.keysBefore k := by
  have hwords : Schema.NamedByWords config.entities s := ⟨h.linked, hnames⟩
  have hword := hwords.relation_isWord he (mem_values_iff.2 ⟨n, hr⟩)
  obtain ⟨e', _, he', hr', hpair⟩ := exists_areEnds h he hr (target_ne_of_isClaimed hclaimed)
  constructor
  · rintro (⟨e₁, he₁, _, q, hq, hqclaimed, hid⟩ | ⟨q, hq, hqclaimed, hid⟩)
    · obtain ⟨j, hj, hjget⟩ := OrderedMap.mem_before.1 he₁
      have hqsource : q.source.entity = j := hwords.source_entity hjget hq
      rcases (Relation.canonicalId_eq_iff (hword.avoids (by decide))).1 hid with rfl | rfl
      · exact absurd (hqsource.symm.trans hpair.source_entity) (OrderedMap.ne_of_mem_keysBefore hj)
      · rw [show r.target.entity = j from hqsource]
        exact hj
    · obtain ⟨m, hmn, hm⟩ := OrderedMap.mem_before.1 hq
      have hqmem := mem_values_iff.2 ⟨m, hm⟩
      have hfield : q.target.name ≠ r.target.name := by
        rw [(h.wellFormed.entity he).relation_name hm, (h.wellFormed.entity he).relation_name hr]
        exact OrderedMap.ne_of_mem_keysBefore hmn
      rcases (Relation.canonicalId_eq_iff (hword.avoids (by decide))).1 hid with rfl | rfl
      · exact absurd rfl hfield
      · -- the other end stands on the same entity, so it is the relation itself
        have hself : r.swap = r := hpair.self_iff.2 (hwords.source_entity he hqmem).symm
        rw [hself] at hfield
        exact absurd rfl hfield
  · intro hbefore
    have hkind : e'.kind = .entity := (h.wellFormed.entity he').kind_of_relation hr'
    exact .inl ⟨e', OrderedMap.mem_before.2 ⟨_, hbefore, he'⟩, hkind, r.swap, hpair.mem,
      isClaimed_swap hclaimed, r.canonicalId_swap.symm⟩

/-- The side of the association `a` that the relation `r` of the entity at `k` is in a run
over `s`. A symmetric end is the inverse side if the entity at the other end is declared
before, and the owner if not. -/
def sideIn (s : Schema) (k : String) (a : Association) (r : Relation) : Side :=
  match a with
  | .manyToOne => .owning
  | .oneToMany => .inverse
  | .oneToOne | .manyToMany =>
    if r.target.entity ∈ s.entities.keysBefore k then .inverse else .owning

theorem sideIn_of_isSymmetric (hsymmetric : a.isSymmetric = true) :
    sideIn s k a r = if r.target.entity ∈ s.entities.keysBefore k then .inverse else .owning := by
  cases a with
  | oneToOne => rfl
  | manyToMany => rfl
  | manyToOne => cases hsymmetric
  | oneToMany => cases hsymmetric

/-- A run takes that side if the name of a symmetric association has been claimed whenever the
entity at the other end is declared before. -/
theorem side_eq_sideIn {claims : Claims} (h : a.isSymmetric = true →
    (r.canonicalId ∈ claims.names ↔ r.target.entity ∈ s.entities.keysBefore k)) :
    (a.side claims r).1 = sideIn s k a r := by
  by_cases hsymmetric : a.isSymmetric = true
  · rw [side_eq_of_isSymmetric hsymmetric, sideIn_of_isSymmetric hsymmetric]
    simp only [h hsymmetric]
  · cases a with
    | manyToOne => rfl
    | oneToMany => rfl
    | oneToOne => exact absurd rfl hsymmetric
    | manyToMany => exact absurd rfl hsymmetric

/-- The property that the relation `r` of the entity at `k` has in a run over `s`. -/
def propertyIn (s : Schema) (k : String) (r : Relation) : Php.Property :=
  match associationOf? r with
  | none => enumProperty r
  | some a => associationProperty a (sideIn s k a r) r

/-- What the order of the entities decides about the property of a relation is its side. -/
theorem exists_propertyIn (h : Run config g s)
    (hnames : ∀ n ∈ Schema.declaredNames config.entities, Text.isWord n = true)
    (he : s.get? k = some e) (hr : e.relations.get? n = some r) : ∃ c, classIn config s e = .ok c ∧
      c.properties.get? r.target.name = some (propertyIn s k r) := by
  obtain ⟨c, claims, claims', p, hc, hclaims, hp, hget⟩ := exists_relationProperty h he hr
  refine ⟨c, hc, hget.trans (congrArg some ?_)⟩
  unfold propertyIn
  by_cases henum : r.target.cardinality = .enumeration
  · unfold relationProperty at hp
    rw [if_pos henum, Prod.mk.injEq, Except.ok.injEq] at hp
    unfold associationOf?
    rw [if_pos henum]
    exact hp.1.symm
  · obtain ⟨a, ha, rfl⟩ := (relationProperty_eq_ok hp).2.2 henum
    rw [ha]
    rw [side_eq_sideIn fun hsymmetric => (hclaims r.canonicalId).trans
      (canonicalId_claimed_iff h hnames he hr (isClaimed_iff.2 ⟨a, ha, hsymmetric⟩))]

theorem mappedIn_of_isSymmetric (h : Run config g s)
    (hnames : ∀ n ∈ Schema.declaredNames config.entities, Text.isWord n = true)
    (he : s.get? k = some e) (hr : e.relations.get? n = some r)
    (ha : associationOf? r = some a) (hsymmetric : a.isSymmetric = true) :
    MappedIn config s e r.target.name a
      (if r.target.entity ∈ s.entities.keysBefore k then .inverse else .owning)
      r.target.entity r.source.name := by
  obtain ⟨c, hc, hget⟩ := exists_propertyIn h hnames he hr
  unfold propertyIn at hget
  rw [ha] at hget
  rw [← sideIn_of_isSymmetric hsymmetric]
  exact mappedIn_of_get? hc hget

/-- Two ends in a run are one relation and the same relation with its endpoints exchanged. -/
theorem isPair_of_areEnds (h : Run config g s) (hends : AreEnds s e r e' r')
    (hne : r.target.cardinality ≠ .enumeration) :
    r' = r.swap ∧ s.get? e.name = some e ∧ s.get? e'.name = some e' ∧
      (∃ n, e.relations.get? n = some r) ∧ e'.relations.get? r.source.name = some r.swap ∧
      s.IsPair e.name e' r r.swap := by
  obtain ⟨k, hk⟩ := mem_values_iff.1 hends.entity
  obtain rfl : k = e.name := (h.wellFormed.name hk).symm
  obtain ⟨k', hk'⟩ := mem_values_iff.1 hends.otherEntity
  obtain rfl : k' = e'.name := (h.wellFormed.name hk').symm
  obtain ⟨n, hn⟩ := mem_values_iff.1 hends.relation
  obtain ⟨e'', _, he', hr', hpair⟩ := exists_areEnds h hk hn hne
  rw [hends.target] at he'
  obtain rfl : e'' = e' := Option.some.inj (he'.symm.trans hk')
  have hswap : r' = r.swap := Option.some.inj (hends.counterpart.symm.trans hpair.counterpart)
  exact ⟨hswap, hk, hk', ⟨n, hn⟩, hr', hpair⟩

/-- Each end of a symmetric association is the inverse side if the entity of the other end is
declared before. -/
theorem mappedIn_of_areEnds (h : Run config g s)
    (hnames : ∀ n ∈ Schema.declaredNames config.entities, Text.isWord n = true)
    (hends : AreEnds s e r e' r') (ha : associationOf? r = some a)
    (hsymmetric : a.isSymmetric = true) :
    MappedIn config s e r.target.name a
        (if e'.name ∈ s.entities.keysBefore e.name then .inverse else .owning)
        e'.name r'.target.name ∧
      MappedIn config s e' r'.target.name a
        (if e.name ∈ s.entities.keysBefore e'.name then .inverse else .owning)
        e.name r.target.name := by
  obtain ⟨rfl, he, he', ⟨n, hn⟩, hr', hpair⟩ :=
    isPair_of_areEnds h hends (associationOf?_eq_some ha).1
  have hsource : r.source.entity = e.name := hpair.source_entity
  have htarget : r.target.entity = e'.name := hends.target
  have hmapped := mappedIn_of_isSymmetric h hnames he hn ha hsymmetric
  have hmapped' : MappedIn config s e' r.source.name a
      (if r.source.entity ∈ s.entities.keysBefore e'.name then .inverse else .owning)
      r.source.entity r.target.name := by
    have hdual := mappedIn_of_isSymmetric h hnames he' hr' (associationOf?_swap ha)
      (a.isSymmetric_dual.trans hsymmetric)
    rwa [Association.dual_eq_self hsymmetric] at hdual
  rw [htarget] at hmapped
  rw [hsource] at hmapped'
  exact ⟨hmapped, hmapped'⟩

/-- Where the names of entities and fields are words, one end of every symmetric association
of a run is the owner and the other the inverse side, and the owner is the end on the entity
that is declared first. A relation of an entity to itself has one end, which is the owner. -/
theorem first_declared_end_owns (hg : Generation.ofConfig config = .ok g)
    (hnames : ∀ n ∈ Schema.declaredNames config.entities, Text.isWord n = true) :
    ∃ s, schemaOf config = .ok s ∧
      s.entities.keys = (Schema.declaredEntities config.entities).keys ∧
      (∀ e ∈ s.entities.values, ∃ c, classIn config s e = .ok c ∧
        fileOf config .regenerate c ∈ g.files) ∧
      ∀ e r e' r' a, AreEnds s e r e' r' → associationOf? r = some a →
        (a = .oneToOne ∨ a = .manyToMany) →
        (e = e' → r' = r ∧ MappedIn config s e r.target.name a .owning e.name r.target.name) ∧
        (e ≠ e' →
          e.name ∈ s.entities.keysBefore e'.name ∧
            MappedIn config s e r.target.name a .owning e'.name r'.target.name ∧
            MappedIn config s e' r'.target.name a .inverse e.name r.target.name ∨
          e'.name ∈ s.entities.keysBefore e.name ∧
            MappedIn config s e r.target.name a .inverse e'.name r'.target.name ∧
            MappedIn config s e' r'.target.name a .owning e.name r.target.name) := by
  obtain ⟨s, h⟩ := Generation.run_of_ofConfig hg
  refine ⟨s, h.schema, h.keys, h.classes, ?_⟩
  intro e r e' r' a hends ha hkind
  have hsymmetric : a.isSymmetric = true := by
    rcases hkind with rfl | rfl <;> rfl
  obtain ⟨hswap, he, he', _, _, hpair⟩ := isPair_of_areEnds h hends (associationOf?_eq_some ha).1
  obtain ⟨hmapped, hmapped'⟩ := mappedIn_of_areEnds h hnames hends ha hsymmetric
  constructor
  · rintro rfl
    have hself : r' = r := by
      rw [hswap]
      exact hpair.self_iff.2 hends.target.symm
    rw [if_neg fun hmem => OrderedMap.ne_of_mem_keysBefore hmem rfl, hself] at hmapped
    exact ⟨hself, hmapped⟩
  · intro hne
    have hnames_ne : e.name ≠ e'.name := by
      intro heq
      rw [heq] at he
      exact hne (Option.some.inj (he.symm.trans he'))
    have horder : e.name ∈ s.entities.keysBefore e'.name ↔
        e'.name ∉ s.entities.keysBefore e.name :=
      OrderedMap.mem_keysBefore_iff (OrderedMap.mem_keys_of_get? he)
        (OrderedMap.mem_keys_of_get? he') hnames_ne
    by_cases hfirst : e.name ∈ s.entities.keysBefore e'.name
    · rw [if_neg (horder.1 hfirst)] at hmapped
      rw [if_pos hfirst] at hmapped'
      exact .inl ⟨hfirst, hmapped, hmapped'⟩
    · have hlast : e'.name ∈ s.entities.keysBefore e.name :=
        not_not.1 fun hnot => hfirst (horder.2 hnot)
      rw [if_pos hlast] at hmapped
      rw [if_neg hfirst] at hmapped'
      exact .inr ⟨hlast, hmapped, hmapped'⟩

/-- The relation of a post of the blog to its tags. -/
def postTags : Relation := ⟨⟨"Post", "posts", .many⟩, ⟨"Tag", "tags", .fixed 5⟩⟩

/-- The relation of a post of the blog to the one before it. -/
def postPrevious : Relation := ⟨⟨"Post", "previous", .fixed 1⟩, ⟨"Post", "previous", .fixed 1⟩⟩

/-- A post has many tags and a tag many posts; the post is declared first and is the owner. It
also owns its relation to another post. -/
theorem blog_posts_own_tags : ∃ g s post tag c d,
    Generation.ofConfig blogConfig = .ok g ∧ schemaOf blogConfig = .ok s ∧
      post.name = "Post" ∧ tag.name = "Tag" ∧
      classIn blogConfig s post = .ok c ∧ classIn blogConfig s tag = .ok d ∧
      (c.properties.get? "tags").map Php.Property.annotations =
        some ["@ORM\\ManyToMany(targetEntity=\"Tag\", inversedBy=\"posts\")"] ∧
      (d.properties.get? "posts").map Php.Property.annotations =
        some ["@ORM\\ManyToMany(targetEntity=\"Post\", mappedBy=\"tags\")"] ∧
      (c.properties.get? "previous").map Php.Property.annotations =
        some ["@ORM\\OneToOne(targetEntity=\"Post\", inversedBy=\"previous\")"] := by
  obtain ⟨g, hg⟩ := exists_ofConfig_blogConfig
  obtain ⟨s, hs, _, _, hown⟩ := first_declared_end_owns hg (by decide)
  obtain ⟨post, hpost, tag, htag, hpostname, htagname, htags, hback, hcounterpart, hprevious,
      hself⟩ : ∃ post ∈ s.entities.values, ∃ tag ∈ s.entities.values,
        post.name = "Post" ∧ tag.name = "Tag" ∧ postTags ∈ post.relations.values ∧
        postTags.swap ∈ tag.relations.values ∧
        s.counterpart? "Post" postTags = some postTags.swap ∧
        postPrevious ∈ post.relations.values ∧
        s.counterpart? "Post" postPrevious = some postPrevious := by
    cases hs
    decide
  have hends : AreEnds s post postTags tag postTags.swap :=
    ⟨hpost, htags, htag, hback, htagname.symm, hpostname.symm, hpostname ▸ hcounterpart⟩
  have hloop : AreEnds s post postPrevious post postPrevious :=
    ⟨hpost, hprevious, hpost, hprevious, hpostname.symm, hpostname.symm, hpostname ▸ hself⟩
  have hne : post ≠ tag := by
    rintro rfl
    rw [hpostname] at htagname
    exact absurd htagname (by decide)
  have hlast : tag.name ∉ s.entities.keysBefore post.name := by
    rw [hpostname, htagname]
    cases hs
    decide
  obtain ⟨_, hpostloop⟩ := (hown _ _ _ _ .oneToOne hloop rfl (.inl rfl)).1 rfl
  rcases (hown _ _ _ _ .manyToMany hends rfl (.inr rfl)).2 hne with
    ⟨_, hpostside, htagside⟩ | ⟨hfirst, _⟩
  · rw [htagname] at hpostside
    rw [hpostname] at htagside hpostloop
    obtain ⟨c, hc, htags⟩ := annotations_of_mappedIn hpostside
    obtain ⟨d, hd, hposts⟩ := annotations_of_mappedIn htagside
    obtain ⟨c', hc', hloop⟩ := annotations_of_mappedIn hpostloop
    obtain rfl : c = c' := Except.ok.inj (hc.symm.trans hc')
    exact ⟨g, s, post, tag, c, d, hg, hs, hpostname, htagname, hc, hd, htags, hposts, hloop⟩
  · exact absurd hfirst hlast

end OrmGen.Mapping
