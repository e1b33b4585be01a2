/-
  Linked relations come in pairs. Linking looks at each relation alone: it takes over the
  one relation of the target that points back. That the result is symmetric follows from
  the check being made from both ends.

  `sourceEndpoint_of_link`: linking a linked schema would change nothing.
  `counterparts_of_link`: in a linked schema the relations of the target that point back are
  the relation itself, with its endpoints exchanged.
  `linked_relations_pair_up`: both of these from both ends, for every value that declares a
  schema that can be linked.
-/
import OrmGen.Proofs.Schema.Phases
import OrmGen.Proofs.Schema.WellFormed

namespace OrmGen.Schema

open OrderedMap (mem_values_iff get?_of_traverse get?_traverse forall₂_of_traverse)

/-- The one relation of the target that points back at the entity `source` of `r`. -/
def counterpart? (s : Schema) (source : String) (r : Relation) : Option Relation :=
  match (s.get? r.target.entity).map (counterparts source) with
  | some [c] => some c
  | _ => none

/-- `c` is the relation `r` of the entity `source` with its endpoints exchanged. It stands on
the entity `target`, where no other relation points back at `source`. -/
structure IsPair (t : Schema) (source : String) (target : Entity) (r c : Relation) : Prop where
  only : counterparts source target = [c]
  source_eq : c.source = r.target
  target_eq : c.target = r.source
  canonicalId_eq : c.canonicalId = r.canonicalId
  counterpart : t.counterpart? source r = some c
  back : t.counterpart? r.target.entity c = some r
  self_iff : c = r ↔ source = r.target.entity

variable {s t : Schema} {source name k : String} {e e₀ target : Entity} {r r₀ : Relation}

/-! ## What linking does to a relation and to an entity -/

theorem sourceEndpoint_eq_ok {p : Endpoint} : s.sourceEndpoint source name r = .ok p ↔
    ∃ target, s.get? r.target.entity = some target ∧
      (isEnumRelation r target = true ∧ p = ⟨source, "", .many⟩ ∨
        isEnumRelation r target = false ∧ ∃ c, counterparts source target = [c] ∧ p = c.target) := by
  unfold sourceEndpoint
  cases htarget : s.get? r.target.entity with
  | none => simp
  | some target =>
    by_cases henum : isEnumRelation r target = true
    · simp [henum, @eq_comm _ p]
    · rcases hc : counterparts source target with _ | ⟨c, _ | ⟨d, cs⟩⟩ <;>
        simp [henum, hc, @eq_comm _ p]

theorem linkRelation_eq_ok (h : s.linkRelation source name r₀ = .ok r) :
    r.target = r₀.target ∧ s.sourceEndpoint source name r₀ = .ok r.source := by
  obtain ⟨p, hp, rfl⟩ := map_eq_ok.1 h
  exact ⟨rfl, hp⟩

theorem linkEntity_eq_ok (h : s.linkEntity source e₀ = .ok e) :
    e.name = e₀.name ∧ e.kind = e₀.kind ∧ e.fields = e₀.fields ∧
      e₀.relations.traverse (s.linkRelation source) = .ok e.relations := by
  obtain ⟨rs, hrs, rfl⟩ := map_eq_ok.1 h
  exact ⟨rfl, rfl, rfl, hrs⟩

theorem traverse_of_link (h : s.link = .ok t) : s.entities.traverse s.linkEntity = .ok t.entities := by
  rw [link_eq_traverse] at h
  obtain ⟨es, hes, rfl⟩ := map_eq_ok.1 h
  exact hes

theorem get?_of_link (h : s.link = .ok t) (he : t.get? k = some e) :
    ∃ e₀, s.get? k = some e₀ ∧ s.linkEntity k e₀ = .ok e :=
  get?_of_traverse (traverse_of_link h) he

theorem get?_link (h : s.link = .ok t) (he : s.get? k = some e₀) :
    ∃ e, t.get? k = some e ∧ s.linkEntity k e₀ = .ok e :=
  get?_traverse (traverse_of_link h) he

/-- A linked relation stands where the relation stood that it was linked from. -/
theorem get?_of_linkEntity (h : s.linkEntity source e₀ = .ok e) (hr : e.relations.get? k = some r) :
    ∃ r₀, e₀.relations.get? k = some r₀ ∧ s.linkRelation source k r₀ = .ok r :=
  get?_of_traverse (linkEntity_eq_ok h).2.2.2 hr

theorem wellFormed_of_link (hs : s.WellFormed) (h : s.link = .ok t) : t.WellFormed := by
  constructor
  · intro k e he
    obtain ⟨e₀, he₀, hlink⟩ := get?_of_link h he
    rw [(linkEntity_eq_ok hlink).1]
    exact hs.name he₀
  · intro k e he
    obtain ⟨e₀, he₀, hlink⟩ := get?_of_link h he
    obtain ⟨_, hkind, hfields, _⟩ := linkEntity_eq_ok hlink
    have hwf := hs.entity he₀
    constructor
    · intro n f hf
      rw [hfields] at hf
      exact hwf.field_name hf
    · intro n r hr
      obtain ⟨r₀, hr₀, hrel⟩ := get?_of_linkEntity hlink hr
      rw [(linkRelation_eq_ok hrel).1]
      exact hwf.relation_name hr₀
    · intro n r hr
      obtain ⟨r₀, hr₀, _⟩ := get?_of_linkEntity hlink hr
      rw [hkind]
      exact hwf.kind_of_relation hr₀

/-! ## Counterparts -/

theorem mem_counterparts : r ∈ counterparts source target ↔
    r ∈ target.relations.values ∧ r.target.entity = source := by
  simp [counterparts]

/-- Linking keeps targets, so it keeps which relations point at an entity. -/
theorem forall₂_counterparts (h : s.linkEntity k e₀ = .ok e) :
    List.Forall₂ (fun r₀ r => ∃ n, s.linkRelation k n r₀ = .ok r)
      (counterparts source e₀) (counterparts source e) := by
  refine List.rel_filter ?_ (forall₂_of_traverse (linkEntity_eq_ok h).2.2.2)
  rintro r₀ r ⟨n, hr⟩
  simp [(linkRelation_eq_ok hr).1]

theorem isEnumRelation_eq_false (ht : t.WellFormed) (he : t.get? k = some e)
    (hr : r ∈ e.relations.values) (c : Relation) : isEnumRelation c e = false := by
  obtain ⟨n, hn⟩ := mem_values_iff.1 hr
  simp [isEnumRelation, (ht.entity he).kind_of_relation hn]

/-- A linked relation has the source endpoint that linking the linked schema would give it. -/
theorem sourceEndpoint_of_link (h : s.link = .ok t) (he : t.get? source = some e)
    (hr : e.relations.get? name = some r) : t.sourceEndpoint source name r = .ok r.source := by
  obtain ⟨e₀, he₀, hlink⟩ := get?_of_link h he
  obtain ⟨r₀, hr₀, hrel⟩ := get?_of_linkEntity hlink hr
  obtain ⟨htgt, hsrc⟩ := linkRelation_eq_ok hrel
  obtain ⟨target₀, htarget₀, hcase⟩ := sourceEndpoint_eq_ok.1 hsrc
  obtain ⟨target, htarget, htlink⟩ := get?_link h htarget₀
  have henum : isEnumRelation r target = isEnumRelation r₀ target₀ := by
    unfold isEnumRelation
    rw [htgt, (linkEntity_eq_ok htlink).2.1]
  refine sourceEndpoint_eq_ok.2 ⟨target, by rw [htgt]; exact htarget, ?_⟩
  rw [henum]
  rcases hcase with hcase | ⟨hfalse, c₀, hc₀, hp⟩
  · exact .inl hcase
  · have hforall : List.Forall₂ _ (counterparts source target₀) (counterparts source target) :=
      forall₂_counterparts htlink
    rw [hc₀, List.forall₂_cons_left_iff] at hforall
    obtain ⟨c, cs, ⟨m, hcrel⟩, hnil, hcs⟩ := hforall
    rw [List.forall₂_nil_left_iff.1 hnil] at hcs
    exact .inr ⟨hfalse, c, hcs, by rw [hp, (linkRelation_eq_ok hcrel).1]⟩

/-- In a linked schema a relation that does not refer to an enumeration is answered by one
relation of its target: itself, seen from the other end. -/
theorem counterparts_of_link (ht : t.WellFormed) (h : s.link = .ok t)
    (he : t.get? source = some e) (hr : r ∈ e.relations.values)
    (htarget : t.get? r.target.entity = some target) (henum : isEnumRelation r target = false) :
    counterparts source target = [r.swap] := by
  obtain ⟨n, hn⟩ := mem_values_iff.1 hr
  obtain ⟨target', htarget', hcase⟩ := sourceEndpoint_eq_ok.1 (sourceEndpoint_of_link h he hn)
  obtain rfl : target = target' := Option.some.inj (htarget.symm.trans htarget')
  rw [henum] at hcase
  obtain ⟨c, hc, hsource⟩ := (hcase.resolve_left fun hf => Bool.noConfusion hf.1).2
  obtain ⟨hcmem, hback⟩ := mem_counterparts.1 (hc ▸ List.mem_singleton_self c)
  -- the counterpart was linked in the same way, and what it found is `r`
  obtain ⟨m, hm⟩ := mem_values_iff.1 hcmem
  obtain ⟨e', he', hcase'⟩ := sourceEndpoint_eq_ok.1 (sourceEndpoint_of_link h htarget hm)
  rw [hback] at he'
  obtain rfl : e = e' := Option.some.inj (he.symm.trans he')
  rw [isEnumRelation_eq_false ht he hr] at hcase'
  obtain ⟨d, hd, hcsource⟩ := (hcase'.resolve_left fun hf => Bool.noConfusion hf.1).2
  have hrd : r ∈ counterparts r.target.entity e := mem_counterparts.2 ⟨hr, rfl⟩
  rw [hd, List.mem_singleton] at hrd
  subst hrd
  rw [hc, List.cons.injEq]
  refine ⟨?_, rfl⟩
  cases c
  rw [Relation.swap, Relation.mk.injEq]
  exact ⟨hcsource, hsource.symm⟩

theorem counterpart?_eq_some (htarget : t.get? r.target.entity = some target) {c : Relation}
    (hc : counterparts source target = [c]) : t.counterpart? source r = some c := by
  unfold counterpart?
  rw [htarget, Option.map_some, hc]

theorem isPair_of_link (ht : t.WellFormed) (h : s.link = .ok t)
    (he : t.get? source = some e) (hr : r ∈ e.relations.values)
    (htarget : t.get? r.target.entity = some target) (henum : isEnumRelation r target = false) :
    t.IsPair source target r r.swap := by
  have honly := counterparts_of_link ht h he hr htarget henum
  obtain ⟨hmem, hback⟩ := mem_counterparts.1 (honly ▸ List.mem_singleton_self r.swap)
  have heback : t.get? r.swap.target.entity = some e := by rw [hback, he]
  have hanswer : counterparts r.target.entity e = [r] :=
    counterparts_of_link ht h htarget hmem heback (isEnumRelation_eq_false ht he hr _)
  refine ⟨honly, rfl, rfl, r.canonicalId_swap, counterpart?_eq_some htarget honly,
    counterpart?_eq_some heback hanswer, ?_⟩
  constructor
  · intro hself
    rw [← hback, hself]
  · intro hself
    rw [← hself, he, Option.some.injEq] at htarget
    rw [← htarget, hself, hanswer, List.cons.injEq] at honly
    exact honly.1.symm

/-- A relation of a linked schema that is no enum relation has an other end. -/
theorem exists_isPair (ht : t.WellFormed) (h : s.link = .ok t) (he : t.get? source = some e)
    (hr : r ∈ e.relations.values) (hne : r.target.cardinality ≠ .enumeration) :
    ∃ target, t.get? r.target.entity = some target ∧ t.IsPair source target r r.swap := by
  obtain ⟨n, hn⟩ := mem_values_iff.1 hr
  obtain ⟨target, htarget, _⟩ := sourceEndpoint_eq_ok.1 (sourceEndpoint_of_link h he hn)
  exact ⟨target, htarget, isPair_of_link ht h he hr htarget (by simp [isEnumRelation, hne])⟩

theorem IsPair.mem {c : Relation} (h : t.IsPair source target r c) : c ∈ target.relations.values :=
  (mem_counterparts.1 (h.only ▸ List.mem_singleton_self c)).1

theorem IsPair.source_entity {c : Relation} (h : t.IsPair source target r c) :
    r.source.entity = source := by
  rw [← h.target_eq]
  exact (mem_counterparts.1 (h.only ▸ List.mem_singleton_self c)).2

/-- The relations of a schema that could be linked pair up. A relation of enum cardinality to
an enumeration has the source it is given; any other has one relation of its target pointing
back, and that is the relation itself with its endpoints exchanged. -/
theorem linked_relations_pair_up {v : Json} (hs : ofDeclarations v = .ok s)
    (ht : s.link = .ok t) (he : t.get? source = some e) (hr : r ∈ e.relations.values) :
    ∃ target, t.get? r.target.entity = some target ∧
      (r.target.cardinality = .enumeration ∧ target.kind = .enumeration →
        r.source = ⟨source, "", .many⟩) ∧
      (¬ (r.target.cardinality = .enumeration ∧ target.kind = .enumeration) →
        ∃ c, t.IsPair source target r c) := by
  have hwf : t.WellFormed := wellFormed_of_link (wellFormed_of_ofDeclarations hs) ht
  obtain ⟨n, hn⟩ := mem_values_iff.1 hr
  obtain ⟨target, htarget, hcase⟩ := sourceEndpoint_eq_ok.1 (sourceEndpoint_of_link ht he hn)
  refine ⟨target, htarget, ?_, ?_⟩
  · rintro ⟨hcardinality, hkind⟩
    rcases hcase with ⟨_, hsource⟩ | ⟨henum, _⟩
    · exact hsource
    · simp [isEnumRelation, hcardinality, hkind] at henum
  · intro hnot
    have henum : isEnumRelation r target = false := by
      simpa [isEnumRelation] using hnot
    exact ⟨r.swap, isPair_of_link hwf ht he hr htarget henum⟩

/-- A blog whose posts have an author, a previous post and tags, and whose users have a
status. -/
def blog : Json := .object [
  ("Status", .object [("draft", .number (.integer 0)), ("public", .number (.integer 1))]),
  ("User", .object [
    ("status", .object [("relation", .string "enum"), ("target", .string "Status")]),
    ("posts", .object [("relation", .string "many"), ("target", .string "Post")])]),
  ("Post", .object [
    ("title", .object [("type", .string "string")]),
    ("author", .object [("relation", .string "one"), ("target", .string "User")]),
    ("previous", .object [("relation", .number (.integer 1)), ("target", .string "Post")]),
    ("tags", .object [("relation", .string "5"), ("target", .string "Tag")])]),
  ("Tag", .object [("posts", .object [("relation", .string "many"), ("target", .string "Post")])])]

/-- The posts of a user and the author of a post are one relation seen from two ends. -/
theorem blog_posts_pair_up : ∃ s t user post,
    ofDeclarations blog = .ok s ∧ s.link = .ok t ∧ t.get? "User" = some user ∧
      t.get? "Post" = some post ∧
      ∃ r ∈ user.relations.values, r.target = ⟨"Post", "posts", .many⟩ ∧
        ∃ c, t.IsPair "User" post r c := by
  obtain ⟨s, hs⟩ : ∃ s, ofDeclarations blog = .ok s := ⟨_, rfl⟩
  obtain ⟨t, ht⟩ : ∃ t, s.link = .ok t := by cases hs; exact ⟨_, rfl⟩
  obtain ⟨user, huser⟩ : ∃ user, t.get? "User" = some user := by
    cases hs; cases ht; exact ⟨_, rfl⟩
  obtain ⟨r, hr, hposts⟩ : ∃ r ∈ user.relations.values, r.target = ⟨"Post", "posts", .many⟩ := by
    cases hs; cases ht; cases huser; decide
  obtain ⟨post, hpost, _, hpair⟩ := linked_relations_pair_up hs ht huser hr
  rw [hposts] at hpost hpair
  exact ⟨s, t, user, post, hs, ht, huser, hpost, r, hr, hposts, hpair (by simp)⟩

end OrmGen.Schema
