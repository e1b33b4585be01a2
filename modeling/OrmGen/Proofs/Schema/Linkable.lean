/-
  Which schemas can be linked, and what linking does to them. A relation can be linked if its
  target is declared and either is an enumeration that the relation refers to as one, or has
  exactly one relation pointing back (`Linkable`); otherwise it has a fault (`LinkFault`).
  Nothing else is asked of a schema: entities may have relations of any kind, pointing
  anywhere, and the source endpoints that relations have before are not looked at.

  `link_eq_ok_iff`: linking replaces the source endpoints and nothing else.
  `link_withSources`: it does not depend on the endpoints it replaces, so linking twice is
  linking once.
  `links_iff_counterparts_are_single`: both, with the exact condition and the exact error,
  and the schema as it was after the error.
-/
import OrmGen.Proofs.Schema.Pairing
import OrmGen.Proofs.Verdict

namespace OrmGen.Schema

/-- How many relations of the entity `target` point at the entity `source`. -/
def backCount (source : String) (target : Entity) : Nat :=
  target.relations.values.countP fun c => c.target.entity = source

/-- The relation `r` of the entity `source` can be linked. -/
def Linkable (s : Schema) (source : String) (r : Relation) : Prop :=
  ∃ target, s.get? r.target.entity = some target ∧
    (r.target.cardinality = .enumeration ∧ target.kind = .enumeration ∨
      backCount source target = 1)

/-- What the source endpoint of the relation `r` of the entity `source` is: the entity itself if
`r` refers to an enumeration, and otherwise the target endpoint of the one relation that
points back. -/
inductive IsSource (s : Schema) (source : String) (r : Relation) : Endpoint → Prop where
  | enumeration {target : Entity} : s.get? r.target.entity = some target →
      r.target.cardinality = .enumeration → target.kind = .enumeration →
      IsSource s source r ⟨source, "", .many⟩
  | counterpart {target : Entity} {c : Relation} : s.get? r.target.entity = some target →
      ¬(r.target.cardinality = .enumeration ∧ target.kind = .enumeration) →
      backCount source target = 1 → c ∈ target.relations.values → c.target.entity = source →
      IsSource s source r c.target

/-- Why the relation `r`, which stands at `name` in the entity `source`, cannot be linked. -/
inductive LinkFault (s : Schema) (source name : String) (r : Relation) : Error → Prop where
  | unknown : s.get? r.target.entity = none →
      LinkFault s source name r (.unknownEntity r.target.entity (source ++ "." ++ name))
  | missing {target : Entity} : s.get? r.target.entity = some target →
      ¬(r.target.cardinality = .enumeration ∧ target.kind = .enumeration) →
      backCount source target = 0 →
      LinkFault s source name r (.missingRelation source r.target.entity)
  | ambiguous {target : Entity} : s.get? r.target.entity = some target →
      ¬(r.target.cardinality = .enumeration ∧ target.kind = .enumeration) →
      2 ≤ backCount source target →
      LinkFault s source name r (.ambiguousRelation source r.target.entity)

/-- The entity at `source` with other source endpoints in its relations. -/
def entityWithSources (f : String → String → Relation → Endpoint) (source : String) (e : Entity) :
    Entity :=
  { e with relations := e.relations.map fun name r => { r with source := f source name r } }

/-- The schema with other source endpoints in its relations: the relation at `name` in the entity
at `source` has the one that `f` gives. -/
def withSources (s : Schema) (f : String → String → Relation → Endpoint) : Schema :=
  ⟨s.entities.map (entityWithSources f)⟩

variable {s t : Schema} {source name : String} {r : Relation} {p : Endpoint} {target : Entity}
  {err : Error} {f : String → String → Relation → Endpoint}

/-! ## One relation -/

theorem backCount_eq_length (source : String) (target : Entity) :
    backCount source target = (counterparts source target).length := List.countP_eq_length_filter

theorem isEnumRelation_iff : isEnumRelation r target = true ↔
    r.target.cardinality = .enumeration ∧ target.kind = .enumeration := by
  simp [isEnumRelation]

theorem isSource_iff : s.sourceEndpoint source name r = .ok p ↔ IsSource s source r p := by
  rw [sourceEndpoint_eq_ok]
  constructor
  · rintro ⟨target, htarget, ⟨henum, rfl⟩ | ⟨henum, c, honly, rfl⟩⟩
    · obtain ⟨hcardinality, hkind⟩ := isEnumRelation_iff.1 henum
      exact .enumeration htarget hcardinality hkind
    · obtain ⟨hmem, hback⟩ := mem_counterparts.1 (honly ▸ List.mem_singleton_self c)
      refine .counterpart htarget ?_ ?_ hmem hback
      · rw [← isEnumRelation_iff, henum]
        exact Bool.false_ne_true
      · rw [backCount_eq_length, honly]
        rfl
  · rintro (⟨htarget, hcardinality, hkind⟩ | ⟨htarget, henum, hcount, hmem, hback⟩)
    · exact ⟨_, htarget, .inl ⟨isEnumRelation_iff.2 ⟨hcardinality, hkind⟩, rfl⟩⟩
    · rw [backCount_eq_length, List.length_eq_one_iff] at hcount
      obtain ⟨c, honly⟩ := hcount
      rw [← isEnumRelation_iff, Bool.not_eq_true] at henum
      have hc := mem_counterparts.2 ⟨hmem, hback⟩
      rw [honly, List.mem_singleton] at hc
      exact ⟨_, htarget, .inr ⟨henum, c, honly, congrArg _ hc⟩⟩

theorem linkable_iff (htarget : s.get? r.target.entity = some target) : Linkable s source r ↔
    r.target.cardinality = .enumeration ∧ target.kind = .enumeration ∨
      backCount source target = 1 := by
  simp [Linkable, htarget]

theorem linkFault_iff (htarget : s.get? r.target.entity = some target) :
    LinkFault s source name r err ↔
      ¬(r.target.cardinality = .enumeration ∧ target.kind = .enumeration) ∧
        (backCount source target = 0 ∧ err = .missingRelation source r.target.entity ∨
          2 ≤ backCount source target ∧ err = .ambiguousRelation source r.target.entity) := by
  constructor
  · rintro (hnone | ⟨hget, henum, hcount⟩ | ⟨hget, henum, hcount⟩)
    · rw [hnone] at htarget
      cases htarget
    · obtain rfl := Option.some.inj (htarget.symm.trans hget)
      exact ⟨henum, .inl ⟨hcount, rfl⟩⟩
    · obtain rfl := Option.some.inj (htarget.symm.trans hget)
      exact ⟨henum, .inr ⟨hcount, rfl⟩⟩
  · rintro ⟨henum, ⟨hcount, rfl⟩ | ⟨hcount, rfl⟩⟩
    · exact .missing htarget henum hcount
    · exact .ambiguous htarget henum hcount

/-- What becomes of a relation depends on how many relations point back. -/
theorem sourceEndpoint_decidedBy : DecidedBy (s.sourceEndpoint source name r)
    (Linkable s source r) (LinkFault s source name r) := by
  unfold sourceEndpoint
  cases htarget : s.get? r.target.entity with
  | none =>
    refine .error (by simp [Linkable, htarget]) fun err => ⟨?_, ?_⟩
    · rintro (_ | ⟨hget, _⟩ | ⟨hget, _⟩)
      · rfl
      · simp [htarget] at hget
      · simp [htarget] at hget
    · rintro rfl
      exact .unknown htarget
  | some target =>
    suffices h : DecidedBy _ _ _ from h.congr (linkable_iff htarget) fun _ => linkFault_iff htarget
    rw [← isEnumRelation_iff, backCount_eq_length]
    by_cases henum : isEnumRelation r target = true
    · simp only [henum, if_true]
      exact .ok (.inl trivial) (by simp)
    · rcases hc : counterparts source target with _ | ⟨c, _ | ⟨d, cs⟩⟩
      · simp only [henum, hc]
        exact .error (by simp) (by simp)
      · simp only [henum, hc]
        exact .ok (.inr rfl) (by simp)
      · simp only [henum, hc]
        exact .error (by simp) (by simp)

/-! ## All relations -/

/-- All relations of an entity can be linked. -/
def EntityLinkable (s : Schema) (entry : String × Entity) : Prop :=
  ∀ relation ∈ entry.2.relations.entries, Linkable s entry.1 relation.2

/-- The fault of the first relation of an entity that cannot be linked. -/
def EntityFault (s : Schema) (entry : String × Entity) : Error → Prop :=
  FirstFault (fun relation => Linkable s entry.1 relation.2)
    (fun relation => LinkFault s entry.1 relation.1 relation.2) entry.2.relations.entries

theorem link_decidedBy (s : Schema) : DecidedBy s.link
    (∀ entry ∈ s.entities.entries, EntityLinkable s entry)
    (FirstFault (EntityLinkable s) (EntityFault s) s.entities.entries) := by
  rw [link_eq_traverse]
  apply DecidedBy.map
  apply OrderedMap.traverse_decidedBy
  intro entry _
  apply DecidedBy.map
  apply OrderedMap.traverse_decidedBy
  intro relation _
  exact sourceEndpoint_decidedBy.map _

/-! ## Source endpoints -/

theorem get?_withSources (s : Schema) (f : String → String → Relation → Endpoint) (k : String) :
    (s.withSources f).get? k = (s.get? k).map (entityWithSources f k) :=
  OrderedMap.get?_map ..

/-- The relations that point back are the same, with other source endpoints. -/
theorem counterparts_entityWithSources (source k : String) (target : Entity) :
    ∃ cs : List (String × Relation), counterparts source target = cs.map Prod.snd ∧
      counterparts source (entityWithSources f k target) =
        cs.map fun c => { c.2 with source := f k c.1 c.2 } := by
  refine ⟨target.relations.entries.filter fun c => c.2.target.entity = source, ?_, ?_⟩
  · unfold counterparts OrderedMap.values
    rw [List.filter_map]
    rfl
  · unfold counterparts entityWithSources
    rw [OrderedMap.values_map, List.filter_map]
    rfl

/-- Source endpoints are not looked at. -/
theorem sourceEndpoint_withSources (s : Schema) (f : String → String → Relation → Endpoint) :
    (s.withSources f).sourceEndpoint source name { r with source := p } =
      s.sourceEndpoint source name r := by
  unfold sourceEndpoint
  rw [get?_withSources]
  cases s.get? r.target.entity with
  | none => rfl
  | some target =>
    obtain ⟨cs, hold, hnew⟩ := counterparts_entityWithSources (f := f) source r.target.entity target
    simp only [Option.map_some, hold, hnew]
    rcases cs with _ | ⟨c, _ | ⟨d, cs⟩⟩ <;> rfl

/-- Linking does not depend on the source endpoints that it replaces. -/
theorem link_withSources (s : Schema) (f : String → String → Relation → Endpoint) :
    (s.withSources f).link = s.link := by
  have hrelation : ∀ source name r, (s.withSources f).linkRelation source name
      { r with source := f source name r } = s.linkRelation source name r := by
    intro source name r
    unfold linkRelation
    rw [sourceEndpoint_withSources]
  have hentity : ∀ source e, (s.withSources f).linkEntity source (entityWithSources f source e) =
      s.linkEntity source e := by
    intro source e
    have hrelations : (entityWithSources f source e).relations.traverse
        ((s.withSources f).linkRelation source) =
          e.relations.traverse (s.linkRelation source) := by
      unfold entityWithSources
      simp only [OrderedMap.traverse_map, hrelation]
    unfold linkEntity
    rw [hrelations]
    rfl
  have hentities : (s.withSources f).entities.traverse (s.withSources f).linkEntity =
      s.entities.traverse s.linkEntity := by
    calc (s.withSources f).entities.traverse (s.withSources f).linkEntity
        = (s.entities.map (entityWithSources f)).traverse (s.withSources f).linkEntity := rfl
      _ = s.entities.traverse s.linkEntity := by simp only [OrderedMap.traverse_map, hentity]
  rw [link_eq_traverse, link_eq_traverse, hentities]

/-- Where every relation has a source endpoint that it should have, linking puts it there. -/
theorem link_eq_ok_of_isSource (h : ∀ entry ∈ s.entities.entries,
    ∀ relation ∈ entry.2.relations.entries,
      IsSource s entry.1 relation.2 (f entry.1 relation.1 relation.2)) :
    s.link = .ok (s.withSources f) := by
  rw [link_eq_traverse]
  refine map_eq_ok.2 ⟨_, OrderedMap.traverse_eq_ok_map.2 ?_, rfl⟩
  intro entry hentry
  refine map_eq_ok.2 ⟨_, OrderedMap.traverse_eq_ok_map.2 ?_, rfl⟩
  intro relation hrelation
  exact map_eq_ok.2 ⟨_, isSource_iff.2 (h entry hentry relation hrelation), rfl⟩

/-- The source endpoint that a relation should have, if there is one. -/
def sourceOr (s : Schema) (source name : String) (r : Relation) : Endpoint :=
  (s.sourceEndpoint source name r).toOption.getD r.source

theorem isSource_sourceOr (h : Linkable s source r) :
    IsSource s source r (s.sourceOr source name r) := by
  obtain ⟨p, hp⟩ : ∃ p, s.sourceEndpoint source name r = .ok p :=
    sourceEndpoint_decidedBy.ok_iff.2 h
  unfold sourceOr
  rw [hp]
  exact isSource_iff.1 hp

/-- Linking gives every relation the source endpoint that it should have, and does nothing
else. -/
theorem link_eq_ok_iff : s.link = .ok t ↔ ∃ f, t = s.withSources f ∧
    ∀ entry ∈ s.entities.entries, ∀ relation ∈ entry.2.relations.entries,
      IsSource s entry.1 relation.2 (f entry.1 relation.1 relation.2) := by
  constructor
  · intro h
    have hall := (link_decidedBy s).ok_iff.1 ⟨t, h⟩
    have hsources : ∀ entry ∈ s.entities.entries, ∀ relation ∈ entry.2.relations.entries,
        IsSource s entry.1 relation.2 (s.sourceOr entry.1 relation.1 relation.2) :=
      fun entry hentry relation hrelation =>
        isSource_sourceOr (hall entry hentry relation hrelation)
    rw [link_eq_ok_of_isSource hsources, Except.ok.injEq] at h
    exact ⟨s.sourceOr, h.symm, hsources⟩
  · rintro ⟨f, rfl, hsources⟩
    exact link_eq_ok_of_isSource hsources

/-- A schema can be linked if and only if the target of each of its relations is declared, and
is an enumeration that the relation refers to as one or has exactly one relation pointing
back. The linked schema has other source endpoints and is otherwise the same, it does not
depend on the endpoints that were there before, and linking it again changes nothing. A
schema that cannot be linked is refused for the first relation in the order of declaration
that has a fault, with that fault, and is left as it was: also the relations before that one
keep the source endpoints they had. -/
theorem links_iff_counterparts_are_single (s : Schema) :
    ((∃ t, s.linking = (.ok (), t)) ↔ ∀ entry ∈ s.entities.entries,
      ∀ relation ∈ entry.2.relations.entries, Linkable s entry.1 relation.2) ∧
    (∀ t, s.linking = (.ok (), t) → t.linking = (.ok (), t) ∧ ∃ f, t = s.withSources f ∧
      ∀ entry ∈ s.entities.entries, ∀ relation ∈ entry.2.relations.entries,
        IsSource s entry.1 relation.2 (f entry.1 relation.1 relation.2)) ∧
    (∀ f, (s.withSources f).linking.1 = s.linking.1 ∧
      ∀ t, (s.withSources f).linking = (.ok (), t) ↔ s.linking = (.ok (), t)) ∧
    ∀ err t, s.linking = (.error err, t) ↔
      FirstFault (EntityLinkable s) (EntityFault s) s.entities.entries err ∧ t = s := by
  refine ⟨?_, ?_, ?_, ?_⟩
  · simp only [linking_eq_ok]
    exact (link_decidedBy s).ok_iff
  · intro t ht
    rw [linking_eq_ok] at ht ⊢
    obtain ⟨f, rfl, hsources⟩ := link_eq_ok_iff.1 ht
    refine ⟨?_, f, rfl, hsources⟩
    rw [link_withSources]
    exact ht
  · intro f
    refine ⟨?_, fun t => by rw [linking_eq_ok, linking_eq_ok, link_withSources]⟩
    rw [linking_eq, linking_eq, link_withSources]
    cases s.link <;> rfl
  · intro err t
    rw [linking_eq_error, (link_decidedBy s).error_iff]

/-- A schema put together by hand: users have a friend and a status, and the source endpoints
mean nothing. -/
def friends : Schema :=
  Schema.empty.addEntity (.bare "Status" .enumeration) |>.addEntity
    ((Entity.bare "User" .entity).addRelation ⟨⟨"Nobody", "x", .fixed 7⟩, ⟨"User", "friend", .one⟩⟩
      |>.addRelation ⟨⟨"", "", .enumeration⟩, ⟨"Status", "status", .enumeration⟩⟩)

/-- The same with posts, whose author is not declared. -/
def friendsAndPosts : Schema :=
  friends.addEntity ((Entity.bare "Post" .entity).addRelation
    ⟨⟨"", "", .one⟩, ⟨"Ghost", "author", .one⟩⟩)

/-- Linking gives both relations of a user their sources, and changes neither where the relation
of a post behind them cannot be linked. -/
theorem friends_are_linked :
    (∃ t, friends.linking = (.ok (), t) ∧ t.linking = (.ok (), t) ∧
      (∃ f, t = friends.withSources f) ∧
      (t.get? "User").map (fun e => e.relations.values.map Relation.source) =
        some [⟨"User", "friend", .one⟩, ⟨"User", "", .many⟩]) ∧
    friendsAndPosts.linking = (.error (.unknownEntity "Ghost" "Post.author"), friendsAndPosts) ∧
    (friendsAndPosts.get? "User").map (fun e => e.relations.values.map Relation.source) =
      some [⟨"Nobody", "x", .fixed 7⟩, ⟨"", "", .enumeration⟩] := by
  refine ⟨?_, ?_, by decide⟩
  · obtain ⟨t, ht⟩ : ∃ t, friends.linking = (.ok (), t) := ⟨_, rfl⟩
    obtain ⟨_, hlinked, _⟩ := links_iff_counterparts_are_single friends
    obtain ⟨htwice, f, hsources, _⟩ := hlinked t ht
    refine ⟨t, ht, htwice, ⟨f, hsources⟩, ?_⟩
    cases ht
    decide
  · obtain ⟨t, ht⟩ : ∃ t, friendsAndPosts.linking =
        (.error (.unknownEntity "Ghost" "Post.author"), t) := ⟨_, rfl⟩
    obtain ⟨_, _, _, hrefused⟩ := links_iff_counterparts_are_single friendsAndPosts
    rw [ht, ((hrefused _ t).1 ht).2]

end OrmGen.Schema
