/-
  Schemas as they look without what does not matter. A `View` replaces fields and ends of
  relations one by one, and leaves their names and whether an end is that of an enumeration.
  Linking looks at nothing else, so it commutes with a view (`Schema.link_seen`), errors
  included. Values whose members are read alike in a view declare schemas that are alike in it
  (`Schema.agree_ofDeclarations`).
-/
import OrmGen.Proofs.Agreement
import OrmGen.Proofs.Schema.Phases
import OrmGen.Proofs.Schema.WellFormed

namespace OrmGen

/-- A way to look at fields and at ends of relations. -/
structure View where
  field : Field → Field
  endpoint : Endpoint → Endpoint
  field_name : ∀ f, (field f).name = f.name
  entity : ∀ p, (endpoint p).entity = p.entity
  name : ∀ p, (endpoint p).name = p.name
  enumeration : ∀ p, (endpoint p).cardinality = .enumeration ↔ p.cardinality = .enumeration
  unnamed : ∀ n, endpoint ⟨n, "", .many⟩ = ⟨n, "", .many⟩

variable {w : View}

def Relation.seen (w : View) (r : Relation) : Relation :=
  ⟨w.endpoint r.source, w.endpoint r.target⟩

def Entity.seen (w : View) (e : Entity) : Entity :=
  { e with
    fields := e.fields.map fun _ => w.field
    relations := e.relations.map fun _ => Relation.seen w }

def Schema.seen (w : View) (s : Schema) : Schema := ⟨s.entities.map fun _ => Entity.seen w⟩

theorem Entity.fields_seen (e : Entity) :
    (e.seen w).fields.values = e.fields.values.map w.field := by
  unfold seen OrderedMap.values
  rw [OrderedMap.entries_map, List.map_map, List.map_map]
  rfl

theorem Entity.relations_seen (e : Entity) :
    (e.seen w).relations.values = e.relations.values.map (Relation.seen w) := by
  unfold seen OrderedMap.values
  rw [OrderedMap.entries_map, List.map_map, List.map_map]
  rfl

theorem Schema.entities_seen (s : Schema) :
    (s.seen w).entities.values = s.entities.values.map (Entity.seen w) := by
  unfold seen OrderedMap.values
  rw [OrderedMap.entries_map, List.map_map, List.map_map]
  rfl

namespace Schema

variable {s : Schema} {source name : String} {e : Entity} {r : Relation}

/-! ## Linking -/

theorem isEnumRelation_seen (r : Relation) (target : Entity) :
    isEnumRelation (r.seen w) (target.seen w) = isEnumRelation r target := by
  rw [Bool.eq_iff_iff]
  simp only [isEnumRelation, Bool.and_eq_true, decide_eq_true_eq]
  exact and_congr_left' (w.enumeration r.target)

theorem counterparts_seen (source : String) (target : Entity) :
    counterparts source (target.seen w) = (counterparts source target).map (Relation.seen w) := by
  unfold counterparts
  rw [Entity.relations_seen, List.filter_map]
  simp only [Function.comp_def, Relation.seen, w.entity]

theorem sourceEndpoint_seen : (s.seen w).sourceEndpoint source name (r.seen w) =
    (s.sourceEndpoint source name r).map w.endpoint := by
  have hentity : (r.seen w).target.entity = r.target.entity := w.entity r.target
  have hget : (s.seen w).get? r.target.entity = (s.get? r.target.entity).map (Entity.seen w) :=
    OrderedMap.get?_map ..
  unfold sourceEndpoint
  rw [hentity, hget]
  cases s.get? r.target.entity with
  | none => rfl
  | some target =>
    simp only [Option.map_some, isEnumRelation_seen, counterparts_seen]
    split
    · rw [Except.map, w.unnamed]
    · rcases counterparts source target with _ | ⟨c, _ | ⟨d, cs⟩⟩ <;> rfl

theorem linkRelation_seen : (s.seen w).linkRelation source name (r.seen w) =
    (s.linkRelation source name r).map (Relation.seen w) := by
  unfold linkRelation
  rw [sourceEndpoint_seen]
  cases s.sourceEndpoint source name r <;> rfl

theorem linkEntity_seen : (s.seen w).linkEntity source (e.seen w) =
    (s.linkEntity source e).map (Entity.seen w) := by
  have htraverse : (e.seen w).relations.traverse ((s.seen w).linkRelation source) =
      (e.relations.traverse (s.linkRelation source)).map
        fun rs => rs.map fun _ => Relation.seen w := by
    unfold Entity.seen
    simp only [OrderedMap.map_traverse, OrderedMap.traverse_map, linkRelation_seen]
  unfold linkEntity
  rw [htraverse]
  cases e.relations.traverse (s.linkRelation source) <;> rfl

/-- Linking a schema as it looks is looking at the linked schema. -/
theorem link_seen (w : View) (s : Schema) : (s.seen w).link = s.link.map (Schema.seen w) := by
  have htraverse : (s.seen w).entities.traverse (s.seen w).linkEntity =
      (s.entities.traverse s.linkEntity).map fun es => es.map fun _ => Entity.seen w := by
    calc (s.seen w).entities.traverse (s.seen w).linkEntity
        = (s.entities.map fun _ => Entity.seen w).traverse (s.seen w).linkEntity := rfl
      _ = (s.entities.traverse s.linkEntity).map fun es => es.map fun _ => Entity.seen w := by
        simp only [OrderedMap.map_traverse, OrderedMap.traverse_map, linkEntity_seen]
  rw [link_eq_traverse, link_eq_traverse, htraverse]
  cases s.entities.traverse s.linkEntity <;> rfl

/-! ## Values that differ in their members -/

/-- The values are the same, or objects with the same keys in the same order and related values
at them. -/
inductive MembersRelated (R : String → Json → Json → Prop) : Json → Json → Prop where
  | same (v : Json) : MembersRelated R v v
  | object {ds ds' : List (String × Json)} :
      List.Forall₂ (fun d d' => d'.1 = d.1 ∧ R d.1 d.2 d'.2) ds ds' →
      MembersRelated R (.object ds) (.object ds')

section Related

variable {v v' : Json} {ds ds' : List (String × Json)} {R : String → Json → Json → Prop}

theorem member?_of_forall₂
    (h : List.Forall₂ (fun d d' => d'.1 = d.1 ∧ R d.1 d.2 d'.2) ds ds') (k : String) :
    Json.member? k ds = none ∧ Json.member? k ds' = none ∨
      ∃ v v', Json.member? k ds = some v ∧ Json.member? k ds' = some v' ∧ R k v v' := by
  induction h with
  | nil => exact .inl ⟨rfl, rfl⟩
  | @cons d d' ds ds' hd _ ih =>
    obtain ⟨j, v⟩ := d
    obtain ⟨j', v'⟩ := d'
    obtain ⟨rfl, hR⟩ := hd
    by_cases hj : j' = k
    · subst hj
      exact .inr ⟨v, v', by simp [Json.member?, OrderedMap.lookup?],
        by simp [Json.member?, OrderedMap.lookup?], hR⟩
    · simpa [Json.member?, OrderedMap.lookup?, hj] using ih

theorem isStructured_of_related (h : MembersRelated R v v') : isStructured v' = isStructured v := by
  cases h <;> rfl

theorem any_isStructured (h : List.Forall₂
    (fun d d' => d'.1 = d.1 ∧ MembersRelated R d.2 d'.2) ds ds') :
    (ds'.any fun d => isStructured d.2) = ds.any fun d => isStructured d.2 := by
  induction h with
  | nil => rfl
  | cons hd _ ih => rw [List.any_cons, List.any_cons, ih, isStructured_of_related hd.2]

end Related

/-! ## Reading -/

def Member.seen (w : View) : Member → Member
  | .field f => .field (w.field f)
  | .relation r => .relation (r.seen w)

theorem seen_ofMembers (name : String) (kind : EntityKind) (ms : List Member) :
    (ofMembers name kind ms).seen w = ofMembers name kind (ms.map (Member.seen w)) := by
  unfold ofMembers Entity.seen
  simp only [OrderedMap.ofList_map, List.filterMap_map, List.map_filterMap]
  congr 2
  · apply List.filterMap_congr
    rintro (f | r) _
    · simp [Member.seen, w.field_name]
    · rfl
  · apply List.filterMap_congr
    rintro (f | r) _
    · rfl
    · simp [Member.seen, Relation.seen, w.name]

theorem seen_foldl_addEntity (es : List Entity) (s : Schema) :
    (es.foldl addEntity s).seen w = (es.map (Entity.seen w)).foldl addEntity (s.seen w) := by
  induction es generalizing s with
  | nil => rfl
  | cons e es ih =>
    have hadd : (s.addEntity e).seen w = (s.seen w).addEntity (e.seen w) :=
      congrArg Schema.mk (OrderedMap.insert_map ..)
    rw [List.foldl_cons, ih, hadd, List.map_cons, List.foldl_cons]

section Reading

variable {E : Error → Error → Prop} {R : String → Json → Json → Prop}
  {v v' : Json} {ds ds' : List (String × Json)}

/-- The values at `v` and `v'` are read alike in the view, as members of any entity. -/
def ReadAlike (E : Error → Error → Prop) (w : View) (v v' : Json) : Prop :=
  ∀ entity name, Agree E (fun m m' => m'.seen w = m.seen w) (readMember entity name v)
    (readMember entity name v')

variable (hE : ∀ err, E err err) (hread : ∀ v v', MembersRelated R v v' → ReadAlike E w v v')
include hE hread

theorem agree_readMembers (h : List.Forall₂
    (fun d d' => d'.1 = d.1 ∧ MembersRelated R d.2 d'.2) ds ds') (entity : String)
    (form : Option Bool) :
    Agree E (fun ms ms' => ms'.map (Member.seen w) = ms.map (Member.seen w))
      (readMembers entity form ds) (readMembers entity form ds') := by
  induction h generalizing form with
  | nil => exact .ok rfl
  | @cons d d' ds ds' hd _ ih =>
    obtain ⟨name, v⟩ := d
    obtain ⟨name', v'⟩ := d'
    obtain ⟨rfl, hv⟩ := hd
    rw [readMembers, readMembers, isStructured_of_related hv]
    split
    · exact .error (hE _)
    · refine (hread _ _ hv entity name').bind fun m m' hm => ?_
      exact (ih _).bind fun ms ms' hms => .ok (congrArg₂ List.cons hm hms)

theorem agree_readEntity (h : MembersRelated (fun _ => MembersRelated R) v v') (name : String) :
    Agree E (fun e e' => e'.seen w = e.seen w) (readEntity name v) (readEntity name v') := by
  cases h with
  | same =>
    refine .refl hE ?_ _
    exact fun _ => rfl
  | @object ds ds' h =>
    rw [readEntity, readEntity, any_isStructured h]
    refine (agree_readMembers hE hread h name none).bind fun ms ms' hms => .ok ?_
    rw [seen_ofMembers, seen_ofMembers, hms]

theorem agree_readEntities (h : List.Forall₂
    (fun d d' => d'.1 = d.1 ∧ MembersRelated (fun _ => MembersRelated R) d.2 d'.2) ds ds') :
    Agree E (fun es es' => es'.map (Entity.seen w) = es.map (Entity.seen w)) (readEntities ds)
      (readEntities ds') := by
  induction h with
  | nil => exact .ok rfl
  | @cons d d' ds ds' hd _ ih =>
    obtain ⟨name, v⟩ := d
    obtain ⟨name', v'⟩ := d'
    obtain ⟨rfl, hv⟩ := hd
    refine (agree_readEntity hE hread hv name').bind fun e e' he => ?_
    exact ih.bind fun es es' hes => .ok (congrArg₂ List.cons he hes)

/-- Values whose members are read alike declare schemas that look alike, or fail alike. -/
theorem agree_ofDeclarations
    (h : MembersRelated (fun _ => MembersRelated fun _ => MembersRelated R) v v') :
    Agree E (fun s s' => s'.seen w = s.seen w) (ofDeclarations v) (ofDeclarations v') := by
  cases h with
  | same =>
    refine .refl hE ?_ _
    exact fun _ => rfl
  | @object ds ds' h =>
    refine (agree_readEntities hE hread h).bind fun es es' hes => .ok ?_
    rw [seen_foldl_addEntity, seen_foldl_addEntity, hes]

/-- The linked schemas look alike as well. -/
theorem agree_link
    (h : MembersRelated (fun _ => MembersRelated fun _ => MembersRelated R) v v') :
    Agree E (fun s s' => s'.seen w = s.seen w) (ofDeclarations v >>= link)
      (ofDeclarations v' >>= link) := by
  refine (agree_ofDeclarations hE hread h).bind fun s s' hs => .of_map_eq hE ?_
  rw [← link_seen, ← link_seen, hs]

end Reading

end Schema
end OrmGen
