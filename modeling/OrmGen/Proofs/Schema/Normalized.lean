/-
  Schemas up to the spelling of counts. `Schema.normalized` collapses every count of a schema
  into `one` or `many`. It is a view of the schema (`Schema.seen_counts`), so it commutes with
  linking, errors included (`Schema.link_normalized`). Values that declare the same with other
  counts of the same meaning (`Schema.Recounted`) declare schemas that are alike when
  normalized (`Schema.map_normalized_ofDeclarations`).
-/
import OrmGen.Proofs.Schema.View

namespace OrmGen

/-! ## Normalized schemas -/

namespace Cardinality

variable {c : Cardinality}

theorem normalized_eq_enumeration_iff : c.normalized = .enumeration ↔ c = .enumeration := by
  cases c with
  | fixed n => by_cases hn : n ≤ 1 <;> simp [normalized, hn]
  | _ => simp [normalized]

theorem isMany_normalized (c : Cardinality) : c.normalized.isMany = c.isMany := by
  unfold isMany
  rw [normalized_normalized]

end Cardinality

def Endpoint.normalized (p : Endpoint) : Endpoint :=
  { p with cardinality := p.cardinality.normalized }

def Relation.normalized (r : Relation) : Relation := ⟨r.source.normalized, r.target.normalized⟩

/-- Schemas with their counts collapsed. -/
def View.counts : View where
  field := id
  endpoint := Endpoint.normalized
  field_name _ := rfl
  entity _ := rfl
  name _ := rfl
  enumeration _ := Cardinality.normalized_eq_enumeration_iff
  unnamed _ := rfl

/-- The entity with the counts of its relations collapsed. -/
def Entity.normalized (e : Entity) : Entity :=
  { e with relations := e.relations.map fun _ => Relation.normalized }

/-- The schema with the counts of all relations collapsed. -/
def Schema.normalized (s : Schema) : Schema := ⟨s.entities.map fun _ => Entity.normalized⟩

@[simp] theorem Relation.normalized_source (r : Relation) :
    r.normalized.source = r.source.normalized := rfl

@[simp] theorem Relation.normalized_target (r : Relation) :
    r.normalized.target = r.target.normalized := rfl

@[simp] theorem Endpoint.normalized_entity (p : Endpoint) : p.normalized.entity = p.entity := rfl

@[simp] theorem Endpoint.normalized_name (p : Endpoint) : p.normalized.name = p.name := rfl

@[simp] theorem Endpoint.normalized_cardinality (p : Endpoint) :
    p.normalized.cardinality = p.cardinality.normalized := rfl

@[simp] theorem Entity.normalized_kind (e : Entity) : e.normalized.kind = e.kind := rfl

@[simp] theorem Entity.normalized_name (e : Entity) : e.normalized.name = e.name := rfl

theorem Entity.values_normalized (e : Entity) :
    e.normalized.relations.values = e.relations.values.map Relation.normalized := by
  unfold normalized OrderedMap.values
  rw [OrderedMap.entries_map, List.map_map, List.map_map]
  rfl

namespace Schema

variable {s : Schema} {source name : String} {e : Entity} {r : Relation}

theorem values_normalized (s : Schema) :
    s.normalized.entities.values = s.entities.values.map Entity.normalized := by
  unfold normalized OrderedMap.values
  rw [OrderedMap.entries_map, List.map_map, List.map_map]
  rfl

/-! ## Linking -/

/-- Normalizing is looking at a schema without telling counts of one meaning apart. -/
theorem seen_counts (s : Schema) : s.seen .counts = s.normalized := by
  have hentity : Entity.seen .counts = Entity.normalized := by
    funext e
    exact congrArg (fun fields => { e.normalized with fields := fields })
      (OrderedMap.map_self e.fields)
  unfold seen normalized
  rw [hentity]

/-- Linking does not look at how counts are spelled. -/
theorem link_normalized (s : Schema) : s.normalized.link = s.link.map normalized := by
  have hseen : seen .counts = normalized := funext seen_counts
  rw [← seen_counts, link_seen, hseen]

/-! ## Counts spelled otherwise -/

/-- The values at a key of a definition are the same, or are cardinalities of one meaning. -/
inductive RespelledCount : String → Json → Json → Prop where
  | same (key : String) (v : Json) : RespelledCount key v v
  | count {v v' : Json} {c c' : Cardinality} : cardinalityOf? v = some c →
      cardinalityOf? v' = some c' → c'.normalized = c.normalized →
      RespelledCount "relation" v v'

/-- The values declare the same entities with the same members, but for cardinalities of
relations that have one meaning. -/
def Recounted : Json → Json → Prop :=
  MembersRelated fun _ => MembersRelated fun _ => MembersRelated RespelledCount

/-- A member of an entity with its count collapsed. -/
def Member.normalized : Member → Member
  | .field f => .field f
  | .relation r => .relation r.normalized

section Recounting

variable {entity property : String} {v v' : Json} {ds ds' : List (String × Json)}
  {definition definition' : List (String × Json)} {R : String → Json → Json → Prop}

theorem RespelledCount.eq_of_ne {key : String} (h : RespelledCount key v v')
    (hkey : key ≠ "relation") : v' = v := by
  cases h with
  | same => rfl
  | count => exact absurd rfl hkey

/-- A definition whose count is respelled. -/
theorem related_of_count {c c' : Cardinality} (hv : cardinalityOf? v = some c)
    (hv' : cardinalityOf? v' = some c') (hmeaning : c'.normalized = c.normalized) :
    MembersRelated RespelledCount (.object (("relation", v) :: ds))
      (.object (("relation", v') :: ds)) :=
  .object (.cons ⟨rfl, .count hv hv' hmeaning⟩ (List.forall₂_same.2 fun _ _ => ⟨rfl, .same ..⟩))

/-- A definition without the key `relation` has no count to respell. -/
theorem eq_of_respelled
    (h : List.Forall₂ (fun d d' => d'.1 = d.1 ∧ RespelledCount d.1 d.2 d'.2) definition definition')
    (hnone : Json.member? "relation" definition = none) : definition' = definition := by
  have hkeys := OrderedMap.lookup?_eq_none_iff.1 hnone
  clear hnone
  induction h with
  | nil => rfl
  | @cons d d' ds ds' hd _ ih =>
    rw [List.map_cons, List.mem_cons, not_or] at hkeys
    have hvalue : d'.2 = d.2 := hd.2.eq_of_ne (Ne.symm hkeys.1)
    rw [ih hkeys.2, Prod.ext hd.1 hvalue]

theorem requireText_of_respelled {field : String}
    (h : List.Forall₂ (fun d d' => d'.1 = d.1 ∧ RespelledCount d.1 d.2 d'.2) definition definition')
    (hproperty : property ≠ "relation") :
    requireText entity field property definition' =
      requireText entity field property definition := by
  unfold requireText
  rcases member?_of_forall₂ h property with ⟨hnone, hnone'⟩ | ⟨v, v', hv, hv', hcount⟩
  · rw [hnone, hnone']
  · rw [hv, hv', hcount.eq_of_ne hproperty]

theorem map_readRelation {field : String} {c c' : Json}
    (h : List.Forall₂ (fun d d' => d'.1 = d.1 ∧ RespelledCount d.1 d.2 d'.2) definition definition')
    (hc : RespelledCount "relation" c c') :
    (readRelation entity field definition' c').map Relation.normalized =
      (readRelation entity field definition c).map Relation.normalized := by
  unfold readRelation
  rw [requireText_of_respelled h (by decide)]
  cases requireText entity field "target" definition with
  | error err => rfl
  | ok target =>
    generalize hkey : "relation" = key at hc
    cases hc with
    | same => rfl
    | count hv hv' hmeaning =>
      rw [hv, hv']
      have hnormalized : Relation.normalized ⟨⟨entity, "", .one⟩, ⟨target, field, _⟩⟩ =
          Relation.normalized ⟨⟨entity, "", .one⟩, ⟨target, field, _⟩⟩ :=
        congrArg (fun c => Relation.mk ⟨entity, "", .one⟩ ⟨target, field, c⟩) hmeaning
      exact congrArg Except.ok hnormalized

theorem map_readMember {name : String} (h : MembersRelated RespelledCount v v') :
    (readMember entity name v').map Member.normalized =
      (readMember entity name v).map Member.normalized := by
  cases h with
  | same => rfl
  | @object definition definition' h =>
    simp only [readMember]
    rcases member?_of_forall₂ h "relation" with ⟨hnone, hnone'⟩ | ⟨c, c', hc, hc', hcount⟩
    · rw [eq_of_respelled h hnone]
    · rw [hc, hc']
      exact map_map_congr (map_readRelation h hcount) fun hr => congrArg Member.relation hr

/-- Members with counts of one meaning are read alike. -/
theorem readAlike_of_respelled (h : MembersRelated RespelledCount v v') :
    ReadAlike Eq .counts v v' := by
  have hseen : Member.seen .counts = Member.normalized := by
    funext m
    cases m <;> rfl
  intro entity name
  rw [hseen]
  exact .of_map_eq (fun _ => rfl) (map_readMember h)

/-- Counts of one meaning make schemas that are alike when normalized, and the same errors. -/
theorem map_normalized_ofDeclarations (h : Recounted v v') :
    (ofDeclarations v').map normalized = (ofDeclarations v).map normalized := by
  have hseen : seen .counts = normalized := funext seen_counts
  have hagree := agree_ofDeclarations (fun _ => rfl) (fun _ _ => readAlike_of_respelled) h
  rw [hseen] at hagree
  exact hagree.map_eq

theorem memberNames_of_related (h : MembersRelated R v v') : memberNames v' = memberNames v := by
  cases h with
  | same => rfl
  | object h =>
    simp only [memberNames]
    induction h with
    | nil => rfl
    | cons hd _ ih => rw [List.map_cons, List.map_cons, hd.1, ih]

theorem declaredNames_of_recounted (h : Recounted v v') : declaredNames v' = declaredNames v := by
  cases h with
  | same => rfl
  | object h =>
    simp only [declaredNames]
    induction h with
    | nil => rfl
    | cons hd _ ih =>
      rw [List.flatMap_cons, List.flatMap_cons, hd.1, memberNames_of_related hd.2, ih]

end Recounting

end Schema
end OrmGen
