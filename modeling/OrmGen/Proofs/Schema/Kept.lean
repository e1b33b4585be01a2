/-
  What reading keeps of declarations in which no name is repeated: everything. The schema has
  the entities in the order of declaration, an entity has its fields and its relations in that
  order, each under its own name, and a field has the definition it was read from.

  `accepts_exactly_declarations`: the whole contract of reading, that is the values that are
  accepted, the error of any other, and what the schema of an accepted value is (`Keeps`).
-/
import OrmGen.Proofs.Schema.Grammar
import OrmGen.Proofs.Schema.Pairing

namespace OrmGen

/-! ## Values without repetitions -/

namespace Json

mutual

/-- A value without repeated keys is settled already. -/
theorem settled_of_distinct : (v : Json) → Distinct v → settled v = v
  | .null, _ | .bool _, _ | .number _, _ | .string _, _ => by simp [settled]
  | .array items, h => by
    rw [Distinct] at h
    rw [settled, settledItems_of_distinct items h]
  | .object members, h => by
    rw [Distinct] at h
    rw [settled, settledMembers_of_distinct members h.2, OrderedMap.entries_ofList h.1]

theorem settledItems_of_distinct : (vs : List Json) → DistinctItems vs → settledItems vs = vs
  | [], _ => by rw [settledItems]
  | v :: vs, h => by
    rw [DistinctItems] at h
    rw [settledItems, settled_of_distinct v h.1, settledItems_of_distinct vs h.2]

theorem settledMembers_of_distinct :
    (ms : List (String × Json)) → DistinctMembers ms → settledMembers ms = ms
  | [], _ => by rw [settledMembers]
  | (_, v) :: ms, h => by
    rw [DistinctMembers] at h
    rw [settledMembers, settled_of_distinct v h.1, settledMembers_of_distinct ms h.2]

end

theorem members_ofMembers {ds : List (String × Json)} (h : Distinct (.object ds)) :
    (Object.ofMembers ds).members = ds := by
  have hsettled := settled_of_distinct _ h
  rw [settled, Json.object.injEq] at hsettled
  exact hsettled

end Json

namespace Schema

/-! ## What a schema keeps -/

/-- The field is the one that the value declares under `name`, and has the definition as well. -/
inductive KeepsField (name : String) : Json → Field → Prop where
  | value {v : Json} : isStructured v = false → KeepsField name v (enumMember name v)
  | definition {ds : List (String × Json)} {type : String} {raw : Json.Object} :
      Json.member? "type" ds = some (.string type) → raw.members = ds →
      KeepsField name (.object ds)
        { name := name
          typeName := type
          nullable := ((Json.member? "nullable" ds).bind booleanOf?).getD false
          size := (Json.member? "size" ds).bind sizeOf?
          visibility := ((Json.member? "modifier" ds).bind fun v =>
            (scalarText? v).bind Visibility.parse?).getD .subclasses
          value := ((Json.member? "value" ds).bind scalarText?).orElse fun _ =>
            (Json.member? "target" ds).bind scalarText?
          raw := some raw }

/-- The relation is the one that the value declares under `name` in `entity`. Its source is open. -/
inductive KeepsRelation (entity name : String) : Json → Relation → Prop where
  | definition {ds : List (String × Json)} {target : String} {c : Cardinality} :
      Json.member? "target" ds = some (.string target) →
      (Json.member? "relation" ds).bind cardinalityOf? = some c →
      KeepsRelation entity name (.object ds) ⟨⟨entity, "", .one⟩, ⟨target, name, c⟩⟩

/-- The entity has its fields from the members that declare fields and its relations from the
others, each under its own name and in the order of declaration. -/
structure KeepsEntity (name : String) (v : Json) (e : Entity) : Prop where
  name_eq : e.name = name
  kind_iff : e.kind = .entity ↔ ∃ member ∈ definitionOf v, isStructured member.2 = true
  fields : List.Forall₂ (fun member f => f.1 = member.1 ∧ KeepsField member.1 member.2 f.2)
    ((definitionOf v).filter fun member => declaresField member.2) e.fields.entries
  relations : List.Forall₂
    (fun member r => r.1 = member.1 ∧ KeepsRelation name member.1 member.2 r.2)
    ((definitionOf v).filter fun member => !declaresField member.2) e.relations.entries

/-- The schema has the entities that the value declares, in the order of declaration. -/
def Keeps (v : Json) (s : Schema) : Prop :=
  List.Forall₂ (fun entity e => e.1 = entity.1 ∧ KeepsEntity entity.1 entity.2 e.2)
    (definitionOf v) s.entities.entries

/-! ## Reading a definition -/

section Members

variable {entity name property : String} {v : Json} {definition : List (String × Json)}

theorem orError_eq_ok {α : Type} {o : Option α} {e : Error} {a : α} :
    orError o e = .ok a ↔ o = some a := by
  cases o <;> simp [orError]

theorem requireText_eq_ok {s : String} (h : requireText entity name property definition = .ok s) :
    Json.member? property definition = some (.string s) := by
  unfold requireText at h
  split at h
  · cases h
  · cases h
  · rename_i t hvalue
    rw [Except.ok.injEq] at h
    rw [hvalue, h]
  · cases h

/-- An optional property has what reading makes of it, or else the default. -/
theorem optional_eq_ok {α : Type} {default a : α} {read : Json → Except Error α}
    {g : Option Json → α} (hnone : g none = default) (hnull : g (some .null) = default)
    (hread : ∀ {v b}, read v = .ok b → g (some v) = b)
    (h : optional definition property default read = .ok a) :
    a = g (Json.member? property definition) := by
  unfold optional at h
  split at h
  · rename_i hvalue
    rw [Except.ok.injEq] at h
    rw [hvalue, hnone, h]
  · rename_i hvalue
    rw [Except.ok.injEq] at h
    rw [hvalue, hnull, h]
  · rename_i hvalue
    rw [hvalue, hread h]

theorem getD_of_orError_eq_ok {α : Type} {o : Option α} {e : Error} {a default : α}
    (h : orError o e = .ok a) : o.getD default = a := by
  rw [orError_eq_ok.1 h, Option.getD_some]

theorem eq_of_map_orError_eq_ok {α : Type} {o : Option α} {e : Error} {a : Option α}
    (h : (orError o e).map some = .ok a) : o = a := by
  obtain ⟨b, hb, rfl⟩ := map_eq_ok.1 h
  exact orError_eq_ok.1 hb

theorem keepsRelation_of_readRelation {c : Json} {r : Relation}
    (hc : Json.member? "relation" definition = some c)
    (h : readRelation entity name definition c = .ok r) :
    KeepsRelation entity name (.object definition) r := by
  unfold readRelation at h
  obtain ⟨target, htarget, h⟩ := bind_eq_ok.1 h
  obtain ⟨cardinality, hcardinality, h⟩ := bind_eq_ok.1 h
  rw [pure_eq_ok] at h
  subst h
  refine .definition (requireText_eq_ok htarget) ?_
  rw [hc, Option.bind_some]
  exact orError_eq_ok.1 hcardinality

theorem keepsField_of_readField {f : Field} (hdistinct : Json.Distinct (.object definition))
    (h : readField entity name definition = .ok f) : KeepsField name (.object definition) f := by
  unfold readField at h
  obtain ⟨type, htype, h⟩ := bind_eq_ok.1 h
  obtain ⟨size, hsize, h⟩ := bind_eq_ok.1 h
  obtain ⟨nullable, hnullable, h⟩ := bind_eq_ok.1 h
  obtain ⟨visibility, hvisibility, h⟩ := bind_eq_ok.1 h
  rw [pure_eq_ok] at h
  subst h
  obtain rfl := optional_eq_ok (g := (·.bind sizeOf?)) rfl rfl eq_of_map_orError_eq_ok hsize
  obtain rfl := optional_eq_ok (g := fun v => (v.bind booleanOf?).getD false) rfl rfl
    getD_of_orError_eq_ok hnullable
  obtain rfl := optional_eq_ok
    (g := fun v => (v.bind fun v => (scalarText? v).bind Visibility.parse?).getD .subclasses)
    rfl rfl getD_of_orError_eq_ok hvisibility
  exact .definition (requireText_eq_ok htype) (Json.members_ofMembers hdistinct)

theorem keepsField_of_readMember {f : Field} (hdistinct : v.Distinct)
    (h : readMember entity name v = .ok (.field f)) : KeepsField name v f := by
  unfold readMember at h
  split at h
  · split at h
    · obtain ⟨_, _, hrelation⟩ := map_eq_ok.1 h
      cases hrelation
    · obtain ⟨_, hf, heq⟩ := map_eq_ok.1 h
      rw [Member.field.injEq] at heq
      subst heq
      exact keepsField_of_readField hdistinct hf
  · rename_i hobject
    rw [Except.ok.injEq, Member.field.injEq] at h
    subst h
    refine .value ?_
    unfold isStructured
    split
    · exact absurd rfl (hobject _)
    · rfl

theorem keepsRelation_of_readMember {r : Relation}
    (h : readMember entity name v = .ok (.relation r)) : KeepsRelation entity name v r := by
  unfold readMember at h
  split at h
  · split at h
    · rename_i c hc
      obtain ⟨_, hr, heq⟩ := map_eq_ok.1 h
      rw [Member.relation.injEq] at heq
      subst heq
      exact keepsRelation_of_readRelation hc hr
    · obtain ⟨_, _, hfield⟩ := map_eq_ok.1 h
      cases hfield
  · cases h

end Members

/-! ## Reading entities -/

section Entities

variable {name : String} {v : Json} {s : Schema} {e : Entity}

/-- Members that are picked out of an object without repeated keys have distinct keys, and
values without repeated keys. -/
theorem distinct_filter {members : List (String × Json)} (h : Json.Distinct (.object members))
    (q : String × Json → Bool) : ((members.filter q).map Prod.fst).Nodup ∧
      ∀ member ∈ members.filter q, member.2.Distinct := by
  rw [Json.Distinct, Json.distinctMembers_iff] at h
  refine ⟨h.1.sublist (List.filter_sublist.map _), ?_⟩
  intro member hmember
  exact h.2 member (List.mem_of_mem_filter hmember)

theorem keepsEntity_of_readEntity (hdistinct : v.Distinct) (h : readEntity name v = .ok e) :
    KeepsEntity name v e := by
  cases v with
  | object members =>
    obtain ⟨ms, hms, h⟩ := bind_eq_ok.1 h
    rw [pure_eq_ok] at h
    subst h
    have hread := readMembers_eq_ok hms
    constructor
    · rfl
    · simp [ofMembers, definitionOf]
    · obtain ⟨hkeys, hvalues⟩ := distinct_filter hdistinct fun member => declaresField member.2
      apply OrderedMap.forall₂_entries_ofList hkeys
      refine ((List.forall₂_and_left _ _).2 ⟨hvalues, forall₂_fields hread⟩).imp ?_
      rintro member f ⟨hmember, hkey, hf⟩
      exact ⟨hkey, keepsField_of_readMember hmember hf⟩
    · obtain ⟨hkeys, _⟩ := distinct_filter hdistinct fun member => !declaresField member.2
      apply OrderedMap.forall₂_entries_ofList hkeys
      refine (forall₂_relations hread).imp ?_
      rintro member r ⟨hkey, hr⟩
      exact ⟨hkey, keepsRelation_of_readMember hr⟩
  | null =>
    rw [readEntity, Except.ok.injEq] at h
    subst h
    exact ⟨rfl, by simp [ofMembers, definitionOf], .nil, .nil⟩
  | _ => cases h

theorem keeps_of_ofDeclarations (hdistinct : v.Distinct) (h : ofDeclarations v = .ok s) :
    Keeps v s := by
  obtain ⟨ds, ps, rfl, hentities, hread⟩ := forall₂_declaredEntities h
  rw [Json.Distinct, Json.distinctMembers_iff] at hdistinct
  unfold Keeps
  rw [hentities]
  apply OrderedMap.forall₂_entries_ofList hdistinct.1
  refine ((List.forall₂_and_left _ _).2 ⟨hdistinct.2, hread⟩).imp ?_
  rintro d p ⟨hd, hkey, hp⟩
  exact ⟨hkey, keepsEntity_of_readEntity hd hp⟩

end Entities

/-- Reading accepts a value if and only if it follows the grammar of declarations, and refuses any
other for the first thing in it that does not: in the order of declaration the first bad
entity, in it the first bad member, in it the form or else the first demand that is not met.
Of a value in which no name is repeated everything is kept, in order. -/
theorem accepts_exactly_declarations (v : Json) :
    ((∃ s, ofDeclarations v = .ok s) ↔ Accepted v) ∧
    (∀ err, ofDeclarations v = .error err ↔ Refused v err) ∧
    (v.Distinct → ∀ s, ofDeclarations v = .ok s → Keeps v s) :=
  ⟨ofDeclarations_decidedBy.ok_iff, fun _ => ofDeclarations_decidedBy.error_iff,
    fun hdistinct _ h => keeps_of_ofDeclarations hdistinct h⟩

example : ofDeclarations (.object [("Status", .object
    [("draft", .number (.integer 0)), ("author", .object [("relation", .string "one")])])]) =
    .error (.mixedMembers "Status" "author") := rfl

/-- The declarations of a blog follow the grammar, and nothing of them is lost. -/
theorem blog_is_kept : Accepted blog ∧ blog.Distinct ∧
    ∃ s, ofDeclarations blog = .ok s ∧ Keeps blog s := by
  obtain ⟨haccepts, _, hkeeps⟩ := accepts_exactly_declarations blog
  obtain ⟨s, hs⟩ : ∃ s, ofDeclarations blog = .ok s := ⟨_, rfl⟩
  have hdistinct : blog.Distinct := Json.distinct_settled blog
  exact ⟨haccepts.1 ⟨s, hs⟩, hdistinct, s, hs, hkeeps hdistinct s hs⟩

end Schema
end OrmGen
