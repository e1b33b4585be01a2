/-
  What a schema has at a name is what the value declares there, read alone. A key that is
  declared twice counts with its last value.

  `get?_of_declared`, `declared_of_get?`: entities. `get?_fields_of_readEntity`: fields, and
  members of enumerations. `readField_integer`: what of its definition a field keeps.
-/
import OrmGen.Proofs.Insertion
import OrmGen.Proofs.Schema.WellFormed

namespace OrmGen.Schema

variable {v d : Json} {s : Schema} {k name : String} {e : Entity}

/-! ## Entities -/

theorem forall₂_declaredEntities (h : ofDeclarations v = .ok s) : ∃ ds ps, v = .object ds ∧
    s.entities = OrderedMap.ofList ps ∧
      List.Forall₂ (fun d p => p.1 = d.1 ∧ readEntity d.1 d.2 = .ok p.2) ds ps := by
  unfold ofDeclarations at h
  split at h
  · rename_i ds
    obtain ⟨es, hes, h⟩ := bind_eq_ok.1 h
    rw [pure_eq_ok] at h
    refine ⟨ds, es.map fun e => (e.name, e), rfl, ?_, ?_⟩
    · rw [← h, entities_foldl_addEntity]
      rfl
    · rw [List.forall₂_map_right_iff]
      refine (readEntities_eq_ok hes).imp ?_
      intro d e hread
      exact ⟨(readEntity_eq_ok hread).1, hread⟩
  · cases h

/-- Every entity of a schema is declared. -/
theorem declared_of_get? (h : ofDeclarations v = .ok s) (he : s.get? k = some e) :
    ∃ d, (declaredEntities v).get? k = some d ∧ readEntity k d = .ok e := by
  obtain ⟨ds, ps, rfl, hentities, hrelated⟩ := forall₂_declaredEntities h
  unfold get? at he
  rw [hentities] at he
  exact OrderedMap.get?_ofList_of_forall₂ (R := fun k d e => readEntity k d = .ok e) hrelated he

/-- Every declared entity is one of the schema. -/
theorem get?_of_declared (h : ofDeclarations v = .ok s)
    (hd : (declaredEntities v).get? k = some d) :
    ∃ e, s.get? k = some e ∧ readEntity k d = .ok e := by
  obtain ⟨ds, ps, rfl, hentities, hrelated⟩ := forall₂_declaredEntities h
  unfold get?
  rw [hentities]
  exact OrderedMap.get?_ofList_forall₂ (R := fun k d e => readEntity k d = .ok e) hrelated hd

/-! ## Fields -/

/-- Whether a definition declares a field, or a member of an enumeration. -/
def declaresField : Json → Bool
  | .object definition => (Json.member? "relation" definition).isNone
  | _ => true

/-- A member is a field if its definition declares one, and a relation if not. -/
theorem isField_of_readMember {m : Member} (h : readMember k name d = .ok m) :
    (declaresField d = true ∧ ∃ f, m = .field f) ∨
      (declaresField d = false ∧ ∃ r, m = .relation r) := by
  unfold readMember at h
  split at h
  · rename_i definition
    split at h
    · rename_i c hc
      obtain ⟨r, _, rfl⟩ := map_eq_ok.1 h
      exact .inr ⟨by simp [declaresField, hc], r, rfl⟩
    · rename_i hc
      obtain ⟨f, _, rfl⟩ := map_eq_ok.1 h
      exact .inl ⟨by simp [declaresField, hc], f, rfl⟩
  · rename_i hobject
    rw [Except.ok.injEq] at h
    subst h
    refine .inl ⟨?_, _, rfl⟩
    unfold declaresField
    split
    · rename_i definition
      exact absurd rfl (hobject definition)
    · rfl

/-- Fields come from the definitions that declare fields, in their order. -/
theorem forall₂_fields {ds : List (String × Json)} {ms : List Member}
    (h : List.Forall₂ (fun d m => readMember k d.1 d.2 = .ok m) ds ms) :
    List.Forall₂ (fun d p => p.1 = d.1 ∧ readMember k d.1 d.2 = .ok (.field p.2))
      (ds.filter fun d => declaresField d.2)
      (ms.filterMap fun | .field f => some (f.name, f) | .relation _ => none) := by
  refine forall₂_filterMap h ?_ ?_
  · intro d m hm hfield
    obtain ⟨_, f, rfl⟩ | ⟨hrelation, _⟩ := isField_of_readMember hm
    · exact ⟨_, rfl, (readMember_eq_ok hm).1, hm⟩
    · exact absurd (hrelation.symm.trans hfield) Bool.false_ne_true
  · intro d m hm hrelation
    obtain ⟨hfield, _⟩ | ⟨_, r, rfl⟩ := isField_of_readMember hm
    · exact absurd (hrelation.symm.trans hfield) Bool.false_ne_true
    · rfl

/-- Relations come from the definitions that do not declare fields, in their order. -/
theorem forall₂_relations {ds : List (String × Json)} {ms : List Member}
    (h : List.Forall₂ (fun d m => readMember k d.1 d.2 = .ok m) ds ms) :
    List.Forall₂ (fun d p => p.1 = d.1 ∧ readMember k d.1 d.2 = .ok (.relation p.2))
      (ds.filter fun d => !declaresField d.2)
      (ms.filterMap fun | .relation r => some (r.target.name, r) | .field _ => none) := by
  refine forall₂_filterMap h ?_ ?_
  · intro d m hm hrelation
    rw [Bool.not_eq_true'] at hrelation
    obtain ⟨hfield, _⟩ | ⟨_, r, rfl⟩ := isField_of_readMember hm
    · exact absurd (hrelation.symm.trans hfield) Bool.false_ne_true
    · exact ⟨_, rfl, (readMember_eq_ok hm).1, hm⟩
  · intro d m hm hfield
    rw [Bool.not_eq_false'] at hfield
    obtain ⟨_, f, rfl⟩ | ⟨hrelation, _⟩ := isField_of_readMember hm
    · rfl
    · exact absurd (hrelation.symm.trans hfield) Bool.false_ne_true

/-- The fields of an entity are those that its value declares. -/
theorem get?_fields_of_readEntity {ds : List (String × Json)}
    (h : readEntity k (.object ds) = .ok e) (hd : (OrderedMap.ofList ds).get? name = some d)
    (hfield : declaresField d = true) :
    ∃ f, e.fields.get? name = some f ∧ readMember k name d = .ok (.field f) := by
  obtain ⟨ms, hms, h⟩ := bind_eq_ok.1 h
  rw [pure_eq_ok] at h
  subst h
  have hfiltered := OrderedMap.get?_ofList_filter (q := fun d => declaresField d.2) hd hfield
  exact OrderedMap.get?_ofList_forall₂
    (R := fun name d f => readMember k name d = .ok (.field f))
    (forall₂_fields (readMembers_eq_ok hms)) hfiltered

/-- All members of an entity have the form of the first. -/
theorem isStructured_of_readMembers {form : Option Bool} {ds : List (String × Json)}
    {ms : List Member} (h : readMembers k form ds = .ok ms) :
    ∃ b, (∀ a ∈ form, a = b ∨ ds = []) ∧ ∀ d ∈ ds, isStructured d.2 = b := by
  induction ds generalizing form ms with
  | nil => exact ⟨true, fun _ _ => .inr rfl, List.forall_mem_nil _⟩
  | cons d ds ih =>
    obtain ⟨name, v⟩ := d
    rw [readMembers] at h
    split at h
    · obtain ⟨_, hthrow, _⟩ := bind_eq_ok.1 h
      cases hthrow
    · rename_i hform
      obtain ⟨m, _, h⟩ := bind_eq_ok.1 h
      obtain ⟨ms', hms, _⟩ := bind_eq_ok.1 h
      obtain ⟨b, hfirst, hrest⟩ := ih hms
      refine ⟨isStructured v, ?_, ?_⟩
      · rintro a rfl
        exact .inl (by simpa using hform)
      · rw [List.forall_mem_cons]
        refine ⟨rfl, ?_⟩
        rcases hfirst _ rfl with rfl | rfl
        · exact hrest
        · exact List.forall_mem_nil _

/-- The kind of an entity shows the form of each of its members. -/
theorem kind_of_readEntity {ds : List (String × Json)} (h : readEntity k (.object ds) = .ok e)
    (hd : (name, d) ∈ ds) : e.kind = if isStructured d then .entity else .enumeration := by
  obtain ⟨ms, hms, h⟩ := bind_eq_ok.1 h
  rw [pure_eq_ok] at h
  subst h
  obtain ⟨b, _, hall⟩ := isStructured_of_readMembers hms
  have hany : (ds.any fun m => isStructured m.2) = isStructured d := by
    rw [hall _ hd]
    cases b with
    | true => exact List.any_eq_true.2 ⟨_, hd, hall _ hd⟩
    | false =>
      rw [List.any_eq_false]
      intro m hm
      simp [hall m hm]
  simp [ofMembers, hany]

/-- What a field keeps of its definition: the type, and the value if it is an integer. -/
theorem readField_integer {definition : List (String × Json)} {f : Field} {type : String} {n : Int}
    (h : readField k name definition = .ok f)
    (htype : Json.member? "type" definition = some (.string type))
    (hvalue : Json.member? "value" definition = some (.number (.integer n))) :
    f.name = name ∧ f.typeName = type ∧ f.value = some (toString n) := by
  unfold readField at h
  obtain ⟨typeName, htypeName, h⟩ := bind_eq_ok.1 h
  obtain ⟨size, _, h⟩ := bind_eq_ok.1 h
  obtain ⟨nullable, _, h⟩ := bind_eq_ok.1 h
  obtain ⟨visibility, _, h⟩ := bind_eq_ok.1 h
  rw [pure_eq_ok] at h
  rw [requireText, htype, Except.ok.injEq] at htypeName
  rw [← h, hvalue]
  exact ⟨rfl, htypeName.symm, rfl⟩

/-! ## Declared integers -/

section Integers

variable {ds definition : List (String × Json)} {n : Int}

/-- An integer is the value of a member of an enumeration. -/
theorem exists_integer_member (h : readEntity k (.object ds) = .ok e)
    (hn : (OrderedMap.ofList ds).get? name = some (.number (.integer n))) :
    e.kind = .enumeration ∧ ∃ f, e.fields.get? name = some f ∧ f.name = name ∧
      f.value = some (toString n) := by
  refine ⟨kind_of_readEntity h (OrderedMap.get?_ofList hn), ?_⟩
  obtain ⟨f, hf, hmember⟩ := get?_fields_of_readEntity h hn rfl
  rw [readMember, Except.ok.injEq, Member.field.injEq] at hmember
  · subst hmember
    exact ⟨_, hf, rfl, rfl⟩
  · exact fun _ => Json.noConfusion

/-- A definition with an integer as its value is that of a field of an entity. -/
theorem exists_integer_field {type : String} (h : readEntity k (.object ds) = .ok e)
    (hd : (OrderedMap.ofList ds).get? name = some (.object definition))
    (hrelation : Json.member? "relation" definition = none)
    (htype : Json.member? "type" definition = some (.string type))
    (hvalue : Json.member? "value" definition = some (.number (.integer n))) :
    e.kind = .entity ∧ ∃ f, e.fields.get? name = some f ∧ f.name = name ∧ f.typeName = type ∧
      f.value = some (toString n) := by
  refine ⟨kind_of_readEntity h (OrderedMap.get?_ofList hd), ?_⟩
  obtain ⟨f, hf, hmember⟩ := get?_fields_of_readEntity h hd (by simp [declaresField, hrelation])
  simp only [readMember, hrelation] at hmember
  obtain ⟨f', hf', heq⟩ := map_eq_ok.1 hmember
  rw [Member.field.injEq] at heq
  subst heq
  exact ⟨f', hf, readField_integer hf' htype hvalue⟩

end Integers

end OrmGen.Schema
