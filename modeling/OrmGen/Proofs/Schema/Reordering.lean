/-
  Schemas whose entities are declared in another order. Reading looks at each entity alone and
  linking looks entities up by name, so the order decides neither whether a schema is accepted
  nor what an entity of it looks like (`exists_link_of_perm`). It decides only the order in
  which the entities come.
-/
import OrmGen.Proofs.Schema.Declared
import OrmGen.Proofs.Schema.Pairing

namespace OrmGen.Schema

variable {s s' t t' : Schema} {j k : String} {e : Entity}
  {ds ds' : List (String × Json)}

/-- Two schemas have the same entities, in one order or another. -/
def SameEntities (s s' : Schema) : Prop := ∀ k, s.get? k = s'.get? k

theorem SameEntities.mem_keys_iff (h : SameEntities s s') :
    k ∈ s.entities.keys ↔ k ∈ s'.entities.keys := by
  rw [← OrderedMap.contains_iff, ← OrderedMap.contains_iff]
  unfold OrderedMap.contains
  rw [← get?, ← get?, h k]

theorem SameEntities.mem_values_iff (h : SameEntities s s') :
    e ∈ s.entities.values ↔ e ∈ s'.entities.values := by
  rw [OrderedMap.mem_values_iff, OrderedMap.mem_values_iff]
  exact exists_congr fun k => by rw [← get?, ← get?, h k]

/-- In the two schemas the entities at `j` and `k` stand in opposite order. -/
def Opposed (s s' : Schema) (j k : String) : Prop :=
  j ∈ s.entities.keysBefore k ∧ k ∈ s'.entities.keysBefore j ∨
    k ∈ s.entities.keysBefore j ∧ j ∈ s'.entities.keysBefore k

theorem opposed_iff (h : SameEntities s s') (hj : j ∈ s.entities.keys) (hk : k ∈ s.entities.keys) :
    Opposed s s' j k ↔ ¬(j ∈ s.entities.keysBefore k ↔ j ∈ s'.entities.keysBefore k) := by
  unfold Opposed
  by_cases hjk : j = k
  · have hself : ∀ t : Schema, k ∉ t.entities.keysBefore k := fun _ hmem =>
      OrderedMap.ne_of_mem_keysBefore hmem rfl
    simp [hjk, hself]
  · rw [OrderedMap.mem_keysBefore_iff hj hk hjk,
      OrderedMap.mem_keysBefore_iff (h.mem_keys_iff.1 hj) (h.mem_keys_iff.1 hk) hjk]
    tauto

/-! ## Reading -/

theorem exists_readEntities_iff : (∃ es, readEntities ds = .ok es) ↔
    ∀ d ∈ ds, ∃ e, readEntity d.1 d.2 = .ok e := by
  constructor
  · rintro ⟨es, hes⟩
    have hread := readEntities_eq_ok hes
    intro d hd
    obtain ⟨e, _, he⟩ := exists_of_forall₂ hread.flip hd
    exact ⟨e, he⟩
  · intro hall
    induction ds with
    | nil => exact ⟨[], rfl⟩
    | cons d ds ih =>
      rw [List.forall_mem_cons] at hall
      obtain ⟨e, he⟩ := hall.1
      obtain ⟨es, hes⟩ := ih hall.2
      exact ⟨e :: es, bind_eq_ok.2 ⟨e, he, bind_eq_ok.2 ⟨es, hes, rfl⟩⟩⟩

/-- The order of declaration does not decide whether entities can be read. -/
theorem exists_ofDeclarations_of_perm (hperm : ds.Perm ds')
    (h : ofDeclarations (.object ds) = .ok s) : ∃ s', ofDeclarations (.object ds') = .ok s' := by
  obtain ⟨es, hes, _⟩ := bind_eq_ok.1 h
  have hall := exists_readEntities_iff.1 ⟨es, hes⟩
  obtain ⟨es', hes'⟩ := exists_readEntities_iff.2 fun d hd => hall d (hperm.mem_iff.2 hd)
  exact ⟨_, bind_eq_ok.2 ⟨es', hes', rfl⟩⟩

/-- Of distinct keys each has its value in any order. -/
theorem get?_declaredEntities (hnodup : (ds.map Prod.fst).Nodup) {d : Json} :
    (declaredEntities (.object ds)).get? k = some d ↔ (k, d) ∈ ds := by
  rw [← OrderedMap.mem_entries_iff]
  show (k, d) ∈ (OrderedMap.ofList ds).entries ↔ (k, d) ∈ ds
  rw [OrderedMap.entries_ofList hnodup]

theorem get?_ofDeclarations_iff (hnodup : (ds.map Prod.fst).Nodup)
    (h : ofDeclarations (.object ds) = .ok s) :
    s.get? k = some e ↔ ∃ d, (k, d) ∈ ds ∧ readEntity k d = .ok e := by
  constructor
  · intro he
    obtain ⟨d, hd, hread⟩ := declared_of_get? h he
    exact ⟨d, (get?_declaredEntities hnodup).1 hd, hread⟩
  · rintro ⟨d, hd, hread⟩
    obtain ⟨e', he', hread'⟩ := get?_of_declared h ((get?_declaredEntities hnodup).2 hd)
    rw [hread, Except.ok.injEq] at hread'
    rw [hread']
    exact he'

/-- The order of declaration does not decide what is read. -/
theorem sameEntities_of_perm (hperm : ds.Perm ds') (hnodup : (ds.map Prod.fst).Nodup)
    (h : ofDeclarations (.object ds) = .ok s) (h' : ofDeclarations (.object ds') = .ok s') :
    SameEntities s s' := by
  intro k
  apply Option.ext
  intro e
  have hnodup' : (ds'.map Prod.fst).Nodup := (hperm.map Prod.fst).nodup_iff.1 hnodup
  rw [get?_ofDeclarations_iff hnodup h, get?_ofDeclarations_iff hnodup' h']
  exact exists_congr fun d => by rw [hperm.mem_iff]

theorem declaredNames_of_perm (hperm : ds.Perm ds') {n : String} :
    n ∈ declaredNames (.object ds) ↔ n ∈ declaredNames (.object ds') := by
  unfold declaredNames
  rw [List.mem_flatMap, List.mem_flatMap]
  exact exists_congr fun d => by rw [hperm.mem_iff]

/-! ## Linking -/

/-- Linking an entity looks other entities up by name. -/
theorem linkEntity_congr (h : SameEntities s s') : s.linkEntity = s'.linkEntity := by
  have hendpoint : s.sourceEndpoint = s'.sourceEndpoint := by
    funext source name r
    unfold sourceEndpoint
    rw [h]
  funext source e
  unfold linkEntity linkRelation
  rw [hendpoint]

/-- The order of entities does not decide whether a schema can be linked. -/
theorem exists_link_of_sameEntities (h : SameEntities s s') (ht : s.link = .ok t) :
    ∃ t', s'.link = .ok t' := by
  have hall : ∀ {k e}, s'.entities.get? k = some e → ∃ w, s'.linkEntity k e = .ok w := by
    intro k e he
    rw [← linkEntity_congr h]
    exact OrderedMap.exists_traverse_iff.1 ⟨_, traverse_of_link ht⟩ ((h k).trans he)
  obtain ⟨es, hes⟩ := OrderedMap.exists_traverse_iff.2 hall
  rw [link_eq_traverse]
  exact ⟨⟨es⟩, map_eq_ok.2 ⟨es, hes, rfl⟩⟩

theorem get?_link_iff (ht : s.link = .ok t) :
    t.get? k = some e ↔ ∃ e₀, s.get? k = some e₀ ∧ s.linkEntity k e₀ = .ok e := by
  constructor
  · exact get?_of_link ht
  · rintro ⟨e₀, he₀, hlink⟩
    obtain ⟨e', he', hlink'⟩ := get?_link ht he₀
    rw [hlink, Except.ok.injEq] at hlink'
    rw [hlink']
    exact he'

/-- The order of entities does not decide what they are linked to. -/
theorem sameEntities_of_link (h : SameEntities s s') (ht : s.link = .ok t)
    (ht' : s'.link = .ok t') : SameEntities t t' := by
  intro k
  apply Option.ext
  intro e
  rw [get?_link_iff ht, get?_link_iff ht', linkEntity_congr h, h k]

/-- Entities declared in another order make a schema with the same entities. -/
theorem exists_link_of_perm (hperm : ds.Perm ds') (hnodup : (ds.map Prod.fst).Nodup)
    (hs : ofDeclarations (.object ds) = .ok s) (ht : s.link = .ok t) :
    ∃ s' t', ofDeclarations (.object ds') = .ok s' ∧ s'.link = .ok t' ∧ SameEntities t t' := by
  obtain ⟨s', hs'⟩ := exists_ofDeclarations_of_perm hperm hs
  have hsame := sameEntities_of_perm hperm hnodup hs hs'
  obtain ⟨t', ht'⟩ := exists_link_of_sameEntities hsame ht
  exact ⟨s', t', hs', ht', sameEntities_of_link hsame ht ht'⟩

end OrmGen.Schema
