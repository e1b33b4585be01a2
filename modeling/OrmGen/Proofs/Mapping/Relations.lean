/-
  What adding relations does to a class and to the claims. A property once added stays
  (`get?_of_addRelations`), each relation leaves its property in the class, made with the
  claims of that moment (`addRelations_split`), and the claims grow by the names of the
  symmetric associations and by nothing else (`mem_names_of_addRelations`).
-/
import OrmGen.Mapping.Reference
import OrmGen.Proofs.Traversal

namespace OrmGen.Mapping

open OrderedMap (get?_insert)

/-- Whether both ends of an association are of one kind, so that it has to be claimed. -/
def Association.isSymmetric : Association → Bool
  | .oneToOne | .manyToMany => true
  | .manyToOne | .oneToMany => false

theorem Association.isSymmetric_iff {a : Association} :
    a.isSymmetric = true ↔ a = .oneToOne ∨ a = .manyToMany := by
  cases a <;> simp [isSymmetric]

/-- The association that a relation is; none if it refers to an enumeration. -/
def associationOf? (r : Relation) : Option Association :=
  if r.target.cardinality = .enumeration then none
  else Association.ofCardinalities? r.source.cardinality r.target.cardinality

/-- Whether building a relation claims its name. -/
def isClaimed (r : Relation) : Bool := (associationOf? r).any Association.isSymmetric

variable {config : Config} {entity n : String} {claims claims' : Claims} {c c' : Php.Class}
  {r : Relation} {rs : List Relation} {p : Php.Property} {a : Association}

/-! ## Sides and claims -/

theorem mem_names_claim {m : String} :
    n ∈ (claims.claim m).2.names ↔ n ∈ claims.names ∨ n = m := by
  unfold Claims.claim
  split
  · rename_i hmem
    exact ⟨.inl, fun h => h.elim id fun e => e ▸ hmem⟩
  · rw [List.mem_cons]
    exact or_comm

theorem mem_names_side : n ∈ (a.side claims r).2.names ↔
    n ∈ claims.names ∨ a.isSymmetric = true ∧ n = r.canonicalId := by
  cases a <;> simp [Association.side, Association.isSymmetric, mem_names_claim]

/-- A symmetric association is owned by the end that is built before its name is claimed. -/
theorem side_eq_of_isSymmetric (h : a.isSymmetric = true) : (a.side claims r).1 =
    if r.canonicalId ∈ claims.names then .inverse else .owning := by
  have hclaim : (claims.claim r.canonicalId).1 =
      if r.canonicalId ∈ claims.names then .inverse else .owning := by
    unfold Claims.claim
    split <;> rfl
  cases a with
  | oneToOne => exact hclaim
  | manyToMany => exact hclaim
  | manyToOne => cases h
  | oneToMany => cases h

/-! ## One relation -/

@[simp] theorem associationProperty_name (a : Association) (side : Side) (r : Relation) :
    (associationProperty a side r).name = r.target.name := by
  unfold associationProperty
  split <;> rfl

@[simp] theorem associationProperty_annotations (a : Association) (side : Side) (r : Relation) :
    (associationProperty a side r).annotations = [associationTag a side r] := by
  unfold associationProperty
  split <;> rfl

@[simp] theorem associationProperty_isConstant (a : Association) (side : Side) (r : Relation) :
    (associationProperty a side r).isConstant = false := by
  unfold associationProperty
  split <;> rfl

theorem relationProperty_eq_ok (h : relationProperty entity claims r = (.ok p, claims')) :
    p.name = r.target.name ∧
      (∀ n, n ∈ claims'.names ↔ n ∈ claims.names ∨ isClaimed r = true ∧ n = r.canonicalId) ∧
      (r.target.cardinality ≠ .enumeration → ∃ a, associationOf? r = some a ∧
        p = associationProperty a (a.side claims r).1 r) := by
  unfold relationProperty at h
  unfold isClaimed associationOf?
  split at h
  · rename_i henum
    rw [Prod.mk.injEq, Except.ok.injEq] at h
    obtain ⟨rfl, rfl⟩ := h
    refine ⟨rfl, ?_, fun hne => absurd henum hne⟩
    simp [henum]
  · rename_i henum
    cases ha : Association.ofCardinalities? r.source.cardinality r.target.cardinality with
    | none =>
      rw [ha] at h
      simp at h
    | some a =>
      rw [ha] at h
      simp only [Prod.mk.injEq, Except.ok.injEq] at h
      obtain ⟨rfl, rfl⟩ := h
      refine ⟨associationProperty_name .., ?_, fun _ => ⟨a, by simp [henum], rfl⟩⟩
      simp [henum, mem_names_side]

theorem addProperty_eq_ok (h : c.addProperty p = .ok c') :
    c.properties.get? p.name = none ∧ c'.properties = c.properties.insert p.name p := by
  unfold Php.Class.addProperty at h
  split at h
  · cases h
  · rename_i hnew
    rw [Except.ok.injEq] at h
    subst h
    refine ⟨?_, rfl⟩
    simpa [OrderedMap.contains] using hnew

theorem addImport_eq_ok {statement : String} (h : c.addImport statement = .ok c') :
    c'.properties = c.properties := by
  obtain ⟨t, _, rfl⟩ := map_eq_ok.1 h
  rfl

/-- Adding a relation makes its property with the claims so far and puts it in a free place. -/
theorem addRelation_eq_ok (h : addRelation config entity claims c r = (.ok c', claims')) :
    ∃ p, relationProperty entity claims r = (.ok p, claims') ∧
      c.properties.get? p.name = none ∧ c'.properties = c.properties.insert p.name p := by
  unfold addRelation at h
  split at h
  · simp at h
  · rename_i c₁ hc₁
    rw [Prod.mk.injEq] at h
    obtain ⟨hadd, hclaims⟩ := h
    obtain ⟨p, hp, hadd⟩ := bind_eq_ok.1 hadd
    obtain ⟨hfree, hput⟩ := addProperty_eq_ok hadd
    rw [addImport_eq_ok hc₁] at hfree hput
    exact ⟨p, Prod.ext hp hclaims, hfree, hput⟩

/-! ## All relations of an entity -/

theorem addRelations_cons_eq_ok
    (h : addRelations config entity claims c (r :: rs) = (.ok c', claims')) :
    ∃ c₁ claims₁, addRelation config entity claims c r = (.ok c₁, claims₁) ∧
      addRelations config entity claims₁ c₁ rs = (.ok c', claims') := by
  rw [addRelations] at h
  split at h
  · simp at h
  · rename_i c₁ claims₁ hr
    exact ⟨c₁, claims₁, hr, h⟩

theorem get?_of_addRelations (h : addRelations config entity claims c rs = (.ok c', claims'))
    (hp : c.properties.get? n = some p) : c'.properties.get? n = some p := by
  induction rs generalizing c claims with
  | nil =>
    rw [addRelations, Prod.mk.injEq, Except.ok.injEq] at h
    rw [← h.1, hp]
  | cons r rs ih =>
    obtain ⟨c₁, claims₁, hr, hrs⟩ := addRelations_cons_eq_ok h
    obtain ⟨q, _, hfree, hput⟩ := addRelation_eq_ok hr
    refine ih hrs ?_
    have hne : n ≠ q.name := fun e => by
      rw [e, hfree] at hp
      cases hp
    rw [hput, get?_insert, if_neg hne, hp]

theorem mem_names_of_addRelations
    (h : addRelations config entity claims c rs = (.ok c', claims')) :
    n ∈ claims'.names ↔ n ∈ claims.names ∨ ∃ r ∈ rs, isClaimed r = true ∧ n = r.canonicalId := by
  induction rs generalizing c claims with
  | nil =>
    rw [addRelations, Prod.mk.injEq] at h
    simp [h.2]
  | cons r rs ih =>
    obtain ⟨c₁, claims₁, hr, hrs⟩ := addRelations_cons_eq_ok h
    obtain ⟨q, hq, _, _⟩ := addRelation_eq_ok hr
    rw [ih hrs, (relationProperty_eq_ok hq).2.1, List.exists_mem_cons_iff, or_assoc]

/-- A relation leaves its property in the class, made with what was claimed before it. -/
theorem addRelations_split {pre post : List Relation}
    (h : addRelations config entity claims c (pre ++ r :: post) = (.ok c', claims')) :
    ∃ claims₁ claims₂ p, (∀ n, n ∈ claims₁.names ↔
        n ∈ claims.names ∨ ∃ r ∈ pre, isClaimed r = true ∧ n = r.canonicalId) ∧
      relationProperty entity claims₁ r = (.ok p, claims₂) ∧
      c'.properties.get? r.target.name = some p := by
  induction pre generalizing c claims with
  | nil =>
    obtain ⟨c₁, claims₁, hr, hrs⟩ := addRelations_cons_eq_ok h
    obtain ⟨p, hp, _, hput⟩ := addRelation_eq_ok hr
    refine ⟨claims, claims₁, p, by simp, hp, get?_of_addRelations hrs ?_⟩
    rw [hput, get?_insert, (relationProperty_eq_ok hp).1, if_pos rfl]
  | cons q pre ih =>
    obtain ⟨c₁, claims₁, hq, hrs⟩ := addRelations_cons_eq_ok h
    obtain ⟨p, hp, _, _⟩ := addRelation_eq_ok hq
    obtain ⟨claims₂, claims₃, p', hnames, hp', hget⟩ := ih hrs
    refine ⟨claims₂, claims₃, p', ?_, hp', hget⟩
    intro n
    rw [hnames, (relationProperty_eq_ok hp).2.1, List.exists_mem_cons_iff, or_assoc]

end OrmGen.Mapping
