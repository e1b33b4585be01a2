/-
  Schemas in which all names are words. What a linked schema is made of comes from the value
  that declares it, so words there are words here (`NamedByWords.relation_isWord`). Then the
  name of a relation leads back to it: `NamedByWords.eq_or_swap_of_pairId_eq`, two relations
  of the schema with one name are one relation or the two ends of one.
-/
import OrmGen.Proofs.Schema.Identity
import OrmGen.Proofs.Schema.Pairing

namespace OrmGen.Schema

open OrderedMap (mem_values_iff)

/-- The schema `t` is linked and declared by the value `v`, in which all names are words. -/
structure NamedByWords (v : Json) (t : Schema) : Prop where
  linked : ∃ s, ofDeclarations v = .ok s ∧ s.link = .ok t
  names : ∀ n ∈ declaredNames v, Text.isWord n = true

variable {v : Json} {s t : Schema} {k k' n : String} {e e' target : Entity} {r r' : Relation}

theorem counterpart?_eq_some_iff {source : String} {c : Relation} :
    t.counterpart? source r = some c ↔
      ∃ target, t.get? r.target.entity = some target ∧ counterparts source target = [c] := by
  unfold counterpart?
  cases htarget : t.get? r.target.entity with
  | none => simp
  | some target =>
    rcases hc : counterparts source target with _ | ⟨d, _ | ⟨d', ds⟩⟩ <;> simp [hc]

namespace NamedByWords

theorem wellFormed (h : NamedByWords v t) : t.WellFormed := by
  obtain ⟨s, hs, ht⟩ := h.linked
  exact wellFormed_of_link (wellFormed_of_ofDeclarations hs) ht

theorem isWord (h : NamedByWords v t) (he : t.get? k = some e) :
    Text.isWord k = true ∧ ∀ {n r}, e.relations.get? n = some r → Text.isWord n = true := by
  obtain ⟨s, hs, ht⟩ := h.linked
  obtain ⟨e₀, he₀, hentity⟩ := get?_of_link ht he
  obtain ⟨hk, hn⟩ := mem_declaredNames hs he₀
  refine ⟨h.names k hk, ?_⟩
  intro n r hr
  obtain ⟨r₀, hr₀, _⟩ := get?_of_linkEntity hentity hr
  exact h.names n (hn hr₀)

/-- The other end of a relation: either an enumeration that has no relations, or an entity
with the same relation seen from there. -/
theorem exists_target (h : NamedByWords v t) (he : t.get? k = some e)
    (hr : r ∈ e.relations.values) : ∃ target, t.get? r.target.entity = some target ∧
      (r.source = ⟨k, "", .many⟩ ∧ target.kind = .enumeration ∨ t.IsPair k target r r.swap) := by
  obtain ⟨s, hs, ht⟩ := h.linked
  obtain ⟨n, hn⟩ := mem_values_iff.1 hr
  obtain ⟨target, htarget, hcase⟩ := sourceEndpoint_eq_ok.1 (sourceEndpoint_of_link ht he hn)
  refine ⟨target, htarget, ?_⟩
  by_cases henum : isEnumRelation r target = true
  · rcases hcase with ⟨_, hsource⟩ | ⟨hfalse, _⟩
    · have hkind : target.kind = .enumeration := by
        simp only [isEnumRelation, Bool.and_eq_true, decide_eq_true_eq] at henum
        exact henum.2
      exact .inl ⟨hsource, hkind⟩
    · rw [henum] at hfalse
      cases hfalse
  · exact .inr (isPair_of_link h.wellFormed ht he hr htarget (by simpa using henum))

theorem source_entity (h : NamedByWords v t) (he : t.get? k = some e)
    (hr : r ∈ e.relations.values) : r.source.entity = k := by
  obtain ⟨target, _, ⟨hsource, _⟩ | hpair⟩ := h.exists_target he hr
  · rw [hsource]
  · exact hpair.source_entity

/-- A relation and its counterpart are the two ends of one. -/
theorem isPair_of_counterpart? (h : NamedByWords v t) (he : t.get? k = some e)
    (hr : r ∈ e.relations.values) {c : Relation} (hc : t.counterpart? k r = some c) :
    c = r.swap ∧ ∃ target, t.get? r.target.entity = some target ∧ t.IsPair k target r r.swap := by
  obtain ⟨target, htarget, honly⟩ := counterpart?_eq_some_iff.1 hc
  obtain ⟨target', htarget', ⟨_, hkind⟩ | hpair⟩ := h.exists_target he hr
  · obtain rfl : target = target' := Option.some.inj (htarget.symm.trans htarget')
    obtain ⟨hmem, _⟩ := mem_counterparts.1 (honly ▸ List.mem_singleton_self c)
    obtain ⟨m, hm⟩ := mem_values_iff.1 hmem
    rw [(h.wellFormed.entity htarget).kind_of_relation hm] at hkind
    cases hkind
  · exact ⟨Option.some.inj (hc.symm.trans hpair.counterpart), target', htarget', hpair⟩

/-- A relation between the same two entities as a relation with a counterpart is one of its
two ends. -/
theorem eq_or_eq_of_entities_eq (h : NamedByWords v t) (he : t.get? k = some e)
    (hr : r ∈ e.relations.values) {c : Relation} (hc : t.counterpart? k r = some c)
    (he' : t.get? k' = some e') (hr' : r' ∈ e'.relations.values)
    (heq : k' = k ∧ r'.target.entity = r.target.entity ∨
      k' = r.target.entity ∧ r'.target.entity = k) : r' = r ∨ r' = c := by
  obtain ⟨rfl, target, htarget, hpair⟩ := h.isPair_of_counterpart? he hr hc
  rcases heq with ⟨rfl, hto⟩ | ⟨rfl, hto⟩
  · obtain rfl : e = e' := Option.some.inj (he.symm.trans he')
    obtain ⟨e₁, he₁, honly⟩ := counterpart?_eq_some_iff.1 hpair.back
    rw [show r.swap.target.entity = k' from hpair.source_entity, he] at he₁
    obtain rfl : e = e₁ := Option.some.inj he₁
    have hmem : r' ∈ counterparts r.target.entity e := mem_counterparts.2 ⟨hr', hto⟩
    rw [honly, List.mem_singleton] at hmem
    exact .inl hmem
  · obtain rfl : target = e' := Option.some.inj (htarget.symm.trans he')
    have hmem : r' ∈ counterparts k target := mem_counterparts.2 ⟨hr', hto⟩
    rw [hpair.only, List.mem_singleton] at hmem
    exact .inr hmem

/-- All names of a relation are words. -/
theorem relation_isWord (h : NamedByWords v t) (he : t.get? k = some e)
    (hr : r ∈ e.relations.values) : r.IsWord := by
  obtain ⟨n, hn⟩ := mem_values_iff.1 hr
  obtain ⟨target, htarget, hcase⟩ := h.exists_target he hr
  have hname : r.target.name = n := (h.wellFormed.entity he).relation_name hn
  have hsource : Text.isWord r.source.name = true := by
    rcases hcase with ⟨hsource, _⟩ | hpair
    · rw [hsource]
      rfl
    · obtain ⟨m, hm⟩ := mem_values_iff.1 hpair.mem
      have hm' : r.source.name = m := (h.wellFormed.entity htarget).relation_name hm
      rw [hm']
      exact (h.isWord htarget).2 hm
  refine ⟨⟨?_, hsource⟩, (h.isWord htarget).1, ?_⟩
  · rw [h.source_entity he hr]
    exact (h.isWord he).1
  · rw [hname]
    exact (h.isWord he).2 hn

/-- Two relations with one name are one relation or the two ends of one. -/
theorem eq_or_swap_of_pairId_eq (h : NamedByWords v t) (he : t.get? k = some e)
    (hr : r ∈ e.relations.values) (he' : t.get? k' = some e') (hr' : r' ∈ e'.relations.values)
    (hid : r.pairId = r'.pairId) :
    r' = r ∨ r' = r.swap ∧ (r.source.entity = r.target.entity → r' = r) := by
  have hk := h.source_entity he hr
  have hk' := h.source_entity he' hr'
  obtain ⟨m, hm⟩ := mem_values_iff.1 hr'
  have hname' : r'.target.name = m := (h.wellFormed.entity he').relation_name hm
  have hword := h.relation_isWord he hr
  rcases Relation.places_eq_of_pairId_eq (x := ' ') (hword.avoids (by decide)) (by decide)
      (hword.avoids (by decide)) hid with ⟨hsource, htarget⟩ | ⟨hsource, htarget⟩
  · -- the same place in the same entity
    have hkk : k = k' := by
      rw [← hk, ← hk']
      exact congrArg Prod.fst hsource
    subst hkk
    obtain rfl : e = e' := Option.some.inj (he.symm.trans he')
    obtain ⟨n, hn⟩ := mem_values_iff.1 hr
    have hnm : n = m := by
      rw [← (h.wellFormed.entity he).relation_name hn, ← hname']
      exact congrArg Prod.snd htarget
    subst hnm
    exact .inl (Option.some.inj (hm.symm.trans hn))
  · -- the place that `r` points at
    have htarget' : r.target.entity = k' := by
      rw [← hk']
      exact congrArg Prod.fst htarget
    obtain ⟨target, hget, hcase⟩ := h.exists_target he hr
    rw [htarget'] at hget
    obtain rfl : e' = target := Option.some.inj (he'.symm.trans hget)
    rcases hcase with ⟨_, hkind⟩ | hpair
    · rw [(h.wellFormed.entity he').kind_of_relation hm] at hkind
      cases hkind
    · obtain ⟨i, hi⟩ := mem_values_iff.1 hpair.mem
      have him : i = m := by
        rw [← (h.wellFormed.entity he').relation_name hi, ← hname']
        exact congrArg Prod.snd hsource
      subst him
      have hswap : r' = r.swap := Option.some.inj (hm.symm.trans hi)
      refine .inr ⟨hswap, fun hself => ?_⟩
      rw [hswap]
      exact hpair.self_iff.2 (hk.symm.trans hself)

end NamedByWords
end OrmGen.Schema
