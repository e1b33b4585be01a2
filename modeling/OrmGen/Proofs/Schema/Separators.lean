/-
  Separators in names. `Relation.canonicalId` and `Relation.pairId` put the names of entities
  and fields side by side and escape nothing in them. Names that contain what stands between
  them can be cut in more than one way, so that relations with different ends share a name.

  `Relation.ids_identify_iff` says for every set of characters whether names spelled in it are
  safe. The canonical name tells relations apart if and only if there is no blank in the set;
  the name of the pair if and only if there is no dot and one of the four characters of the
  arrow is missing.

  `Schema.separators_merge_relations` has two linked schemas in which relations to different
  entities share a name. In one of them the diagram takes the two for declarations of one
  relation that disagree, and is refused.
-/
import Mathlib.Data.Sym.Sym2
import OrmGen.Diagram
import OrmGen.Proofs.Schema.Identity
import OrmGen.Proofs.Traversal
import OrmGen.Schema.Declaration
import OrmGen.Schema.Linking

namespace OrmGen

/-- Whether the names of an endpoint are spelled in certain characters. -/
def Endpoint.SpelledIn (allowed : Char → Prop) (p : Endpoint) : Prop :=
  (∀ c ∈ p.entity.toList, allowed c) ∧ ∀ c ∈ p.name.toList, allowed c

theorem Endpoint.SpelledIn.avoids {allowed : Char → Prop} {p : Endpoint} {x : Char}
    (h : p.SpelledIn allowed) (hx : ¬ allowed x) : p.Avoids x :=
  ⟨fun hmem => hx (h.1 x hmem), fun hmem => hx (h.2 x hmem)⟩

theorem Endpoint.path_eq_of_place_eq {p q : Endpoint} (h : p.place = q.place) :
    p.path = q.path := by
  obtain ⟨hentity, hname⟩ := Prod.mk.inj h
  unfold path
  rw [hentity, hname]

namespace Relation

variable {allowed : Char → Prop} {r r' : Relation} {x : Char}

/-- Whether all names of a relation are spelled in certain characters. -/
def SpelledIn (allowed : Char → Prop) (r : Relation) : Prop :=
  r.source.SpelledIn allowed ∧ r.target.SpelledIn allowed

theorem SpelledIn.avoids (h : r.SpelledIn allowed) (hx : ¬ allowed x) : r.Avoids x :=
  ⟨h.1.avoids hx, h.2.avoids hx⟩

/-! ## Ends in no order -/

/-- The endpoints of a relation, in no order. -/
def ends (r : Relation) : Sym2 Endpoint := s(r.source, r.target)

/-- The places of the endpoints of a relation, in no order. -/
def places (r : Relation) : Sym2 (String × String) := s(r.source.place, r.target.place)

theorem ends_eq_iff : r.ends = r'.ends ↔ r' = r ∨ r' = r.swap := by
  obtain ⟨p, q⟩ := r
  obtain ⟨p', q'⟩ := r'
  unfold ends swap
  rw [Sym2.eq_iff, Relation.mk.injEq, Relation.mk.injEq]
  constructor
  · rintro (⟨rfl, rfl⟩ | ⟨rfl, rfl⟩)
    · exact .inl ⟨rfl, rfl⟩
    · exact .inr ⟨rfl, rfl⟩
  · rintro (⟨rfl, rfl⟩ | ⟨rfl, rfl⟩)
    · exact .inl ⟨rfl, rfl⟩
    · exact .inr ⟨rfl, rfl⟩

theorem places_eq_iff : r.places = r'.places ↔
    r.source.place = r'.source.place ∧ r.target.place = r'.target.place ∨
      r.source.place = r'.target.place ∧ r.target.place = r'.source.place :=
  Sym2.eq_iff

theorem canonicalId_eq_of_ends_eq (h : r.ends = r'.ends) : r.canonicalId = r'.canonicalId := by
  rcases ends_eq_iff.1 h with rfl | rfl
  · rfl
  · exact r.canonicalId_swap.symm

theorem pairId_eq_of_places_eq (h : r.places = r'.places) : r.pairId = r'.pairId := by
  rcases places_eq_iff.1 h with ⟨hsource, htarget⟩ | ⟨hsource, htarget⟩
  · unfold pairId
    rw [Endpoint.path_eq_of_place_eq hsource, Endpoint.path_eq_of_place_eq htarget]
  · rw [← r'.pairId_swap]
    unfold pairId swap
    rw [Endpoint.path_eq_of_place_eq hsource, Endpoint.path_eq_of_place_eq htarget]

/-! ## Safe characters -/

theorem canonicalId_eq_iff_ends_eq (hr : r.Avoids ' ') :
    r.canonicalId = r'.canonicalId ↔ r.ends = r'.ends :=
  (canonicalId_eq_iff hr).trans ends_eq_iff.symm

theorem pairId_eq_iff_places_eq (hdot : r.Avoids '.') (harrow : x ∈ " <-> ".toList)
    (hx : r.Avoids x) : r.pairId = r'.pairId ↔ r.places = r'.places :=
  ⟨fun h => places_eq_iff.2 (places_eq_of_pairId_eq hdot harrow hx h), pairId_eq_of_places_eq⟩

/-! ## Names that can be cut twice -/

/-- A relation between single entities with the given names at its ends. -/
def between (entity name entity' name' : String) : Relation :=
  ⟨⟨entity, name, .one⟩, ⟨entity', name', .one⟩⟩

/-- A blank belongs to the entity or to the field. -/
theorem exists_canonicalId_eq_of_blank (h : allowed ' ') : ∃ r r' : Relation,
    r.SpelledIn allowed ∧ r'.SpelledIn allowed ∧ r.canonicalId = r'.canonicalId ∧
      r.ends ≠ r'.ends := by
  refine ⟨between " " "" "" "", between "" " " "" "", ?_, ?_, by decide +kernel, ?_⟩
  · simp [SpelledIn, Endpoint.SpelledIn, between, h]
  · simp [SpelledIn, Endpoint.SpelledIn, between, h]
  · rw [Ne, ends_eq_iff]
    decide

/-- A dot belongs to the entity or to the field. -/
theorem exists_pairId_eq_of_dot (h : allowed '.') : ∃ r r' : Relation,
    r.SpelledIn allowed ∧ r'.SpelledIn allowed ∧ r.pairId = r'.pairId ∧
      r.places ≠ r'.places := by
  refine ⟨between "." "" "" "", between "" "." "" "", ?_, ?_, by decide +kernel, ?_⟩
  · simp [SpelledIn, Endpoint.SpelledIn, between, h]
  · simp [SpelledIn, Endpoint.SpelledIn, between, h]
  · rw [Ne, places_eq_iff]
    decide

/-- Two arrows that share a blank: either of them separates the ends. -/
theorem exists_pairId_eq_of_arrow (h : ∀ x ∈ " <-> ".toList, allowed x) : ∃ r r' : Relation,
    r.SpelledIn allowed ∧ r'.SpelledIn allowed ∧ r.pairId = r'.pairId ∧
      r.places ≠ r'.places := by
  have hchars : allowed ' ' ∧ allowed '<' ∧ allowed '-' ∧ allowed '>' :=
    ⟨h _ (by decide), h _ (by decide), h _ (by decide), h _ (by decide)⟩
  refine ⟨between "" " <->" "<" "", between "" "" "<-> <" "", ?_, ?_, by decide +kernel, ?_⟩
  · simp [SpelledIn, Endpoint.SpelledIn, between, hchars]
  · simp [SpelledIn, Endpoint.SpelledIn, between, hchars]
  · rw [Ne, places_eq_iff]
    decide

/-- The same ends, in any order, give the same name, and the same places the same name of the
pair. Conversely, a relation without blanks in its names shares its name with no relation that
has other ends, whatever the names of that one; and one without dots and without one of the
characters of the arrow shares its name of the pair with none that has its ends in other places.
No other characters matter: among the relations spelled in a set of characters, a name stands for
the same ends if and only if the set leaves out the blank, and a name of the pair for the same
places if and only if it leaves out the dot and some character of the arrow. -/
theorem ids_identify_iff (allowed : Char → Prop) :
    (∀ r r' : Relation, (r.ends = r'.ends → r.canonicalId = r'.canonicalId) ∧
      (r.places = r'.places → r.pairId = r'.pairId)) ∧
    (∀ r r' : Relation,
      (r.Avoids ' ' → (r.canonicalId = r'.canonicalId ↔ r.ends = r'.ends)) ∧
      (r.Avoids '.' → ∀ x ∈ " <-> ".toList, r.Avoids x →
        (r.pairId = r'.pairId ↔ r.places = r'.places))) ∧
    ((∀ r r' : Relation, r.SpelledIn allowed → r'.SpelledIn allowed →
      (r.canonicalId = r'.canonicalId ↔ r.ends = r'.ends)) ↔ ¬ allowed ' ') ∧
    ((∀ r r' : Relation, r.SpelledIn allowed → r'.SpelledIn allowed →
      (r.pairId = r'.pairId ↔ r.places = r'.places)) ↔
        ¬ allowed '.' ∧ ∃ x ∈ " <-> ".toList, ¬ allowed x) := by
  refine ⟨fun r r' => ⟨canonicalId_eq_of_ends_eq, pairId_eq_of_places_eq⟩,
    fun r r' => ⟨canonicalId_eq_iff_ends_eq, fun hdot _ => pairId_eq_iff_places_eq hdot⟩, ?_, ?_⟩
  · constructor
    · intro h hblank
      obtain ⟨r, r', hr, hr', hid, hends⟩ := exists_canonicalId_eq_of_blank hblank
      exact hends ((h r r' hr hr').1 hid)
    · intro hblank r r' hr _
      exact canonicalId_eq_iff_ends_eq (hr.avoids hblank)
  · constructor
    · intro h
      constructor
      · intro hdot
        obtain ⟨r, r', hr, hr', hid, hplaces⟩ := exists_pairId_eq_of_dot hdot
        exact hplaces ((h r r' hr hr').1 hid)
      · by_contra hnone
        have harrow : ∀ x ∈ " <-> ".toList, allowed x :=
          fun x hx => not_not.1 fun hnot => hnone ⟨x, hx, hnot⟩
        obtain ⟨r, r', hr, hr', hid, hplaces⟩ := exists_pairId_eq_of_arrow harrow
        exact hplaces ((h r r' hr hr').1 hid)
    · rintro ⟨hdot, x, harrow, hx⟩ r r' hr _
      exact pairId_eq_iff_places_eq (hr.avoids hdot) harrow (hr.avoids hx)

end Relation

namespace Schema

/-- Labels of shops and of their items, in names whose words are put together by `sep`. -/
def labelled (sep : String) : Json :=
  let many (target : String) : Json :=
    .object [("relation", .string "many"), ("target", .string target)]
  .object [
    ("Label", .object [
      ("owner", many ("Shop" ++ sep ++ "Item")), ("Item" ++ sep ++ "owner", many "Shop")]),
    ("Shop", .object [("labels", many "Label")]),
    ("Shop" ++ sep ++ "Item", .object [("labels", many "Label")])]

/-- The relation of a label to a shop. -/
def toShop (sep : String) : Relation :=
  ⟨⟨"Label", "labels", .many⟩, ⟨"Shop", "Item" ++ sep ++ "owner", .many⟩⟩

/-- The relation of a label to an item. -/
def toItem (sep : String) : Relation :=
  ⟨⟨"Label", "labels", .many⟩, ⟨"Shop" ++ sep ++ "Item", "owner", .many⟩⟩

/-- Both relations of the labels are in a schema. -/
def StandIn (sep : String) (t : Schema) : Prop :=
  ∃ e ∈ t.entities.values, toShop sep ∈ e.relations.values ∧ toItem sep ∈ e.relations.values

instance (sep : String) : DecidablePred (StandIn sep) :=
  fun _ => inferInstanceAs (Decidable (∃ e ∈ _, _))

/-- With dots the name of the pair merges two relations and the diagram is refused, with blanks
the canonical name does. In each case the other name tells them apart. -/
theorem separators_merge_relations :
    (∃ s t, ofDeclarations (labelled ".") = .ok s ∧ s.link = .ok t ∧ StandIn "." t ∧
      (toShop ".").pairId = (toItem ".").pairId ∧
      (toShop ".").canonicalId ≠ (toItem ".").canonicalId ∧
      Diagram.ofSchema t = .error (.incompatibleRelation "Label \"n\" -up- \"n\" Shop")) ∧
    ∃ s t, ofDeclarations (labelled " ") = .ok s ∧ s.link = .ok t ∧ StandIn " " t ∧
      (toShop " ").canonicalId = (toItem " ").canonicalId ∧
      (toShop " ").pairId ≠ (toItem " ").pairId := by
  constructor
  · obtain ⟨t, hlinked, hstand, hrefused⟩ : ∃ t,
        (ofDeclarations (labelled ".") >>= link) = .ok t ∧ StandIn "." t ∧
          Diagram.ofSchema t = .error (.incompatibleRelation "Label \"n\" -up- \"n\" Shop") :=
      exists_ok_of_any (by decide +kernel)
    obtain ⟨s, hs, ht⟩ := bind_eq_ok.1 hlinked
    refine ⟨s, t, hs, ht, hstand, by decide +kernel, ?_, hrefused⟩
    obtain ⟨_, htold, _⟩ := Relation.ids_identify_iff (· ≠ ' ')
    rw [Ne, (htold _ _).1 (by decide +kernel), Relation.ends_eq_iff]
    decide +kernel
  · obtain ⟨t, hlinked, hstand⟩ : ∃ t,
        (ofDeclarations (labelled " ") >>= link) = .ok t ∧ StandIn " " t :=
      exists_ok_of_any (by decide +kernel)
    obtain ⟨s, hs, ht⟩ := bind_eq_ok.1 hlinked
    refine ⟨s, t, hs, ht, hstand, by decide +kernel, ?_⟩
    obtain ⟨_, htold, _⟩ := Relation.ids_identify_iff fun c => c ≠ '.' ∧ c ≠ '<'
    rw [Ne, (htold _ _).2 (by decide +kernel) '<' (by decide) (by decide +kernel),
      Relation.places_eq_iff]
    decide +kernel

end Schema
end OrmGen
