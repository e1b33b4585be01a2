/-
  Names of relations tell relations apart. `Relation.canonicalId` writes the two endpoints
  one after the other in text order. Where entity and field names have no blanks the text can
  be cut back into its parts at the first blank, the next blank and the closing bracket, so
  two relations have one name only if they have the same endpoints
  (`Relation.canonicalId_eq_iff`). `Relation.pairId` shows the places of the endpoints, entity
  and field, if the names have no dots and lack a character of the arrow between them
  (`Relation.places_eq_of_pairId_eq`). Words (ASCII letters, digits, underscores) have none of
  these characters.

  It is enough to know this of one of two relations. The name has a known number of blanks and
  dots besides those in names of entities and fields, so another relation of that name has as
  many of them in its names (`Relation.count_canonicalId`, `Relation.count_pairId`).
-/
import OrmGen.Proofs.Text.Decimal
import OrmGen.Proofs.Text.Pieces
import OrmGen.Schema

namespace OrmGen

/-! ## Cardinalities -/

namespace Cardinality

theorem exists_fixed {c : Cardinality} (h : c.text.toList.all Char.isDigit = true) :
    ∃ n, c = .fixed n := by
  cases c with
  | fixed n => exact ⟨n, rfl⟩
  | _ => exact absurd h (by decide)

/-- Cardinalities have different texts: a count is written in digits, the others are not. -/
theorem text_inj {c d : Cardinality} (h : c.text = d.text) : c = d := by
  by_cases hc : c.text.toList.all Char.isDigit = true
  · have hd : d.text.toList.all Char.isDigit = true := h ▸ hc
    obtain ⟨m, rfl⟩ := exists_fixed hc
    obtain ⟨n, rfl⟩ := exists_fixed hd
    exact congrArg fixed (Text.ofCount_inj h)
  · have hd : ¬ d.text.toList.all Char.isDigit = true := h ▸ hc
    cases c <;> cases d <;> simp_all [text, Text.all_isDigit_ofCount]

/-- The text of a cardinality has letters and digits only. -/
theorem all_isAlphanum_text (c : Cardinality) : c.text.toList.all Char.isAlphanum = true := by
  cases c with
  | fixed n =>
    refine List.all_eq_true.2 fun x hx => ?_
    have hdigit := List.all_eq_true.1 (Text.all_isDigit_ofCount n) x hx
    exact Bool.or_eq_true_iff.2 (.inr hdigit)
  | _ => decide

theorem notMem_text (c : Cardinality) {x : Char} (hx : x.isAlphanum = false) :
    x ∉ c.text.toList := by
  intro hmem
  have := List.all_eq_true.1 c.all_isAlphanum_text x hmem
  rw [hx] at this
  cases this

end Cardinality

/-! ## Characters of names -/

namespace Endpoint

/-- Whether the names of an endpoint are words. -/
def IsWord (p : Endpoint) : Prop := Text.isWord p.entity = true ∧ Text.isWord p.name = true

/-- How often a character occurs in the names of an endpoint. -/
def occurrences (x : Char) (p : Endpoint) : Nat :=
  p.entity.toList.count x + p.name.toList.count x

/-- Whether a character occurs in no name of an endpoint. -/
def Avoids (x : Char) (p : Endpoint) : Prop := x ∉ p.entity.toList ∧ x ∉ p.name.toList

instance (x : Char) : DecidablePred (Avoids x) := fun _ => inferInstanceAs (Decidable (_ ∧ _))

theorem occurrences_eq_zero_iff {x : Char} {p : Endpoint} : p.occurrences x = 0 ↔ p.Avoids x := by
  unfold occurrences Avoids
  rw [Nat.add_eq_zero_iff, List.count_eq_zero, List.count_eq_zero]

theorem IsWord.avoids {p : Endpoint} (h : p.IsWord) {x : Char}
    (hx : (x.isAlphanum || x = '_') = false) : p.Avoids x :=
  ⟨Text.notMem_of_isWord h.1 hx, Text.notMem_of_isWord h.2 hx⟩

end Endpoint

namespace Relation

variable {r r' : Relation} {x : Char}

/-- Whether all names of a relation are words. -/
def IsWord (r : Relation) : Prop := r.source.IsWord ∧ r.target.IsWord

/-- How often a character occurs in the names of a relation. -/
def occurrences (x : Char) (r : Relation) : Nat := r.source.occurrences x + r.target.occurrences x

/-- Whether a character occurs in no name of a relation. -/
def Avoids (x : Char) (r : Relation) : Prop := r.source.Avoids x ∧ r.target.Avoids x

instance (x : Char) : DecidablePred (Avoids x) := fun _ => inferInstanceAs (Decidable (_ ∧ _))

theorem occurrences_eq_zero_iff : r.occurrences x = 0 ↔ r.Avoids x := by
  unfold occurrences Avoids
  rw [Nat.add_eq_zero_iff, Endpoint.occurrences_eq_zero_iff, Endpoint.occurrences_eq_zero_iff]

theorem IsWord.avoids (h : r.IsWord) (hx : (x.isAlphanum || x = '_') = false) : r.Avoids x :=
  ⟨h.1.avoids hx, h.2.avoids hx⟩

theorem Avoids.of_eq_or_swap (hr : r.Avoids x) (h : r' = r ∨ r' = r.swap) : r'.Avoids x := by
  rcases h with rfl | rfl
  · exact hr
  · exact ⟨hr.2, hr.1⟩

theorem occurrences_of_eq_or_swap (h : r' = r ∨ r' = r.swap) :
    r'.occurrences x = r.occurrences x := by
  rcases h with rfl | rfl
  · rfl
  · exact Nat.add_comm ..

end Relation

/-! ## Endpoints -/

namespace Endpoint

theorem text_toList (p : Endpoint) : p.text.toList =
    p.entity.toList ++ ' ' :: (p.name.toList ++ ' ' :: '[' :: (p.cardinality.text.toList ++ [']'])) := by
  simp [text, String.toList_append]

/-- The text of an endpoint shows where it ends and what it is the text of. -/
theorem text_append_inj {p q : Endpoint} (hp : p.Avoids ' ') (hq : q.Avoids ' ')
    {u v : List Char} (h : p.text.toList ++ u = q.text.toList ++ v) : p = q ∧ u = v := by
  rw [text_toList, text_toList] at h
  simp only [List.append_assoc, List.cons_append, List.nil_append] at h
  obtain ⟨hentity, h⟩ := Text.append_cons_inj hp.1 hq.1 h
  obtain ⟨hname, h⟩ := Text.append_cons_inj hp.2 hq.2 h
  obtain ⟨hcardinality, h⟩ := Text.append_cons_inj (Cardinality.notMem_text _ (by decide))
    (Cardinality.notMem_text _ (by decide)) (List.cons.inj h).2
  refine ⟨?_, h⟩
  cases p
  cases q
  rw [Endpoint.mk.injEq]
  exact ⟨String.toList_inj.1 hentity, String.toList_inj.1 hname,
    Cardinality.text_inj (String.toList_inj.1 hcardinality)⟩

theorem count_text (p : Endpoint) : p.text.toList.count ' ' = p.occurrences ' ' + 2 := by
  have hcardinality : p.cardinality.text.toList.count ' ' = 0 :=
    List.count_eq_zero.2 (p.cardinality.notMem_text (by decide))
  rw [text_toList]
  simp [hcardinality, occurrences]
  omega

/-- Where an endpoint is: its entity and its field. -/
def place (p : Endpoint) : String × String := (p.entity, p.name)

theorem path_toList (p : Endpoint) :
    p.path.toList = p.entity.toList ++ '.' :: p.name.toList := by
  simp [path, String.toList_append]

/-- A path without further dots shows the place. -/
theorem place_eq_of_path_eq {p q : Endpoint} (hp : p.Avoids '.') (hq : q.Avoids '.')
    (h : p.path = q.path) : p.place = q.place := by
  have hlist := congrArg String.toList h
  rw [path_toList, path_toList] at hlist
  obtain ⟨hentity, hname⟩ := Text.append_cons_inj hp.1 hq.1 hlist
  exact Prod.ext (String.toList_inj.1 hentity) (String.toList_inj.1 hname)

theorem notMem_path {p : Endpoint} {x : Char} (hp : p.Avoids x) (hdot : x ≠ '.') :
    x ∉ p.path.toList := by
  rw [path_toList, List.mem_append, List.mem_cons]
  rintro (hmem | hmem | hmem)
  · exact hp.1 hmem
  · exact hdot hmem
  · exact hp.2 hmem

end Endpoint

/-! ## Relations -/

namespace Relation

variable {r r' : Relation} {x : Char}

/-- The name of a relation is the text of its ends in one of the two orders. -/
theorem exists_canonicalId_eq (r : Relation) : ∃ r', (r' = r ∨ r' = r.swap) ∧
    r.canonicalId = r'.source.text ++ " -> " ++ r'.target.text := by
  unfold canonicalId joinSorted
  split
  · exact ⟨r.swap, .inr rfl, rfl⟩
  · exact ⟨r, .inl rfl, rfl⟩

theorem eq_of_text_eq (hr : r.Avoids ' ') (hr' : r'.Avoids ' ')
    (h : r.source.text ++ " -> " ++ r.target.text = r'.source.text ++ " -> " ++ r'.target.text) :
    r = r' := by
  have hlist := congrArg String.toList h
  simp only [String.toList_append, List.append_assoc] at hlist
  obtain ⟨hsource, hrest⟩ := Endpoint.text_append_inj hr.1 hr'.1 hlist
  have htext := List.append_cancel_left hrest
  have htarget : r.target.text.toList ++ [] = r'.target.text.toList ++ [] := by
    rw [htext]
  cases r
  cases r'
  rw [Relation.mk.injEq]
  exact ⟨hsource, (Endpoint.text_append_inj hr.2 hr'.2 htarget).1⟩

/-- Six blanks of the name of a relation are not blanks of its names. -/
theorem count_canonicalId (r : Relation) :
    r.canonicalId.toList.count ' ' = r.occurrences ' ' + 6 := by
  obtain ⟨q, hq, htext⟩ := r.exists_canonicalId_eq
  have harrow : " -> ".toList.count ' ' = 2 := by decide
  rw [htext, String.toList_append, String.toList_append, List.count_append, List.count_append,
    Endpoint.count_text, Endpoint.count_text, harrow, ← occurrences_of_eq_or_swap hq]
  unfold occurrences
  omega

/-- A relation whose names have no blanks shares its name with no relation but its other end,
whatever names that relation has. -/
theorem canonicalId_eq_iff (hr : r.Avoids ' ') :
    r.canonicalId = r'.canonicalId ↔ r' = r ∨ r' = r.swap := by
  constructor
  · intro h
    have hr' : r'.Avoids ' ' := by
      have hcount := congrArg (fun s => s.toList.count ' ') h
      simp only [count_canonicalId] at hcount
      rw [← occurrences_eq_zero_iff] at hr ⊢
      omega
    obtain ⟨q, hq, htext⟩ := r.exists_canonicalId_eq
    obtain ⟨q', hq', htext'⟩ := r'.exists_canonicalId_eq
    have heq : q = q' := eq_of_text_eq (hr.of_eq_or_swap hq) (hr'.of_eq_or_swap hq')
      (by rw [← htext, ← htext', h])
    rcases hq with rfl | rfl <;> rcases hq' with hq' | hq'
    · exact .inl (hq'.symm.trans heq.symm)
    · exact .inr (by rw [heq, hq']; rfl)
    · exact .inr (hq'.symm.trans heq.symm)
    · exact .inl (congrArg swap (hq'.symm.trans heq.symm))
  · rintro (rfl | rfl)
    · rfl
    · exact r.canonicalId_swap.symm

theorem pairId_toList (r : Relation) : ∃ q, (q = r ∨ q = r.swap) ∧
    r.pairId.toList = q.source.path.toList ++ (" <-> ".toList ++ q.target.path.toList) := by
  unfold pairId joinSorted
  split
  · exact ⟨r.swap, .inr rfl, by simp [String.toList_append, swap]⟩
  · exact ⟨r, .inl rfl, by simp [String.toList_append]⟩

/-- What is in the name besides the names of entities and fields. -/
theorem count_pairId (r : Relation) (x : Char) :
    r.pairId.toList.count x = r.occurrences x + ". <-> .".toList.count x := by
  obtain ⟨q, hq, htext⟩ := r.pairId_toList
  have hmarks : ". <-> .".toList = ['.'] ++ (" <-> ".toList ++ ['.']) := rfl
  rw [htext, hmarks, ← occurrences_of_eq_or_swap hq, Endpoint.path_toList, Endpoint.path_toList]
  simp only [List.count_append, List.count_cons, List.count_nil, occurrences, Endpoint.occurrences]
  omega

theorem Avoids.of_pairId_eq (hr : r.Avoids x) (h : r.pairId = r'.pairId) : r'.Avoids x := by
  have hcount := congrArg (fun s => s.toList.count x) h
  simp only [count_pairId] at hcount
  rw [← occurrences_eq_zero_iff] at hr ⊢
  omega

/-- A relation whose names have no dots and lack a character of the arrow shares its name with
no relation that has its ends in other places, whatever names that relation has. -/
theorem places_eq_of_pairId_eq (hdot : r.Avoids '.') (harrow : x ∈ " <-> ".toList)
    (hx : r.Avoids x) (h : r.pairId = r'.pairId) :
    r.source.place = r'.source.place ∧ r.target.place = r'.target.place ∨
      r.source.place = r'.target.place ∧ r.target.place = r'.source.place := by
  have hdot' := hdot.of_pairId_eq h
  have hx' := hx.of_pairId_eq h
  obtain ⟨q, hq, htext⟩ := r.pairId_toList
  obtain ⟨q', hq', htext'⟩ := r'.pairId_toList
  have hne : x ≠ '.' := by
    rintro rfl
    exact absurd harrow (by decide)
  -- the name is cut at the first place where the missing character stands
  obtain ⟨u, v, huv, hu⟩ := List.eq_append_cons_of_mem harrow
  have hfront {p : Relation} (hp : p.Avoids x) : x ∉ p.source.path.toList ++ u := by
    rw [List.mem_append, not_or]
    exact ⟨Endpoint.notMem_path hp.1 hne, hu⟩
  have hcut : (q.source.path.toList ++ u) ++ x :: (v ++ q.target.path.toList) =
      (q'.source.path.toList ++ u) ++ x :: (v ++ q'.target.path.toList) := by
    rw [h, htext', huv] at htext
    simpa using htext.symm
  obtain ⟨hfirst, hlast⟩ := Text.append_cons_inj (hfront (hx.of_eq_or_swap hq))
    (hfront (hx'.of_eq_or_swap hq')) hcut
  have hword := hdot.of_eq_or_swap hq
  have hword' := hdot'.of_eq_or_swap hq'
  have hsource : q.source.place = q'.source.place :=
    Endpoint.place_eq_of_path_eq hword.1 hword'.1
      (String.toList_inj.1 (List.append_cancel_right hfirst))
  have htarget : q.target.place = q'.target.place :=
    Endpoint.place_eq_of_path_eq hword.2 hword'.2
      (String.toList_inj.1 (List.append_cancel_left hlast))
  rcases hq with rfl | rfl <;> rcases hq' with rfl | rfl
  · exact .inl ⟨hsource, htarget⟩
  · exact .inr ⟨hsource, htarget⟩
  · exact .inr ⟨htarget, hsource⟩
  · exact .inl ⟨htarget, hsource⟩

theorem bracket_notMem_pairId (hr : r.Avoids ']') : ']' ∉ r.pairId.toList := by
  rw [← List.count_eq_zero, count_pairId, occurrences_eq_zero_iff.2 hr]
  decide

end Relation
end OrmGen
