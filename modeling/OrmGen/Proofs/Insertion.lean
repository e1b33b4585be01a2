/-
  Maps made by inserting entries one after another. Related lists make related maps
  (`OrderedMap.forall₂_ofList`), a list with distinct keys is the list of entries of its map
  (`OrderedMap.entries_ofList`), and where a key never has two values the values of the map
  are the values of the list, each where it first appears
  (`OrderedMap.eraseDups_values_ofList`).
-/
import Mathlib.Data.List.Induction
import Mathlib.Data.List.Nodup
import OrmGen.Proofs.Traversal

namespace OrmGen

universe u v

/-! ## First appearances -/

section FirstAppearances

variable {α : Type u} [BEq α] [LawfulBEq α]

/-- An element is kept where it first appears. -/
theorem eraseDups_concat (xs : List α) (x : α) :
    (xs ++ [x]).eraseDups = if x ∈ xs then xs.eraseDups else xs.eraseDups ++ [x] := by
  rw [List.eraseDups_append]
  by_cases hx : x ∈ xs
  · simp [List.removeAll, hx]
  · simp [List.removeAll, hx, List.eraseDups_cons]

theorem nodup_eraseDups (xs : List α) : xs.eraseDups.Nodup := by
  induction xs using List.reverseRecOn with
  | nil => simp
  | append_singleton xs x ih =>
    rw [eraseDups_concat]
    split
    · exact ih
    · rename_i hx
      refine List.nodup_append.2 ⟨ih, List.nodup_singleton x, ?_⟩
      rintro y hy z hz rfl
      rw [List.mem_singleton] at hz
      subst hz
      exact hx (List.mem_eraseDups.1 hy)

end FirstAppearances

namespace OrderedMap

variable {α : Type u} {β : Type v}

theorem ofList_concat (es : List (String × α)) (e : String × α) :
    ofList (es ++ [e]) = (ofList es).insert e.1 e.2 := by
  unfold ofList
  rw [List.foldl_append]
  rfl

/-! ## Lists that are related key by key -/

section Related

variable {R : String → α → β → Prop} {es : List (String × α)} {ws : List (String × β)}

theorem forall₂_insertEntry {k : String} {v : α} {w : β} (hvw : R k v w)
    (h : List.Forall₂ (fun e w => w.1 = e.1 ∧ R e.1 e.2 w.2) es ws) :
    List.Forall₂ (fun e w => w.1 = e.1 ∧ R e.1 e.2 w.2) (insertEntry k v es)
      (insertEntry k w ws) := by
  induction h with
  | nil => exact .cons ⟨rfl, hvw⟩ .nil
  | @cons e w' es ws hew hrest ih =>
    obtain ⟨j, x⟩ := e
    obtain ⟨j', y⟩ := w'
    obtain ⟨rfl, hxy⟩ := hew
    by_cases hj : j' = k
    · rw [insertEntry, if_pos hj, insertEntry, if_pos hj]
      exact .cons ⟨rfl, hvw⟩ hrest
    · rw [insertEntry, if_neg hj, insertEntry, if_neg hj]
      exact .cons ⟨rfl, hxy⟩ ih

theorem forall₂_foldl_insert (h : List.Forall₂ (fun e w => w.1 = e.1 ∧ R e.1 e.2 w.2) es ws)
    {m : OrderedMap α} {n : OrderedMap β}
    (hmn : List.Forall₂ (fun e w => w.1 = e.1 ∧ R e.1 e.2 w.2) m.entries n.entries) :
    List.Forall₂ (fun e w => w.1 = e.1 ∧ R e.1 e.2 w.2)
      (es.foldl (fun m e => m.insert e.1 e.2) m).entries
      (ws.foldl (fun n w => n.insert w.1 w.2) n).entries := by
  induction h generalizing m n with
  | nil => exact hmn
  | @cons e w es ws hew _ ih =>
    obtain ⟨j, v⟩ := e
    obtain ⟨j', w⟩ := w
    obtain ⟨rfl, hvw⟩ := hew
    exact ih (forall₂_insertEntry hvw hmn)

/-- Related lists make related maps. -/
theorem forall₂_ofList (h : List.Forall₂ (fun e w => w.1 = e.1 ∧ R e.1 e.2 w.2) es ws) :
    List.Forall₂ (fun e w => w.1 = e.1 ∧ R e.1 e.2 w.2) (ofList es).entries
      (ofList ws).entries := forall₂_foldl_insert h .nil

theorem get?_ofList_of_forall₂ (h : List.Forall₂ (fun e w => w.1 = e.1 ∧ R e.1 e.2 w.2) es ws)
    {k : String} {w : β} (hw : (ofList ws).get? k = some w) :
    ∃ v, (ofList es).get? k = some v ∧ R k v w := lookup?_of_forall₂ (forall₂_ofList h) hw

theorem get?_ofList_forall₂ (h : List.Forall₂ (fun e w => w.1 = e.1 ∧ R e.1 e.2 w.2) es ws)
    {k : String} {v : α} (hv : (ofList es).get? k = some v) :
    ∃ w, (ofList ws).get? k = some w ∧ R k v w := by
  have hflip : List.Forall₂ (fun w e => e.1 = w.1 ∧ R w.1 e.2 w.2) ws es := by
    refine h.flip.imp ?_
    rintro w e ⟨hkey, hR⟩
    exact ⟨hkey.symm, hkey ▸ hR⟩
  exact get?_ofList_of_forall₂ (R := fun k w v => R k v w) hflip hv

end Related

/-- A value that passes a test is still at its key when only what passes is inserted. -/
theorem get?_ofList_filter {es : List (String × α)} {q : String × α → Bool} {k : String} {v : α}
    (h : (ofList es).get? k = some v) (hq : q (k, v) = true) :
    (ofList (es.filter q)).get? k = some v := by
  induction es using List.reverseRecOn with
  | nil => cases h
  | append_singleton es e ih =>
    obtain ⟨j, w⟩ := e
    rw [ofList_concat, get?_insert] at h
    rw [List.filter_append]
    by_cases hj : k = j
    · subst hj
      rw [if_pos rfl, Option.some.injEq] at h
      subst h
      rw [List.filter_cons_of_pos hq, List.filter_nil, ofList_concat, get?_insert, if_pos rfl]
    · rw [if_neg hj] at h
      by_cases hpass : q (j, w) = true
      · rw [List.filter_cons_of_pos hpass, List.filter_nil, ofList_concat, get?_insert, if_neg hj]
        exact ih h
      · rw [List.filter_cons_of_neg hpass, List.filter_nil, List.append_nil]
        exact ih h

/-! ## Lists with distinct keys -/

/-- A list with distinct keys is the list of entries of the map it makes. -/
theorem entries_ofList {es : List (String × α)} (h : (es.map Prod.fst).Nodup) :
    (ofList es).entries = es := by
  induction es using List.reverseRecOn with
  | nil => rfl
  | append_singleton es e ih =>
    rw [List.map_append, List.map_singleton, List.nodup_append] at h
    have hes := ih h.1
    have hnew : e.1 ∉ (ofList es).entries.map Prod.fst := by
      rw [hes]
      exact fun hmem => h.2.2 _ hmem _ (List.mem_singleton_self _) rfl
    rw [ofList_concat, insert]
    show insertEntry e.1 e.2 (ofList es).entries = es ++ [e]
    rw [insertEntry_of_notMem hnew, hes]

/-- Where the keys are distinct, a list related to another makes a map whose entries are related
to the other list. -/
theorem forall₂_entries_ofList {β : Type v} {R : String × α → β → Prop} {es : List (String × α)}
    {ws : List (String × β)} (hkeys : (es.map Prod.fst).Nodup)
    (h : List.Forall₂ (fun e w => w.1 = e.1 ∧ R e w.2) es ws) :
    List.Forall₂ (fun e w => w.1 = e.1 ∧ R e w.2) es (ofList ws).entries := by
  have hsame : ws.map Prod.fst = es.map Prod.fst := by
    rw [← List.forall₂_eq_eq_eq, List.forall₂_map_left_iff, List.forall₂_map_right_iff]
    exact (h.imp fun _ _ hew => hew.1).flip
  rw [entries_ofList (hsame ▸ hkeys)]
  exact h

/-! ## Lists in which a key has one value -/

/-- No key of the list has two values. -/
def OneValued (es : List (String × α)) : Prop :=
  ∀ ⦃k v w⦄, (k, v) ∈ es → (k, w) ∈ es → v = w

theorem insertEntry_of_lookup? {k : String} {v : α} {es : List (String × α)}
    (h : lookup? k es = some v) : insertEntry k v es = es := by
  induction es with
  | nil => cases h
  | cons e es ih =>
    obtain ⟨j, w⟩ := e
    by_cases hj : j = k
    · simp only [lookup?, hj, if_true, Option.some.injEq] at h
      simp [insertEntry, hj, h]
    · simp only [lookup?, hj, if_false] at h
      simp [insertEntry, hj, ih h]

/-- Writing the value that is there changes nothing. -/
theorem insert_of_get? {m : OrderedMap α} {k : String} {v : α} (h : m.get? k = some v) :
    m.insert k v = m := ext (insertEntry_of_lookup? h)

/-- Where no key has two values the map has the values of the list, each where it first
appears. -/
theorem eraseDups_values_ofList [BEq α] [LawfulBEq α] {es : List (String × α)}
    (h : OneValued es) : (ofList es).values.eraseDups = (es.map Prod.snd).eraseDups := by
  induction es using List.reverseRecOn with
  | nil => rfl
  | append_singleton es e ih =>
    have hes := ih fun k v w hv hw => h (List.mem_append_left _ hv) (List.mem_append_left _ hw)
    have hmem : e.2 ∈ (ofList es).values ↔ e.2 ∈ es.map Prod.snd := by
      rw [← List.mem_eraseDups, hes, List.mem_eraseDups]
    rw [ofList_concat, List.map_append, List.map_singleton, eraseDups_concat]
    cases hget : (ofList es).get? e.1 with
    | some w =>
      have hw : (e.1, w) ∈ es := get?_ofList hget
      obtain rfl : w = e.2 :=
        h (List.mem_append_left _ hw) (List.mem_append_right _ (List.mem_singleton_self e))
      have hpresent : e.2 ∈ es.map Prod.snd := List.mem_map.2 ⟨_, hw, rfl⟩
      rw [insert_of_get? hget, if_pos hpresent, hes]
    | none =>
      rw [values_insert_of_get?_eq_none _ hget, eraseDups_concat, hes]
      simp only [hmem]

end OrderedMap
end OrmGen
