/-
  The relation lines of a diagram. The lines are kept under names, in a map in which a later
  line replaces an earlier one of its name; relations and references to enumerations share
  the map. In a linked schema whose names are words a name stands for one line
  (`oneValued_shown`), because the two ends of a relation have one line and the name of a
  reference is the name of no relation. So nothing is replaced, and the lines are those of
  all relations and references in the order of declaration, each where it first appears
  (`relation_lines_are_those_declared`).
-/
import OrmGen.Diagram
import OrmGen.Proofs.Insertion
import OrmGen.Proofs.Schema.Words
import OrmGen.Proofs.Text.Pieces

namespace OrmGen.Diagram

open OrderedMap (OneValued mem_values_iff)

/-- The lines of the relations and references of an entity under their names. -/
def shownBy (e : Entity) : List (String × String) :=
  e.relations.values.map (fun r => (r.pairId, relationLine r))
    ++ (e.fields.values.filter Field.isEnumReference).map fun f =>
      (e.name ++ "." ++ enumName f ++ " [enum]", enumLine e.name f)

/-- The lines of all relations and references, entity by entity. -/
def declaredLines (s : Schema) : List String :=
  s.entities.values.flatMap fun e =>
    e.relations.values.map relationLine
      ++ (e.fields.values.filter Field.isEnumReference).map (enumLine e.name)

variable {v : Json} {s t : Schema} {k k' : String} {e e' : Entity} {r r' : Relation}
  {es : List Entity} {rs : List Relation} {fs : List Field} {lines lines' : Lines}
  {shown : List (String × String)} {a b : End}

theorem map_shownBy (es : List Entity) : (es.flatMap shownBy).map Prod.snd = es.flatMap fun e =>
    e.relations.values.map relationLine
      ++ (e.fields.values.filter Field.isEnumReference).map (enumLine e.name) := by
  rw [List.map_flatMap]
  apply List.flatMap_congr
  intro e _
  simp [shownBy, Function.comp_def]

/-! ## Adding lines -/

/-- Add lines under names. -/
def record (lines : Lines) (new : List (String × String)) : Lines :=
  new.foldl (fun m l => m.insert l.1 l.2) lines

theorem record_append (new new' : List (String × String)) :
    record lines (new ++ new') = record (record lines new) new' := List.foldl_append ..

theorem entries_record_subset {new : List (String × String)} (hlines : lines.entries ⊆ shown)
    (hnew : new ⊆ shown) : (record lines new).entries ⊆ shown := by
  intro l hl
  rcases OrderedMap.mem_foldl_insert hl with hl | hl
  · exact hlines hl
  · exact hnew hl

/-- No line is refused while names stand for one line each. -/
theorem addRelations_eq_record (hone : OneValued shown) (hlines : lines.entries ⊆ shown)
    (hrs : rs.map (fun r => (r.pairId, relationLine r)) ⊆ shown) :
    addRelations lines rs = .ok (record lines (rs.map fun r => (r.pairId, relationLine r))) := by
  induction rs generalizing lines with
  | nil => rfl
  | cons r rs ih =>
    rw [List.map_cons, List.cons_subset] at hrs
    have hsame : ∀ l, lines.get? r.pairId = some l → l = relationLine r := by
      intro l hl
      exact hone (hlines (OrderedMap.mem_entries_iff.2 hl)) hrs.1
    have hadd : addRelation lines r = .ok (lines.insert r.pairId (relationLine r)) := by
      unfold addRelation
      cases hget : lines.get? r.pairId with
      | none => simp
      | some l => simp [hsame l hget]
    have hfirst : (record lines [(r.pairId, relationLine r)]).entries ⊆ shown :=
      entries_record_subset hlines (List.cons_subset.2 ⟨hrs.1, List.nil_subset _⟩)
    rw [addRelations, hadd]
    exact ih hfirst hrs.2

theorem addEntities_eq_record (hone : OneValued shown) (hlines : lines.entries ⊆ shown)
    (hes : es.flatMap shownBy ⊆ shown) :
    addEntities lines es = .ok (record lines (es.flatMap shownBy)) := by
  induction es generalizing lines with
  | nil => rfl
  | cons e es ih =>
    rw [List.flatMap_cons, List.append_subset] at hes
    have hrelations := (List.append_subset.1 hes.1).1
    have hadd : addEntity lines e = .ok (record lines (shownBy e)) := by
      unfold addEntity shownBy
      rw [addRelations_eq_record hone hlines hrelations, record_append]
      conv => rhs; rw [record, List.foldl_map]
      rfl
    rw [addEntities, hadd, List.flatMap_cons, record_append]
    exact ih (entries_record_subset hlines hes.1) hes.2

/-- Where names stand for one line each, the lines are those declared, each where it first
appears. -/
theorem relationLines_eq_ok (hone : OneValued (s.entities.values.flatMap shownBy)) :
    relationLines s = .ok (declaredLines s).eraseDups := by
  unfold relationLines
  rw [addEntities_eq_record hone (List.nil_subset _) (List.Subset.refl _)]
  show Except.ok (OrderedMap.ofList (s.entities.values.flatMap shownBy)).values.eraseDups = _
  rw [OrderedMap.eraseDups_values_ofList hone, map_shownBy]
  rfl

/-! ## The text of a line -/

/-- A line with its ends in the given order. -/
def between (p q : End) : String :=
  p.1 ++ " \"" ++ p.2.marker ++ "\" -up- \"" ++ q.2.marker ++ "\" " ++ q.1

theorem line_eq (a b : End) : line a b = if b.1 < a.1 then between b a else between a b := by
  unfold line
  by_cases hlt : b.1 < a.1 <;> simp [hlt, between]

/-- A line does not tell which end it is seen from. -/
theorem line_comm (h : a.1 = b.1 → a = b) : line a b = line b a := by
  rw [line_eq, line_eq]
  by_cases hba : b.1 < a.1
  · rw [if_pos hba, if_neg (String.lt_asymm hba)]
  · by_cases hab : a.1 < b.1
    · rw [if_neg hba, if_pos hab]
    · rw [h (String.le_antisymm (String.not_lt.1 hba) (String.not_lt.1 hab))]

theorem relationLine_swap (h : r.source.entity = r.target.entity → r.swap = r) :
    relationLine r.swap = relationLine r := by
  by_cases hself : r.source.entity = r.target.entity
  · rw [h hself]
  · exact line_comm fun heq => absurd heq.symm hself

theorem between_toList (p q : End) : ∃ mid,
    (between p q).toList = p.1.toList ++ ' ' :: (mid ++ ' ' :: q.1.toList) :=
  ⟨'"' :: (p.2.marker.toList ++ ("\" -up- \"".toList ++ (q.2.marker.toList ++ ['"']))),
    by simp [between, String.toList_append]⟩

/-- A line begins with the name of one end and ends with the name of the other. -/
theorem line_toList (a b : End) : ∃ p q mid, (p = a ∧ q = b ∨ p = b ∧ q = a) ∧
    (line a b).toList = p.1.toList ++ ' ' :: (mid ++ ' ' :: q.1.toList) := by
  rw [line_eq]
  split
  · obtain ⟨mid, hmid⟩ := between_toList b a
    exact ⟨b, a, mid, .inr ⟨rfl, rfl⟩, hmid⟩
  · obtain ⟨mid, hmid⟩ := between_toList a b
    exact ⟨a, b, mid, .inl ⟨rfl, rfl⟩, hmid⟩

/-- Lines between words are the same only if they are between the same two. -/
theorem names_eq_of_line_eq {a' b' : End} (ha : Text.isWord a.1 = true)
    (hb : Text.isWord b.1 = true) (ha' : Text.isWord a'.1 = true) (hb' : Text.isWord b'.1 = true)
    (h : line a b = line a' b') : a.1 = a'.1 ∧ b.1 = b'.1 ∨ a.1 = b'.1 ∧ b.1 = a'.1 := by
  have blank {w : String} (hw : Text.isWord w = true) : ' ' ∉ w.toList :=
    Text.notMem_of_isWord hw (by decide)
  obtain ⟨p, q, mid, hpq, htext⟩ := line_toList a b
  obtain ⟨p', q', mid', hpq', htext'⟩ := line_toList a' b'
  have hword : Text.isWord p.1 = true ∧ Text.isWord q.1 = true := by
    rcases hpq with ⟨rfl, rfl⟩ | ⟨rfl, rfl⟩
    · exact ⟨ha, hb⟩
    · exact ⟨hb, ha⟩
  have hword' : Text.isWord p'.1 = true ∧ Text.isWord q'.1 = true := by
    rcases hpq' with ⟨rfl, rfl⟩ | ⟨rfl, rfl⟩
    · exact ⟨ha', hb'⟩
    · exact ⟨hb', ha'⟩
  rw [h, htext'] at htext
  obtain ⟨hfirst, hrest⟩ := Text.append_cons_inj (blank hword'.1) (blank hword.1) htext
  have hlast := congrArg (Text.afterLast ' ') hrest
  rw [Text.afterLast_append_cons (blank hword'.2), Text.afterLast_append_cons (blank hword.2)]
    at hlast
  have hp : p.1 = p'.1 := String.toList_inj.1 hfirst.symm
  have hq : q.1 = q'.1 := String.toList_inj.1 hlast.symm
  rcases hpq with ⟨rfl, rfl⟩ | ⟨rfl, rfl⟩ <;> rcases hpq' with ⟨rfl, rfl⟩ | ⟨rfl, rfl⟩
  · exact .inl ⟨hp, hq⟩
  · exact .inr ⟨hp, hq⟩
  · exact .inr ⟨hq, hp⟩
  · exact .inl ⟨hq, hp⟩

/-! ## One line for each name -/

/-- What is shown under a name: the line of a relation, or that of a reference. -/
theorem mem_shown {id l : String} (h : (id, l) ∈ t.entities.values.flatMap shownBy) :
    ∃ k e, t.get? k = some e ∧
      ((∃ r ∈ e.relations.values, id = r.pairId ∧ l = relationLine r) ∨
        ∃ f, id = e.name ++ "." ++ enumName f ++ " [enum]" ∧ l = enumLine e.name f) := by
  obtain ⟨e, he, hmem⟩ := List.mem_flatMap.1 h
  obtain ⟨k, hk⟩ := mem_values_iff.1 he
  refine ⟨k, e, hk, ?_⟩
  rcases List.mem_append.1 hmem with hmem | hmem
  · obtain ⟨r, hr, hrl⟩ := List.mem_map.1 hmem
    rw [Prod.mk.injEq] at hrl
    exact .inl ⟨r, hr, hrl.1.symm, hrl.2.symm⟩
  · obtain ⟨f, _, hfl⟩ := List.mem_map.1 hmem
    rw [Prod.mk.injEq] at hfl
    exact .inr ⟨f, hfl.1.symm, hfl.2.symm⟩

/-- The name of a reference is the name of no relation: it ends with a bracket. -/
theorem pairId_ne_enumId (hr : r.IsWord) (entity name : String) :
    r.pairId ≠ entity ++ "." ++ name ++ " [enum]" := by
  intro heq
  apply Relation.bracket_notMem_pairId (hr.avoids (by decide))
  rw [heq]
  simp [String.toList_append]

/-- A name stands for one line. -/
theorem oneValued_shown (h : Schema.NamedByWords v t) :
    OneValued (t.entities.values.flatMap shownBy) := by
  intro id l l' hl hl'
  obtain ⟨k, e, he, hcase⟩ := mem_shown hl
  obtain ⟨k', e', he', hcase'⟩ := mem_shown hl'
  rcases hcase with ⟨r, hr, rfl, rfl⟩ | ⟨f, rfl, rfl⟩ <;>
    rcases hcase' with ⟨r', hr', hid, rfl⟩ | ⟨f', hid, rfl⟩
  · rcases h.eq_or_swap_of_pairId_eq he hr he' hr' hid with rfl | ⟨rfl, hself⟩
    · rfl
    · exact (relationLine_swap hself).symm
  · exact absurd hid (pairId_ne_enumId (h.relation_isWord he hr) _ _)
  · exact absurd hid.symm (pairId_ne_enumId (h.relation_isWord he' hr') _ _)
  · have hword : ∀ {k e}, t.get? k = some e → '.' ∉ e.name.toList := by
      intro k e he
      rw [h.wellFormed.name he]
      exact Text.notMem_of_isWord (h.isWord he).1 (by decide)
    have hlist := congrArg String.toList hid
    simp only [String.toList_append, List.append_assoc] at hlist
    obtain ⟨hentity, hrest⟩ := Text.append_cons_inj (hword he) (hword he') hlist
    have hname : enumName f = enumName f' :=
      String.toList_inj.1 (List.append_cancel_right hrest)
    unfold enumLine
    rw [String.toList_inj.1 hentity, hname]

/-! ## The diagram -/

/-- Where all names are words every schema has a diagram. -/
theorem exists_ofSchema (h : Schema.NamedByWords v t) : ∃ d, ofSchema t = .ok d :=
  ⟨_, bind_eq_ok.2 ⟨_, relationLines_eq_ok (oneValued_shown h), rfl⟩⟩

/-- A relation shares its line with its counterpart and with no other relation. -/
theorem relationLine_eq_iff (h : Schema.NamedByWords v t) {c : Relation} (he : t.get? k = some e)
    (hr : r ∈ e.relations.values) (hc : t.counterpart? k r = some c) (he' : t.get? k' = some e')
    (hr' : r' ∈ e'.relations.values) :
    relationLine r' = relationLine r ↔ r' = r ∨ r' = c := by
  constructor
  · intro hline
    have hword := h.relation_isWord he hr
    have hword' := h.relation_isWord he' hr'
    unfold relationLine at hline
    have hnames := names_eq_of_line_eq hword'.1.1 hword'.2.1 hword.1.1 hword.2.1 hline
    rw [h.source_entity he hr, h.source_entity he' hr'] at hnames
    exact h.eq_or_eq_of_entities_eq he hr hc he' hr' hnames
  · obtain ⟨rfl, _, _, hpair⟩ := h.isPair_of_counterpart? he hr hc
    rintro (rfl | rfl)
    · rfl
    · apply relationLine_swap
      rw [hpair.source_entity]
      exact hpair.self_iff.2

/-- The relation lines of the diagram of a linked schema whose names are words: the lines of
all relations and of all references to enumerations in the order of declaration, each where
it first appears. A relation shares its line with its counterpart and with no other relation. -/
theorem relation_lines_are_those_declared (hs : Schema.ofDeclarations v = .ok s)
    (ht : s.link = .ok t) (hnames : ∀ n ∈ Schema.declaredNames v, Text.isWord n = true) :
    t.entities.keys = (Schema.declaredEntities v).keys ∧
    ∃ lines, lines = (declaredLines t).eraseDups ∧ relationLines t = .ok lines ∧
      ofSchema t = .ok ("\n".intercalate <|
        ["@startuml", "", "title Entities", "", ""] ++ t.entities.values.flatMap block
          ++ ["", ""] ++ lines ++ ["", "@enduml"]) ∧
      lines.Nodup ∧ (∀ l, l ∈ lines ↔ l ∈ declaredLines t) ∧
      ∀ e ∈ t.entities.values, ∀ r ∈ e.relations.values, ∀ c,
        t.counterpart? e.name r = some c →
        ∀ e' ∈ t.entities.values, ∀ r' ∈ e'.relations.values,
          (relationLine r' = relationLine r ↔ r' = r ∨ r' = c) := by
  have h : Schema.NamedByWords v t := ⟨⟨s, hs, ht⟩, hnames⟩
  have hlines : relationLines t = .ok (declaredLines t).eraseDups :=
    relationLines_eq_ok (oneValued_shown h)
  have hkeys : t.entities.keys = (Schema.declaredEntities v).keys := by
    rw [OrderedMap.keys_of_traverse (Schema.traverse_of_link ht)]
    exact Schema.keys_of_ofDeclarations hs
  refine ⟨hkeys, _, rfl, hlines, ?_, nodup_eraseDups _, fun l => List.mem_eraseDups, ?_⟩
  · unfold ofSchema
    rw [hlines]
    rfl
  · intro e he r hr c hc e' he' r' hr'
    obtain ⟨k, hk⟩ := mem_values_iff.1 he
    obtain ⟨k', hk'⟩ := mem_values_iff.1 he'
    rw [h.wellFormed.name hk] at hc
    exact relationLine_eq_iff h hk hr hc hk' hr'

/-- Issues refer twice to the enumeration of their states, and share labels. -/
def tracker : Json := .object [
  ("Issue", .object [
    ("state", .object [("type", .string "enum"), ("target", .string "State")]),
    ("previous_state", .object [("type", .string "enum"), ("target", .string "State")]),
    ("labels", .object [("relation", .string "many"), ("target", .string "Label")])]),
  ("State", .object [("open", .number (.integer 1)), ("closed", .number (.integer 2))]),
  ("Label", .object [
    ("issues", .object [("relation", .string "many"), ("target", .string "Issue")])])]

/-- Four declarations, two lines. -/
theorem tracker_lines : ∃ s t, Schema.ofDeclarations tracker = .ok s ∧ s.link = .ok t ∧
    (∀ n ∈ Schema.declaredNames tracker, Text.isWord n = true) ∧ (declaredLines t).length = 4 ∧
    relationLines t = .ok ["Issue \"n\" -up- \"n\" Label", "Issue \"n\" -up- \"1\" State"] := by
  obtain ⟨s, hs⟩ : ∃ s, Schema.ofDeclarations tracker = .ok s := ⟨_, rfl⟩
  obtain ⟨t, ht⟩ : ∃ t, s.link = .ok t := by cases hs; exact ⟨_, rfl⟩
  have hnames : ∀ n ∈ Schema.declaredNames tracker, Text.isWord n = true := by decide
  obtain ⟨_, lines, rfl, hlines, _⟩ := relation_lines_are_those_declared hs ht hnames
  refine ⟨s, t, hs, ht, hnames, ?_, ?_⟩
  · cases hs; cases ht; decide
  · rw [hlines]
    cases hs; cases ht; decide +kernel

end OrmGen.Diagram
