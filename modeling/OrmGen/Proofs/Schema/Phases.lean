/-
  The two phases of linking. What the first finds are the sources of the relations linked one
  by one (`findSources_eq`), and writing them by their keys puts each into its own relation
  (`foldl_setSource`), because keys are distinct and no phase adds or moves one.

  `linking_eq`: after an error the schema is the one that was to be linked, and after success
  it is the linked one.
  `link_eq_traverse`: the two phases do what one traversal does that links each relation where
  it stands. Lemmas on linked schemas start from this form.
-/
import OrmGen.Proofs.Traversal
import OrmGen.Schema.Linking

namespace OrmGen.Schema

variable {s t : Schema} {e e' : Entity}

/-! ## One traversal -/

/-- The relation with its source endpoint filled in. -/
def linkRelation (s : Schema) (source name : String) (r : Relation) : Except Error Relation :=
  (s.sourceEndpoint source name r).map fun p => { r with source := p }

/-- The entity at `source` with all its relations linked. -/
def linkEntity (s : Schema) (source : String) (e : Entity) : Except Error Entity :=
  (e.relations.traverse (s.linkRelation source)).map fun rs => { e with relations := rs }

/-! ## Finding -/

/-- The source endpoints of the relations of an entity, with the keys at which they stand. -/
def entitySources (source : String) (e : Entity) : List Found :=
  e.relations.entries.map fun r => ⟨source, r.1, r.2.source⟩

/-- The source endpoints of all relations, with the keys at which they stand. -/
def sources (t : Schema) : List Found :=
  t.entities.entries.flatMap fun e => entitySources e.1 e.2

theorem findSource_eq (s : Schema) (source name : String) (r : Relation) :
    s.findSource source (name, r) =
      (s.linkRelation source name r).map fun r => ⟨source, name, r.source⟩ := by
  unfold findSource linkRelation
  cases s.sourceEndpoint source name r <;> rfl

theorem mapM_findSource (s : Schema) (source : String) (e : Entity) :
    e.relations.entries.mapM (s.findSource source) =
      (s.linkEntity source e).map (entitySources source) := by
  have hmap := e.relations.mapM_entries (s.linkRelation source) fun name r =>
    Found.mk source name r.source
  simp only [← findSource_eq] at hmap
  unfold linkEntity
  rw [hmap]
  cases e.relations.traverse (s.linkRelation source) <;> rfl

/-- What is found are the sources of the relations linked one by one, and the error is the one
of the first relation that cannot be. -/
theorem findSources_eq (s : Schema) :
    s.findSources = (s.entities.traverse s.linkEntity).map fun es => sources ⟨es⟩ := by
  have hmap := s.entities.mapM_entries s.linkEntity entitySources
  unfold findSources
  simp only [mapM_findSource, hmap]
  cases s.entities.traverse s.linkEntity with
  | error err => rfl
  | ok es => exact congrArg Except.ok List.flatMap_def.symm

/-! ## Writing -/

/-- The relation with the source of `r`. -/
def takeSource (r : String × Relation) (r₀ : Relation) : Relation := { r₀ with source := r.2.source }

/-- The entity with the sources of the relations of `w` written by their keys. -/
def takeSources (w : String × Entity) (e : Entity) : Entity :=
  { e with relations :=
      w.2.relations.entries.foldl (fun m r => m.modify r.1 (takeSource r)) e.relations }

/-- Writing the sources of one entity changes that entity only. -/
theorem foldl_setSource_entity (w : String × Entity) (s : Schema) :
    (entitySources w.1 w.2).foldl setSource s = ⟨s.entities.modify w.1 (takeSources w)⟩ := by
  unfold entitySources takeSources
  induction w.2.relations.entries generalizing s with
  | nil => exact congrArg Schema.mk (s.entities.modify_id w.1).symm
  | cons r rs ih =>
    rw [List.map_cons, List.foldl_cons, ih]
    exact congrArg Schema.mk (OrderedMap.modify_modify ..)

theorem foldl_setSource_entities (ws : List (String × Entity)) (s : Schema) :
    (ws.flatMap fun w => entitySources w.1 w.2).foldl setSource s =
      ⟨ws.foldl (fun m w => m.modify w.1 (takeSources w)) s.entities⟩ := by
  induction ws generalizing s with
  | nil => rfl
  | cons w ws ih => rw [List.flatMap_cons, List.foldl_append, ih, foldl_setSource_entity]; rfl

theorem takeSources_of_linkEntity {source : String} (h : s.linkEntity source e = .ok e') :
    takeSources (source, e') e = e' := by
  obtain ⟨rs, hrs, rfl⟩ := map_eq_ok.1 h
  have hrelations : rs.entries.foldl (fun m r => m.modify r.1 (takeSource r)) e.relations = rs := by
    refine OrderedMap.foldl_modify_eq takeSource ?_
    refine (OrderedMap.traverseEntries_eq_ok.1 (OrderedMap.traverse_eq_ok.1 hrs)).imp ?_
    rintro ⟨name, r₀⟩ ⟨name', r⟩ ⟨hkey, hr⟩
    obtain ⟨p, _, rfl⟩ := map_eq_ok.1 hr
    exact ⟨hkey, rfl⟩
  unfold takeSources
  rw [hrelations]

/-- Writing the sources of the linked relations gives the linked schema. -/
theorem foldl_setSource (h : s.entities.traverse s.linkEntity = .ok t.entities) :
    t.sources.foldl setSource s = t := by
  have hentities : t.entities.entries.foldl (fun m w => m.modify w.1 (takeSources w)) s.entities =
      t.entities := by
    refine OrderedMap.foldl_modify_eq takeSources ?_
    refine (OrderedMap.traverseEntries_eq_ok.1 (OrderedMap.traverse_eq_ok.1 h)).imp ?_
    rintro ⟨source, e⟩ ⟨source', e'⟩ ⟨hkey, he⟩
    obtain rfl : source' = source := hkey
    exact ⟨rfl, takeSources_of_linkEntity he⟩
  unfold sources
  rw [foldl_setSource_entities, hentities]

theorem run_forM_setSource (found : List Found) (s : Schema) :
    (found.forM fun x => modify (·.setSource x) : OnSchema Unit).run.run s =
      (.ok (), found.foldl setSource s) := by
  induction found generalizing s with
  | nil => rfl
  | cons x found ih => exact ih (s.setSource x)

/-! ## Both phases -/

theorem linking_eq_phases (s : Schema) : s.linking =
    match s.findSources with
    | .error err => (.error err, s)
    | .ok found => (.ok (), found.foldl setSource s) := by
  have hphases : s.linking = ((liftM s.findSources : OnSchema _) >>= fun found =>
      found.forM fun x => modify (·.setSource x)).run.run s := rfl
  rw [hphases]
  cases s.findSources with
  | error err => rfl
  | ok found => exact run_forM_setSource found s

theorem link_eq_traverse (s : Schema) :
    s.link = (s.entities.traverse s.linkEntity).map Schema.mk := by
  unfold link
  rw [linking_eq_phases, findSources_eq]
  cases h : s.entities.traverse s.linkEntity with
  | error err => rfl
  | ok es => exact congrArg Except.ok (foldl_setSource (t := ⟨es⟩) h)

/-- What linking leaves of the schema: all of it after an error, and the linked schema else. -/
theorem linking_eq (s : Schema) : s.linking =
    match s.link with
    | .error err => (.error err, s)
    | .ok t => (.ok (), t) := by
  unfold link
  rw [linking_eq_phases]
  cases s.findSources <;> rfl

theorem linking_eq_ok : s.linking = (.ok (), t) ↔ s.link = .ok t := by
  rw [linking_eq]
  cases s.link <;> simp

theorem linking_eq_error {err : Error} :
    s.linking = (.error err, t) ↔ s.link = .error err ∧ t = s := by
  rw [linking_eq]
  cases s.link <;> simp [eq_comm]

end OrmGen.Schema
