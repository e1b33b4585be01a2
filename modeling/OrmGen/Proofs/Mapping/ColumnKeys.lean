/-
  Keys of the attributes that map a column. Some come from the settings of the field
  (`settingKeys`), the others are passed through from its definition (`passedKeys`). Neither
  part has a key twice, and the keys `type` and `nullable` are never passed through. The key
  for the size is not among those that are held back, although the size has one of its own, so
  a definition can give `length` or `precision` a second time. That is the only repetition
  there can be (`column_keys_distinct_iff`).
-/
import OrmGen.Proofs.Mapping.Members
import OrmGen.Proofs.Schema.Kept

namespace OrmGen.Mapping

open Generation (schemaOf)

/-- The keys of a column's attributes. -/
def attributeKeys (f : Field) : List String := (columnAttributes f).map Prod.fst

/-- The keys of the attributes that come from the settings of a field. -/
def settingKeys (f : Field) : List String :=
  "type" :: ((if f.isEnumReference then none else f.size).map fun _ => sizeKey f.typeName).toList
    ++ if f.nullable then ["nullable"] else []

/-- The keys of the attributes that are passed through. The column of a reference to an
enumeration has none. -/
def passedKeys (f : Field) : List String :=
  if f.isEnumReference then [] else (passedThrough f).map Prod.fst

/-- The size of the field has an attribute under a key that the definition has as well. -/
def RepeatsSizeKey (definition : Json.Object) (f : Field) : Prop :=
  f.isEnumReference = false ∧ f.size.isSome = true ∧
    sizeKey f.typeName ∈ definition.members.map Prod.fst

variable {config : Config} {entity name key : String} {f : Field} {definition : Json.Object}
  {c c' : Php.Class}

/-- The key for the size is not one of those that are held back. -/
theorem sizeKey_notMem_ownKeys (typeName : String) : sizeKey typeName ∉ ownKeys := by
  unfold sizeKey
  split
  · decide
  · decide

/-! ## The two parts -/

/-- The attributes that are passed through stand between those of the settings. -/
theorem perm_attributeKeys (f : Field) :
    (attributeKeys f).Perm (settingKeys f ++ passedKeys f) := by
  have hnullable : (if f.nullable then [("nullable", "true")] else []).map Prod.fst =
      if f.nullable then ["nullable"] else [] := by
    split <;> rfl
  have hsize : (f.size.map fun n => (sizeKey f.typeName, Text.ofCount n)).toList.map Prod.fst =
      (f.size.map fun _ => sizeKey f.typeName).toList := by
    cases f.size <;> rfl
  unfold attributeKeys columnAttributes settingKeys passedKeys
  cases f.isEnumReference with
  | true =>
    simp only [if_true, List.map_append, hnullable, List.append_nil]
    exact .refl _
  | false =>
    simp only [Bool.false_eq_true, if_false, List.map_append, List.map_cons, hsize, hnullable,
      List.cons_append, List.append_assoc]
    exact .cons _ (.append_left _ List.perm_append_comm)

theorem nodup_settingKeys (f : Field) : (settingKeys f).Nodup := by
  have htype : sizeKey f.typeName ≠ "type" := fun h =>
    sizeKey_notMem_ownKeys f.typeName (h ▸ by decide)
  have hnullable : sizeKey f.typeName ≠ "nullable" := fun h =>
    sizeKey_notMem_ownKeys f.typeName (h ▸ by decide)
  unfold settingKeys
  cases (if f.isEnumReference then none else f.size) <;> cases f.nullable <;>
    simp [htype.symm, hnullable]

theorem nodup_passedThrough (f : Field) : ((passedThrough f).map Prod.fst).Nodup := by
  unfold passedThrough
  cases f.raw with
  | none => exact List.nodup_nil
  | some raw =>
    have hdistinct := raw.distinct
    rw [Json.Distinct] at hdistinct
    simp only [List.map_map]
    exact hdistinct.1.sublist (List.filter_sublist.map _)

theorem nodup_passedKeys (f : Field) : (passedKeys f).Nodup := by
  unfold passedKeys
  split
  · exact List.nodup_nil
  · exact nodup_passedThrough f

/-- The keys of a definition are passed through unless they are settings. -/
theorem mem_passedThrough_iff (hraw : f.raw = some definition) :
    key ∈ (passedThrough f).map Prod.fst ↔
      key ∈ definition.members.map Prod.fst ∧ key ∉ ownKeys := by
  unfold passedThrough
  rw [hraw]
  simp only [List.map_map, List.mem_map, List.mem_filter]
  constructor
  · rintro ⟨m, ⟨hm, hown⟩, rfl⟩
    exact ⟨⟨m, hm, rfl⟩, by simpa using hown⟩
  · rintro ⟨⟨m, hm, rfl⟩, hown⟩
    exact ⟨m, ⟨hm, by simpa using hown⟩, rfl⟩

/-- A setting that is not held back under its key is the size. -/
theorem mem_settingKeys_iff (hown : key ∉ ownKeys) : key ∈ settingKeys f ↔
    key = sizeKey f.typeName ∧ f.isEnumReference = false ∧ f.size.isSome = true := by
  have htype : key ≠ "type" := fun h => hown (h ▸ by decide)
  have hnullable : key ≠ "nullable" := fun h => hown (h ▸ by decide)
  unfold settingKeys
  cases f.isEnumReference <;> cases f.size <;> cases f.nullable <;> simp [htype, hnullable]

/-- The two parts share the key for the size or none. -/
theorem shared_key_iff (hraw : f.raw = some definition) :
    key ∈ settingKeys f ∧ key ∈ passedKeys f ↔
      key = sizeKey f.typeName ∧ RepeatsSizeKey definition f := by
  have hpassed : key ∈ passedKeys f ↔ f.isEnumReference = false ∧
      key ∈ definition.members.map Prod.fst ∧ key ∉ ownKeys := by
    unfold passedKeys
    rw [← mem_passedThrough_iff hraw]
    cases f.isEnumReference <;> simp
  unfold RepeatsSizeKey
  rw [hpassed]
  constructor
  · rintro ⟨hsetting, henum, hmem, hown⟩
    obtain ⟨rfl, _, hsome⟩ := (mem_settingKeys_iff hown).1 hsetting
    exact ⟨rfl, henum, hsome, hmem⟩
  · rintro ⟨rfl, henum, hsome, hmem⟩
    have hown := sizeKey_notMem_ownKeys f.typeName
    exact ⟨(mem_settingKeys_iff hown).2 ⟨rfl, henum, hsome⟩, henum, hmem, hown⟩

/-! ## All keys -/

theorem nodup_attributeKeys_iff (hraw : f.raw = some definition) :
    (attributeKeys f).Nodup ↔ ¬ RepeatsSizeKey definition f := by
  rw [(perm_attributeKeys f).nodup_iff, List.nodup_append']
  constructor
  · rintro ⟨_, _, hdisjoint⟩ hrepeats
    obtain ⟨hsetting, hpassed⟩ := (shared_key_iff hraw).2 ⟨rfl, hrepeats⟩
    exact hdisjoint hsetting hpassed
  · intro hnot
    refine ⟨nodup_settingKeys f, nodup_passedKeys f, ?_⟩
    intro key hsetting hpassed
    exact hnot ((shared_key_iff hraw).1 ⟨hsetting, hpassed⟩).2

/-- A key that occurs more than once occurs in both parts, and once in each. -/
theorem count_attributeKeys (hraw : f.raw = some definition)
    (h : 1 < (attributeKeys f).count key) :
    key = sizeKey f.typeName ∧ (attributeKeys f).count key = 2 := by
  have hsetting := List.nodup_iff_count_le_one.1 (nodup_settingKeys f) key
  have hpassed := List.nodup_iff_count_le_one.1 (nodup_passedKeys f) key
  rw [(perm_attributeKeys f).count_eq, List.count_append] at h ⊢
  have hshared : key ∈ settingKeys f ∧ key ∈ passedKeys f := by
    rw [← List.count_pos_iff, ← List.count_pos_iff]
    omega
  exact ⟨((shared_key_iff hraw).1 hshared).1, by omega⟩

theorem raw_of_readField (h : Schema.readField entity name definition.members = .ok f) :
    f.name = name ∧ f.raw = some definition := by
  cases Schema.keepsField_of_readField definition.distinct h with
  | value hvalue => cases hvalue
  | definition _ hraw => exact ⟨rfl, congrArg some (Json.Object.ext hraw)⟩

/-- The first annotation of a field that a class accepts is that of its column. -/
theorem columnTag_of_addField (h : addField config entity c f = .ok c') :
    ∃ p, c'.properties.get? f.name = some p ∧
      p.annotations.head? = some (columnTag (columnAttributes f)) := by
  obtain ⟨hgrows, _⟩ := addField_eq_ok h
  refine ⟨fieldProperty f, ?_, rfl⟩
  rw [← OrderedMap.mem_entries_iff, hgrows.entries]
  exact List.mem_append_right _ (List.mem_singleton_self _)

/-- For every definition that is read as a field, and whatever class accepts the field: the
attributes that its column is mapped with have a key twice if and only if the field has a
size, does not refer to an enumeration, and has in its definition the key that sizes are
written under. Then that key stands there twice, and no other does. -/
theorem column_keys_distinct_iff
    (h : Schema.readField entity name definition.members = .ok f) :
    (∀ config c c', addField config entity c f = .ok c' → ∃ p, c'.properties.get? name = some p ∧
      p.annotations.head? = some (columnTag (columnAttributes f))) ∧
    ((attributeKeys f).Nodup ↔ ¬ RepeatsSizeKey definition f) ∧
    ∀ key, 1 < (attributeKeys f).count key →
      key = sizeKey f.typeName ∧ (attributeKeys f).count key = 2 := by
  obtain ⟨rfl, hraw⟩ := raw_of_readField h
  exact ⟨fun _ _ _ => columnTag_of_addField, nodup_attributeKeys_iff hraw,
    fun _ => count_attributeKeys hraw⟩

/-- A definition that gives the length of a text twice, once as its size. -/
def lengthyDefinition : Json.Object := .ofMembers [
  ("type", .string "string"), ("size", .number (.integer 10)), ("length", .number (.integer 20))]

def lengthyConfig : Config where
  entities := .object [("User", .object [("name", .object lengthyDefinition.members)])]

/-- The run succeeds, and the column of the property in the base class has both lengths. -/
theorem both_lengths_are_written : ∃ f g c p,
    Schema.readField "User" "name" lengthyDefinition.members = .ok f ∧
    ¬ (attributeKeys f).Nodup ∧
    Generation.ofConfig lengthyConfig = .ok g ∧
    Generation.fileOf lengthyConfig .regenerate c ∈ g.files ∧
    p ∈ c.properties.values ∧ p.name = "name" ∧
    p.annotations = ["@ORM\\Column(type=\"string\", length=10, length=20)"] := by
  obtain ⟨f, hf, hrepeats, hproperty⟩ : ∃ f,
      Schema.readField "User" "name" lengthyDefinition.members = .ok f ∧
        RepeatsSizeKey lengthyDefinition f ∧ (fieldProperty f).annotations =
          ["@ORM\\Column(type=\"string\", length=10, length=20)"] :=
    ⟨_, rfl, ⟨rfl, rfl, by decide⟩, by decide⟩
  obtain ⟨_, hnodup, _⟩ := column_keys_distinct_iff hf
  obtain ⟨g, hg, _⟩ : ∃ g, Generation.ofConfig lengthyConfig = .ok g ∧ g.files ≠ [] :=
    exists_ok_of_any (by decide +kernel)
  obtain ⟨s, hrun⟩ := Generation.run_of_ofConfig hg
  obtain ⟨e, he, hkind, f', hf', hsame⟩ : ∃ e ∈ s.entities.values, e.kind = .entity ∧
      ∃ f' ∈ e.fields.values,
        (Schema.readField "User" "name" lengthyDefinition.members).toOption = some f' := by
    have hschema : ∃ s, schemaOf lengthyConfig = .ok s ∧ ∃ e ∈ s.entities.values,
        e.kind = .entity ∧ ∃ f' ∈ e.fields.values,
          (Schema.readField "User" "name" lengthyDefinition.members).toOption = some f' :=
      exists_ok_of_any (by decide +kernel)
    obtain ⟨_, hs', h⟩ := hschema
    cases hrun.schema.symm.trans hs'
    exact h
  rw [hf] at hsame
  cases hsame
  obtain ⟨c, hc, hfile⟩ := hrun.classes e he
  refine ⟨f, g, c, fieldProperty f, hf, fun h => hnodup.1 h hrepeats, hg, hfile, ?_,
    (raw_of_readField hf).1, hproperty⟩
  obtain ⟨_, _, hvalues⟩ := (isBaseClass_of_classIn hkind hc).values
  rw [hvalues]
  exact List.mem_cons_of_mem _ (List.mem_append_left _ (List.mem_map_of_mem hf'))

end OrmGen.Mapping
